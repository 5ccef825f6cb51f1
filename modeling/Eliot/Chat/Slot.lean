import Eliot.Chat.Transitions

namespace Chat
open Relational Async

variable {world : World}

theorem agent_evolves (state : ChatState)
    (idle : ∀ {t}, (world.turn t).isSome → state.active = some t → world.current.isSome →
      world.agent.active = some t)
    (retired : ∀ {t}, (world.turn t).isSome → state.active = some t →
      (∃ queued, state.queued = some queued ∧ queued.turnId = t) → world.Occupied t) :
    Evolves world { world with agent := state } where
  turns found := ⟨_, found, rfl, .refl _⟩
  rows found := ⟨_, found, fun _ => rfl, .refl _⟩
  settled := (Evolves.refl world).settled
  lost := List.Subset.refl _
  accepted := List.Subset.refl _
  idle stored := ⟨⟨stored.1, fun occupied =>
    stored.2 ⟨idle stored.1 occupied.1 occupied.2, occupied.2⟩⟩, rfl⟩
  retired := by
    intro t stored
    refine ⟨⟨stored.1, ?_⟩, id, fun _ => rfl⟩
    rintro ⟨active, current | queued⟩
    · exact stored.2 ⟨idle stored.1 active current, .inl current⟩
    · exact stored.2 (retired stored.1 active queued)

/-- Giving the slot to a stored turn, or to none, while no task runs, once the turn it leaves
    is finished and its question stored or given up. -/
theorem reset_durable (durable : Durable world) (active : Option Text) (stop : Bool)
    (idle : world.current = none) (stored : ∀ {t}, active = some t → (world.turn t).isSome)
    (saved : ∀ {queued}, world.agent.queued = some queued →
      (world.turn queued.turnId).isSome ∨ queued ∈ world.history.released)
    (finished : ∀ {t turn}, world.agent.active = some t → active ≠ some t →
      world.turn t = some turn → turn.zombie → t ∈ world.history.lost) :
    Durable { world with agent := ⟨active, none, stop⟩ } where
  keyed := durable.keyed
  slot occupied := .inl (stored occupied)
  vacant _ := rfl
  busy busy := by
    rw [idle] at busy
    cases busy
  booting := durable.booting
  waiting _ _ waits := by cases waits
  asked waits := by cases waits
  handoff waits := by cases waits
  zombie := by
    intro t turn found zombie
    by_cases same : active = some t
    · exact .inl same
    · exact .inr ((durable.zombie found zombie).elim
        (fun occupied => finished occupied same found zombie) id)
  receipt := durable.receipt
  once := durable.once
  dispatched := durable.dispatched
  settled := durable.settled
  accepted := by
    intro input member
    rcases durable.accepted member with (stored | ⟨queued, waits, own, question⟩) | gone
    · exact .inl (.inl stored)
    · rcases saved waits with stored | released
      · obtain ⟨turn, found⟩ := Option.isSome_iff_exists.mp stored
        exact .inl (.inl ⟨turn, own ▸ found, (durable.asked waits found).trans question⟩)
      · exact .inr (.inr (.inr ⟨queued, released, own, question⟩))
    · exact .inr gone

theorem reset_evolves (active : Option Text) (stop : Bool) (idle : world.current = none) :
    Evolves world { world with agent := ⟨active, none, stop⟩ } := by
  apply agent_evolves
  · intro _ _ _ busy
    rw [idle] at busy
    cases busy
  · rintro t _ _ ⟨_, ⟨⟩, _⟩

theorem unqueue_durable (durable : Durable world)
    (saved : ∀ {queued}, world.agent.queued = some queued → (world.turn queued.turnId).isSome ∨
      world.agent.active ≠ some queued.turnId ∧ queued.turnId ∈ world.history.removed) :
    Durable { world with agent := { world.agent with queued := none } } where
  keyed := durable.keyed
  slot active := by
    refine (durable.slot active).elim .inl ?_
    rintro ⟨queued, waits, rfl⟩
    exact (saved waits).elim .inl fun behind => absurd active behind.1
  vacant _ := rfl
  busy := durable.busy
  booting := durable.booting
  waiting _ _ waits := by cases waits
  asked waits := by cases waits
  handoff waits := by cases waits
  zombie := durable.zombie
  receipt := durable.receipt
  once := durable.once
  dispatched := durable.dispatched
  settled := durable.settled
  accepted := by
    intro input member
    rcases durable.accepted member with (stored | ⟨queued, waits, own, question⟩) | gone
    · exact .inl (.inl stored)
    · rcases saved waits with stored | ⟨_, removed⟩
      · obtain ⟨turn, found⟩ := Option.isSome_iff_exists.mp stored
        exact .inl (.inl ⟨turn, own ▸ found, (durable.asked waits found).trans question⟩)
      · exact .inr (.inl (own ▸ removed))
    · exact .inr gone

theorem unqueue_evolves : Evolves world { world with agent := { world.agent with queued := none } } :=
  agent_evolves _ (fun _ active _ => active) (by rintro t _ _ ⟨_, ⟨⟩, _⟩)

theorem unqueue_guards (apart : ∀ {queued}, world.agent.queued = some queued →
    world.agent.active ≠ some queued.turnId) (task : Nat) :
    Guards task world { world with agent := { world.agent with queued := none } } := by
  refine ⟨id, fun _ t active => ⟨rfl, rfl, rfl, rfl, rfl, fun _ member _ => member, ?_⟩⟩
  rintro queued rfl
  simp only [reduceCtorEq, false_iff]
  exact fun waits => apart waits active

theorem claim_durable (durable : Durable world) (input : RunTurnInput)
    (idle : world.current = none) (fresh : world.turn input.turnId = none)
    (only : ∀ {queued}, world.agent.queued = some queued → queued = input)
    (finished : ∀ {t turn}, world.agent.active = some t → world.turn t = some turn →
      turn.zombie → t ∈ world.history.lost) :
    Durable { world with agent := ⟨some input.turnId, some input, false⟩ } where
  keyed := durable.keyed
  slot active := by
    cases active
    exact .inr ⟨input, rfl, rfl⟩
  vacant := by simp
  busy _ := rfl
  booting := durable.booting
  waiting busy := by
    rw [idle] at busy
    cases busy
  asked waits found := by
    cases waits
    cases fresh.symm.trans found
  handoff waits _ found := by
    cases waits
    cases fresh.symm.trans found
  zombie found zombie :=
    .inr ((durable.zombie found zombie).elim (fun active => finished active found zombie) id)
  receipt := durable.receipt
  once := durable.once
  dispatched := durable.dispatched
  settled := durable.settled
  accepted := by
    intro other member
    rcases durable.accepted member with (stored | ⟨queued, waits, own, question⟩) | gone
    · exact .inl (.inl stored)
    · rw [only waits] at own question
      exact .inl (.inr ⟨input, rfl, own, question⟩)
    · exact .inr gone

theorem claim_evolves (input : RunTurnInput) (idle : world.current = none)
    (fresh : world.turn input.turnId = none) :
    Evolves world { world with agent := ⟨some input.turnId, some input, false⟩ } := by
  apply agent_evolves
  · intro _ _ _ busy
    rw [idle] at busy
    cases busy
  · intro t stored active
    cases active
    rw [fresh] at stored
    cases stored

theorem enqueue_durable (durable : Durable world) {input : RunTurnInput} {active : Text}
    (slot : world.agent.active = some active) (empty : world.agent.queued = none)
    (other : active ≠ input.turnId) (fresh : world.turn input.turnId = none) :
    Durable { world with agent := { world.agent with queued := some input } } where
  keyed := durable.keyed
  slot occupied := by
    refine (durable.slot occupied).elim .inl ?_
    rintro ⟨queued, waits, _⟩
    rw [empty] at waits
    cases waits
  vacant vacant := by cases slot.symm.trans vacant
  busy := durable.busy
  booting := durable.booting
  waiting _ _ waits _ := by
    cases waits
    exact fresh
  asked waits found := by
    cases waits
    cases fresh.symm.trans found
  handoff waits own _ := by
    cases waits
    cases slot.symm.trans own
    exact absurd rfl other
  zombie := durable.zombie
  receipt := durable.receipt
  once := durable.once
  dispatched := durable.dispatched
  settled := durable.settled
  accepted := by
    intro input member
    rcases durable.accepted member with (stored | ⟨queued, waits, _⟩) | gone
    · exact .inl (.inl stored)
    · rw [empty] at waits
      cases waits
    · exact .inr gone

theorem enqueue_evolves {input : RunTurnInput} {active : Text}
    (slot : world.agent.active = some active) (other : active ≠ input.turnId) :
    Evolves world { world with agent := { world.agent with queued := some input } } := by
  apply agent_evolves
  · exact fun _ occupied _ => occupied
  · rintro t _ occupied ⟨_, ⟨⟩, rfl⟩
    cases slot.symm.trans occupied
    exact absurd rfl other

theorem enqueue_guards {input : RunTurnInput} {active : Text}
    (slot : world.agent.active = some active) (empty : world.agent.queued = none)
    (other : active ≠ input.turnId) (task : Nat) :
    Guards task world { world with agent := { world.agent with queued := some input } } := by
  refine ⟨id, fun _ t occupied => ?_⟩
  cases slot.symm.trans occupied
  refine ⟨rfl, rfl, rfl, rfl, rfl, fun _ member _ => member, ?_⟩
  rintro queued rfl
  rw [empty]
  simp only [reduceCtorEq, iff_false, Option.some.injEq]
  rintro rfl
  exact other rfl

theorem stop_durable (durable : Durable world) (stop : Bool) :
    Durable { world with agent := { world.agent with stopRequested := stop } } := by
  cases durable
  constructor <;> assumption

theorem stop_evolves (stop : Bool) :
    Evolves world { world with agent := { world.agent with stopRequested := stop } } :=
  agent_evolves _ (fun _ active _ => active) fun _ active queued => ⟨active, .inr queued⟩

theorem stop_guards (stop : Bool) (task : Nat) :
    Guards task world { world with agent := { world.agent with stopRequested := stop } } :=
  ⟨id, fun _ _ _ => ⟨rfl, rfl, rfl, rfl, rfl, fun _ member _ => member, fun _ _ => Iff.rfl⟩⟩

end Chat
