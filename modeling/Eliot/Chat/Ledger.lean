import Eliot.Chat.Slot

namespace Chat
open Relational Async Table

variable {world : World}

theorem memory_durable (durable : Durable world) (started : Bool) (current controller : Option Nat)
    (controllers : Nat) (aborted : List Nat) (busy : current.isSome → world.agent.active.isSome)
    (booting : started = false → current = none)
    (waiting : current.isSome → ∀ {queued}, world.agent.queued = some queued →
      world.agent.active ≠ some queued.turnId → world.turn queued.turnId = none) :
    Durable { world with started, current, controller, controllers, aborted } where
  keyed := durable.keyed
  slot := durable.slot
  vacant := durable.vacant
  busy := busy
  booting := booting
  waiting := waiting
  asked := durable.asked
  handoff := durable.handoff
  zombie := durable.zombie
  receipt := durable.receipt
  once := durable.once
  dispatched := durable.dispatched
  settled := durable.settled
  accepted := durable.accepted

theorem memory_evolves (started : Bool) (current controller : Option Nat) (controllers : Nat)
    (aborted : List Nat)
    (idle : current.isSome → ∀ {t}, (world.turn t).isSome → world.agent.active = some t →
      world.current.isSome) :
    Evolves world { world with started, current, controller, controllers, aborted } where
  turns found := ⟨_, found, rfl, .refl _⟩
  rows found := ⟨_, found, fun _ => rfl, .refl _⟩
  settled := (Evolves.refl world).settled
  lost := List.Subset.refl _
  accepted := List.Subset.refl _
  idle stored := ⟨⟨stored.1, fun occupied =>
    stored.2 ⟨occupied.1, idle occupied.2 stored.1 occupied.1⟩⟩, rfl⟩
  retired := by
    intro t stored
    refine ⟨⟨stored.1, ?_⟩, id, fun _ => rfl⟩
    rintro ⟨active, busy | queued⟩
    · exact stored.2 ⟨active, .inl (idle busy stored.1 active)⟩
    · exact stored.2 ⟨active, .inr queued⟩

theorem memory_guards (started : Bool) (controller : Option Nat) (controllers : Nat)
    (aborted : List Nat) (stays : world.started = true → started = true) (task : Nat) :
    Guards task world { world with started, controller, controllers, aborted } :=
  ⟨stays, fun _ _ _ => ⟨rfl, rfl, rfl, rfl, rfl, fun _ member _ => member, fun _ _ => Iff.rfl⟩⟩

theorem restart_durable (durable : Durable world) : Durable world.restarted :=
  memory_durable durable false none none _ _ (fun busy => by cases busy) (fun _ => rfl)
    (fun busy => by cases busy)

theorem restart_evolves (world : World) : Evolves world world.restarted :=
  memory_evolves false none none _ _ (fun busy => by cases busy)

theorem note_evolves (history : History) (settled : history.settled = world.history.settled)
    (lost : world.history.lost ⊆ history.lost)
    (accepted : world.history.accepted ⊆ history.accepted)
    (dispatched : ∀ {t}, world.Idle t →
      history.dispatched.count t = world.history.dispatched.count t) :
    Evolves world { world with history } where
  turns found := ⟨_, found, rfl, .refl _⟩
  rows found := ⟨_, found, fun _ => rfl, .refl _⟩
  settled := by
    obtain ⟨new, grown, clears⟩ := (Evolves.refl world).settled
    exact ⟨new, settled.trans grown, clears⟩
  lost := lost
  accepted := accepted
  idle idle := ⟨idle, dispatched idle⟩
  retired retired := ⟨retired, id, fun _ => rfl⟩

theorem note_guards (history : History) (settled : history.settled = world.history.settled)
    (dispatched : history.dispatched = world.history.dispatched) (task : Nat) :
    Guards task world { world with history } :=
  ⟨id, fun _ _ _ => ⟨rfl, rfl, rfl, rfl, dispatched, fun _ member _ => settled ▸ member,
    fun _ _ => Iff.rfl⟩⟩

theorem note_durable (durable : Durable world) (history : History)
    (settled : history.settled = world.history.settled)
    (lost : world.history.lost ⊆ history.lost) (once : history.dispatched.Nodup)
    (dispatched : ∀ {t}, t ∈ history.dispatched → (world.turn t).isSome)
    (accepted : ∀ {input}, input ∈ history.accepted →
      World.Kept world input ∨ World.Gone { world with history } input) :
    Durable { world with history } where
  keyed := durable.keyed
  slot := durable.slot
  vacant := durable.vacant
  busy := durable.busy
  booting := durable.booting
  waiting := durable.waiting
  asked := durable.asked
  handoff := durable.handoff
  zombie found zombie := (durable.zombie found zombie).imp_right fun member => lost member
  receipt := durable.receipt
  once := once
  dispatched := dispatched
  settled member := durable.settled (settled ▸ member)
  accepted := accepted

theorem accepted_mono (durable : Durable world) (history : History)
    (removed : world.history.removed ⊆ history.removed)
    (mismatched : world.history.mismatched ⊆ history.mismatched)
    (released : world.history.released ⊆ history.released) {input : RunTurnInput}
    (member : input ∈ world.history.accepted) :
    World.Kept world input ∨ World.Gone { world with history } input := by
  refine (durable.accepted member).imp_right ?_
  rintro (gone | gone | ⟨question, gone, same⟩)
  · exact .inl (removed gone)
  · exact .inr (.inl (mismatched gone))
  · exact .inr (.inr ⟨question, released gone, same⟩)

/-- What `releaseSlot` leaves. -/
def World.slotReleased (world : World) : World :=
  { world with
    agent := emptyState
    history := { world.history with released := world.unsaved ++ world.history.released } }

theorem release_durable (durable : Durable world) (idle : world.current = none)
    (finished : ∀ {t turn}, world.agent.active = some t → world.turn t = some turn →
      turn.zombie → t ∈ world.history.lost) : Durable world.slotReleased := by
  let history : History :=
    { world.history with released := world.unsaved ++ world.history.released }
  have grown : world.history.released ⊆ history.released := List.subset_append_right _ _
  have noted : Durable { world with history } := note_durable durable history rfl
    (List.Subset.refl _) durable.once durable.dispatched fun member =>
      accepted_mono durable history (List.Subset.refl _) (List.Subset.refl _) grown member
  apply reset_durable noted none false idle
  · intro t same
    cases same
  · intro queued waits
    cases found : world.turn queued.turnId with
    | some turn => exact .inl (congrArg Option.isSome found)
    | none =>
      refine .inr (List.mem_append_left _ (List.mem_filter.mpr ⟨?_, congrArg Option.isNone found⟩))
      rw [Option.mem_toList]
      exact waits
  · exact fun active _ found zombie => finished active found zombie

theorem release_evolves (idle : world.current = none) : Evolves world world.slotReleased := by
  have noted : Evolves world { world with
      history := { world.history with released := world.unsaved ++ world.history.released } } :=
    note_evolves _ rfl (List.Subset.refl _) (List.Subset.refl _) fun _ => rfl
  exact noted.trans (reset_evolves none false idle)

theorem ledger_durable (durable : Durable world) (ledger : Ledger)
    (rows : ∀ {t row}, World.row { world with ledger } t = some row → (world.turn t).isSome ∧
      (row.receipt.state = .started → row.receipt.usage = .unknown))
    (settled : ∀ {settlement}, settlement ∈ world.history.settled →
      World.row { world with ledger } settlement.turn.turnId = settlement.row) :
    Durable { world with ledger } where
  keyed := durable.keyed
  slot := durable.slot
  vacant := durable.vacant
  busy := durable.busy
  booting := durable.booting
  waiting := durable.waiting
  asked := durable.asked
  handoff := durable.handoff
  zombie := durable.zombie
  receipt := rows
  once := durable.once
  dispatched := durable.dispatched
  settled member := by
    obtain ⟨matched, terminal, -, stored⟩ := durable.settled member
    exact ⟨matched, terminal, settled member, stored⟩
  accepted := durable.accepted

theorem ledger_evolves (ledger : Ledger)
    (rows : ∀ {t row}, world.row t = some row → ∃ later, World.row { world with ledger } t =
      some later ∧ (row.receipt.state.terminal = true → later = row) ∧
      row.receipt.usage.Keeps later.receipt.usage)
    (absent : ∀ {t}, world.Retired t → world.row t = none →
      World.row { world with ledger } t = none) :
    Evolves world { world with ledger } where
  turns found := ⟨_, found, rfl, .refl _⟩
  rows := rows
  settled := (Evolves.refl world).settled
  lost := List.Subset.refl _
  accepted := List.Subset.refl _
  idle idle := ⟨idle, rfl⟩
  retired retired := ⟨retired, absent retired, fun _ => rfl⟩

variable {change : D1TurnProjection → D1TurnProjection} {test : D1TurnProjection → Bool}

theorem updateRow_ok {turnId : Text}
    (open' : ∀ row, test row = true → row.state = .started) (durable : Durable world) :
    ∀ {t row}, world.row t = some row → ∃ later,
      (world.updateRow turnId test change).2.row t = some later ∧
      (later = row ∨ t = turnId ∧ row.receipt.state = .started ∧
        row.receipt.usage = .unknown ∧ later.receipt = change row.receipt) := by
  intro t row found
  simp only [World.updateRow]
  split
  · exact ⟨row, found, .inl rfl⟩
  · have own := (find_some.mp found).2
    simp only [World.row, find_update]
    rw [show world.ledger.find t = some row from found, Option.map_some]
    refine ⟨_, rfl, ?_⟩
    split
    · rename_i chosen
      simp only [Bool.and_eq_true, beq_iff_eq] at chosen
      have started := open' _ chosen.2
      exact .inr ⟨own ▸ chosen.1, started, (durable.receipt found).2 started, rfl⟩
    · exact .inl rfl

theorem updateRow_none {turnId t : Text}
    (absent : world.row t = none) :
    (world.updateRow turnId test change).2.row t = none := by
  simp only [World.updateRow]
  split
  · exact absent
  · simp only [World.row, find_update]
    rw [show world.ledger.find t = none from absent, Option.map_none]

theorem updateRow_other {turnId t : Text}
    (other : t ≠ turnId) :
    (world.updateRow turnId test change).2.row t = world.row t := by
  simp only [World.updateRow]
  split
  · rfl
  · simp only [World.row, find_update]
    cases found : world.ledger.find t with
    | none => rfl
    | some row =>
      have own := (find_some.mp found).2
      simp [own, other]

theorem updateRow_frame (turnId : Text) (test : D1TurnProjection → Bool)
    (change : D1TurnProjection → D1TurnProjection) :
    (world.updateRow turnId test change).2 =
      { world with ledger := (world.updateRow turnId test change).2.ledger } := by
  simp only [World.updateRow]
  split <;> rfl

theorem confirmed_terminal {turn : TurnView} {row : ChatTurnRow} (apart : turn.state ≠ .started)
    (matched : confirmed turn (some row) = true) : row.receipt.state ≠ .started := by
  simp only [confirmed, beq_iff_eq] at matched
  rw [matched]
  exact apart

theorem updateRow_sound (durable : Durable world) (turnId : Text)
    (open' : ∀ row, test row = true → row.state = .started)
    (usage : ∀ row, row.usage = .unknown → (change row).state = .started →
      (change row).usage = .unknown) :
    Durable (world.updateRow turnId test change).2 ∧
      Evolves world (world.updateRow turnId test change).2 := by
  have grows : ∀ {t row}, world.row t = some row → ∃ later,
      (world.updateRow turnId test change).2.row t = some later ∧
      (later = row ∨ t = turnId ∧ row.receipt.state = .started ∧
        row.receipt.usage = .unknown ∧ later.receipt = change row.receipt) :=
    updateRow_ok open' durable
  have rows : ∀ {t row}, (world.updateRow turnId test change).2.row t = some row →
      ∃ old, world.row t = some old ∧ (row = old ∨ t = turnId ∧ old.receipt.state = .started ∧
        old.receipt.usage = .unknown ∧ row.receipt = change old.receipt) := by
    intro t row found
    cases before : world.row t with
    | none => cases (updateRow_none before).symm.trans found
    | some old =>
      obtain ⟨later, found', cases'⟩ := grows before
      cases found.symm.trans found'
      exact ⟨old, rfl, cases'⟩
  rw [updateRow_frame]
  constructor
  · apply ledger_durable durable
    · intro t row found
      obtain ⟨old, before, rfl | ⟨_, _, unknown, changed⟩⟩ := rows found
      · exact durable.receipt before
      · refine ⟨(durable.receipt before).1, ?_⟩
        rw [changed]
        exact usage _ unknown
    · intro settlement member
      obtain ⟨matched, terminal, row, -⟩ := durable.settled member
      cases last : settlement.row with
      | none =>
        rw [last] at row
        exact updateRow_none row
      | some receipt =>
        rw [last] at row matched
        obtain ⟨later, after, same | ⟨_, started, _⟩⟩ := grows row
        · exact same ▸ after
        · exact absurd started (confirmed_terminal terminal matched)
  · apply ledger_evolves
    · intro t row found
      obtain ⟨later, after, same | ⟨_, started, unknown, _⟩⟩ := grows found
      · exact ⟨later, after, fun _ => same, same ▸ .refl _⟩
      · refine ⟨later, after, fun terminal => ?_, unknown ▸ .unknown _⟩
        rw [started] at terminal
        cases terminal
    · exact fun _ absent => updateRow_none absent

/-- The one `INSERT` of a run, for a turn that is stored, unsettled and not retired. -/
theorem insertRow_sound (durable : Durable world) {turn : TurnView}
    (stored : (world.turn turn.turnId).isSome) (occupied : world.Occupied turn.turnId)
    (unsettled : ∀ settlement ∈ world.history.settled, settlement.turn.turnId ≠ turn.turnId) :
    Durable (world.insertRow turn).2 ∧ Evolves world (world.insertRow turn).2 := by
  simp only [World.insertRow]
  split
  · rename_i ledger inserted
    have rows : ∀ t, World.row { world with ledger } t =
        if turn.turnId = t then _ else world.row t := fun t => find_insert inserted t
    have free : world.row turn.turnId = none := (insert_some inserted).1
    constructor
    · apply ledger_durable durable
      · intro t row found
        rw [rows] at found
        split at found
        · rename_i same
          cases found
          exact ⟨same ▸ stored, fun _ => rfl⟩
        · exact durable.receipt found
      · intro settlement member
        rw [rows, if_neg (unsettled settlement member).symm]
        exact (durable.settled member).2.2.1
    · apply ledger_evolves
      · intro t row found
        refine ⟨row, ?_, fun _ => rfl, .refl _⟩
        rw [rows, if_neg]
        · exact found
        · rintro rfl
          cases free.symm.trans found
      · intro t retired absent
        rw [rows, if_neg]
        · exact absent
        · rintro rfl
          exact retired.2 occupied
  · exact ⟨durable, .refl _⟩

end Chat
