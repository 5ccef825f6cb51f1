import Eliot.Chat.Invariant

namespace Chat
open Relational Async

section
variable (world : World) (turn : TurnView) (now : Nat)

def TurnView.saved (turn : TurnView) : TurnView := parseStoredTurn (storedPayload turn)

@[simp] theorem saved_question : turn.saved.question = turn.question := rfl
@[simp] theorem saved_state : turn.saved.state = turn.state := rfl
@[simp] theorem saved_pending : turn.saved.settlementPending = turn.settlementPending := rfl
@[simp] theorem saved_usage : turn.saved.usage = turn.usage := rfl
@[simp] theorem saved_turnId : turn.saved.turnId = turn.turnId := rfl

theorem TurnView.HandedOver.saved {turn : TurnView} (handed : turn.HandedOver) :
    turn.saved.HandedOver where
  unsettled := handed.unsettled
  unsent := handed.unsent
  kept ended := by
    obtain ⟨input, stored, same⟩ := parse_stored turn
    rw [TurnView.saved, stored]
    exact same.mpr (handed.kept ended)

def World.record (new : List Settlement) : World :=
  { world.write now turn with
    history := { world.history with settled := new ++ world.history.settled } }

theorem turn_write (id : Text) : (world.write now turn).turn id =
    if turn.turnId = id then some turn.saved else world.turn id := by
  unfold World.turn World.write
  rw [Table.find_upsert]
  split
  · cases world.turns.find id <;> rfl
  · rfl

theorem turn_record (new : List Settlement) (id : Text) : (world.record turn now new).turn id =
    if turn.turnId = id then some turn.saved else world.turn id := turn_write world turn now id

theorem mem_pending {id : Text} : id ∈ world.pending ↔
    ∃ turn, world.turn id = some turn ∧ turn.settlementPending = true := by
  simp only [World.pending, World.turn, List.mem_map, List.mem_mergeSort, List.mem_filter,
    Option.map_eq_some_iff]
  constructor
  · rintro ⟨row, ⟨member, pending⟩, rfl⟩
    exact ⟨_, ⟨row, Table.find_some.mpr ⟨member, rfl⟩, rfl⟩, pending⟩
  · rintro ⟨turn, ⟨row, found, rfl⟩, pending⟩
    obtain ⟨member, same⟩ := Table.find_some.mp found
    exact ⟨row, ⟨member, pending⟩, same⟩

end

/-- When a turn may be written: it is the same question, and neither a waiting question nor
    the one that is handed over is overtaken. -/
structure Writable (world : World) (turn : TurnView) : Prop where
  question : ∀ {old}, world.turn turn.turnId = some old → old.question = turn.question
  asked : ∀ {queued}, world.agent.queued = some queued → queued.turnId = turn.turnId →
    turn.question = queued.question
  handoff : ∀ {queued}, world.agent.queued = some queued → queued.turnId = turn.turnId →
    world.agent.active = some turn.turnId → turn.HandedOver
  waiting : world.current.isSome → ∀ {queued}, world.agent.queued = some queued →
    queued.turnId = turn.turnId → world.agent.active = some turn.turnId
  zombie : turn.zombie → world.agent.active = some turn.turnId ∨ turn.turnId ∈ world.history.lost

structure Preserves (world : World) (turn : TurnView) (new : List Settlement) : Prop where
  question : ∀ {old}, world.turn turn.turnId = some old → old.question = turn.question
  usage : ∀ {old}, world.turn turn.turnId = some old → old.usage.Keeps turn.usage
  pending : ∀ {old}, world.turn turn.turnId = some old → old.settlementPending = true →
    turn.settlementPending = false → ∃ settlement ∈ new, settlement.turn.turnId = turn.turnId
  retired : world.Retired turn.turnId → (world.row turn.turnId).isSome →
    ∀ {old}, world.turn turn.turnId = some old → old.usage = turn.usage

section
variable {world : World} {turn : TurnView} {now : Nat} {new : List Settlement}

theorem stored_record {t : Text} (stored : (world.turn t).isSome) :
    ((world.record turn now new).turn t).isSome := by
  rw [turn_record]
  split <;> simp [stored]

theorem record_durable (durable : Durable world) (writable : Writable world turn)
    (settles : ∀ settlement ∈ new, confirmed settlement.turn settlement.row = true ∧
      settlement.turn.state ≠ .started ∧ world.row settlement.turn.turnId = settlement.row ∧
      ((world.record turn now new).turn settlement.turn.turnId).isSome) :
    Durable (world.record turn now new) where
  keyed := by
    intro t other found
    rw [turn_record] at found
    split at found
    · rename_i same
      rw [← Option.some.inj found]
      exact same
    · exact durable.keyed found
  slot active := (durable.slot active).imp_left stored_record
  vacant := durable.vacant
  busy := durable.busy
  booting := durable.booting
  waiting := by
    intro busy queued waits apart
    rw [turn_record, if_neg]
    · exact durable.waiting busy waits apart
    · intro same
      have active := writable.waiting busy waits same.symm
      rw [same] at active
      exact apart active
  asked := by
    intro queued other waits found
    rw [turn_record] at found
    split at found
    · rename_i same
      rw [← Option.some.inj found]
      exact writable.asked waits same.symm
    · exact durable.asked waits found
  handoff := by
    intro queued other waits active found
    rw [turn_record] at found
    split at found
    · rename_i same
      rw [← Option.some.inj found]
      exact (writable.handoff waits same.symm (same ▸ active)).saved
    · exact durable.handoff waits active found
  zombie := by
    intro t other found zombie
    rw [turn_record] at found
    split at found
    · rename_i same
      rw [← Option.some.inj found] at zombie
      exact same ▸ writable.zombie zombie
    · exact durable.zombie found zombie
  receipt found := ⟨stored_record (durable.receipt found).1, (durable.receipt found).2⟩
  once := durable.once
  dispatched member := stored_record (durable.dispatched member)
  settled := by
    intro settlement member
    rcases List.mem_append.mp member with member | member
    · exact settles settlement member
    · obtain ⟨matched, terminal, row, stored⟩ := durable.settled member
      exact ⟨matched, terminal, row, stored_record stored⟩
  accepted := by
    intro input member
    rcases durable.accepted member with (⟨old, found, question⟩ | queued) | gone
    · refine .inl (.inl ?_)
      rw [turn_record]
      split
      · rename_i same
        exact ⟨turn.saved, rfl, (writable.question (same ▸ found)).symm.trans question⟩
      · exact ⟨old, found, question⟩
    · exact .inl (.inr queued)
    · exact .inr gone

theorem record_evolves (preserves : Preserves world turn new) :
    Evolves world (world.record turn now new) where
  turns := by
    intro t old found
    rw [turn_record]
    split
    · rename_i same
      subst same
      exact ⟨turn.saved, rfl, (preserves.question found).symm, preserves.usage found⟩
    · exact ⟨old, found, rfl, .refl _⟩
  rows found := ⟨_, found, fun _ => rfl, .refl _⟩
  settled := by
    refine ⟨new, rfl, ?_⟩
    intro t old later found pending last cleared
    rw [turn_record] at last
    split at last
    · rename_i same
      subst same
      rw [← Option.some.inj last] at cleared
      exact preserves.pending found pending cleared
    · rw [found, Option.some.injEq] at last
      rw [last, cleared] at pending
      cases pending
  lost := List.Subset.refl _
  accepted := List.Subset.refl _
  idle idle := ⟨⟨stored_record idle.1, idle.2⟩, rfl⟩
  retired := by
    intro t retired
    refine ⟨⟨stored_record retired.1, retired.2⟩, id, fun present => ?_⟩
    rw [turn_record]
    split
    · rename_i same
      subst same
      obtain ⟨old, found⟩ := Option.isSome_iff_exists.mp retired.1
      rw [found, Option.map_some, Option.map_some, preserves.retired retired present found]
      rfl
    · rfl

theorem write_durable (durable : Durable world) (writable : Writable world turn) :
    Durable (world.write now turn) :=
  record_durable durable writable fun _ (member : _ ∈ []) => by cases member

theorem write_evolves (preserves : Preserves world turn []) :
    Evolves world (world.write now turn) := record_evolves preserves

end

end Chat
