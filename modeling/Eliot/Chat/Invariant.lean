import Eliot.Async.Soundness
import Eliot.Chat.Object

namespace Chat
open Relational Async

def TurnView.zombie (turn : TurnView) : Prop :=
  turn.state = .started ∧ turn.settlementPending = false

structure TurnView.HandedOver (turn : TurnView) : Prop where
  unsettled : turn.settlementPending = false
  unsent : turn.state = .started →
    turn.answer = [] ∧ turn.tokenLimit = none ∧ turn.revisionIds = []
  kept : turn.state ≠ .started → turn.input.isSome

namespace World

def Occupied (world : World) (t : Text) : Prop :=
  world.agent.active = some t ∧
    (world.current.isSome ∨ ∃ queued, world.agent.queued = some queued ∧ queued.turnId = t)

def Idle (world : World) (t : Text) : Prop :=
  (world.turn t).isSome ∧ ¬(world.agent.active = some t ∧ world.current.isSome)

def Retired (world : World) (t : Text) : Prop := (world.turn t).isSome ∧ ¬world.Occupied t

def Kept (world : World) (input : RunTurnInput) : Prop :=
  (∃ turn, world.turn input.turnId = some turn ∧ turn.question = input.question) ∨
    ∃ queued, world.agent.queued = some queued ∧ queued.turnId = input.turnId ∧
      queued.question = input.question

def Gone (world : World) (input : RunTurnInput) : Prop :=
  input.turnId ∈ world.history.removed ∨ input ∈ world.history.mismatched ∨
    ∃ released ∈ world.history.released,
      released.turnId = input.turnId ∧ released.question = input.question

end World

structure Durable (world : World) : Prop where
  keyed : ∀ {t turn}, world.turn t = some turn → turn.turnId = t
  slot : ∀ {t}, world.agent.active = some t → (world.turn t).isSome ∨
    ∃ queued, world.agent.queued = some queued ∧ queued.turnId = t
  vacant : world.agent.active = none → world.agent.queued = none
  busy : world.current.isSome → world.agent.active.isSome
  booting : world.started = false → world.current = none
  waiting : world.current.isSome → ∀ {queued}, world.agent.queued = some queued →
    world.agent.active ≠ some queued.turnId → world.turn queued.turnId = none
  asked : ∀ {queued turn}, world.agent.queued = some queued →
    world.turn queued.turnId = some turn → turn.question = queued.question
  handoff : ∀ {queued turn}, world.agent.queued = some queued →
    world.agent.active = some queued.turnId → world.turn queued.turnId = some turn →
    turn.HandedOver
  zombie : ∀ {t turn}, world.turn t = some turn → turn.zombie →
    world.agent.active = some t ∨ t ∈ world.history.lost
  receipt : ∀ {t row}, world.row t = some row → (world.turn t).isSome ∧
    (row.receipt.state = .started → row.receipt.usage = .unknown)
  once : world.history.dispatched.Nodup
  dispatched : ∀ {t}, t ∈ world.history.dispatched → (world.turn t).isSome
  settled : ∀ {settlement}, settlement ∈ world.history.settled →
    confirmed settlement.turn settlement.row = true ∧ settlement.turn.state ≠ .started ∧
      world.row settlement.turn.turnId = settlement.row ∧
      (world.turn settlement.turn.turnId).isSome
  accepted : ∀ {input}, input ∈ world.history.accepted → world.Kept input ∨ world.Gone input

structure Evolves (before after : World) : Prop where
  turns : ∀ {t turn}, before.turn t = some turn → ∃ later, after.turn t = some later ∧
    later.question = turn.question ∧ turn.usage.Keeps later.usage
  rows : ∀ {t row}, before.row t = some row → ∃ later, after.row t = some later ∧
    (row.receipt.state.terminal = true → later = row) ∧
    row.receipt.usage.Keeps later.receipt.usage
  settled : ∃ new, after.history.settled = new ++ before.history.settled ∧
    ∀ {t turn later}, before.turn t = some turn → turn.settlementPending = true →
      after.turn t = some later → later.settlementPending = false →
      ∃ settlement ∈ new, settlement.turn.turnId = t
  lost : before.history.lost ⊆ after.history.lost
  accepted : before.history.accepted ⊆ after.history.accepted
  idle : ∀ {t}, before.Idle t → after.Idle t ∧
    after.history.dispatched.count t = before.history.dispatched.count t
  retired : ∀ {t}, before.Retired t → after.Retired t ∧
    (before.row t = none → after.row t = none) ∧
    ((before.row t).isSome →
      (after.turn t).map (·.usage) = (before.turn t).map (·.usage))

structure Frame (t : Text) (before after : World) : Prop where
  current : after.current = before.current
  active : after.agent.active = before.agent.active
  turn : after.turn t = before.turn t
  row : after.row t = before.row t
  dispatched : after.history.dispatched = before.history.dispatched
  settled : ∀ settlement ∈ after.history.settled, settlement.turn.turnId = t →
    settlement ∈ before.history.settled
  handoff : ∀ queued : RunTurnInput, queued.turnId = t →
    (after.agent.queued = some queued ↔ before.agent.queued = some queued)

/-- What a task may rely on: the object stays started, and so does the frame of the turn that
    the task runs, if it runs one. -/
structure Guards (task : Nat) (before after : World) : Prop where
  stays : before.started = true → after.started = true
  frame : before.current = some task → ∀ {t}, before.agent.active = some t → Frame t before after

namespace Frame

variable {t : Text} {first second third : World}

theorem refl (t : Text) (world : World) : Frame t world world :=
  ⟨rfl, rfl, rfl, rfl, rfl, fun _ member _ => member, fun _ _ => Iff.rfl⟩

theorem trans (before : Frame t first second) (after : Frame t second third) :
    Frame t first third :=
  ⟨after.current.trans before.current, after.active.trans before.active,
    after.turn.trans before.turn, after.row.trans before.row,
    after.dispatched.trans before.dispatched,
    fun _ member own => before.settled _ (after.settled _ member own) own,
    fun queued own => (after.handoff queued own).trans (before.handoff queued own)⟩

end Frame

namespace Guards

variable {task : Nat} {first second third : World}

theorem refl (task : Nat) (world : World) : Guards task world world :=
  ⟨id, fun _ {t} _ => Frame.refl t world⟩

theorem trans (before : Guards task first second) (after : Guards task second third) :
    Guards task first third := by
  refine ⟨after.stays ∘ before.stays, fun current t active => ?_⟩
  have frame := before.frame current active
  exact frame.trans (after.frame (frame.current.trans current) (frame.active.trans active))

theorem idle (idle : first.current = none) (stays : first.started = true → second.started = true) :
    Guards task first second := by
  refine ⟨stays, fun current => ?_⟩
  rw [idle] at current
  cases current

end Guards

namespace Evolves

variable {first second third : World}

theorem refl (world : World) : Evolves world world where
  turns found := ⟨_, found, rfl, .refl _⟩
  rows found := ⟨_, found, fun _ => rfl, .refl _⟩
  settled := ⟨[], rfl, fun found pending later cleared => by
    rw [found, Option.some.injEq] at later
    rw [later, cleared] at pending
    cases pending⟩
  lost := List.Subset.refl _
  accepted := List.Subset.refl _
  idle idle := ⟨idle, rfl⟩
  retired retired := ⟨retired, id, fun _ => rfl⟩

theorem trans (before : Evolves first second) (after : Evolves second third) :
    Evolves first third where
  turns found := by
    obtain ⟨middle, found, question, keeps⟩ := before.turns found
    obtain ⟨later, found, question', keeps'⟩ := after.turns found
    exact ⟨later, found, question'.trans question, keeps.trans keeps'⟩
  rows found := by
    obtain ⟨middle, found, fixed, keeps⟩ := before.rows found
    obtain ⟨later, found, fixed', keeps'⟩ := after.rows found
    refine ⟨later, found, fun terminal => ?_, keeps.trans keeps'⟩
    have same := fixed terminal
    rw [fixed' (by rw [same]; exact terminal), same]
  settled := by
    obtain ⟨new, grown, clears⟩ := before.settled
    obtain ⟨more, grown', clears'⟩ := after.settled
    refine ⟨more ++ new, by rw [grown', grown, List.append_assoc], ?_⟩
    intro t turn later found pending last cleared
    obtain ⟨middle, between, -⟩ := before.turns found
    cases state : middle.settlementPending with
    | true =>
      obtain ⟨settlement, member, own⟩ := clears' between state last cleared
      exact ⟨settlement, List.mem_append_left _ member, own⟩
    | false =>
      obtain ⟨settlement, member, own⟩ := clears found pending between state
      exact ⟨settlement, List.mem_append_right _ member, own⟩
  lost := List.Subset.trans before.lost after.lost
  accepted := List.Subset.trans before.accepted after.accepted
  idle idle := by
    obtain ⟨idle, count⟩ := before.idle idle
    obtain ⟨idle, count'⟩ := after.idle idle
    exact ⟨idle, count'.trans count⟩
  retired retired := by
    obtain ⟨retired, absent, usage⟩ := before.retired retired
    obtain ⟨retired, absent', usage'⟩ := after.retired retired
    refine ⟨retired, absent' ∘ absent, fun present => ?_⟩
    obtain ⟨row, found⟩ := Option.isSome_iff_exists.mp present
    obtain ⟨later, found, -⟩ := before.rows found
    exact (usage' (Option.isSome_iff_exists.mpr ⟨later, found⟩)).trans (usage present)

end Evolves

end Chat
