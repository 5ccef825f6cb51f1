import Eliot.Investigation.Invariants
import Eliot.Investigation.Store

namespace Investigation

open List
open Fallible (bind_ok)
open Relational (Table)
open Sqlite (Engine)

inductive Built (tools : Tools) : CommandRow → Prop where
  | create {head : LedgerHead} {event : LedgerEvent} {fence : LedgerCommandFence} {epoch : Int}
      (checked : checkCreateInput tools head event = .ok ())
      (times : assertHeadEventTimes tools head event head.updatedAt = .ok ()) :
      Built tools (buildCreateCommand tools head event fence epoch head.updatedAt)
  | append {head : LedgerHead} {expectedRevision : Int} {event : LedgerEvent}
      {fence : LedgerCommandFence} {epoch : Int} (checked : checkAppendInput tools head event = .ok ())
      (times : assertHeadEventTimes tools head event head.updatedAt = .ok ()) :
      Built tools (buildAppendCommand tools head expectedRevision event fence epoch head.updatedAt)
  | supersede {oldHead newHead : LedgerHead} {oldEvent newEvent : LedgerEvent}
      {expectedOldRevision epoch : Int} {fence : LedgerCommandFence} {observedAt : Text}
      (oldHeadValid : tools.headSchema oldHead = true) (oldEventValid : tools.eventSchema oldEvent = true)
      (newHeadValid : tools.headSchema newHead = true)
      (newEventValid : tools.eventSchema newEvent = true) :
      Built tools (buildSupersedeCommand tools oldHead oldEvent expectedOldRevision newHead newEvent
        fence epoch observedAt)

section
variable {tools : Tools} {head : LedgerHead} {event : LedgerEvent}

theorem requireInput_ok {condition : Bool} {message : String}
    (passed : requireInput condition message = .ok ()) : condition = true := by
  unfold requireInput at passed
  split at passed
  · assumption
  · cases passed

theorem checkCreateInput_ok (checked : checkCreateInput tools head event = .ok ()) :
    tools.headSchema head = true ∧ tools.eventSchema event = true ∧
      (event.sequence = 1 ∧ event.kind = .created ∧ event.investigationId = head.investigationId) ∧
      head.revision = 1 ∧ head.eventHead = 1 := by
  obtain ⟨_, headValid, checked⟩ := bind_ok checked
  obtain ⟨_, eventValid, checked⟩ := bind_ok checked
  obtain ⟨_, -, checked⟩ := bind_ok checked
  obtain ⟨_, -, checked⟩ := bind_ok checked
  obtain ⟨_, -, checked⟩ := bind_ok checked
  obtain ⟨_, first, numbers⟩ := bind_ok checked
  exact ⟨requireInput_ok headValid, requireInput_ok eventValid,
    of_decide_eq_true (requireInput_ok first), of_decide_eq_true (requireInput_ok numbers)⟩

theorem checkAppendInput_ok (checked : checkAppendInput tools head event = .ok ()) :
    tools.headSchema head = true ∧ tools.eventSchema event = true := by
  obtain ⟨_, headValid, checked⟩ := bind_ok checked
  obtain ⟨_, eventValid, -⟩ := bind_ok checked
  exact ⟨requireInput_ok headValid, requireInput_ok eventValid⟩

end

section
variable {engine : Engine} {command : CommandRow} {ledger before after : Ledger}

theorem updateHead_commands {id : Option Text} {revision : Int} {assign : HeadRow → Option HeadRow}
    (ran : ledger.updateHead engine id revision assign = .ok after) :
    after.commands = ledger.commands := by
  unfold Ledger.updateHead at ran
  split at ran
  · cases ran
    rfl
  split at ran
  · cases ran
    rfl
  split at ran
  · cases ran
  split at ran
  · cases ran
  split at ran
  · cases ran
  split at ran
  · cases ran
  dsimp only at ran
  split at ran
  · cases ran
    rfl
  · cases ran

theorem when_commands {condition : Bool} {write : Ledger → Writing}
    (keeps : ∀ {now next : Ledger}, write now = .ok next → next.commands = now.commands)
    (ran : when condition write ledger = .ok after) : after.commands = ledger.commands := by
  cases condition with
  | true => exact keeps ran
  | false =>
    cases ran
    rfl

theorem insertCommand_commands {authority : Authority}
    (ran : insertCommand engine authority command before = .ok after) :
    before.commands.insert command = some after.commands := by
  obtain ⟨-, commands, inserted, applied⟩ := insertCommand_ok ran
  obtain ⟨one, two, three, stepOne, stepTwo, stepThree, stepFour⟩ := ledgerCmdApply_ok applied
  have first : one.commands = commands := when_commands (fun {now next} wrote => by
    obtain ⟨grown, inserted, appended⟩ := bind_ok wrote
    rw [(insertEvent_ok appended).2.2, (insertHead_ok inserted).2.2.2]) stepOne
  have second : two.commands = one.commands := when_commands (fun {now next} wrote => by
    obtain ⟨grown, updated, appended⟩ := bind_ok wrote
    rw [(insertEvent_ok appended).2.2, updateHead_commands updated]) stepTwo
  have third : three.commands = two.commands := when_commands updateHead_commands stepThree
  have fourth : after.commands = three.commands := when_commands (fun {now next} wrote => by
    cases bytes : command.oldEvent.row with
    | none =>
      rw [bytes] at wrote
      cases wrote
    | some mark =>
      rw [bytes] at wrote
      exact (insertEvent_ok wrote).2.2) stepFour
  rw [inserted, fourth, third, second, first]

end

section
variable {before after : Ledger} {command : CommandRow}

theorem Effect.grown (effect : Effect before command after) :
    ∃ marks, after.events.rows = before.events.rows ++ command.newEvent :: marks := by
  cases effect with
  | create kind fresh first alone heads events => exact ⟨[], events⟩
  | append kind found live next lineage heads events => exact ⟨[], events⟩
  | supersede kind target found live assigned marked next fresh first opened link heads events =>
    exact ⟨_, events⟩

theorem Effect.bound (effect : Effect before command after) :
    command.newEvent.investigationId = command.newHead.investigationId ∧
      command.newEvent.sequence = command.newHead.eventHead ∧
      (command.opKind = .append → command.newEvent.kind ≠ .created) := by
  have begun (first : First command.newHead command.newEvent) :
      command.newEvent.sequence = command.newHead.eventHead := by
    rw [first.sequence, first.eventHead]
  cases effect with
  | create kind fresh first =>
    refine ⟨first.bound, begun first, fun append => ?_⟩
    rw [kind] at append
    cases append
  | append kind found live next => exact ⟨next.bound.trans next.same.symm, next.sequence, fun _ => next.kind⟩
  | supersede kind target found live assigned marked next fresh first =>
    refine ⟨first.bound, begun first, fun append => ?_⟩
    rw [kind] at append
    cases append

theorem Effect.event_fresh (effect : Effect before command after) {event : EventRow}
    (there : event ∈ before.events.rows) : event.eventId ≠ command.newEvent.eventId := by
  obtain ⟨marks, events⟩ := effect.grown
  have apart := after.eventIds
  rw [events, map_append, nodup_append] at apart
  exact apart.2.2 _ (mem_map_of_mem there) _ (by simp)

theorem Effect.later (effect : Effect before command after) {id : Text} {head : HeadRow}
    (found : before.heads.find id = some head) :
    ∃ later, after.heads.find id = some later ∧ later.identity = head.identity ∧
      (later = head ∨ later.revision = head.revision + 1) := by
  cases effect with
  | create kind fresh first alone heads events =>
    have other : id ≠ command.newHead.investigationId := by
      rintro rfl
      rw [fresh] at found
      cases found
    exact ⟨head, by rw [heads, if_neg other, found], rfl, .inl rfl⟩
  | @append old kind there live next lineage heads events =>
    by_cases own : id = command.newHead.investigationId
    · rw [own, next.same, there] at found
      cases found
      exact ⟨command.newHead, by rw [heads, if_pos own], next.identity, .inr next.revision⟩
    · exact ⟨head, by rw [heads, if_neg own, found], rfl, .inl rfl⟩
  | @supersede old mark event kind target there live assigned marked next fresh first opened link heads
      events =>
    by_cases own : id = old.investigationId
    · rw [own, there] at found
      cases found
      exact ⟨mark, by rw [heads, if_pos own], next.identity, .inr next.revision⟩
    · have other : id ≠ command.newHead.investigationId := by
        rintro rfl
        rw [fresh] at found
        cases found
      exact ⟨head, by rw [heads, if_neg own, if_neg other, found], rfl, .inl rfl⟩

theorem Effect.written (effect : Effect before command after) :
    after.heads.find command.newHead.investigationId = some command.newHead := by
  cases effect with
  | create kind fresh first alone heads events => rw [heads, if_pos rfl]
  | append kind found live next lineage heads events => rw [heads, if_pos rfl]
  | @supersede old mark event kind target found live assigned marked next fresh first opened link heads
      events =>
    have other : command.newHead.investigationId ≠ old.investigationId := by
      intro equal
      rw [← equal, fresh] at found
      cases found
    rw [heads, if_neg other, if_pos rfl]

theorem Effect.key_fresh (effect : Effect before command after) (kind : command.opKind = .create)
    {row : HeadRow} (there : row ∈ before.heads) :
    row.idempotencyKey ≠ command.newHead.idempotencyKey := by
  intro same
  have fresh : before.heads.find command.newHead.investigationId = none := by
    cases effect with
    | create _ fresh => exact fresh
    | append other => rw [kind] at other; cases other
    | supersede other => rw [kind] at other; cases other
  obtain ⟨later, found, identity, -⟩ := effect.later (Table.find_some.mpr ⟨there, rfl⟩)
  have key : later.idempotencyKey = command.newHead.idempotencyKey :=
    (congrArg Identity.idempotencyKey identity).trans same
  have equal := inj_on_of_nodup_map after.keys (Table.find_some.mp found).1
    (Table.find_some.mp effect.written).1 key
  have id : row.investigationId = command.newHead.investigationId := by
    rw [← (Table.find_some.mp found).2, equal]
  exact Table.find_none.mp fresh row there id

end
section
variable {tools : Tools} {command : CommandRow}

theorem Built.commandId (built : Built tools command) (kind : command.opKind ≠ .supersede) :
    command.commandId = ledgerCommandIdFor command.newEvent.eventId := by
  cases built with
  | create => rfl
  | append => rfl
  | supersede => exact absurd rfl kind

theorem Built.newHead (built : Built tools command) :
    ∃ head, tools.headSchema head = true ∧ command.newHead = ledgerHeadBindings tools head := by
  cases built with
  | create checked => exact ⟨_, (checkCreateInput_ok checked).1, rfl⟩
  | append checked => exact ⟨_, (checkAppendInput_ok checked).1, rfl⟩
  | supersede _ _ headValid => exact ⟨_, headValid, rfl⟩

theorem Built.newEvent (built : Built tools command) : tools.eventSchema command.newEvent = true := by
  cases built with
  | create checked => exact (checkCreateInput_ok checked).2.1
  | append checked => exact (checkAppendInput_ok checked).2
  | supersede _ _ _ eventValid => exact eventValid

theorem Built.first (built : Built tools command) (kind : command.opKind = .create) :
    command.newHead.revision = 1 ∧ command.newHead.eventHead = 1 := by
  cases built with
  | create checked => exact (checkCreateInput_ok checked).2.2.2
  | append => cases kind
  | supersede => cases kind

theorem Built.mark (built : Built tools command) (kind : command.opKind = .supersede)
    {old mark : HeadRow} (target : command.oldHead.investigationId = some old.investigationId)
    (pinned : command.oldHead.identity = some old.identity)
    (assigned : command.oldHead.assign old = some mark) :
    ∃ head, tools.headSchema head = true ∧ mark = ledgerHeadBindings tools head := by
  cases built with
  | create => cases kind
  | append => cases kind
  | @supersede oldHead _ _ _ _ _ _ _ headValid =>
    refine ⟨oldHead, headValid, ?_⟩
    have id : oldHead.investigationId = old.investigationId := Option.some.inj target
    have created : oldHead.createdAt = old.createdAt :=
      congrArg Identity.createdAt (Option.some.inj pinned)
    have bytes : some { ledgerHeadBindings tools oldHead with
        investigationId := old.investigationId
        createdAt := old.createdAt } = some mark := assigned
    rw [← Option.some.inj bytes, ← id, ← created]
    rfl

theorem Built.oldEvent (built : Built tools command) (kind : command.opKind = .supersede) :
    ∃ event, command.oldEvent.row = some event ∧ tools.eventSchema event = true ∧
      command.commandId = ledgerCommandIdFor event.eventId := by
  cases built with
  | create => cases kind
  | append => cases kind
  | @supersede _ _ oldEvent _ _ _ _ _ _ eventValid => exact ⟨oldEvent, rfl, eventValid, rfl⟩

end

section
variable (tools : Tools)

structure Receipts (ledger : Ledger) : Prop where
  sound : ledger.chart.Sound
  built : ∀ command ∈ ledger.commands, Built tools command
  event : ∀ command ∈ ledger.commands, command.newEvent ∈ ledger.events.rows
  bound : ∀ command ∈ ledger.commands,
    command.newEvent.investigationId = command.newHead.investigationId ∧
      command.newEvent.sequence = command.newHead.eventHead ∧
      (command.opKind = .append → command.newEvent.kind ≠ .created)
  mark : ∀ command ∈ ledger.commands, command.opKind = .supersede →
    ∃ event ∈ ledger.events.rows, command.oldEvent.row = some event
  head : ∀ command ∈ ledger.commands, ∃ head,
    ledger.heads.find command.newHead.investigationId = some head ∧
      head.idempotencyKey = command.newHead.idempotencyKey ∧
      command.newHead.revision ≤ head.revision ∧
      (head.revision = command.newHead.revision → head = command.newHead)
  heads : ∀ row ∈ ledger.heads, ∃ head, tools.headSchema head = true ∧
    row = ledgerHeadBindings tools head
  events : ∀ event ∈ ledger.events.rows, tools.eventSchema event = true

variable {tools} {engine : Engine} {authority : Authority} {command : CommandRow}
  {before after : Ledger}

theorem Receipts.effect_heads (receipts : Receipts tools before) (built : Built tools command)
    (effect : Effect before command after) {row : HeadRow} (there : row ∈ after.heads) :
    ∃ head, tools.headSchema head = true ∧ row = ledgerHeadBindings tools head := by
  have found := Table.find_some.mpr ⟨there, rfl⟩
  have earlier (old : before.heads.find row.investigationId = some row) :
      ∃ head, tools.headSchema head = true ∧ row = ledgerHeadBindings tools head :=
    receipts.heads row (Table.find_some.mp old).1
  cases effect with
  | create kind fresh first alone heads events =>
    rw [heads] at found
    split at found
    · cases found
      exact built.newHead
    · exact earlier found
  | append kind present live next lineage heads events =>
    rw [heads] at found
    split at found
    · cases found
      exact built.newHead
    · exact earlier found
  | @supersede old mark event kind target present live assigned marked next fresh first opened link heads
      events pinned written =>
    rw [heads] at found
    split at found
    · cases found
      exact built.mark kind target pinned assigned
    split at found
    · cases found
      exact built.newHead
    · exact earlier found

theorem Receipts.effect_events (receipts : Receipts tools before) (built : Built tools command)
    (effect : Effect before command after) {event : EventRow} (there : event ∈ after.events.rows) :
    tools.eventSchema event = true := by
  cases effect with
  | create kind fresh first alone heads events =>
    rw [events, mem_append, mem_singleton] at there
    rcases there with there | rfl
    · exact receipts.events event there
    · exact built.newEvent
  | append kind present live next lineage heads events =>
    rw [events, mem_append, mem_singleton] at there
    rcases there with there | rfl
    · exact receipts.events event there
    · exact built.newEvent
  | @supersede old mark other kind target present live assigned marked next fresh first opened link heads
      events pinned written =>
    rw [events, mem_append, mem_pair] at there
    rcases there with there | rfl | rfl
    · exact receipts.events event there
    · exact built.newEvent
    · obtain ⟨row, bytes, valid, -⟩ := built.oldEvent kind
      cases written.symm.trans bytes
      exact valid

theorem Receipts.step (receipts : Receipts tools before) (built : Built tools command)
    (ran : insertCommand engine authority command before = .ok after) : Receipts tools after := by
  have effect := insertCommand_effect ran
  have added {other : CommandRow} : other ∈ after.commands ↔ other ∈ before.commands ∨ other = command :=
    Table.mem_insert (insertCommand_commands ran)
  obtain ⟨marks, grown⟩ := effect.grown
  have kept {event : EventRow} (there : event ∈ before.events.rows) : event ∈ after.events.rows := by
    rw [grown]
    exact mem_append_left _ there
  constructor
  · exact moves_sound effect.moves receipts.sound
  · intro other listed
    rcases added.mp listed with listed | rfl
    · exact receipts.built other listed
    · exact built
  · intro other listed
    rcases added.mp listed with listed | rfl
    · exact kept (receipts.event other listed)
    · simp [grown]
  · intro other listed
    rcases added.mp listed with listed | rfl
    · exact receipts.bound other listed
    · exact effect.bound
  · intro other listed kind
    rcases added.mp listed with listed | rfl
    · obtain ⟨event, there, bytes⟩ := receipts.mark other listed kind
      exact ⟨event, kept there, bytes⟩
    · cases effect with
      | create other => rw [kind] at other; cases other
      | append other => rw [kind] at other; cases other
      | @supersede old mark event _ target found live assigned marked next fresh first opened link heads
          events pinned written => exact ⟨event, by simp [events], written⟩
  · intro other listed
    rcases added.mp listed with listed | rfl
    · obtain ⟨head, found, key, above, same⟩ := receipts.head other listed
      obtain ⟨later, there, identity, moved⟩ := effect.later found
      refine ⟨later, there, (congrArg Identity.idempotencyKey identity).trans key, ?_⟩
      rcases moved with rfl | raised
      · exact ⟨above, same⟩
      · exact ⟨by omega, fun equal => by omega⟩
    · exact ⟨_, effect.written, rfl, le_refl _, fun _ => rfl⟩
  · exact fun row there => receipts.effect_heads built effect there
  · exact fun event there => receipts.effect_events built effect there

theorem Receipts.empty : Receipts tools Ledger.empty := by
  constructor
  · exact empty_sound
  all_goals exact fun _ listed => absurd listed not_mem_nil

end

section

structure Later (before after : Ledger) : Prop where
  events : ∀ event ∈ before.events.rows, event ∈ after.events.rows
  commands : ∀ command ∈ before.commands, command ∈ after.commands
  heads : ∀ id head, before.heads.find id = some head → ∃ later, after.heads.find id = some later ∧
    later.idempotencyKey = head.idempotencyKey ∧ head.revision ≤ later.revision
  eventIds : ∀ command ∈ after.commands, command ∉ before.commands → ∀ event ∈ before.events.rows,
    event.eventId ≠ command.newEvent.eventId
  keys : ∀ command ∈ after.commands, command ∉ before.commands → command.opKind = .create →
    ∀ row ∈ before.heads, row.idempotencyKey ≠ command.newHead.idempotencyKey

theorem Later.refl (ledger : Ledger) : Later ledger ledger :=
  ⟨fun _ there => there, fun _ there => there, fun _ head found => ⟨head, found, rfl, le_refl _⟩,
    fun _ there new => absurd there new, fun _ there new => absurd there new⟩

theorem Later.trans {first second third : Ledger} (one : Later first second)
    (two : Later second third) : Later first third := by
  constructor
  · exact fun event there => two.events event (one.events event there)
  · exact fun command there => two.commands command (one.commands command there)
  · intro id head found
    obtain ⟨middle, there, same, above⟩ := one.heads id head found
    obtain ⟨later, present, equal, higher⟩ := two.heads id middle there
    exact ⟨later, present, equal.trans same, above.trans higher⟩
  · intro command there new event listed
    by_cases earlier : command ∈ second.commands
    · exact one.eventIds command earlier new event listed
    · exact two.eventIds command there earlier event (one.events event listed)
  · intro command there new kind row listed
    by_cases earlier : command ∈ second.commands
    · exact one.keys command earlier new kind row listed
    · obtain ⟨later, found, same, -⟩ := one.heads _ row (Table.find_some.mpr ⟨listed, rfl⟩)
      rw [← same]
      exact two.keys command there earlier kind later (Table.find_some.mp found).1

variable {engine : Engine} {authority : Authority} {command : CommandRow} {before after : Ledger}

theorem Later.step (ran : insertCommand engine authority command before = .ok after) :
    Later before after := by
  have effect := insertCommand_effect ran
  have inserted := insertCommand_commands ran
  have own {other : CommandRow} (there : other ∈ after.commands) (new : other ∉ before.commands) :
      other = command := ((Table.mem_insert inserted).mp there).resolve_left new
  obtain ⟨marks, grown⟩ := effect.grown
  constructor
  · intro event there
    rw [grown]
    exact mem_append_left _ there
  · exact fun other there => (Table.mem_insert inserted).mpr (.inl there)
  · intro id head found
    obtain ⟨later, there, identity, moved⟩ := effect.later found
    refine ⟨later, there, congrArg Identity.idempotencyKey identity, ?_⟩
    rcases moved with rfl | raised
    · exact le_refl _
    · omega
  · intro other there new event listed
    rw [own there new]
    exact effect.event_fresh listed
  · intro other there new kind row listed
    rw [own there new] at kind ⊢
    exact effect.key_fresh kind listed

theorem steps_receipts {tools : Tools} {statements : List (Authority × CommandRow)}
    (built : ∀ statement ∈ statements, Built tools statement.2) (receipts : Receipts tools before) :
    Receipts tools (statements.foldl (step engine) before) ∧
      Later before (statements.foldl (step engine) before) := by
  induction statements generalizing before with
  | nil => exact ⟨receipts, .refl before⟩
  | cons statement statements ih =>
    have rest := fun other (listed : other ∈ statements) => built other (mem_cons_of_mem _ listed)
    cases ran : insertCommand engine statement.1 statement.2 before with
    | error failure =>
      have same : step engine before statement = before := by rw [step, ran]
      rw [foldl_cons, same]
      exact ih rest receipts
    | ok after =>
      have same : step engine before statement = after := by rw [step, ran]
      rw [foldl_cons, same]
      obtain ⟨kept, later⟩ := ih rest (receipts.step (built statement mem_cons_self) ran)
      exact ⟨kept, (Later.step ran).trans later⟩

end
end Investigation
