import Eliot.Investigation.Commands

namespace Investigation
open Fallible (bind_ok)
open Relational (Table)
open Sqlite (Engine)

section
variable {engine : Engine} {ledger after : Ledger}

def Ledger.Puts (before : Ledger) (row : HeadRow) (after : Ledger) : Prop :=
  ∀ id, after.heads.find id = if id = row.investigationId then some row else before.heads.find id

theorem insertHead_ok {row : HeadRow} (ran : ledger.insertHead engine row = .ok after) :
    ledger.heads.find row.investigationId = none ∧ ledger.Puts row after ∧
      after.events = ledger.events ∧ after.commands = ledger.commands := by
  unfold Ledger.insertHead at ran
  split at ran
  · cases ran
  split at ran
  · cases ran
  cases inserted : ledger.heads.insert row with
  | none =>
    rw [inserted] at ran
    cases ran
  | some heads =>
    simp only [inserted] at ran
    split at ran
    · cases ran
      refine ⟨(Table.insert_some inserted).1, fun id => ?_, rfl, rfl⟩
      rw [Table.find_insert inserted]
      simp only [eq_comm]
    · cases ran

theorem insertEvent_ok {row : EventRow} (ran : ledger.insertEvent row = .ok after) :
    after.events.rows = ledger.events.rows ++ [row] ∧ after.heads = ledger.heads ∧
      after.commands = ledger.commands := by
  unfold Ledger.insertEvent at ran
  split at ran
  · cases ran
  split at ran
  · cases ran
  cases inserted : ledger.events.insert row with
  | none =>
    rw [inserted] at ran
    cases ran
  | some events =>
    simp only [inserted] at ran
    split at ran
    · cases ran
      exact ⟨(Table.insert_some inserted).2, rfl, rfl⟩
    · cases ran

theorem updateHead_ok {id : Text} {old : HeadRow} {assign : HeadRow → Option HeadRow}
    (ran : ledger.updateHead engine (some id) old.revision assign = .ok after)
    (found : ledger.heads.find id = some old) :
    ∃ new, assign old = some new ∧ ledger.Puts new after ∧ after.events = ledger.events ∧
      after.commands = ledger.commands := by
  unfold Ledger.updateHead at ran
  simp only [Option.bind_some, found, ne_eq, not_true_eq_false, if_false] at ran
  cases assigned : assign old with
  | none =>
    rw [assigned] at ran
    cases ran
  | some new =>
    simp only [assigned] at ran
    split at ran
    · cases ran
    split at ran
    · cases ran
    split at ran
    · cases ran
    split at ran
    · cases ran
      exact ⟨new, rfl, fun wanted => Table.find_write wanted, rfl, rfl⟩
    · cases ran

theorem raiseIf_ok {condition : Bool} {message : String}
    (ran : ledger.raiseIf condition message = .ok after) : after = ledger := by
  unfold Ledger.raiseIf at ran
  split at ran
  · cases ran
  · cases ran
    rfl

theorem when_true {condition : Bool} {write : Ledger → Writing} (met : condition = true) :
    when condition write ledger = write ledger := by rw [when, if_pos met]

theorem when_false {condition : Bool} {write : Ledger → Writing} (unmet : condition = false) :
    when condition write ledger = .ok ledger := by
  rw [when, if_neg (by simp [unmet])]
  rfl

end

section
variable {engine : Engine} {command : CommandRow} {ledger after : Ledger}

theorem ledgerCmdApply_ok (ran : ledgerCmdApply engine command ledger = .ok after) :
    ∃ created advanced marked,
      when (command.opKind ≠ .append) (fun ledger => do
        (← ledger.insertHead engine command.newHead).insertEvent command.newEvent) ledger =
          .ok created ∧
      when (command.opKind = .append) (fun ledger => do
        (← ledger.updateHead engine (some command.newHead.investigationId)
          command.expectedOldRevision fun old => some (command.newHead.assign old)).insertEvent
            command.newEvent) created = .ok advanced ∧
      when (command.opKind = .supersede) (fun ledger =>
        ledger.updateHead engine command.oldHead.investigationId command.expectedOldRevision
          command.oldHead.assign) advanced = .ok marked ∧
      when (command.opKind = .supersede) (fun ledger =>
        match command.oldEvent.row with
        | none => throw .constraint
        | some mark => ledger.insertEvent mark) marked = .ok after := by
  unfold ledgerCmdApply at ran
  obtain ⟨a, stepA, ran⟩ := bind_ok ran
  obtain ⟨b, stepB, ran⟩ := bind_ok ran
  obtain ⟨c, stepC, ran⟩ := bind_ok ran
  obtain ⟨d, stepD, ran⟩ := bind_ok ran
  obtain ⟨e, stepE, ran⟩ := bind_ok ran
  obtain ⟨f, stepF, ran⟩ := bind_ok ran
  -- the checks at the end of the program change nothing
  obtain ⟨g, stepG, ran⟩ := bind_ok ran
  obtain ⟨h, stepH, ran⟩ := bind_ok ran
  obtain ⟨i, stepI, ran⟩ := bind_ok ran
  obtain ⟨j, stepJ, ran⟩ := bind_ok ran
  have same : after = f := by
    rw [raiseIf_ok ran, raiseIf_ok stepJ, raiseIf_ok stepI, raiseIf_ok stepH, raiseIf_ok stepG]
  subst same
  refine ⟨b, d, e, ?_, ?_, stepE, stepF⟩
  · by_cases other : command.opKind ≠ .append
    · rw [when_true (by simp [other])] at stepA stepB ⊢
      rw [stepA]
      exact stepB
    · rw [when_false (by simpa using other)] at stepA stepB ⊢
      cases stepA
      exact stepB
  · by_cases kind : command.opKind = .append
    · rw [when_true (by simp [kind])] at stepC stepD ⊢
      rw [stepC]
      exact stepD
    · rw [when_false (by simp [kind])] at stepC stepD ⊢
      cases stepC
      exact stepD

theorem insertCommand_ok {authority : Authority}
    (ran : insertCommand engine authority command ledger = .ok after) :
    (∀ trigger ∈ triggers, trigger.fires engine authority ledger command = false) ∧
      ∃ commands, ledger.commands.insert command = some commands ∧
        ledgerCmdApply engine command { ledger with commands := commands } = .ok after := by
  unfold insertCommand at ran
  cases fired : triggers.find? fun trigger => trigger.fires engine authority ledger command with
  | some trigger =>
    rw [fired] at ran
    cases ran
  | none =>
    simp only [fired] at ran
    split at ran
    · cases ran
    cases inserted : ledger.commands.insert command with
    | none =>
      rw [inserted] at ran
      cases ran
    | some commands =>
      rw [inserted] at ran
      refine ⟨fun trigger listed => ?_, commands, rfl, ran⟩
      exact Bool.eq_false_iff.mpr (List.find?_eq_none.mp fired trigger listed)

end

section
variable {mark : OldHead} {old new : HeadRow}

theorem assign_some (assigned : mark.assign old = some new) :
    new.investigationId = old.investigationId ∧ new.createdAt = old.createdAt ∧
      mark = { new.mark with
        investigationId := mark.investigationId
        createdAt := mark.createdAt } := by
  obtain ⟨investigationId, revision, protocolVersion, goal, scopeSnapshotId, scopeSnapshotRevision,
    evidenceGrade, lane, laneRegistrationsJson, obligationsJson, hypothesesJson, portfolioRef,
    debtRefsJson, checkpointHead, principalRef, inputDigest, policyGeneration, policyAuthorityRef,
    deploymentGeneration, idempotencyKey, modelProfileRef, observedExecution, observedFidelity,
    observedAssurance, status, supersedesId, supersessionReason, eventHead, createdAt,
    updatedAt⟩ := mark
  unfold OldHead.assign at assigned
  iterate 23 obtain ⟨_, rfl, assigned⟩ := Option.bind_eq_some_iff.mp assigned
  cases assigned
  exact ⟨rfl, rfl, rfl⟩

theorem row_some {bytes : OldEvent} {event : EventRow} (written : bytes.row = some event) :
    bytes.investigationId = some event.investigationId ∧ bytes.sequence = some event.sequence ∧
      bytes.kind = some event.kind := by
  obtain ⟨investigationId, sequence, eventId, kind, payloadHandleRef, payloadDigest, actorRef,
    verifierRef, createdAt⟩ := bytes
  unfold OldEvent.row at written
  iterate 8 obtain ⟨_, rfl, written⟩ := Option.bind_eq_some_iff.mp written
  cases written
  exact ⟨rfl, rfl, rfl⟩

theorem assign_identity (assigned : mark.assign old = some new)
    (kept : mark.identity = some old.identity) : new.identity = old.identity := by
  obtain ⟨-, created, bytes⟩ := assign_some assigned
  rw [bytes] at kept
  unfold OldHead.identity at kept
  iterate 13
    obtain ⟨_, same, kept⟩ := Option.bind_eq_some_iff.mp kept
    cases same
  obtain ⟨time, -, kept⟩ := Option.bind_eq_some_iff.mp kept
  have equal := Option.some.inj kept
  have moment : time = new.createdAt := by
    rw [created]
    exact congrArg Identity.createdAt equal
  rw [← equal, moment]
  rfl

end

section

structure First (head : HeadRow) (event : EventRow) : Prop where
  revision : head.revision = 1
  eventHead : head.eventHead = 1
  sequence : event.sequence = 1
  kind : event.kind = .created
  bound : event.investigationId = head.investigationId

structure Next (old new : HeadRow) (event : EventRow) : Prop where
  same : new.investigationId = old.investigationId
  identity : new.identity = old.identity
  revision : new.revision = old.revision + 1
  eventHead : new.eventHead = old.eventHead + 1
  sequence : event.sequence = new.eventHead
  kind : event.kind ≠ .created
  bound : event.investigationId = old.investigationId

inductive Effect (before : Ledger) (command : CommandRow) (after : Ledger) : Prop where
  | create (kind : command.opKind = .create)
      (fresh : before.heads.find command.newHead.investigationId = none)
      (first : First command.newHead command.newEvent)
      (alone : command.newHead.supersedesId = none)
      (heads : before.Puts command.newHead after)
      (events : after.events.rows = before.events.rows ++ [command.newEvent])
  | append {old : HeadRow} (kind : command.opKind = .append)
      (found : before.heads.find old.investigationId = some old)
      (live : old.status ≠ .superseded)
      (next : Next old command.newHead command.newEvent)
      (lineage : command.newHead.supersedesId = old.supersedesId)
      (heads : before.Puts command.newHead after)
      (events : after.events.rows = before.events.rows ++ [command.newEvent])
  | supersede {old mark : HeadRow} {event : EventRow} (kind : command.opKind = .supersede)
      (target : command.oldHead.investigationId = some old.investigationId)
      (found : before.heads.find old.investigationId = some old)
      (live : old.status = .open)
      (assigned : command.oldHead.assign old = some mark)
      (marked : mark.status = .superseded)
      (next : Next old mark event)
      (fresh : before.heads.find command.newHead.investigationId = none)
      (first : First command.newHead command.newEvent)
      (opened : command.newHead.status = .open)
      (link : command.newHead.supersedesId = some old.investigationId)
      (heads : ∀ id, after.heads.find id = if id = old.investigationId then some mark
        else if id = command.newHead.investigationId then some command.newHead
        else before.heads.find id)
      (events : after.events.rows = before.events.rows ++ [command.newEvent, event])
      (pinned : command.oldHead.identity = some old.identity)
      (written : command.oldEvent.row = some event)

variable {engine : Engine} {authority : Authority} {command : CommandRow} {before after : Ledger}
variable {commands : Table CommandRow Text CommandRow.commandId}

theorem create_effect (kind : command.opKind = .create)
    (passed : createShape.fires engine authority before command = false)
    (ran : ledgerCmdApply engine command { before with commands := commands } = .ok after) :
    Effect before command after := by
  simp only [createShape, kind, decide_true, Bool.true_and, Bool.or_eq_false_iff, ne_eq,
    decide_eq_false_iff_not, not_not] at passed
  obtain ⟨⟨⟨⟨⟨⟨⟨⟨⟨⟨-, revision⟩, eventHead⟩, alone⟩, sequence⟩, created⟩, bound⟩, -⟩, -⟩, -⟩, -⟩ :=
    passed
  obtain ⟨one, two, three, stepOne, stepTwo, stepThree, stepFour⟩ := ledgerCmdApply_ok ran
  rw [when_false (by simp [kind])] at stepTwo stepThree stepFour
  cases stepTwo
  cases stepThree
  cases stepFour
  rw [when_true (by simp [kind])] at stepOne
  obtain ⟨grown, inserted, appended⟩ := bind_ok stepOne
  obtain ⟨fresh, heads, sameEvents, -⟩ := insertHead_ok inserted
  obtain ⟨events, sameHeads, -⟩ := insertEvent_ok appended
  refine .create kind fresh ⟨revision, eventHead, sequence, created, bound⟩ alone ?_ ?_
  · intro id
    rw [sameHeads, heads id]
  · rw [events, sameEvents]

theorem append_effect (kind : command.opKind = .append)
    (passed : ∀ trigger ∈ triggers, trigger.fires engine authority before command = false)
    (ran : ledgerCmdApply engine command { before with commands := commands } = .ok after) :
    Effect before command after := by
  have shape := passed appendShape (by simp [triggers])
  have cas := passed appendCas (by simp [triggers])
  have allowed := passed appendKindAllow (by simp [triggers])
  cases found : before.live command with
  | none => simp [appendShape, kind, found] at shape
  | some old =>
    have named : before.heads.find command.newHead.investigationId = some old := found
    have same := (Table.find_some.mp named).2
    simp only [appendShape, kind, found, decide_true, Bool.true_and, Bool.or_eq_false_iff, ne_eq,
      decide_eq_false_iff_not, not_not, Bool.not_eq_false'] at shape
    obtain ⟨⟨⟨⟨⟨⟨⟨⟨⟨⟨newRevision, newEventHead⟩, -⟩, -⟩, revision⟩, eventHead⟩, sequence⟩, bound⟩, -⟩, -⟩,
      ⟨⟨live, -⟩, identity⟩, lineage⟩ := shape
    simp only [appendCas, kind, found, decide_true, Bool.true_and, Option.any_some,
      Bool.or_eq_false_iff, ne_eq, decide_eq_false_iff_not, not_not] at cas
    obtain ⟨oldRevision, oldEventHead⟩ := cas
    simp only [appendKindAllow, kind, decide_true, Bool.true_and, Bool.or_eq_false_iff,
      decide_eq_false_iff_not] at allowed
    have next : Next old command.newHead command.newEvent := {
      same := same.symm
      identity := identity
      revision := by rw [revision, newRevision, oldRevision]
      eventHead := by rw [eventHead, newEventHead, oldEventHead]
      sequence := by rw [sequence, eventHead]
      kind := allowed.1
      bound := bound.trans same.symm }
    have whole : command.newHead.assign old = command.newHead := by
      have created : command.newHead.createdAt = old.createdAt := congrArg Identity.createdAt identity
      unfold HeadRow.assign
      rw [← next.same, ← created]
    obtain ⟨one, two, three, stepOne, stepTwo, stepThree, stepFour⟩ := ledgerCmdApply_ok ran
    rw [when_false (by simp [kind])] at stepOne stepThree stepFour
    cases stepOne
    cases stepThree
    cases stepFour
    rw [when_true (by simp [kind]), ← oldRevision] at stepTwo
    obtain ⟨grown, updated, appended⟩ := bind_ok stepTwo
    obtain ⟨new, assigned, heads, sameEvents, -⟩ := updateHead_ok updated named
    cases assigned
    obtain ⟨events, sameHeads, -⟩ := insertEvent_ok appended
    rw [whole] at heads
    refine .append kind (same ▸ named) ?_ next lineage ?_ ?_
    · intro superseded
      simp [superseded] at live
    · intro id
      rw [sameHeads, heads id]
    · rw [events, sameEvents]

theorem supersede_effect (kind : command.opKind = .supersede)
    (passed : ∀ trigger ∈ triggers, trigger.fires engine authority before command = false)
    (ran : ledgerCmdApply engine command { before with commands := commands } = .ok after) :
    Effect before command after := by
  have shape := passed supersedeShape (by simp [triggers])
  have cas := passed supersedeCas (by simp [triggers])
  cases found : before.marked command with
  | none => simp [supersedeShape, kind, found] at shape
  | some old =>
    simp only [supersedeShape, kind, found, decide_true, Bool.true_and, Bool.or_eq_false_iff, ne_eq,
      decide_eq_false_iff_not, not_not] at shape
    obtain ⟨⟨⟨⟨⟨⟨⟨⟨⟨⟨⟨⟨⟨⟨⟨⟨⟨⟨⟨⟨⟨⟨⟨newRevision, newEventHead⟩, -⟩, -⟩, revision⟩, eventHead⟩, marked⟩, opened⟩,
      apart⟩, link⟩, firstRevision⟩, firstEventHead⟩, firstSequence⟩, firstKind⟩, firstBound⟩,
      sequence⟩, eventKind⟩, bound⟩, -⟩, -⟩, -⟩, -⟩, -⟩, live, identity⟩ := shape
    simp only [supersedeCas, kind, found, decide_true, Bool.true_and, Option.any_some,
      Bool.or_eq_false_iff, ne_eq, decide_eq_false_iff_not, not_not] at cas
    obtain ⟨oldRevision, oldEventHead⟩ := cas
    obtain ⟨id, about, named⟩ := Option.bind_eq_some_iff.mp found
    have same := (Table.find_some.mp named).2
    subst same
    rw [about] at apart link bound
    obtain ⟨one, two, three, stepOne, stepTwo, stepThree, stepFour⟩ := ledgerCmdApply_ok ran
    rw [when_true (by simp [kind])] at stepOne stepThree stepFour
    rw [when_false (by simp [kind])] at stepTwo
    cases stepTwo
    obtain ⟨grown, inserted, appended⟩ := bind_ok stepOne
    obtain ⟨fresh, heads, sameEvents, -⟩ := insertHead_ok inserted
    obtain ⟨events, sameHeads, -⟩ := insertEvent_ok appended
    have other : old.investigationId ≠ command.newHead.investigationId :=
      fun equal => apart (congrArg some equal)
    have kept : one.heads.find old.investigationId = some old := by
      rw [sameHeads, heads, if_neg other]
      exact named
    rw [about, ← oldRevision] at stepThree
    obtain ⟨mark, assigned, marks, sameEvents', -⟩ := updateHead_ok stepThree kept
    have bytes := assign_some assigned
    cases written : command.oldEvent.row with
    | none =>
      rw [written] at stepFour
      cases stepFour
    | some event =>
      rw [written] at stepFour
      obtain ⟨events', sameHeads', -⟩ := insertEvent_ok stepFour
      obtain ⟨eventBound, eventSequence, eventNamed⟩ := row_some written
      obtain ⟨sameId, -, content⟩ := bytes
      have markRevision := (congrArg OldHead.revision content).symm.trans revision
      have markEventHead := (congrArg OldHead.eventHead content).symm.trans eventHead
      have markStatus := (congrArg OldHead.status content).symm.trans marked
      have next : Next old mark event := {
        same := sameId
        identity := assign_identity assigned identity
        revision := by
          rw [Option.some.inj markRevision, newRevision, oldRevision]
        eventHead := by
          rw [Option.some.inj markEventHead, newEventHead, oldEventHead]
        sequence := by
          rw [Option.some.inj markEventHead]
          exact Option.some.inj (eventSequence.symm.trans sequence)
        kind := by
          rw [Option.some.inj (eventNamed.symm.trans eventKind)]
          decide
        bound := Option.some.inj (eventBound.symm.trans bound) }
      refine .supersede kind about named live assigned (Option.some.inj markStatus) next fresh
        ⟨firstRevision, firstEventHead, firstSequence, firstKind, firstBound⟩ opened link ?_ ?_ identity
        written
      · intro wanted
        rw [sameHeads', marks wanted, sameHeads, heads wanted, sameId]
      · rw [events', sameEvents', events, sameEvents, List.append_assoc]
        rfl

theorem insertCommand_effect (ran : insertCommand engine authority command before = .ok after) :
    Effect before command after := by
  obtain ⟨passed, commands, -, applied⟩ := insertCommand_ok ran
  cases kind : command.opKind with
  | create => exact create_effect kind (passed createShape (by simp [triggers])) applied
  | append => exact append_effect kind passed applied
  | supersede => exact supersede_effect kind passed applied

end
end Investigation
