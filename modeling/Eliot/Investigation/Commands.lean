import Eliot.Collections.Fallible
import Eliot.Investigation.Triggers

namespace Investigation
open Relational (Table)
open Sqlite (Engine)

inductive Failure where
  | raised (message : Text)
  | constraint
deriving DecidableEq

abbrev Writing := Except Failure Ledger

/-- `length(value) BETWEEN low AND high` -/
def lengthBetween (value : Text) (low high : Nat) : Bool :=
  let length := (Text.codePoints (value.takeWhile (· ≠ 0))).length
  low ≤ length ∧ length ≤ high

def isDigest (value : Text) : Bool :=
  lengthBetween value 64 64 &&
    value.all fun unit => Text.isDigit unit || (97 ≤ unit && unit ≤ 102)

def HeadRow.checked (engine : Engine) (head : HeadRow) : Bool :=
  lengthBetween head.investigationId 1 128 && (1 ≤ head.revision ∧ head.revision ≤ 1000000) &&
    head.protocolVersion = text "eliotr.investigation.v1" && lengthBetween head.goal 1 2000 &&
    lengthBetween head.scopeSnapshotId 1 256 &&
    (1 ≤ head.scopeSnapshotRevision ∧ head.scopeSnapshotRevision ≤ 1000000) &&
    engine.jsonValid head.laneRegistrationsJson && lengthBetween head.laneRegistrationsJson 0 8192 &&
    engine.jsonValid head.obligationsJson && lengthBetween head.obligationsJson 0 16384 &&
    engine.jsonValid head.hypothesesJson && lengthBetween head.hypothesesJson 0 16384 &&
    lengthBetween head.portfolioRef 1 256 &&
    engine.jsonValid head.debtRefsJson && lengthBetween head.debtRefsJson 0 8192 &&
    (0 ≤ head.checkpointHead ∧ head.checkpointHead ≤ 1000000) &&
    lengthBetween head.principalRef 1 256 && isDigest head.inputDigest &&
    lengthBetween head.policyGeneration 1 256 && lengthBetween head.policyAuthorityRef 1 256 &&
    lengthBetween head.deploymentGeneration 1 256 && lengthBetween head.idempotencyKey 1 256 &&
    lengthBetween head.modelProfileRef 1 256 &&
    head.observedExecution.all (lengthBetween · 1 1024) &&
    head.observedFidelity.all (lengthBetween · 1 1024) &&
    head.observedAssurance.all (lengthBetween · 1 1024) &&
    head.supersedesId.all (lengthBetween · 1 128) &&
    head.supersessionReason.all (lengthBetween · 1 1024) &&
    (0 ≤ head.eventHead ∧ head.eventHead ≤ 1000000)

def EventRow.checked (event : EventRow) : Bool :=
  lengthBetween event.investigationId 1 128 && (1 ≤ event.sequence ∧ event.sequence ≤ 1000000) &&
    lengthBetween event.eventId 1 128 && lengthBetween event.payloadHandleRef 1 256 &&
    isDigest event.payloadDigest && lengthBetween event.actorRef 1 256 &&
    event.verifierRef.all (lengthBetween · 1 256)

def CommandRow.checked (engine : Engine) (command : CommandRow) : Bool :=
  let observed := engine.julianday command.observedAt
  let expires := engine.julianday command.expiresAt
  lengthBetween command.commandId 1 256 && 0 ≤ command.expectedOldRevision &&
    (1 ≤ command.expectedNewRevision ∧ command.expectedNewRevision ≤ 1000000) &&
    0 ≤ command.expectedOldEventHead &&
    (1 ≤ command.expectedNewEventHead ∧ command.expectedNewEventHead ≤ 1000000) &&
    0 < command.expectedEpoch && lengthBetween command.principalRef 1 256 &&
    lengthBetween command.scopeSnapshotId 1 256 &&
    (1 ≤ command.scopeSnapshotRevision ∧ command.scopeSnapshotRevision ≤ 1000000) &&
    lengthBetween command.policyGeneration 1 256 && lengthBetween command.policyAuthorityRef 1 256 &&
    lengthBetween command.deploymentGeneration 1 256 && 0 ≤ command.globalPurgeRevision &&
    command.scopePurgeRevision.all (0 ≤ ·) && Sqlite.checkExceeds expires observed &&
    -- an expiry later than ten minutes after the observation fails
    !Sqlite.exceeds expires (observed.map (· + 10 * 60 * 1000))

section
variable (engine : Engine)

def Ledger.insertHead (row : HeadRow) (ledger : Ledger) : Writing :=
  if !ledger.commands.rows.any fun command => command.opKind ≠ .append ∧ command.newHead = row then
    throw (.raised (text "LEDGER_CONFLICT: head insert without atomic command authorization"))
  else if !row.checked engine then throw .constraint
  else match ledger.heads.insert row with
    | none => throw .constraint
    | some heads =>
      if keys : (heads.rows.map HeadRow.idempotencyKey).Nodup then
        return { ledger with heads := heads, keys := keys }
      else throw .constraint

def Ledger.insertEvent (row : EventRow) (ledger : Ledger) : Writing :=
  if !ledger.commands.rows.any fun command => command.newEvent = row ∨
      command.opKind = .supersede ∧ command.oldEvent.row = some row then
    throw (.raised (text "LEDGER_CONFLICT: event insert without atomic command authorization"))
  else if !row.checked then throw .constraint
  else match ledger.events.insert row with
    | none => throw .constraint
    | some events =>
      if eventIds : (events.rows.map EventRow.eventId).Nodup then
        return { ledger with events := events, eventIds := eventIds }
      else throw .constraint

def CommandRow.allows (command : CommandRow) (old new : HeadRow) : Bool :=
  new.revision = old.revision + 1 ∧ new.eventHead = old.eventHead + 1 ∧
    old.revision = command.expectedOldRevision ∧ old.eventHead = command.expectedOldEventHead ∧
    (command.opKind = .append ∧ command.newHead = new ∧
        command.newHead.investigationId = old.investigationId ∨
      command.opKind = .supersede ∧ command.oldHead = new.mark ∧
        command.oldHead.investigationId = some old.investigationId)

/-- `UPDATE … WHERE investigation_id = … AND revision = …` -/
def Ledger.updateHead (investigationId : Option Text) (revision : Int)
    (assign : HeadRow → Option HeadRow) (ledger : Ledger) : Writing :=
  match investigationId.bind ledger.heads.find with
  | none => return ledger
  | some old =>
    if old.revision ≠ revision then return ledger
    else match assign old with
      | none => throw .constraint
      | some new =>
        if !ledger.commands.rows.any (·.allows old new) then
          throw (.raised (text "LEDGER_STALE_HEAD: head update without atomic command authorization"))
        else if old.evidenceGrade ≠ new.evidenceGrade ∨ old.protocolVersion ≠ new.protocolVersion then
          throw (.raised (text "protocol/grade change requires explicit supersession"))
        else if !new.checked engine then throw .constraint
        else
          let heads := ledger.heads.write new
          if keys : (heads.rows.map HeadRow.idempotencyKey).Nodup then
            return { ledger with heads := heads, keys := keys }
          else throw .constraint

def Ledger.hasHead (ledger : Ledger) (test : HeadRow → Bool) : Bool := ledger.heads.rows.any test

def Ledger.hasEvent (ledger : Ledger) (test : EventRow → Bool) : Bool := ledger.events.rows.any test

/-- `SELECT RAISE(ABORT, message) WHERE condition` -/
def Ledger.raiseIf (condition : Bool) (message : String) (ledger : Ledger) : Writing :=
  if condition then throw (.raised (text message)) else return ledger

def when (condition : Bool) (write : Ledger → Writing) (ledger : Ledger) : Writing :=
  if condition then write ledger else return ledger

/-- `ledger_cmd_apply`, what an inserted command does in its own statement. -/
def ledgerCmdApply (command : CommandRow) (ledger : Ledger) : Writing := do
  let head := command.newHead
  let event := command.newEvent
  let ledger ← when (command.opKind ≠ .append) (·.insertHead engine head) ledger
  let ledger ← when (command.opKind ≠ .append) (·.insertEvent event) ledger
  let ledger ← when (command.opKind = .append)
    (·.updateHead engine (some head.investigationId) command.expectedOldRevision fun old =>
      some (head.assign old)) ledger
  let ledger ← when (command.opKind = .append) (·.insertEvent event) ledger
  let ledger ← when (command.opKind = .supersede)
    (·.updateHead engine command.oldHead.investigationId command.expectedOldRevision
      command.oldHead.assign) ledger
  let ledger ← when (command.opKind = .supersede) (fun ledger =>
    match command.oldEvent.row with
    | none => throw .constraint
    | some mark => ledger.insertEvent mark) ledger
  let ledger ← ledger.raiseIf (command.opKind = .create &&
    (!ledger.hasHead (fun row => row.investigationId = head.investigationId ∧ row.revision = 1 ∧
        row.eventHead = 1) ||
      !ledger.hasEvent fun row => row.eventId = event.eventId ∧
        row.investigationId = head.investigationId ∧ row.sequence = 1))
    "LEDGER_CONFLICT: create command did not persist head and event"
  let ledger ← ledger.raiseIf (command.opKind = .append &&
    !ledger.hasHead fun row => row.investigationId = head.investigationId ∧
      row.revision = command.expectedNewRevision ∧ row.eventHead = command.expectedNewEventHead)
    "LEDGER_STALE_HEAD: append command did not advance a live head"
  let ledger ← ledger.raiseIf (command.opKind = .append &&
    !ledger.hasEvent fun row => row.eventId = event.eventId ∧
      row.investigationId = head.investigationId ∧ row.sequence = command.expectedNewEventHead)
    "LEDGER_SETTLEMENT_UNCERTAIN: append command event is missing"
  let ledger ← ledger.raiseIf (command.opKind = .supersede &&
    !ledger.hasHead fun row => command.oldHead.investigationId = some row.investigationId ∧
      row.revision = command.expectedNewRevision ∧ row.eventHead = command.expectedNewEventHead ∧
      row.status = .superseded)
    "LEDGER_STALE_HEAD: supersede command did not mark a live head"
  ledger.raiseIf (command.opKind = .supersede &&
    (!ledger.hasEvent (fun row => command.oldEvent.eventId = some row.eventId) ||
      !ledger.hasHead (fun row => row.investigationId = head.investigationId ∧ row.revision = 1 ∧
        row.eventHead = 1) ||
      !ledger.hasEvent fun row => row.eventId = event.eventId))
    "LEDGER_SETTLEMENT_UNCERTAIN: supersede command effect is incomplete"

/-- `INSERT INTO investigation_ledger_command …`: all of it happens or nothing. -/
def insertCommand (authority : Authority) (command : CommandRow) (ledger : Ledger) : Writing :=
  match triggers.find? fun trigger => trigger.fires engine authority ledger command with
  | some trigger => throw (.raised trigger.message)
  | none =>
    if !command.checked engine then throw .constraint
    else match ledger.commands.insert command with
      | none => throw .constraint
      | some commands => ledgerCmdApply engine command { ledger with commands := commands }

def step (ledger : Ledger) (statement : Authority × CommandRow) : Ledger :=
  match insertCommand engine statement.1 statement.2 ledger with
  | .ok after => after
  | .error _ => ledger

def run (statements : List (Authority × CommandRow)) : Ledger :=
  statements.foldl (step engine) Ledger.empty

end
end Investigation
