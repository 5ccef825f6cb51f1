import Eliot.Relational.Table
import Eliot.Sqlite.Engine

namespace Investigation
open Relational (Table)

inductive OpKind where
  | create
  | append
  | supersede
deriving DecidableEq

inductive LedgerStatus where
  | open
  | closed
  | superseded
deriving DecidableEq

inductive LedgerEventKind where
  | created
  | laneRegistered
  | obligationRegistered
  | obligationAccepted
  | checkpoint
  | hypothesisRecorded
  | observed
  | deviation
  | superseded
  | closed
  | reopened
deriving DecidableEq

inductive EvidenceGrade where
  | e0
  | e1
  | e2
  | e3
deriving DecidableEq

inductive Lane where
  | confirmatory
  | exploratory
  | mixedWithDeclaredSplit
deriving DecidableEq

/-- A row of `investigation_ledger_head`. -/
structure HeadRow where
  investigationId : Text
  revision : Int
  protocolVersion : Text
  goal : Text
  scopeSnapshotId : Text
  scopeSnapshotRevision : Int
  evidenceGrade : EvidenceGrade
  lane : Lane
  laneRegistrationsJson : Text
  obligationsJson : Text
  hypothesesJson : Text
  portfolioRef : Text
  debtRefsJson : Text
  checkpointHead : Int
  principalRef : Text
  inputDigest : Text
  policyGeneration : Text
  policyAuthorityRef : Text
  deploymentGeneration : Text
  idempotencyKey : Text
  modelProfileRef : Text
  observedExecution : Option Text
  observedFidelity : Option Text
  observedAssurance : Option Text
  status : LedgerStatus
  supersedesId : Option Text
  supersessionReason : Option Text
  eventHead : Int
  createdAt : Text
  updatedAt : Text
deriving DecidableEq

/-- A row of `investigation_ledger_event`. -/
structure EventRow where
  investigationId : Text
  sequence : Int
  eventId : Text
  kind : LedgerEventKind
  payloadHandleRef : Text
  payloadDigest : Text
  actorRef : Text
  verifierRef : Option Text
  createdAt : Text
deriving DecidableEq

/-- The columns `oh_*` of a command, each of which may be `NULL`. -/
structure OldHead where
  investigationId : Option Text
  revision : Option Int
  protocolVersion : Option Text
  goal : Option Text
  scopeSnapshotId : Option Text
  scopeSnapshotRevision : Option Int
  evidenceGrade : Option EvidenceGrade
  lane : Option Lane
  laneRegistrationsJson : Option Text
  obligationsJson : Option Text
  hypothesesJson : Option Text
  portfolioRef : Option Text
  debtRefsJson : Option Text
  checkpointHead : Option Int
  principalRef : Option Text
  inputDigest : Option Text
  policyGeneration : Option Text
  policyAuthorityRef : Option Text
  deploymentGeneration : Option Text
  idempotencyKey : Option Text
  modelProfileRef : Option Text
  observedExecution : Option Text
  observedFidelity : Option Text
  observedAssurance : Option Text
  status : Option LedgerStatus
  supersedesId : Option Text
  supersessionReason : Option Text
  eventHead : Option Int
  createdAt : Option Text
  updatedAt : Option Text
deriving DecidableEq

/-- The columns `oe_*` of a command. -/
structure OldEvent where
  investigationId : Option Text
  sequence : Option Int
  eventId : Option Text
  kind : Option LedgerEventKind
  payloadHandleRef : Option Text
  payloadDigest : Option Text
  actorRef : Option Text
  verifierRef : Option Text
  createdAt : Option Text
deriving DecidableEq

def noHead : OldHead := ⟨none, none, none, none, none, none, none, none, none, none, none, none, none,
  none, none, none, none, none, none, none, none, none, none, none, none, none, none, none, none, none⟩

def noEvent : OldEvent := ⟨none, none, none, none, none, none, none, none, none⟩

/-- A row of `investigation_ledger_command`. -/
structure CommandRow where
  commandId : Text
  opKind : OpKind
  expectedOldRevision : Int
  expectedNewRevision : Int
  expectedOldEventHead : Int
  expectedNewEventHead : Int
  expectedEpoch : Int
  principalRef : Text
  scopeSnapshotId : Text
  scopeSnapshotRevision : Int
  policyGeneration : Text
  policyAuthorityRef : Text
  deploymentGeneration : Text
  globalPurgeRevision : Int
  scopePurgeRevision : Option Int
  observedAt : Text
  expiresAt : Text
  oldHead : OldHead
  oldEvent : OldEvent
  newHead : HeadRow
  newEvent : EventRow
deriving DecidableEq

def HeadRow.mark (head : HeadRow) : OldHead where
  investigationId := head.investigationId
  revision := head.revision
  protocolVersion := head.protocolVersion
  goal := head.goal
  scopeSnapshotId := head.scopeSnapshotId
  scopeSnapshotRevision := head.scopeSnapshotRevision
  evidenceGrade := head.evidenceGrade
  lane := head.lane
  laneRegistrationsJson := head.laneRegistrationsJson
  obligationsJson := head.obligationsJson
  hypothesesJson := head.hypothesesJson
  portfolioRef := head.portfolioRef
  debtRefsJson := head.debtRefsJson
  checkpointHead := head.checkpointHead
  principalRef := head.principalRef
  inputDigest := head.inputDigest
  policyGeneration := head.policyGeneration
  policyAuthorityRef := head.policyAuthorityRef
  deploymentGeneration := head.deploymentGeneration
  idempotencyKey := head.idempotencyKey
  modelProfileRef := head.modelProfileRef
  observedExecution := head.observedExecution
  observedFidelity := head.observedFidelity
  observedAssurance := head.observedAssurance
  status := head.status
  supersedesId := head.supersedesId
  supersessionReason := head.supersessionReason
  eventHead := head.eventHead
  createdAt := head.createdAt
  updatedAt := head.updatedAt

/-- What an `UPDATE` with the bytes of an old mark makes of a head; a `NULL` where there may be none
    fails the statement. The key and the time of creation are not assigned. -/
def OldHead.assign (mark : OldHead) (head : HeadRow) : Option HeadRow := do
  return {
    investigationId := head.investigationId
    revision := ← mark.revision
    protocolVersion := ← mark.protocolVersion
    goal := ← mark.goal
    scopeSnapshotId := ← mark.scopeSnapshotId
    scopeSnapshotRevision := ← mark.scopeSnapshotRevision
    evidenceGrade := ← mark.evidenceGrade
    lane := ← mark.lane
    laneRegistrationsJson := ← mark.laneRegistrationsJson
    obligationsJson := ← mark.obligationsJson
    hypothesesJson := ← mark.hypothesesJson
    portfolioRef := ← mark.portfolioRef
    debtRefsJson := ← mark.debtRefsJson
    checkpointHead := ← mark.checkpointHead
    principalRef := ← mark.principalRef
    inputDigest := ← mark.inputDigest
    policyGeneration := ← mark.policyGeneration
    policyAuthorityRef := ← mark.policyAuthorityRef
    deploymentGeneration := ← mark.deploymentGeneration
    idempotencyKey := ← mark.idempotencyKey
    modelProfileRef := ← mark.modelProfileRef
    observedExecution := mark.observedExecution
    observedFidelity := mark.observedFidelity
    observedAssurance := mark.observedAssurance
    status := ← mark.status
    supersedesId := mark.supersedesId
    supersessionReason := mark.supersessionReason
    eventHead := ← mark.eventHead
    createdAt := head.createdAt
    updatedAt := ← mark.updatedAt }

/-- What an `UPDATE` with the bytes of a new head makes of a head. -/
def HeadRow.assign (next head : HeadRow) : HeadRow :=
  { next with investigationId := head.investigationId, createdAt := head.createdAt }

def OldEvent.row (event : OldEvent) : Option EventRow := do
  return {
    investigationId := ← event.investigationId
    sequence := ← event.sequence
    eventId := ← event.eventId
    kind := ← event.kind
    payloadHandleRef := ← event.payloadHandleRef
    payloadDigest := ← event.payloadDigest
    actorRef := ← event.actorRef
    verifierRef := event.verifierRef
    createdAt := ← event.createdAt }

structure ScopeSnapshotRow where
  snapshotId : Text
  revision : Int
  invalidatedAt : Option Text
  expiresAt : Text
  policyAuthorityRef : Text
  purgeLedgerRevision : Int

structure ScopeAccessGrantRow where
  snapshotId : Text
  snapshotRevision : Int
  principalRef : Text
  active : Bool
  expiresAt : Text
  policyAuthorityRef : Text

structure CurrentPolicyRow where
  policyGeneration : Text
  policyAuthorityRef : Text
  active : Bool

structure CurrentDeploymentRow where
  deploymentGeneration : Text
  active : Bool

structure Authority where
  scopeSnapshot : List ScopeSnapshotRow
  scopeAccessGrant : List ScopeAccessGrantRow
  investigationCurrentPolicy : List CurrentPolicyRow
  investigationCurrentDeployment : List CurrentDeploymentRow
  purgeLedger : List Int
  investigationLedgerEpoch : Option Int
  now : Int

structure Ledger where
  heads : Table HeadRow Text HeadRow.investigationId
  events : Table EventRow (Text × Int) fun event => (event.investigationId, event.sequence)
  commands : Table CommandRow Text CommandRow.commandId
  keys : (heads.rows.map HeadRow.idempotencyKey).Nodup
  eventIds : (events.rows.map EventRow.eventId).Nodup

def Ledger.empty : Ledger := ⟨Table.empty, Table.empty, Table.empty, List.nodup_nil, List.nodup_nil⟩

end Investigation
