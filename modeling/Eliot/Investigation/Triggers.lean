import Eliot.Investigation.Rows

namespace Investigation
open Sqlite (Engine Value)

/-- A `BEFORE INSERT` trigger on the commands: when it fires, the statement fails with its message. -/
structure Trigger where
  message : Text
  fires : Engine → Authority → Ledger → CommandRow → Bool

def Ledger.live (ledger : Ledger) (command : CommandRow) : Option HeadRow :=
  ledger.heads.find command.newHead.investigationId

def Ledger.marked (ledger : Ledger) (command : CommandRow) : Option HeadRow :=
  command.oldHead.investigationId.bind ledger.heads.find

section
variable (authority : Authority) (command : CommandRow)

def Authority.scope : Option ScopeSnapshotRow :=
  authority.scopeSnapshot.find? fun scope =>
    scope.snapshotId = command.scopeSnapshotId ∧ scope.revision = command.scopeSnapshotRevision

/-- `COALESCE((SELECT MAX(ledger_revision) FROM purge_ledger), 0)` -/
def Authority.purgeRevision : Int := authority.purgeLedger.max?.getD 0

def epochCurrent : Trigger where
  message := text "LEDGER_STALE_HEAD: ledger authority epoch changed"
  fires _ authority _ command := some command.expectedEpoch ≠ authority.investigationLedgerEpoch

def timeFresh : Trigger where
  message := text "LEDGER_INPUT_INVALID: command observed time is outside D1 current-time bounds"
  fires engine authority _ command :=
    let observed := engine.julianday command.observedAt
    Sqlite.exceeds observed (some (authority.now + 60 * 1000)) ||
      Sqlite.exceeds (some (authority.now - 300 * 1000)) observed ||
      Sqlite.exceeds (some authority.now) (engine.julianday command.expiresAt)

def ttlBound : Trigger where
  message := text "LEDGER_INPUT_INVALID: command expiry exceeds the bounded TTL"
  fires engine _ _ command :=
    let observed := engine.julianday command.observedAt
    let expires := engine.julianday command.expiresAt
    Sqlite.atMost expires observed ||
      Sqlite.exceeds expires (observed.map (· + 10 * 60 * 1000))

def scopeCurrent : Trigger where
  message := text "LEDGER_SCOPE_FOREIGN: scope snapshot missing invalidated expired or foreign"
  fires engine authority _ command := !authority.scopeSnapshot.any fun scope =>
    scope.snapshotId = command.scopeSnapshotId ∧ scope.revision = command.scopeSnapshotRevision ∧
      scope.invalidatedAt = none ∧
      Sqlite.exceeds (engine.julianday scope.expiresAt) (some authority.now)

def grantActive : Trigger where
  message := text "LEDGER_PRINCIPAL_DENIED: grant missing revoked expired or policy ref mismatch"
  fires engine authority _ command := !authority.scopeAccessGrant.any fun grant =>
    grant.snapshotId = command.scopeSnapshotId ∧
      grant.snapshotRevision = command.scopeSnapshotRevision ∧
      grant.principalRef = command.principalRef ∧ grant.active ∧
      Sqlite.exceeds (engine.julianday grant.expiresAt) (some authority.now) ∧
      grant.policyAuthorityRef = command.policyAuthorityRef

def policyCurrent : Trigger where
  message := text "LEDGER_POLICY_STALE: policy generation or authority ref mismatch"
  fires _ authority _ command :=
    (!authority.investigationCurrentPolicy.any fun policy =>
      policy.policyGeneration = command.policyGeneration ∧
        policy.policyAuthorityRef = command.policyAuthorityRef ∧ policy.active) ||
      (authority.scope command).map (·.policyAuthorityRef) ≠ some command.policyAuthorityRef

def deploymentCurrent : Trigger where
  message := text "LEDGER_DEPLOYMENT_STALE: deployment generation mismatch"
  fires _ authority _ command := !authority.investigationCurrentDeployment.any fun deployment =>
    deployment.deploymentGeneration = command.deploymentGeneration ∧ deployment.active

def purgeCurrent : Trigger where
  message := text "LEDGER_PURGE_STALE: global or scope purge revision mismatch"
  fires _ authority _ command :=
    let bound := (authority.scope command).map (·.purgeLedgerRevision)
    command.globalPurgeRevision ≠ authority.purgeRevision || command.scopePurgeRevision ≠ bound ||
      Sqlite.exceeds (some authority.purgeRevision) bound

end

def actorOwner : Trigger where
  message := text "LEDGER_PRINCIPAL_DENIED: foreign actor cannot mutate ledger"
  fires _ _ _ command :=
    command.newHead.principalRef ≠ command.principalRef ||
      (command.opKind ≠ .append && command.newEvent.actorRef ≠ command.principalRef) ||
      (command.opKind = .supersede && (command.oldHead.principalRef ≠ some command.principalRef ||
        command.oldEvent.actorRef ≠ some command.principalRef)) ||
      (command.opKind = .append && command.newEvent.actorRef ≠ command.principalRef &&
        !(command.newEvent.kind = .obligationAccepted &&
          command.newEvent.verifierRef = some command.newEvent.actorRef))

def verifierNew : Trigger where
  message := text "LEDGER_VERIFIER_DENIED: only the named verifier accepts"
  fires _ _ _ command :=
    (command.newEvent.kind = .obligationAccepted &&
      command.newEvent.verifierRef ≠ some command.newEvent.actorRef) ||
    (command.newEvent.kind ≠ .obligationAccepted && command.newEvent.verifierRef ≠ none)

def verifierOld : Trigger where
  message := text "LEDGER_VERIFIER_DENIED: only the named verifier accepts"
  fires _ _ _ command := command.opKind = .supersede &&
    ((command.oldEvent.kind = some .obligationAccepted &&
        (command.oldEvent.verifierRef = none ||
          command.oldEvent.actorRef ≠ command.oldEvent.verifierRef)) ||
      -- a missing kind compares as unknown
      (command.oldEvent.kind ≠ none && command.oldEvent.kind ≠ some .obligationAccepted &&
        command.oldEvent.verifierRef ≠ none))

def createShape : Trigger where
  message := text "LEDGER_INPUT_INVALID: malformed create command bytes"
  fires _ _ _ command :=
    let head := command.newHead
    let event := command.newEvent
    command.opKind = .create && (command.expectedOldRevision ≠ 0 ||
      command.expectedNewRevision ≠ 1 || command.expectedOldEventHead ≠ 0 ||
      command.expectedNewEventHead ≠ 1 || command.oldHead.investigationId ≠ none ||
      command.oldEvent.eventId ≠ none || head.revision ≠ 1 || head.eventHead ≠ 1 ||
      head.supersedesId ≠ none || event.sequence ≠ 1 || event.kind ≠ .created ||
      event.investigationId ≠ head.investigationId || event.createdAt ≠ head.createdAt ||
      event.createdAt ≠ head.updatedAt || head.createdAt ≠ head.updatedAt ||
      command.observedAt ≠ head.updatedAt)

def appendOldPresent : Trigger where
  message := text "LEDGER_CONFLICT: unknown investigation ledger"
  fires _ _ ledger command := command.opKind = .append && ledger.live command = none

def appendCas : Trigger where
  message := text "LEDGER_STALE_HEAD: stale expected revision for ledger head"
  fires _ _ ledger command := command.opKind = .append && (ledger.live command).any fun head =>
    head.revision ≠ command.expectedOldRevision || head.eventHead ≠ command.expectedOldEventHead

structure Identity where
  principalRef : Text
  scopeSnapshotId : Text
  scopeSnapshotRevision : Int
  policyGeneration : Text
  policyAuthorityRef : Text
  deploymentGeneration : Text
  inputDigest : Text
  idempotencyKey : Text
  protocolVersion : Text
  evidenceGrade : EvidenceGrade
  goal : Text
  lane : Lane
  modelProfileRef : Text
  createdAt : Text
deriving DecidableEq

def HeadRow.identity (head : HeadRow) : Identity where
  principalRef := head.principalRef
  scopeSnapshotId := head.scopeSnapshotId
  scopeSnapshotRevision := head.scopeSnapshotRevision
  policyGeneration := head.policyGeneration
  policyAuthorityRef := head.policyAuthorityRef
  deploymentGeneration := head.deploymentGeneration
  inputDigest := head.inputDigest
  idempotencyKey := head.idempotencyKey
  protocolVersion := head.protocolVersion
  evidenceGrade := head.evidenceGrade
  goal := head.goal
  lane := head.lane
  modelProfileRef := head.modelProfileRef
  createdAt := head.createdAt

def OldHead.identity (mark : OldHead) : Option Identity := do
  return {
    principalRef := ← mark.principalRef
    scopeSnapshotId := ← mark.scopeSnapshotId
    scopeSnapshotRevision := ← mark.scopeSnapshotRevision
    policyGeneration := ← mark.policyGeneration
    policyAuthorityRef := ← mark.policyAuthorityRef
    deploymentGeneration := ← mark.deploymentGeneration
    inputDigest := ← mark.inputDigest
    idempotencyKey := ← mark.idempotencyKey
    protocolVersion := ← mark.protocolVersion
    evidenceGrade := ← mark.evidenceGrade
    goal := ← mark.goal
    lane := ← mark.lane
    modelProfileRef := ← mark.modelProfileRef
    createdAt := ← mark.createdAt }

def appendShape : Trigger where
  message := text "LEDGER_INPUT_INVALID: malformed append command bytes"
  fires _ _ ledger command :=
    let next := command.newHead
    let event := command.newEvent
    command.opKind = .append && (command.expectedNewRevision ≠ command.expectedOldRevision + 1 ||
      command.expectedNewEventHead ≠ command.expectedOldEventHead + 1 ||
      command.oldHead.investigationId ≠ none || command.oldEvent.eventId ≠ none ||
      next.revision ≠ command.expectedNewRevision || next.eventHead ≠ command.expectedNewEventHead ||
      event.sequence ≠ command.expectedNewEventHead ||
      event.investigationId ≠ next.investigationId || event.createdAt ≠ next.updatedAt ||
      command.observedAt ≠ next.updatedAt ||
      match ledger.live command with
      | none => true -- the columns of the new head are compared with `NULL`
      | some head =>
        !(head.status = .open || head.status = .closed) ||
        !(next.status = head.status || (head.status = .open && next.status = .closed) ||
          (head.status = .closed && next.status = .open)) ||
        next.identity ≠ head.identity || next.supersedesId ≠ head.supersedesId)

def supersedeOldPresent : Trigger where
  message := text "LEDGER_CONFLICT: unknown investigation ledger"
  fires _ _ ledger command := command.opKind = .supersede && ledger.marked command = none

def supersedeCas : Trigger where
  message := text "LEDGER_STALE_HEAD: stale expected revision for superseded head"
  fires _ _ ledger command := command.opKind = .supersede && (ledger.marked command).any fun head =>
    head.revision ≠ command.expectedOldRevision || head.eventHead ≠ command.expectedOldEventHead

def supersedeShape : Trigger where
  message := text "LEDGER_INPUT_INVALID: malformed supersede command bytes"
  fires _ _ ledger command :=
    let mark := command.oldHead
    let next := command.newHead
    let event := command.newEvent
    command.opKind = .supersede && (command.expectedNewRevision ≠ command.expectedOldRevision + 1 ||
      command.expectedNewEventHead ≠ command.expectedOldEventHead + 1 ||
      mark.investigationId = none || command.oldEvent.eventId = none ||
      mark.revision ≠ some command.expectedNewRevision ||
      mark.eventHead ≠ some command.expectedNewEventHead ||
      mark.status ≠ some .superseded || next.status ≠ .open ||
      mark.investigationId = some next.investigationId ||
      next.supersedesId ≠ mark.investigationId || next.revision ≠ 1 || next.eventHead ≠ 1 ||
      event.sequence ≠ 1 || event.kind ≠ .created ||
      event.investigationId ≠ next.investigationId ||
      command.oldEvent.sequence ≠ some command.expectedNewEventHead ||
      command.oldEvent.kind ≠ some .superseded ||
      command.oldEvent.investigationId ≠ mark.investigationId ||
      command.oldEvent.createdAt ≠ some event.createdAt || next.createdAt ≠ event.createdAt ||
      next.updatedAt ≠ event.createdAt || mark.updatedAt ≠ some event.createdAt ||
      command.observedAt ≠ event.createdAt ||
      match ledger.marked command with
      | none => true
      | some head => head.status ≠ .open || mark.identity ≠ some head.identity)

inductive Family where
  | obligations
  | hypotheses
  | laneRegistrations
  | checkpoint
  | portfolio
  | debts
  | execution
  | fidelity
  | assurance
  | reason

def Family.kept (head next : HeadRow) : Family → Bool
  | .obligations => next.obligationsJson = head.obligationsJson
  | .hypotheses => next.hypothesesJson = head.hypothesesJson
  | .laneRegistrations => next.laneRegistrationsJson = head.laneRegistrationsJson
  | .checkpoint => next.checkpointHead = head.checkpointHead
  | .portfolio => next.portfolioRef = head.portfolioRef
  | .debts => next.debtRefsJson = head.debtRefsJson
  | .execution => next.observedExecution = head.observedExecution
  | .fidelity => next.observedFidelity = head.observedFidelity
  | .assurance => next.observedAssurance = head.observedAssurance
  | .reason => next.supersessionReason = head.supersessionReason

def onAppend (kind : LedgerEventKind) (condition : Engine → CommandRow → HeadRow → Bool) :
    Engine → Authority → Ledger → CommandRow → Bool :=
  fun engine _ ledger command => command.opKind = .append && command.newEvent.kind = kind &&
    (ledger.live command).any (condition engine command)

def mask (kind : LedgerEventKind) (before after : LedgerStatus) (families : List Family)
    (also : Engine → HeadRow → HeadRow → Bool) :
    Engine → Authority → Ledger → CommandRow → Bool :=
  onAppend kind fun engine command head =>
    head.status ≠ before || command.newHead.status ≠ after ||
      families.any (fun family => !family.kept head command.newHead) ||
      also engine head command.newHead

def nothing : Engine → HeadRow → HeadRow → Bool := fun _ _ _ => false

def appendMaskCheckpoint : Trigger where
  message := text "LEDGER_INPUT_INVALID: checkpoint mutated a protected family"
  fires := mask .checkpoint .open .open [.obligations, .hypotheses, .laneRegistrations, .portfolio,
    .debts, .execution, .fidelity, .assurance, .reason] nothing

def appendMaskAccept : Trigger where
  message := text "LEDGER_INPUT_INVALID: acceptance mutated a protected family"
  fires := mask .obligationAccepted .open .open [.checkpoint, .hypotheses, .laneRegistrations,
    .portfolio, .debts, .execution, .fidelity, .assurance, .reason] nothing

def changed (engine : Engine) (old new : Text) : List (Value × Value) :=
  (Sqlite.joined (engine.jsonEach old) (engine.jsonEach new)).filter fun pair => pair.2 ≠ pair.1

def change (engine : Engine) (old new : Text) : Value × Value :=
  (changed engine old new).head?.getD (.null, .null)

def misflipped (engine : Engine) (misplaced : Value → Bool) (target : Text) (fields : List Text)
    (old new : Text) : Bool :=
  let pair := change engine old new
  engine.jsonArrayLength new ≠ engine.jsonArrayLength old ||
    (changed engine old new).length ≠ 1 ||
    misplaced (engine.jsonExtract pair.1 (text "status")) ||
    (engine.jsonExtract pair.2 (text "status")).differs (.text target) ||
    fields.any fun field =>
      (engine.jsonExtract pair.1 field).differs (engine.jsonExtract pair.2 field)

def acceptSingle : Trigger where
  message := text "LEDGER_INPUT_INVALID: obligation acceptance transition is not permitted"
  fires := onAppend .obligationAccepted fun engine command head =>
    let old := head.obligationsJson
    let new := command.newHead.obligationsJson
    misflipped engine (·.differs (.text (text "REGISTERED"))) (text "ACCEPTED")
      [text "obligation_id", text "verifier_ref", text "lane", text "exposed"] old new ||
      (engine.jsonExtract (change engine old new).2 (text "verifier_ref")).differs
        (Value.ofText command.newEvent.verifierRef)

def appendMaskDeviation : Trigger where
  message := text "LEDGER_INPUT_INVALID: deviation mutated a protected family"
  fires := mask .deviation .open .open [.checkpoint, .hypotheses, .laneRegistrations, .portfolio,
    .debts, .fidelity, .assurance, .reason] nothing

def deviationSingle : Trigger where
  message := text "LEDGER_INPUT_INVALID: obligation deviation transition is not permitted"
  fires := onAppend .deviation fun engine command head =>
    misflipped engine (·.outside [.text (text "REGISTERED"), .text (text "ACCEPTED")])
      (text "DEVIATED")
      [text "obligation_id", text "verifier_ref", text "lane", text "exposed", text "metric_ref"]
      head.obligationsJson command.newHead.obligationsJson ||
      command.newHead.observedExecution = head.observedExecution

def appendMaskObserved : Trigger where
  message := text "LEDGER_INPUT_INVALID: observation mutated a protected family"
  fires := mask .observed .open .open [.obligations, .hypotheses, .laneRegistrations, .checkpoint,
    .portfolio, .debts, .reason] fun _ head next =>
      Family.execution.kept head next && Family.fidelity.kept head next &&
        Family.assurance.kept head next

def appendMaskClosed : Trigger where
  message := text "LEDGER_INPUT_INVALID: close mutated a protected family"
  fires := mask .closed .open .closed [.obligations, .hypotheses, .laneRegistrations, .checkpoint,
    .portfolio, .debts, .execution, .fidelity, .assurance, .reason] nothing

def appendMaskReopened : Trigger where
  message := text "LEDGER_INPUT_INVALID: reopen mutated a protected family"
  fires := mask .reopened .closed .open [.obligations, .hypotheses, .laneRegistrations, .checkpoint,
    .portfolio, .debts, .execution, .fidelity, .assurance, .reason] nothing

def misgrown (engine : Engine) (old new : Text) : Bool :=
  engine.jsonArrayLength new ≠ engine.jsonArrayLength old + 1 ||
    ((Sqlite.joined (engine.jsonEach old) (engine.jsonEach new)).filter
      fun pair => pair.2 = pair.1).length ≠ engine.jsonArrayLength old

def appendMaskLane : Trigger where
  message := text "LEDGER_INPUT_INVALID: lane registration mutated a protected family"
  fires := mask .laneRegistered .open .open [.obligations, .hypotheses, .checkpoint, .portfolio,
    .debts, .execution, .fidelity, .assurance, .reason] fun engine head next =>
      misgrown engine head.laneRegistrationsJson next.laneRegistrationsJson

def appendMaskOblreg : Trigger where
  message := text "LEDGER_INPUT_INVALID: obligation registration mutated a protected family"
  fires := mask .obligationRegistered .open .open [.checkpoint, .hypotheses, .laneRegistrations,
    .portfolio, .debts, .execution, .fidelity, .assurance, .reason] fun engine head next =>
      let last := engine.jsonArrayLength next.obligationsJson - 1
      misgrown engine head.obligationsJson next.obligationsJson ||
        (engine.jsonExtractAt next.obligationsJson last (text "status")).differs
          (.text (text "REGISTERED")) ||
        (engine.jsonEach head.obligationsJson).any fun row =>
          (engine.jsonExtract row.2 (text "obligation_id")).same
            (engine.jsonExtractAt next.obligationsJson last (text "obligation_id"))

def appendMaskHyprec : Trigger where
  message := text "LEDGER_INPUT_INVALID: hypothesis record mutated a protected family"
  fires := mask .hypothesisRecorded .open .open [.obligations, .checkpoint, .laneRegistrations,
    .portfolio, .debts, .execution, .fidelity, .assurance, .reason] fun engine head next =>
      misgrown engine head.hypothesesJson next.hypothesesJson

def acceptSupersede : Trigger where
  message := text "LEDGER_SUPERSESSION_REQUIRED: deviated obligation or exposed confirmatory metric requires explicit supersession"
  fires := onAppend .obligationAccepted fun engine command head =>
    let pair := change engine head.obligationsJson command.newHead.obligationsJson
    (engine.jsonExtract pair.1 (text "status")).same (.text (text "DEVIATED")) ||
      ((engine.jsonExtract pair.1 (text "exposed")).same (.number 1) &&
        (engine.jsonExtract pair.1 (text "lane")).same (.text (text "confirmatory")) &&
        (engine.jsonExtract pair.2 (text "metric_ref")).differs
          (engine.jsonExtract pair.1 (text "metric_ref")))

def acceptVerifier : Trigger where
  message := text "LEDGER_VERIFIER_DENIED: only the named verifier accepts"
  fires _ _ _ command := command.opKind = .append && command.newEvent.kind = .obligationAccepted &&
    command.newEvent.verifierRef ≠ some command.newEvent.actorRef

def appendKindAllow : Trigger where
  message := text "LEDGER_INPUT_INVALID: event kind requires an explicit create or supersede command"
  fires _ _ _ command := command.opKind = .append &&
    (command.newEvent.kind = .created || command.newEvent.kind = .superseded)

def appendJsonValid : Trigger where
  message := text "LEDGER_INPUT_INVALID: append head JSON is malformed"
  fires engine _ _ command := command.opKind = .append &&
    !(engine.jsonValid command.newHead.obligationsJson &&
      engine.jsonValid command.newHead.hypothesesJson &&
      engine.jsonValid command.newHead.laneRegistrationsJson &&
      engine.jsonValid command.newHead.debtRefsJson)

/-- A time that is not written as `YYYY-MM-DDTHH:mm:ss.sssZ`, or that no calendar has. -/
def uncanonical (engine : Engine) (time : Text) : Bool :=
  !Sqlite.glob (text "????-??-??T??:??:??.???Z") time || engine.julianday time = none ||
    engine.strftime time ≠ some time || !Sqlite.pairBetween time 6 1 12 ||
    !Sqlite.pairBetween time 9 1 31 || !Sqlite.pairBetween time 12 0 23 ||
    !Sqlite.pairBetween time 15 0 59 || !Sqlite.pairBetween time 18 0 59

def timeCanonicalObserved : Trigger where
  message := text "LEDGER_INPUT_INVALID: command transport time is not canonical UTC millis-Z"
  fires engine _ _ command :=
    uncanonical engine command.observedAt || uncanonical engine command.expiresAt

def timeCanonicalNew : Trigger where
  message := text "LEDGER_INPUT_INVALID: command head or event time is not canonical UTC millis-Z"
  fires engine _ _ command :=
    uncanonical engine command.newHead.createdAt || uncanonical engine command.newHead.updatedAt ||
      uncanonical engine command.newEvent.createdAt

def timeCanonicalOld : Trigger where
  message := text "LEDGER_INPUT_INVALID: supersede mark time is not canonical UTC millis-Z"
  fires engine _ _ command :=
    command.oldHead.createdAt.any (uncanonical engine) ||
      command.oldHead.updatedAt.any (uncanonical engine) ||
      command.oldEvent.createdAt.any (uncanonical engine)

def triggers : List Trigger :=
  [timeCanonicalOld, timeCanonicalNew, timeCanonicalObserved, appendJsonValid, appendKindAllow,
    acceptVerifier, acceptSupersede, appendMaskHyprec, appendMaskOblreg, appendMaskLane,
    appendMaskReopened, appendMaskClosed, appendMaskObserved, deviationSingle, appendMaskDeviation,
    acceptSingle, appendMaskAccept, appendMaskCheckpoint, supersedeShape, supersedeCas,
    supersedeOldPresent, appendShape, appendCas, appendOldPresent, createShape, verifierOld,
    verifierNew, actorOwner, purgeCurrent, deploymentCurrent, policyCurrent, grantActive,
    scopeCurrent, ttlBound, timeFresh, epochCurrent]

end Investigation
