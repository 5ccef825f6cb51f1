import Eliot.Investigation.Rows

namespace Investigation

inductive ObligationLane where
  | confirmatory
  | exploratory
deriving DecidableEq

inductive ObligationStatus where
  | registered
  | accepted
  | deviated
deriving DecidableEq

structure LedgerObligation where
  obligationId : Text
  verifierRef : Text
  lane : ObligationLane
  metricRef : Text
  status : ObligationStatus
  exposed : Bool
  kind : Option Text
  dependencyObligationIds : Option (List Text)
  certificateKind : Option Text
  blocking : Option Bool
deriving DecidableEq

structure LedgerHead where
  investigationId : Text
  revision : Int
  protocolVersion : Text
  goal : Text
  scopeSnapshotId : Text
  scopeSnapshotRevision : Int
  evidenceGrade : EvidenceGrade
  lane : Lane
  laneRegistrations : List Text
  obligations : List LedgerObligation
  hypotheses : List Text
  portfolioRef : Text
  debtRefs : List Text
  checkpointHead : Int
  principalRef : Text
  inputDigest : Text
  policyGeneration : Text
  policyAuthorityRef : Text
  deploymentGeneration : Text
  idempotencyKey : Text
  modelProfileRef : Text
  observedExecution : Option Text
  observedFidelity : Option Text
  observedAssurance : Option Text
  status : LedgerStatus
  supersedesId : Option Text
  supersessionReason : Option Text
  eventHead : Int
  createdAt : Text
  updatedAt : Text
deriving DecidableEq

abbrev LedgerEvent := EventRow

inductive LedgerErrorCode where
  | inputInvalid
  | conflict
  | staleHead
  | principalDenied
  | scopeForeign
  | policyStale
  | deploymentStale
  | purgeStale
  | verifierDenied
  | supersessionRequired
  | handleMissing
  | settlementUncertain
deriving DecidableEq

structure LedgerError where
  code : LedgerErrorCode
  message : Text
  retryable : Bool
deriving DecidableEq

structure Tools where
  /-- whether `LedgerHeadSchema` and `LedgerEventSchema` accept a value -/
  headSchema : LedgerHead → Bool
  eventSchema : LedgerEvent → Bool
  eventHead_bounded : ∀ head, headSchema head = true → head.eventHead ≤ 1000000
  /-- `JSON.stringify` and `JSON.parse` -/
  stringifyRefs : List Text → Text
  stringifyObligations : List LedgerObligation → Text
  parseRefs : Text → Option (List Text)
  parseObligations : Text → Option (List LedgerObligation)
  parse_stringifyRefs : ∀ refs, parseRefs (stringifyRefs refs) = some refs
  parse_stringifyObligations : ∀ obligations,
    parseObligations (stringifyObligations obligations) = some obligations
  /-- `Date.parse`, `Date.prototype.toISOString` and the last day of a month in the year of a date -/
  dateParse : Text → Option Int
  toISOString : Int → Text
  lastDay : Int → Int → Int

section
variable (tools : Tools)

def ledgerHeadBindings (head : LedgerHead) : HeadRow where
  investigationId := head.investigationId
  revision := head.revision
  protocolVersion := head.protocolVersion
  goal := head.goal
  scopeSnapshotId := head.scopeSnapshotId
  scopeSnapshotRevision := head.scopeSnapshotRevision
  evidenceGrade := head.evidenceGrade
  lane := head.lane
  laneRegistrationsJson := tools.stringifyRefs head.laneRegistrations
  obligationsJson := tools.stringifyObligations head.obligations
  hypothesesJson := tools.stringifyRefs head.hypotheses
  portfolioRef := head.portfolioRef
  debtRefsJson := tools.stringifyRefs head.debtRefs
  checkpointHead := head.checkpointHead
  principalRef := head.principalRef
  inputDigest := head.inputDigest
  policyGeneration := head.policyGeneration
  policyAuthorityRef := head.policyAuthorityRef
  deploymentGeneration := head.deploymentGeneration
  idempotencyKey := head.idempotencyKey
  modelProfileRef := head.modelProfileRef
  observedExecution := head.observedExecution
  observedFidelity := head.observedFidelity
  observedAssurance := head.observedAssurance
  status := head.status
  supersedesId := head.supersedesId
  supersessionReason := head.supersessionReason
  eventHead := head.eventHead
  createdAt := head.createdAt
  updatedAt := head.updatedAt

def decodeLedgerHead (row : HeadRow) : Option LedgerHead := do
  let head : LedgerHead := {
    investigationId := row.investigationId
    revision := row.revision
    protocolVersion := row.protocolVersion
    goal := row.goal
    scopeSnapshotId := row.scopeSnapshotId
    scopeSnapshotRevision := row.scopeSnapshotRevision
    evidenceGrade := row.evidenceGrade
    lane := row.lane
    laneRegistrations := ← tools.parseRefs row.laneRegistrationsJson
    obligations := ← tools.parseObligations row.obligationsJson
    hypotheses := ← tools.parseRefs row.hypothesesJson
    portfolioRef := row.portfolioRef
    debtRefs := ← tools.parseRefs row.debtRefsJson
    checkpointHead := row.checkpointHead
    principalRef := row.principalRef
    inputDigest := row.inputDigest
    policyGeneration := row.policyGeneration
    policyAuthorityRef := row.policyAuthorityRef
    deploymentGeneration := row.deploymentGeneration
    idempotencyKey := row.idempotencyKey
    modelProfileRef := row.modelProfileRef
    observedExecution := row.observedExecution
    observedFidelity := row.observedFidelity
    observedAssurance := row.observedAssurance
    status := row.status
    supersedesId := row.supersedesId
    supersessionReason := row.supersessionReason
    eventHead := row.eventHead
    createdAt := row.createdAt
    updatedAt := row.updatedAt }
  if tools.headSchema head then some head else none

def decodeLedgerEvent (row : EventRow) : Option LedgerEvent :=
  if tools.eventSchema row then some row else none

variable {tools}

theorem decode_bindings {head : LedgerHead} (valid : tools.headSchema head = true) :
    decodeLedgerHead tools (ledgerHeadBindings tools head) = some head := by
  simp only [decodeLedgerHead, ledgerHeadBindings, tools.parse_stringifyRefs,
    tools.parse_stringifyObligations, Option.bind_eq_bind, Option.bind_some, valid, if_true]

theorem bindings_injective {first second : LedgerHead}
    (same : ledgerHeadBindings tools first = ledgerHeadBindings tools second) : first = second := by
  have refs {one two : List Text} (equal : tools.stringifyRefs one = tools.stringifyRefs two) :
      one = two := by
    have read := tools.parse_stringifyRefs one
    rw [equal, tools.parse_stringifyRefs] at read
    exact (Option.some.inj read).symm
  have lists {one two : List LedgerObligation}
      (equal : tools.stringifyObligations one = tools.stringifyObligations two) : one = two := by
    have read := tools.parse_stringifyObligations one
    rw [equal, tools.parse_stringifyObligations] at read
    exact (Option.some.inj read).symm
  cases first
  cases second
  simp only [ledgerHeadBindings, HeadRow.mk.injEq] at same
  simp only [LedgerHead.mk.injEq]
  refine ⟨same.1, same.2.1, same.2.2.1, same.2.2.2.1, ?_⟩
  obtain ⟨-, -, -, -, a1, a2, a3, a4, l, o, h, a5, d, rest⟩ := same
  exact ⟨a1, a2, a3, a4, refs l, lists o, refs h, a5, refs d, rest⟩

end

def LedgerErrorCode.spelling : LedgerErrorCode → Text
  | .inputInvalid => text "LEDGER_INPUT_INVALID"
  | .conflict => text "LEDGER_CONFLICT"
  | .staleHead => text "LEDGER_STALE_HEAD"
  | .principalDenied => text "LEDGER_PRINCIPAL_DENIED"
  | .scopeForeign => text "LEDGER_SCOPE_FOREIGN"
  | .policyStale => text "LEDGER_POLICY_STALE"
  | .deploymentStale => text "LEDGER_DEPLOYMENT_STALE"
  | .purgeStale => text "LEDGER_PURGE_STALE"
  | .verifierDenied => text "LEDGER_VERIFIER_DENIED"
  | .supersessionRequired => text "LEDGER_SUPERSESSION_REQUIRED"
  | .handleMissing => text "LEDGER_HANDLE_MISSING"
  | .settlementUncertain => text "LEDGER_SETTLEMENT_UNCERTAIN"

/-- `TRIGGER_CODES` -/
def triggerCodes : List LedgerErrorCode :=
  [.inputInvalid, .conflict, .staleHead, .principalDenied, .scopeForeign, .policyStale,
    .deploymentStale, .purgeStale, .verifierDenied, .supersessionRequired, .handleMissing,
    .settlementUncertain]

/-- `message.includes(part)` -/
def mentions (message part : Text) : Bool := part <:+: message

def lowerCase (message : Text) : Text :=
  message.map fun unit => if 65 ≤ unit ∧ unit ≤ 90 then unit + 32 else unit

/-- `/ABORT|UNIQUE|CHECK|constraint|append-only|guard/i` -/
def isConstraintMessage (message : Text) : Bool :=
  [text "abort", text "unique", text "check", text "constraint", text "append-only",
    text "guard"].any (mentions (lowerCase message))

def parseLedgerTriggerCode (message : Text) : Option LedgerErrorCode :=
  match triggerCodes.find? fun code => mentions message code.spelling with
  | some code => some code
  | none => if isConstraintMessage message then some .conflict else none

end Investigation
