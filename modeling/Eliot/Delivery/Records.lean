import Eliot.Json.Value
import Eliot.Relational.Table

namespace Delivery
open Text (isDigit isSha256 prose)

inductive ExternalAgentTaskErrorCode where
  | schemaNotReady
  | inputInvalid
  | denied
  | notFound
  | conflict
  | cancelled
  | leaseExpired
  | outputCorrupt
  | effectUncertain

structure ExternalAgentTaskError where
  code : ExternalAgentTaskErrorCode
  status : Nat
  message : Text
  retryable : Bool

inductive Failure where
  | task (error : ExternalAgentTaskError)
  | other (message : Text)

/-- `SCHEMA_NOT_READY` -/
def schemaError : ExternalAgentTaskError :=
  ⟨.schemaNotReady, 503, prose "External task migration 0085 is required" rfl, true⟩

def inputError (message : Text) : ExternalAgentTaskError := ⟨.inputInvalid, 400, message, false⟩

def deniedError (message : Text) : ExternalAgentTaskError := ⟨.denied, 403, message, false⟩

def conflictError (message : Text) : ExternalAgentTaskError := ⟨.conflict, 409, message, false⟩

def expiredError (message : Text) : ExternalAgentTaskError := ⟨.leaseExpired, 409, message, false⟩

def corruptError (message : Text) : ExternalAgentTaskError := ⟨.outputCorrupt, 500, message, false⟩

def uncertainError (message : Text) : ExternalAgentTaskError := ⟨.effectUncertain, 503, message, true⟩

def cancelledError : ExternalAgentTaskError :=
  ⟨.cancelled, 409, prose "Research workflow is cancelled" rfl, false⟩

def replacedError : ExternalAgentTaskError :=
  expiredError (prose "External task lease is expired or replaced" rfl)

/-- `storageFailure` of an error that the database raised -/
def storageFailure (message : Text) : ExternalAgentTaskError :=
  if text "EXTERNAL_AGENT_TASK_AUTHORITY_STALE" <:+: message then
    deniedError (prose "External task authority is no longer current" rfl)
  else if [text "EXTERNAL_AGENT_TASK_CONFLICT", text "EXTERNAL_AGENT_PROGRESS_CONFLICT",
      text "EXTERNAL_AGENT_RESULT_INVALID", text "UNIQUE", text "constraint", text "CHECK"].any
        (· <:+: message) then
    conflictError (prose "External task state conflicts with the requested mutation" rfl)
  else uncertainError (prose "External task storage settlement is uncertain" rfl)

/-- `RESEARCH_WORKFLOW_STAGES` -/
def researchWorkflowStages : List Text :=
  [text "FREEZE_PROTOCOL_AND_SCOPE", text "ORIENT", text "INTERPRET", text "COMPILE_OBLIGATIONS",
    text "PLAN", text "RETRIEVE_BRANCHES", text "ACQUIRE_AND_CAPTURE", text "READ_AND_EXTRACT",
    text "ANALYZE_BRANCHES", text "COUNTER_SEARCH", text "RECONCILE", text "FREEZE_EVIDENCE",
    text "SYNTHESIZE", text "VERIFY", text "AUDIT_CLAIMS", text "RESOLVE_CITATIONS",
    text "CALCULATE_COVERAGE", text "MATERIALIZE"]

/-- `/^external-task:[a-f0-9]{64}$/` -/
def isTaskId (value : Text) : Bool :=
  value.take 14 = text "external-task:" && isSha256 (value.drop 14)

def isLowerHex (unit : Nat) : Bool := isDigit unit || (97 ≤ unit && unit ≤ 102)

def uuidTests : List (Nat → Bool) :=
  let dash := fun unit : Nat => decide (unit = 45)
  let hex := isLowerHex
  List.replicate 8 hex ++ [dash] ++ List.replicate 4 hex ++ [dash, fun unit => decide (unit = 52)] ++
    List.replicate 3 hex ++ [dash, fun unit => decide (unit = 56 ∨ unit = 57 ∨ unit = 97 ∨ unit = 98)] ++
    List.replicate 3 hex ++ [dash] ++ List.replicate 12 hex

def isUuid (value : Text) : Bool :=
  value.length = uuidTests.length && (List.zipWith (fun test unit => test unit) uuidTests value).all id

/-- `LEASE_ID` -/
def isLeaseId (value : Text) : Bool :=
  value.take 15 = text "external-lease:" && isUuid (value.drop 15)

def isAlphanumeric (unit : Nat) : Bool :=
  isDigit unit || (65 ≤ unit && unit ≤ 90) || (97 ≤ unit && unit ≤ 122)

/-- `/^[A-Za-z0-9][A-Za-z0-9._:-]{0,63}$/` -/
def isWorkerSlot : Text → Bool
  | [] => false
  | first :: rest => isAlphanumeric first && rest.length ≤ 63 && rest.all fun unit =>
    isAlphanumeric unit || unit = 46 || unit = 95 || unit = 58 || unit = 45

/-- `/[\u0000-\u001f\u007f]/` -/
def isControl (unit : Nat) : Bool := unit ≤ 0x1f || unit = 0x7f

/-- The test of `externalTaskString`. -/
def isString (most : Nat) (value : Text) : Bool :=
  1 ≤ value.length && value.length ≤ most && !value.any isControl

def taskId (requestSha256 : Text) : Text := text "external-task:" ++ requestSha256

structure VersionedRef where
  id : Text
  revision : Nat
deriving DecidableEq

def VersionedRef.json (ref : VersionedRef) : Json.Value :=
  .object [(text "id", .text ref.id), (text "revision", .number ref.revision)]

structure ExternalAgentProgressSemantic where
  phase : Text
  message : Option Text
  completedUnits : Option Int
  totalUnits : Option Int
  evidenceRefs : List VersionedRef

inductive Disposition where
  | succeeded
  | partial'
  | failed
deriving DecidableEq

def Disposition.name : Disposition → Text
  | .succeeded => text "SUCCEEDED"
  | .partial' => text "PARTIAL"
  | .failed => text "FAILED"

inductive Accounting where
  | subscription
  | apiMetered
  | unknown
deriving DecidableEq

def Accounting.name : Accounting → Text
  | .subscription => text "SUBSCRIPTION"
  | .apiMetered => text "API_METERED"
  | .unknown => text "UNKNOWN"

/-- A usage; `billedUsd` is the JSON text of a finite number that is not negative. -/
structure ExternalAgentUsage where
  accounting : Accounting
  inputTokens : Option Int
  outputTokens : Option Int
  billedUsd : Option Text

/-- What a worker says of its result; `output` is the canonical JSON text of an object. -/
structure ExternalAgentResultSemantic where
  disposition : Disposition
  output : Option Text
  evidenceRefs : List VersionedRef
  diagnostics : List Text
  usage : ExternalAgentUsage

structure ExternalAgentProgressIdentity where
  taskId : Text
  operationId : Text
  stageIndex : Nat
  stage : Text
  attemptRef : Text
  requestSha256 : Text
deriving DecidableEq

structure TaskIdentity extends ExternalAgentProgressIdentity where
  projectId : Text
  clientGrantId : Text
  clientGrantRevision : Nat
  granteeIssuer : Text
  granteeSubject : Text
  createdAt : Nat
deriving DecidableEq

structure ExternalAgentRecordedProgress where
  identity : ExternalAgentProgressIdentity
  leaseId : Text
  cursor : Nat
  semantic : ExternalAgentProgressSemantic
  recordedAt : Nat

structure ExternalAgentRecordedResult where
  identity : ExternalAgentProgressIdentity
  leaseId : Text
  idempotencyKey : Text
  semantic : ExternalAgentResultSemantic
  submittedAt : Nat

section

/-- What `parseRequest` makes of a request, with `JSON.stringify` of it. -/
structure StageRequest where
  operationId : Text
  stage : Text
  handlerGeneration : Text
  json : Text

structure Tools where
  /-- `parseRequest` of `JSON.parse` -/
  parseRequest : Text → Option StageRequest
  textDigest : Text → Text
  /-- `new Date(milliseconds).toISOString()` -/
  isoString : Nat → Text
  refSchema : VersionedRef → Bool
  /-- `JSON.parse` of a progress and of a result, as far as they have the types of the fields -/
  parseProgress : Text → Option ExternalAgentRecordedProgress
  parseResult : Text → Option ExternalAgentRecordedResult

variable (tools : Tools)

abbrev Checks := List (Bool × Text)

/-- `externalTaskRefs` -/
def refChecks (refs : List VersionedRef) : Checks :=
  [(refs.length ≤ 64, prose "evidence_refs exceeds 64 entries" rfl),
    (refs.all tools.refSchema, prose "evidence_refs contains an invalid versioned reference" rfl),
    (refs.Nodup, prose "evidence_refs contains duplicates" rfl)]

def maxUnits : Int := 1000000000

def unitsValid (amount : Option Int) : Bool := amount.all fun amount => 0 ≤ amount && amount ≤ maxUnits

def ExternalAgentProgressSemantic.checks (semantic : ExternalAgentProgressSemantic) : Checks :=
  [(isString 128 semantic.phase, prose "progress.phase is invalid" rfl),
    (semantic.message.all (isString 2048), prose "progress.message is invalid" rfl),
    (unitsValid semantic.completedUnits, prose "progress.completed_units is invalid" rfl),
    (unitsValid semantic.totalUnits, prose "progress.total_units is invalid" rfl),
    (semantic.totalUnits.all fun total => semantic.completedUnits.any fun completed => completed ≤ total,
      prose "Progress units are inconsistent" rfl)] ++ refChecks tools semantic.evidenceRefs

def tokensValid (amount : Option Int) : Bool :=
  amount.all fun amount => Text.isSafeInteger amount && 0 ≤ amount

/-- `validateExternalAgentUsage` -/
def ExternalAgentUsage.checks (usage : ExternalAgentUsage) : Checks :=
  [(tokensValid usage.inputTokens, prose "usage.input_tokens is invalid" rfl),
    (tokensValid usage.outputTokens, prose "usage.output_tokens is invalid" rfl),
    (usage.accounting ≠ .unknown || (usage.inputTokens.isNone && usage.outputTokens.isNone &&
      usage.billedUsd.isNone), prose "UNKNOWN usage cannot fabricate measurements" rfl),
    (usage.accounting ≠ .subscription || usage.billedUsd.isNone,
      prose "Subscription usage cannot fabricate billed_usd" rfl),
    (usage.accounting ≠ .apiMetered || usage.inputTokens.isSome || usage.outputTokens.isSome ||
      usage.billedUsd.isSome, prose "API_METERED usage requires at least one measured field" rfl)]

def ExternalAgentResultSemantic.checks (semantic : ExternalAgentResultSemantic) : Checks :=
  [(decide (semantic.disposition = .failed) == semantic.output.isNone,
      prose "Successful or partial results require output; failed results must not fabricate output" rfl)] ++
    refChecks tools semantic.evidenceRefs ++
    [(decide (semantic.diagnostics.length ≤ 32), prose "diagnostics exceeds 32 entries" rfl),
      (semantic.diagnostics.all (isString 2048), prose "diagnostic is invalid" rfl),
      (semantic.disposition ≠ .failed || !semantic.diagnostics.isEmpty,
        prose "Failed results require a diagnostic" rfl)] ++ semantic.usage.checks

def Checks.pass (checks : Checks) : Bool := checks.all (·.1)

def maxProgressBytes : Nat := 16 * 1024

def maxResultBytes : Nat := 96 * 1024

end

section
open Json (Value optional canonicalJson)
variable (tools : Tools)

def ExternalAgentProgressIdentity.members (identity : ExternalAgentProgressIdentity) : List (Text × Value) :=
  [(text "task_id", .text identity.taskId), (text "operation_id", .text identity.operationId),
    (text "stage_index", .number identity.stageIndex), (text "stage", .text identity.stage),
    (text "attempt_ref", .text identity.attemptRef),
    (text "request_sha256", .text identity.requestSha256)]

def ExternalAgentProgressSemantic.members (semantic : ExternalAgentProgressSemantic) :
    List (Text × Value) :=
  [(text "phase", .text semantic.phase)] ++ optional (text "message") (semantic.message.map .text) ++
    optional (text "completed_units") (semantic.completedUnits.map .number) ++
    optional (text "total_units") (semantic.totalUnits.map .number) ++
    [(text "evidence_refs", .array (semantic.evidenceRefs.map (·.json)))]

def ExternalAgentProgressSemantic.encoded (semantic : ExternalAgentProgressSemantic) : Text :=
  canonicalJson (.object semantic.members)

def ExternalAgentRecordedProgress.encoded (progress : ExternalAgentRecordedProgress) : Text :=
  canonicalJson (.object ([(text "protocol", .text (prose "eliotr.external-agent-progress.v1" rfl))] ++
    progress.identity.members ++ [(text "lease_id", .text progress.leaseId),
      (text "cursor", .number progress.cursor)] ++ progress.semantic.members ++
    [(text "recorded_at", .text (tools.isoString progress.recordedAt))]))

def ExternalAgentUsage.members (usage : ExternalAgentUsage) : List (Text × Text) :=
  let tokens := fun (name : Text) (amount : Option Int) =>
    (amount.map fun amount => (name, Text.integer amount)).toList
  [(text "accounting", Text.jsonString usage.accounting.name)] ++
    tokens (text "input_tokens") usage.inputTokens ++ tokens (text "output_tokens") usage.outputTokens ++
    (usage.billedUsd.map fun amount => (text "billed_usd", amount)).toList

def ExternalAgentResultSemantic.members (semantic : ExternalAgentResultSemantic) : List (Text × Text) :=
  [(text "disposition", Text.jsonString semantic.disposition.name),
    (text "output", semantic.output.getD (text "null")),
    (text "evidence_refs", canonicalJson (.array (semantic.evidenceRefs.map (·.json)))),
    (text "diagnostics", canonicalJson (.array (semantic.diagnostics.map .text))),
    (text "usage", Json.writeObject semantic.usage.members)]

def ExternalAgentResultSemantic.encoded (semantic : ExternalAgentResultSemantic) : Text :=
  Json.writeObject semantic.members

def ExternalAgentRecordedResult.encoded (result : ExternalAgentRecordedResult) : Text :=
  let written := fun (name : Text) (value : Value) => (name, canonicalJson value)
  Json.writeObject
    ([written (text "protocol") (.text (prose "eliotr.external-agent-result.v1" rfl))] ++
      (result.identity.members.map fun field => written field.1 field.2) ++
      [written (text "lease_id") (.text result.leaseId),
        written (text "idempotency_key") (.text result.idempotencyKey)] ++ result.semantic.members ++
      [written (text "submitted_at") (.text (tools.isoString result.submittedAt))])

end

end Delivery
