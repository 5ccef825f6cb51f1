import Eliot.Async.Service
import Eliot.Json.Value
import Eliot.Relational.Table
import Eliot.Retrieval.Exhaustive
import Eliot.Sqlite.Engine

namespace Retrieval
open Async
open Relational (Table)
open Sqlite (lengthBetween)
open Text (jsonArray jsonString isSha256 prose)

inductive RetrievalQueryErrorCode where
  | inputInvalid
  | scopeStale
  | authorityStale
  | idempotencyConflict
  | resolutionUncertain

structure RetrievalQueryError where
  code : RetrievalQueryErrorCode
  message : Text
  retryable : Bool

/-- What a reconcile may throw: an error of the job store, one of the merge, the `SyntaxError` of a
    text that `JSON.parse` refuses, or an error of a port. -/
inductive ReconcileError where
  | query (error : RetrievalQueryError)
  | merge (error : ExhaustiveError ExhaustiveMergeErrorCode)
  | syntaxError
  | port (message : Text)

def staleError : RetrievalQueryError :=
  ⟨.scopeStale, prose "stored exhaustive scope is invalidated" rfl, false⟩

def uncertainError : RetrievalQueryError :=
  ⟨.resolutionUncertain, prose "exhaustive job settlement is uncertain" rfl, true⟩

def unavailableError : RetrievalQueryError :=
  ⟨.resolutionUncertain, prose "stored exhaustive receipt is unavailable" rfl, true⟩

def conflictError : RetrievalQueryError :=
  ⟨.idempotencyConflict, prose "idempotency identity is bound to different inputs" rfl, false⟩

def inputError (message : Text) : RetrievalQueryError := ⟨.inputInvalid, message, false⟩

def mismatchError : RetrievalQueryError :=
  inputError (prose "exhaustive denominator does not match the frozen scope" rfl)

/-- `mapJobStoreError` of an error that is not one of the store's own -/
def mapJobStoreError (message : Text) : RetrievalQueryError :=
  if text "RETRIEVAL_AUTHORITY_STALE" <:+: message then
    ⟨.authorityStale, prose "scope authorization is denied, purged or expired" rfl, false⟩
  else if text "RETRIEVAL_CONFLICT" <:+: message ∨
      text "RETRIEVAL_IDEMPOTENCY_CONFLICT" <:+: message then conflictError
  else uncertainError

section
open Json (Value)

mutual
def integersSafe : Value → Bool
  | .number value => Text.isSafeInteger value
  | .array items => itemsSafe items
  | .object members => membersSafe members
  | _ => true
def itemsSafe : List Value → Bool
  | [] => true
  | item :: items => integersSafe item && itemsSafe items
def membersSafe : List (Text × Value) → Bool
  | [] => true
  | (_, value) :: members => integersSafe value && membersSafe members
end

def canonicalRetrievalJson (value : Value) : Except RetrievalQueryError Text :=
  if integersSafe value then .ok (Json.canonicalJson value)
  else .error (inputError (prose "stored query result is not canonical" rfl))

def ExhaustiveSectionStatus.json : ExhaustiveSectionStatus → Value
  | .matched => .text (text "MATCHED")
  | .noMatch => .text (text "NO_MATCH")
  | .failedClosed => .text (text "FAILED_CLOSED")

def ExhaustiveSectionOutcome.json (outcome : ExhaustiveSectionOutcome) : Value :=
  .object ([(text "section_ref", .text outcome.sectionRef), (text "status", outcome.status.json),
    (text "matches", .number outcome.matchCount)] ++
      Json.optional (text "failure_code") (outcome.failureCode.map .text))

def ExhaustiveShardOutcome.json (outcome : ExhaustiveShardOutcome) : Value :=
  .object ([(text "shard_id", .text outcome.shardId)] ++
    (match outcome.disposition with
      | .settled ref =>
        [(text "disposition", .text (text "SETTLED")), (text "partial_result_ref", .text ref)]
      | .unsettled reason =>
        [(text "disposition", .text (text "UNSETTLED")), (text "reason_code", .text reason)]) ++
    [(text "scanned_sections", .number outcome.scannedSections),
      (text "matches", .number outcome.matchCount),
      (text "section_outcomes", .array (outcome.sectionOutcomes.map (·.json)))])

/-- `canonicalRetrievalJson` of the ids of a denominator -/
def denominatorJson (ids : List Text) : Text := jsonArray (ids.map jsonString)

end

section

structure JobResult where
  settledShards : Nat
  totalScannedSections : Nat
  totalMatches : Nat
  resultArtifactRef : Text
  coverageReceiptRef : Text
deriving DecidableEq

inductive JobState where
  | pending
  | complete (result : JobResult)
  | invalidated
deriving DecidableEq

structure ExhaustiveJobRow where
  jobId : Text
  idempotencyKey : Text
  requestDigest : Text
  scopeSnapshotId : Text
  scopeSnapshotRevision : Int
  scopeDigest : Text
  planId : Text
  coverageDenominatorRef : Text
  denominatorShardIdsJson : Text
  denominatorShards : Nat
  state : JobState

structure ExhaustiveShardRow where
  shardId : Text
  outcomeJson : Text
  outcomeDigest : Text

structure ExhaustiveJobReceipt where
  jobId : Text
  idempotencyKey : Text
  requestDigest : Text
  scopeSnapshotId : Text
  scopeSnapshotRevision : Int
  coverageDenominatorRef : Text
  denominatorShards : Nat
  settledShards : Nat
  totalScannedSections : Nat
  totalMatches : Nat
  resultArtifactRef : Text
  coverageReceiptRef : Text

/-- The rows of one job, with what happened to it: the result it was completed with, whether it was
    invalidated, which runs read its row and whether that was after it was invalidated, and the
    receipts that runs returned. -/
structure Journal where
  job : Option ExhaustiveJobRow
  shards : Table ExhaustiveShardRow Text ExhaustiveShardRow.shardId
  completed : Option JobResult
  invalidated : Bool
  reads : List (Nat × Bool)
  receipts : List (Nat × ExhaustiveJobReceipt)

def Journal.empty : Journal := ⟨none, .empty, none, false, [], []⟩

structure JobTools where
  sha256Hex : Text → Text
  /-- `JSON.parse` of the ids of a denominator -/
  parseIds : Text → Option (List Text)
  /-- `JSON.parse` of an outcome; what `json_extract` finds is part of it -/
  parseOutcome : Text → Option ExhaustiveShardOutcome

variable (tools : JobTools)

/-- The `CHECK`s of a new job. -/
def ExhaustiveJobRow.checked (row : ExhaustiveJobRow) : Bool :=
  lengthBetween 1 128 row.jobId && lengthBetween 1 256 row.idempotencyKey &&
    isSha256 row.requestDigest && 0 < row.scopeSnapshotRevision && isSha256 row.scopeDigest &&
    lengthBetween 1 256 row.planId && lengthBetween 1 256 row.coverageDenominatorRef &&
    Text.utf8Bytes row.denominatorShardIdsJson ≤ 65536 && 0 < row.denominatorShards

/-- `INSERT … ON CONFLICT DO NOTHING` of a job, where `live` is what the trigger finds out about the
    authority. -/
def Journal.insertJob (journal : Journal) (live : Bool) (row : ExhaustiveJobRow) : Except Text Journal :=
  if live = false then .error (text "RETRIEVAL_AUTHORITY_STALE")
  else if row.checked = false then .error (text "CHECK constraint failed")
  else .ok { journal with job := journal.job.or (some row) }

/-- The `CHECK`s of a shard. -/
def ExhaustiveShardRow.checked (row : ExhaustiveShardRow) : Bool :=
  lengthBetween 1 256 row.shardId && Text.utf8Bytes row.outcomeJson ≤ 262144 &&
    isSha256 row.outcomeDigest &&
    match tools.parseOutcome row.outcomeJson with
    | some outcome => outcome.shardId = row.shardId && outcome.isSettled
    | none => false

/-- `INSERT … ON CONFLICT DO NOTHING` of an outcome, whose job has to exist -/
def Journal.insertShard (journal : Journal) (row : ExhaustiveShardRow) : Except Text Journal :=
  if row.checked tools = false then .error (text "CHECK constraint failed")
  else match journal.shards.insert row with
    | none => .ok journal
    | some shards =>
      if journal.job.isNone then .error (text "FOREIGN KEY constraint failed")
      else .ok { journal with shards }

/-- `UPDATE … SET state = 'COMPLETE' … WHERE job_id = ? AND state = 'PENDING'` -/
def Journal.complete (journal : Journal) (result : JobResult) : Except Text Journal :=
  match journal.job with
  | none => .ok journal
  | some row =>
    if row.state ≠ .pending then .ok journal
    else if result.settledShards ≠ row.denominatorShards then .error (text "CHECK constraint failed")
    else .ok { journal with
      job := some { row with state := .complete result }, completed := some result }

def Journal.invalidate (journal : Journal) : Journal :=
  match journal.job with
  | none => journal
  | some row => { journal with job := some { row with state := .invalidated }, invalidated := true }

end

inductive Fault where
  | none
  | refused (message : Text)
  | lost (message : Text)

structure JobChoice where
  fault : Fault
  live : Bool
  port : Option Text
  outcome : Except Text ExhaustiveShardOutcome

abbrev Reconciling := Program Journal JobChoice Empty ReconcileError

def failJob {α : Type} (error : RetrievalQueryError) : Reconciling α := .throw (.query error)

def execute {α : Type} (fails : Text → RetrievalQueryError)
    (statement : JobChoice → Journal → Except Text (α × Journal)) : Reconciling α :=
  .request fun choice journal =>
    match choice.fault with
    | .refused message => (.error (.query (fails message)), journal)
    | .none =>
      match statement choice journal with
      | .ok (value, after) => (.ok value, after)
      | .error message => (.error (.query (fails message)), journal)
    | .lost message =>
      match statement choice journal with
      | .ok (_, after) => (.error (.query (fails message)), after)
      | .error message => (.error (.query (fails message)), journal)

def write (statement : JobChoice → Journal → Except Text Journal) : Reconciling Unit :=
  execute mapJobStoreError fun choice journal => (statement choice journal).map fun after => ((), after)

def readJobRow (number : Nat) : Reconciling (Option ExhaustiveJobRow) :=
  execute (fun _ => uncertainError) fun _ journal =>
    .ok (journal.job, { journal with reads := journal.reads ++ [(number, journal.invalidated)] })

def readShards {α : Type} (query : Journal → α) : Reconciling α :=
  execute (fun _ => uncertainError) fun _ journal => .ok (query journal, journal)

/-- `requireCurrentScope` -/
def requireCurrentScope : Reconciling Unit :=
  .request fun choice journal =>
    match choice.port with
    | some message => (.error (.port message), journal)
    | none => (.ok (), journal)

def checkBudget : Reconciling Unit :=
  .act fun choice journal =>
    match choice.port with
    | some message => (.error (.port message), journal)
    | none => (.ok (), journal)

def executeShard : Reconciling ExhaustiveShardOutcome :=
  .request fun choice journal => (choice.outcome.mapError .port, journal)

def requireJobRow (number : Nat) : Reconciling ExhaustiveJobRow := do
  match ← readJobRow number with
  | none => failJob uncertainError
  | some row => return row

section
variable (tools : JobTools)

structure RetrievalQueryAccess where
  principalRef : Text
  clientClass : Text
  credentialGeneration : Text

structure ExhaustiveJobInput where
  requestDigest : Text
  scope : ScopeSnapshot
  plan : ExactScanPlan

/-- `/[\u0000-\u0020\u007f]/` -/
def isUnprintable (unit : Nat) : Bool := unit ≤ 0x20 || unit = 0x7f

def checkIdempotencyKey (key : Text) : Reconciling Unit :=
  if key.length < 1 ∨ key.length > 256 ∨ key.any isUnprintable then
    failJob (inputError (prose "idempotency-key is required" rfl))
  else return ()

def checkRequestDigest (digest : Text) : Reconciling Unit :=
  if isSha256 digest = false then
    failJob (inputError (prose "exhaustive job identity is invalid" rfl))
  else return ()

/-- The tests of `requireDenominatorForScope`. -/
def denominatorFits (scope : ScopeSnapshot) (plan : ExactScanPlan) : Bool :=
  !(plan.planId.length = 0 || plan.planId.length > 256 || plan.planId.any isUnprintable ||
    plan.coverageDenominatorRef.length = 0 || plan.coverageDenominatorRef.length > 256 ||
    plan.shards.length = 0) &&
  !(plan.scopeSnapshot.snapshotId ≠ scope.snapshotId || plan.scopeSnapshot.revision ≠ scope.revision ||
    plan.scopeSnapshot.digest ≠ scope.digest) &&
  (plan.shards.map (·.shardId)).Nodup

def requireDenominatorForScope (scope : ScopeSnapshot) (plan : ExactScanPlan) :
    Reconciling (List Text) :=
  if denominatorFits scope plan = false then failJob mismatchError
  else return plan.shards.map (·.shardId)

def exhaustiveJobId (access : RetrievalQueryAccess) (key : Text) : Text :=
  text "exhaustive-job-" ++ (tools.sha256Hex (Json.canonicalJson (.object [
    (text "principal", .text access.principalRef), (text "client", .text access.clientClass),
    (text "credential", .text access.credentialGeneration), (text "key", .text key)]))).take 48

def ExhaustiveJobRow.receipt (row : ExhaustiveJobRow) (key : Text) (result : JobResult) :
    ExhaustiveJobReceipt where
  jobId := row.jobId
  idempotencyKey := key
  requestDigest := row.requestDigest
  scopeSnapshotId := row.scopeSnapshotId
  scopeSnapshotRevision := row.scopeSnapshotRevision
  coverageDenominatorRef := row.coverageDenominatorRef
  denominatorShards := row.denominatorShards
  settledShards := result.settledShards
  totalScannedSections := result.totalScannedSections
  totalMatches := result.totalMatches
  resultArtifactRef := result.resultArtifactRef
  coverageReceiptRef := result.coverageReceiptRef

def decodeJobReceipt (row : ExhaustiveJobRow) (key : Text) : Reconciling ExhaustiveJobReceipt :=
  match row.state with
  | .invalidated => failJob staleError
  | .pending => failJob unavailableError
  | .complete result =>
    if result.settledShards ≠ row.denominatorShards then failJob unavailableError
    else return row.receipt key result

variable (access : RetrievalQueryAccess) (key : Text)

/-- The row that `start` inserts. -/
def ExhaustiveJobInput.row (input : ExhaustiveJobInput) (ids : List Text) : ExhaustiveJobRow where
  jobId := exhaustiveJobId tools access key
  idempotencyKey := key
  requestDigest := input.requestDigest
  scopeSnapshotId := input.scope.snapshotId
  scopeSnapshotRevision := input.scope.revision
  scopeDigest := input.scope.digest
  planId := input.plan.planId
  coverageDenominatorRef := input.plan.coverageDenominatorRef
  denominatorShardIdsJson := denominatorJson ids
  denominatorShards := ids.length
  state := .pending

def ExhaustiveJobRow.binds (settled : ExhaustiveJobRow) (input : ExhaustiveJobInput) (ids : List Text) :
    Bool :=
  settled.requestDigest = input.requestDigest && settled.scopeSnapshotId = input.scope.snapshotId &&
    settled.scopeSnapshotRevision = input.scope.revision && settled.scopeDigest = input.scope.digest &&
    settled.planId = input.plan.planId &&
    settled.coverageDenominatorRef = input.plan.coverageDenominatorRef &&
    settled.denominatorShardIdsJson = denominatorJson ids

def start (number : Nat) (input : ExhaustiveJobInput) : Reconciling (Option ExhaustiveJobReceipt) := do
  checkIdempotencyKey key
  checkRequestDigest input.requestDigest
  let ids ← requireDenominatorForScope input.scope input.plan
  if Text.utf8Bytes (denominatorJson ids) > 65536 then
    failJob (inputError (prose "exhaustive denominator exceeds its bound" rfl))
  else
    write fun choice journal => journal.insertJob choice.live (input.row tools access key ids)
    let settled ← requireJobRow number
    if settled.binds input ids = false then failJob conflictError
    else match settled.state with
      | .complete _ => return some (← decodeJobReceipt settled key)
      | .pending => return none
      | .invalidated => failJob staleError

/-- One row of the outcomes as `settledOutcomes` reads it. -/
def readOutcome (row : ExhaustiveShardRow) :
    Except RetrievalQueryError (Text × ExhaustiveShardOutcome) := do
  match tools.parseOutcome row.outcomeJson with
  | none => .error unavailableError
  | some parsed =>
    let json ← canonicalRetrievalJson parsed.json
    if json ≠ row.outcomeJson then .error unavailableError
    else if tools.sha256Hex row.outcomeJson ≠ row.outcomeDigest then .error unavailableError
    else return (row.shardId, parsed)

def inOrder (ids : List Text) (byShard : List (Text × ExhaustiveShardOutcome)) :
    List ExhaustiveShardOutcome :=
  ids.filterMap fun id => (byShard.find? fun entry => entry.1 = id).map (·.2)

def settledOutcomes (number : Nat) : Reconciling (List ExhaustiveShardOutcome) := do
  let row ← requireJobRow number
  if row.state = .invalidated then failJob staleError
  else
    match tools.parseIds row.denominatorShardIdsJson with
    | none => failJob unavailableError
    | some ids =>
      let rows ← readShards (·.shards.rows)
      match rows.mapM (readOutcome tools) with
      | .error error => failJob error
      | .ok byShard => return inOrder ids byShard

def journaledAs (outcomeJson outcomeDigest : Text) (stored : Option ExhaustiveShardRow) : Bool :=
  stored.any fun row => row.outcomeJson = outcomeJson && row.outcomeDigest = outcomeDigest

def recordSettledOutcome (number : Nat) (outcome : ExhaustiveShardOutcome) : Reconciling Unit := do
  if outcome.isSettled = false then
    failJob (inputError (prose "only settled shard outcomes are journaled; unknown outcomes keep their denominator seat" rfl))
  else
    let row ← requireJobRow number
    if row.state = .invalidated then failJob staleError
    else
      match tools.parseIds row.denominatorShardIdsJson with
      | none => .throw .syntaxError
      | some ids =>
        if outcome.shardId ∉ ids then
          failJob (inputError (prose "exhaustive outcome is outside the planned denominator" rfl))
        else
          match canonicalRetrievalJson outcome.json with
          | .error error => failJob error
          | .ok outcomeJson =>
            if Text.utf8Bytes outcomeJson > 262144 then
              failJob (inputError (prose "exhaustive outcome exceeds its bound" rfl))
            else
              let outcomeDigest := tools.sha256Hex outcomeJson
              if row.state ≠ .pending then
                let existing ← readShards (·.shards.find outcome.shardId)
                if journaledAs outcomeJson outcomeDigest existing then return ()
                else failJob conflictError
              else
                write fun _ journal =>
                  journal.insertShard tools ⟨outcome.shardId, outcomeJson, outcomeDigest⟩
                let journaled ← readShards (·.shards.find outcome.shardId)
                if journaledAs outcomeJson outcomeDigest journaled then return ()
                else failJob conflictError

def ExhaustiveMergeResult.columns (merged : ExhaustiveMergeResult) : JobResult where
  settledShards := merged.settledShards
  totalScannedSections := merged.totalScannedSections
  totalMatches := merged.totalMatches
  resultArtifactRef := merged.resultArtifactRef
  coverageReceiptRef := merged.coverageReceiptRef

def ExhaustiveJobRow.plans (row : ExhaustiveJobRow) (plan : ExactScanPlan) (ids : List Text) : Bool :=
  row.planId = plan.planId && row.coverageDenominatorRef = plan.coverageDenominatorRef &&
    row.denominatorShardIdsJson = denominatorJson ids &&
    row.scopeSnapshotId = plan.scopeSnapshot.snapshotId &&
    row.scopeSnapshotRevision = plan.scopeSnapshot.revision && row.scopeDigest = plan.scopeSnapshot.digest

def finalize (number : Nat) (plan : ExactScanPlan) (outcomes : List ExhaustiveShardOutcome) :
    Reconciling ExhaustiveJobReceipt := do
  let row ← requireJobRow number
  match row.state with
  | .complete _ => decodeJobReceipt row row.idempotencyKey
  | .invalidated => failJob staleError
  | .pending =>
    let ids ← requireDenominatorForScope plan.scopeSnapshot plan
    if row.plans plan ids = false then
      failJob (inputError (prose "exhaustive denominator does not match the recorded job" rfl))
    else
      match mergeExhaustiveShards plan outcomes with
      | .error error => failJob (inputError error.message)
      | .ok merged =>
        if merged.coverageClaim ≠ .complete then
          failJob (inputError (prose "exhaustive merge did not earn COMPLETE; the job stays unfinished" rfl))
        else if merged.coverageDenominatorRef ≠ plan.coverageDenominatorRef then
          failJob unavailableError
        else
          write fun _ journal => journal.complete merged.columns
          let settled ← requireJobRow number
          if settled.state ≠ .complete merged.columns then failJob conflictError
          else decodeJobReceipt settled settled.idempotencyKey

end

section
variable (tools : JobTools) (access : RetrievalQueryAccess) (key : Text)

inductive ExhaustiveReconcileStatus where
  | complete (receipt : ExhaustiveJobReceipt)
  | unfinished (jobId coverageDenominatorRef : Text) (denominatorShards settledShards : Nat)
      (unsettledShardIds : List Text)

def unfinished (plan : ExactScanPlan) (settled : List ExhaustiveShardOutcome) :
    ExhaustiveReconcileStatus :=
  .unfinished (exhaustiveJobId tools access key) plan.coverageDenominatorRef plan.shards.length
    settled.length ((plan.shards.map (·.shardId)).filter fun id => id ∉ settled.map (·.shardId))

def settleShards (number : Nat) (plan : ExactScanPlan) (journaled : List Text) :
    List ExactScanShard → Reconciling (Option ExhaustiveReconcileStatus)
  | [] => return none
  | shard :: shards => do
    if shard.shardId ∈ journaled then settleShards number plan journaled shards
    else
      checkBudget
      requireCurrentScope
      let outcome ← executeShard
      if outcome.isSettled = false then
        return some (unfinished tools access key plan (← settledOutcomes tools number))
      else
        recordSettledOutcome tools number outcome
        settleShards number plan journaled shards

def reconcileExhaustiveJob (number : Nat) (input : ExhaustiveJobInput) :
    Reconciling ExhaustiveReconcileStatus := do
  match ← start tools access key number input with
  | some receipt => return .complete receipt
  | none =>
    requireCurrentScope
    checkBudget
    let journaled ← settledOutcomes tools number
    match ← settleShards tools access key number input.plan (journaled.map (·.shardId))
        input.plan.shards with
    | some status => return status
    | none =>
      let outcomes ← settledOutcomes tools number
      match mergeExhaustiveShards input.plan outcomes with
      | .error error => .throw (.merge error)
      | .ok merged =>
        if merged.coverageClaim ≠ .complete then
          return unfinished tools access key input.plan outcomes
        else return .complete (← finalize number input.plan outcomes)

inductive JobRequest where
  | reconcile (input : ExhaustiveJobInput)
  | invalidate

def jobService : Service Journal JobChoice JobRequest ReconcileError where
  serve number request :=
    match request with
    | .reconcile input => do
      match ← reconcileExhaustiveJob tools access key number input with
      | .complete receipt =>
        Program.assign fun journal => { journal with receipts := journal.receipts ++ [(number, receipt)] }
      | .unfinished .. => return ()
    | .invalidate => Program.assign Journal.invalidate
  admits _ _ := true

end

end Retrieval
