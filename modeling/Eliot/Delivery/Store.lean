import Eliot.Async.Service
import Eliot.Delivery.Tasks
import Mathlib.Data.List.MinMax
import Mathlib.Data.Prod.Lex

namespace Delivery
open Async
open Relational (Table)
open Text (isSha256 prose)

section
variable {tools : Tools} {α : Type}

inductive Fault where
  | none
  | refused (message : Text)
  | lost (message : Text)
deriving DecidableEq

/-- How the environment treats an action: how long after the last one it takes place, what becomes of
    its statement, whether the schema is there, the UUID that is drawn, whether the inserts of a
    batch into the outbox pass, and what goes wrong with the outbox otherwise. -/
structure Choice where
  elapsed : Nat
  fault : Fault
  ready : Bool
  uuid : Text
  outbox : Bool
  outboxError : Option Failure

abbrev Calls (tools : Tools) := Program (World tools) Choice Empty Failure

def fail (error : ExternalAgentTaskError) : Calls tools α := .throw (.task error)

/-- `externalTaskInput` -/
def input (condition : Bool) (message : Text) : Calls tools Unit :=
  if condition then return () else fail (inputError message)

def inputAll (checks : Checks) : Calls tools Unit := checks.forM fun check => input check.1 check.2

/-- `externalTaskDeny` -/
def deny (condition : Bool) (message : Text) : Calls tools Unit :=
  if condition then return () else fail (deniedError message)

def World.advance (world : World tools) (choice : Choice) : World tools :=
  { world with clock := world.clock + choice.elapsed }

/-- `this.#now()` -/
def currentTime : Calls tools Nat :=
  .act fun choice world => (.ok (world.advance choice).clock, world.advance choice)

def randomUuid : Calls tools Text :=
  .act fun choice world => (.ok choice.uuid, world.advance choice)

def query (error : ExternalAgentTaskError) (read : World tools → α) : Calls tools α :=
  .request fun choice world =>
    let now := world.advance choice
    match choice.fault with
    | .none => (.ok (read now), now)
    | .refused _ | .lost _ => (.error (.task error), now)

def execute (statement : Choice → World tools → Except Text (α × World tools)) :
    Calls tools (Except Text α) :=
  .request fun choice world =>
    let now := world.advance choice
    match choice.fault with
    | .refused message => (.ok (.error message), now)
    | .none =>
      match statement choice now with
      | .ok (value, after) => (.ok (.ok value), after)
      | .error message => (.ok (.error message), now)
    | .lost message =>
      match statement choice now with
      | .ok (_, after) => (.ok (.error message), after)
      | .error _ => (.ok (.error message), now)

/-- `#schema` -/
def schema : Calls tools Unit :=
  .request fun choice world =>
    let now := world.advance choice
    if choice.fault = .none ∧ choice.ready then (.ok (), now) else (.error (.task schemaError), now)

end

section
variable {tools : Tools}

structure ProjectClientGrant where
  protocol : Text
  grantId : Text
  revision : Nat
  projectId : Text
  state : Text
  granteeIssuer : Text
  granteeSubject : Text
  authenticationMethod : Text
  allowedOperations : List Text
  expiresAt : Nat

structure ExternalAgentTaskActor where
  grant : ProjectClientGrant
  principalRef : Text
  credentialGeneration : Text

def requireGrant (actor : ExternalAgentTaskActor) (now : Nat) : Calls tools ProjectClientGrant := do
  let grant := actor.grant
  deny (grant.protocol = prose "eliotr.project-client-grant.v1" rfl && grant.state = text "ACTIVE")
    (prose "An active project grant is required" rfl)
  deny (grant.authenticationMethod = text "service_token" && grant.granteeSubject = actor.principalRef)
    (prose "The grant does not bind the authenticated service actor" rfl)
  deny (text "run" ∈ grant.allowedOperations)
    (prose "The grant does not authorize Research execution" rfl)
  deny (grant.revision ≤ Text.maxSafeInteger && 1 ≤ grant.revision && now < grant.expiresAt)
    (prose "The project grant is expired or invalid" rfl)
  deny (isString 256 actor.credentialGeneration)
    (prose "The authenticated credential generation is invalid" rfl)
  return grant

/-- `externalTaskIso`; a time is its milliseconds. -/
def iso (milliseconds : Nat) : Calls tools Nat := do
  input (milliseconds ≤ Text.maxSafeInteger) (prose "Time must be a non-negative integer" rfl)
  return milliseconds

def ProjectClientGrant.owns (grant : ProjectClientGrant) (identity : TaskIdentity) : Bool :=
  identity.clientGrantId = grant.grantId && identity.clientGrantRevision = grant.revision &&
    identity.granteeIssuer = grant.granteeIssuer && identity.granteeSubject = grant.granteeSubject

end

section
variable {tools : Tools}

structure BoundRow extends TaskRow where
  binding : Binding

def World.boundRow (world : World tools) (row : TaskRow) : Option BoundRow :=
  (world.bound row).map fun binding => ⟨row, binding⟩

def World.currentRow (world : World tools) (row : TaskRow) : Option BoundRow :=
  (world.current row).map fun binding => ⟨row, binding⟩

/-- The rows of `research_external_agent_task_current`. -/
def World.currentRows (world : World tools) : List BoundRow := world.tasks.rows.filterMap world.currentRow

def leaseValid (lease : Lease) : Bool :=
  isLeaseId lease.id && isWorkerSlot lease.slot && 1 ≤ lease.credentialGeneration.length &&
    lease.credentialGeneration.length ≤ 256 && 1 ≤ lease.revision

def resultValid (tools : Tools) (result : TaskResult) : Bool :=
  isSha256 result.sha256 && 1 ≤ result.idempotencyKey.length && result.idempotencyKey.length ≤ 256 &&
    tools.textDigest result.json = result.sha256

/-- The tests of `#validateRow` on the binding of a row. -/
def identityValid (row : BoundRow) : Bool :=
  isTaskId row.taskId && isSha256 row.requestSha256 && row.taskId = taskId row.requestSha256 &&
    researchWorkflowStages.idxOf row.stage = row.stageIndex &&
    row.stageIndex < researchWorkflowStages.length && 1 ≤ row.operationId.length &&
    row.operationId.length ≤ 128 && 1 ≤ row.attemptRef.length && row.attemptRef.length ≤ 128 &&
    1 ≤ row.clientGrantRevision && row.clientGrantRevision ≤ Text.maxSafeInteger

/-- The tests of `#validateRow` on the state of a row. -/
def stateValid (tools : Tools) (row : BoundRow) : Bool :=
  (match row.state with
    | .available => true
    | .leased lease => leaseValid lease
    | .recorded lease result => leaseValid lease && resultValid tools result) &&
  row.createdAt ≤ row.updatedAt

/-- `#validateRow` -/
def validateRow (row : BoundRow) : Calls tools StageRequest :=
  if identityValid row = false then fail (corruptError (prose "External task binding is corrupt" rfl))
  else match tools.parseRequest row.binding.requestJson with
    | none => fail (corruptError (prose "External task request is corrupt" rfl))
    | some request =>
      if requestFits tools row.toTaskIdentity row.binding.requestJson = false then
        fail (corruptError (prose "External task request identity is corrupt" rfl))
      else if stateValid tools row = false then
        fail (corruptError (prose "External task delivery state is corrupt" rfl))
      else return request

/-- `#task` -/
def readTask (id : Text) : Calls tools (Option BoundRow) := do
  let row ← query (uncertainError (prose "External task read is unavailable" rfl)) fun world =>
    (world.tasks.find id).bind world.boundRow
  match row with
  | none => return none
  | some row =>
    let _ ← validateRow row
    return some row

/-- `#bound` -/
def readBound (id : Text) (grant : ProjectClientGrant) : Calls tools BoundRow := do
  let row ← query (uncertainError (prose "External task read is unavailable" rfl)) fun world =>
    ((world.tasks.find id).filter fun row => grant.owns row.toTaskIdentity).bind world.boundRow
  match row with
  | none => fail ⟨.notFound, 404, prose "External task does not exist under this exact grant" rfl, false⟩
  | some row =>
    let _ ← validateRow row
    return row

/-- `#current` -/
def readCurrent (id : Text) : Calls tools (Option BoundRow) :=
  query (uncertainError (prose "External task authority read is unavailable" rfl)) fun world =>
    (world.tasks.find id).bind world.currentRow

def leaseMs : Nat := 120000

def minLeaseMs : Nat := 5000

/-- `#leaseExpiry` -/
def leaseExpiry (row : BoundRow) (grant : ProjectClientGrant) (now : Nat) : Calls tools Nat :=
  let expiry := min (now + leaseMs) (min row.binding.budgetExpiresAtMs grant.expiresAt)
  if expiry ≤ now + minLeaseMs then
    fail (expiredError (prose "The workflow attempt has insufficient current lease time" rfl))
  else iso expiry

/-- `#latestCursor` -/
def readLatestCursor (id : Text) : Calls tools Nat := do
  match ← execute fun _ world => .ok (world.latestCursor id, world) with
  | .error message => fail (storageFailure message)
  | .ok cursor =>
    if cursor > 4096 then fail (corruptError (prose "External task progress cursor is corrupt" rfl))
    else return cursor

/-- `#progress` -/
def readProgress (id : Text) (cursor : Nat) : Calls tools (Option ProgressRow) :=
  query (uncertainError (prose "External task progress read is unavailable" rfl))
    (·.progress.find (id, cursor))

end

section
variable {tools : Tools}

structure ExternalAgentTaskPublication where
  operationId : Text
  stageIndex : Nat
  attemptRef : Text
  requestSha256 : Text
  grant : ProjectClientGrant

def ExternalAgentTaskPublication.identity (publication : ExternalAgentTaskPublication) (now : Nat) :
    TaskIdentity where
  taskId := taskId publication.requestSha256
  operationId := publication.operationId
  stageIndex := publication.stageIndex
  stage := researchWorkflowStages.getD publication.stageIndex []
  attemptRef := publication.attemptRef
  requestSha256 := publication.requestSha256
  projectId := publication.grant.projectId
  clientGrantId := publication.grant.grantId
  clientGrantRevision := publication.grant.revision
  granteeIssuer := publication.grant.granteeIssuer
  granteeSubject := publication.grant.granteeSubject
  createdAt := now

def publish (publication : ExternalAgentTaskPublication) : Calls tools BoundRow := do
  schema
  let now ← currentTime
  input (isString 128 publication.operationId) (text "operation_id is invalid")
  input (publication.stageIndex < researchWorkflowStages.length) (text "stage_index is invalid")
  input (isString 128 publication.attemptRef) (text "attempt_ref is invalid")
  input (isSha256 publication.requestSha256) (text "request_sha256 is invalid")
  let grant ← requireGrant ⟨publication.grant, publication.grant.granteeSubject, text "publication"⟩ now
  let created ← iso now
  let identity := publication.identity created
  let inserted ← execute fun _ world => (world.insertTask identity).map fun after => ((), after)
  match ← readTask identity.taskId with
  | none =>
    match inserted with
    | .error message => fail (storageFailure message)
    | .ok _ => fail (uncertainError (prose "External task publication could not be reconciled" rfl))
  | some row =>
    if row.operationId ≠ publication.operationId || row.stageIndex ≠ publication.stageIndex ||
        row.attemptRef ≠ publication.attemptRef || row.requestSha256 ≠ publication.requestSha256 ||
        row.projectId ≠ grant.projectId || !grant.owns row.toTaskIdentity then
      fail (conflictError (prose "External task identity conflicts with an existing publication" rfl))
    else return row

end

section
variable {tools : Tools}

inductive Pulled where
  | idle (polledAt : Nat)
  | task (row : BoundRow) (lease : Lease) (request : StageRequest) (cursor polledAt : Nat)

/-- `#pullEnvelope` -/
def pullEnvelope (row : BoundRow) (polledAt : Nat) : Calls tools Pulled := do
  let request ← validateRow row
  if row.binding.workflowState = .cancelled then fail cancelledError
  else match row.state with
    | .leased lease => return .task row lease request (← readLatestCursor row.taskId) polledAt
    | _ => fail (corruptError (prose "Claimed external task is not leased" rfl))

def TaskState.leasedBy : TaskState → Option Lease
  | .leased lease => some lease
  | _ => none

/-- The rows that `LIMIT 1` takes one of, in the order of `created_at, task_id`. -/
def firstRow (rank : BoundRow → Nat) (rows : List BoundRow) : Option BoundRow :=
  rows.argmin fun row => toLex (rank row, toLex (row.createdAt, row.taskId))

def World.activeIn (world : World tools) (grant : ProjectClientGrant) (slot : Text) (now : Nat) :
    Option BoundRow :=
  firstRow (fun _ => 0) (world.currentRows.filter fun row => grant.owns row.toTaskIdentity &&
    row.state.leasedBy.any fun lease => lease.slot = slot && now < lease.expiresAt)

def TaskState.claimable (state : TaskState) (now : Nat) : Bool :=
  match state with
  | .available => true
  | .leased lease => lease.expiresAt ≤ now
  | .recorded _ _ => false

def claimRank (slot : Text) (row : BoundRow) : Nat :=
  match row.state with
  | .leased lease => if lease.slot = slot then 0 else 1
  | _ => 2

def World.candidate (world : World tools) (grant : ProjectClientGrant) (slot : Text) (now : Nat) :
    Option BoundRow :=
  firstRow (claimRank slot) (world.currentRows.filter fun row => grant.owns row.toTaskIdentity &&
    row.state.claimable now)

/-- The two `UPDATE`s that lease a task, where it still is as it was read. -/
def World.claim (world : World tools) (candidate : BoundRow) (lease : Lease) (now : Nat) :
    Except Text (World tools) :=
  match world.tasks.find candidate.taskId with
  | none => .ok world
  | some row =>
    match candidate.state, row.state with
    | .available, .available => world.updateTask row (.leased { lease with revision := 1 }) now
    | .leased before, .leased held =>
      if held.id = before.id ∧ held.revision = before.revision ∧ held.expiresAt ≤ now then
        world.updateTask row (.leased { lease with revision := held.revision + 1 }) now
      else .ok world
    | _, _ => .ok world

def World.claimed (world : World tools) (grant : ProjectClientGrant) (slot leaseId : Text) :
    Option BoundRow :=
  world.currentRows.find? fun row => grant.owns row.toTaskIdentity &&
    row.state.lease.any fun lease => lease.id = leaseId && lease.slot = slot

def deliver (row : BoundRow) (actor : ExternalAgentTaskActor) (message : Text) (polledAt : Nat) :
    Calls tools Pulled :=
  if row.state.lease.any fun lease => lease.credentialGeneration = actor.credentialGeneration then
    pullEnvelope row polledAt
  else fail (expiredError message)

def slotMessage : Text := prose "This worker slot is leased under another credential generation" rfl

def pullUnavailable : ExternalAgentTaskError :=
  uncertainError (prose "External task pull is unavailable" rfl)

def readbackUnavailable : ExternalAgentTaskError :=
  uncertainError (prose "External task lease readback is unavailable" rfl)

def pullPass (actor : ExternalAgentTaskActor) (slot : Text) (now polledAt : Nat) (last : Bool) :
    Calls tools (Option Pulled) := do
  let grant := actor.grant
  match ← query pullUnavailable (·.candidate grant slot polledAt) with
  | none => return some (.idle polledAt)
  | some candidate =>
    let _ ← validateRow candidate
    let leaseId := text "external-lease:" ++ (← randomUuid)
    input (isLeaseId leaseId) (prose "randomUUID returned an invalid lease identity" rfl)
    let expires ← leaseExpiry candidate grant now
    let mutation ← execute fun _ world =>
      (world.claim candidate ⟨leaseId, slot, actor.credentialGeneration, 0, expires⟩ polledAt).map
        fun after => ((), after)
    match ← query readbackUnavailable (·.claimed grant slot leaseId) with
    | some row =>
      return some (← deliver row actor
        (prose "External task lease uses another credential generation" rfl) polledAt)
    | none =>
      match ← query readbackUnavailable (·.activeIn grant slot polledAt) with
      | some row => return some (← deliver row actor slotMessage polledAt)
      | none =>
        match last, mutation with
        | true, .error message => fail (storageFailure message)
        | _, _ => return none

def pull (actor : ExternalAgentTaskActor) (slot : Text) : Calls tools Pulled := do
  schema
  let now ← currentTime
  let grant ← requireGrant actor now
  input (isWorkerSlot slot) (text "worker_slot is invalid")
  let polledAt ← iso now
  match ← query pullUnavailable (·.activeIn grant slot polledAt) with
  | some row => deliver row actor slotMessage polledAt
  | none =>
    match ← pullPass actor slot now polledAt false with
    | some pulled => return pulled
    | none =>
      match ← pullPass actor slot now polledAt true with
      | some pulled => return pulled
      | none => fail (uncertainError (prose "External task lease could not be reconciled" rfl))

end

section
variable {tools : Tools}

structure ExternalAgentProgressInput where
  taskId : Text
  leaseId : Text
  cursor : Nat
  semantic : ExternalAgentProgressSemantic

structure ProgressReceipt where
  taskId : Text
  cursor : Nat
  leaseId : Text
  progressSha256 : Text
  recordedAt : Nat
  leaseExpiresAt : Nat

/-- `externalTaskCanonical`: the text of a value, if it is not too long. -/
def boundedText (encoded : Text) (most : Nat) (message : Text) : Calls tools Text := do
  input (Text.utf8Bytes encoded ≤ most) message
  return encoded

/-- `decodeExternalAgentRecordedProgress` -/
def decodeProgress (row : ProgressRow) (task : BoundRow) : Calls tools ExternalAgentRecordedProgress :=
  let corrupt : Calls tools ExternalAgentRecordedProgress :=
    fail (corruptError (prose "Recorded external task progress is corrupt" rfl))
  match tools.parseProgress row.progressJson with
  | none => corrupt
  | some progress =>
    if isTaskId task.taskId && isSha256 task.requestSha256 && isLeaseId row.leaseId &&
        row.taskId = task.taskId && 1 ≤ row.cursor && row.cursor ≤ 4096 &&
        researchWorkflowStages.idxOf task.stage = task.stageIndex &&
        progress.identity = task.toExternalAgentProgressIdentity && progress.leaseId = row.leaseId &&
        progress.cursor = row.cursor && (progress.semantic.checks tools).pass &&
        progress.recordedAt = row.createdAt && progress.encoded tools = row.progressJson then
      return progress
    else corrupt

/-- `#reconcileProgress` -/
def reconcileProgress (row : ProgressRow) (task : BoundRow) (leaseId semanticText : Text)
    (leaseExpiresAt : Option Nat) : Calls tools ProgressReceipt := do
  if row.leaseId ≠ leaseId then
    fail (conflictError (prose "Progress cursor was already used under another lease" rfl))
  else
    let current ← readCurrent task.taskId
    if task.binding.workflowState = .cancelled then fail cancelledError
    else match current, task.state with
      | some current, .leased lease =>
        let now ← currentTime
        if lease.id ≠ leaseId || !(current.state.lease.any fun other =>
            other.id = leaseId && other.credentialGeneration = lease.credentialGeneration) ||
            leaseExpiresAt ≠ some lease.expiresAt || lease.expiresAt ≤ now then
          fail replacedError
        else if isSha256 row.progressSha256 = false ||
            tools.textDigest row.progressJson ≠ row.progressSha256 then
          fail (corruptError (prose "Recorded external task progress digest is corrupt" rfl))
        else
          let progress ← decodeProgress row task
          let recorded ← boundedText progress.semantic.encoded maxProgressBytes
            (prose "Recorded progress payload exceeds its byte envelope" rfl)
          if recorded ≠ semanticText then
            fail (conflictError (prose "Progress cursor was already used for different content" rfl))
          else return ⟨row.taskId, row.cursor, row.leaseId, row.progressSha256, row.createdAt,
            lease.expiresAt⟩
      | _, _ => fail replacedError

def World.renew (world : World tools) (row : ProgressRow) (expires : Nat) : Except Text (World tools) :=
  match world.tasks.find row.taskId with
  | none => world.insertProgress row
  | some task =>
    match task.state with
    | .leased lease =>
      if lease.id = row.leaseId ∧ row.createdAt < lease.expiresAt then
        (world.updateTask task (.leased { lease with expiresAt := expires }) row.createdAt).bind
          fun renewed => renewed.insertProgress row
      else world.insertProgress row
    | _ => world.insertProgress row

def recordProgress (actor : ExternalAgentTaskActor) (value : ExternalAgentProgressInput) :
    Calls tools ProgressReceipt := do
  schema
  let now ← currentTime
  let grant ← requireGrant actor now
  input (isTaskId value.taskId && isLeaseId value.leaseId)
    (prose "Task or lease identity is invalid" rfl)
  input (1 ≤ value.cursor && value.cursor ≤ 4096) (text "Progress cursor is invalid")
  inputAll (value.semantic.checks tools)
  let semanticText ← boundedText value.semantic.encoded maxProgressBytes
    (prose "Progress payload exceeds its byte envelope" rfl)
  let row ← readBound value.taskId grant
  if row.binding.workflowState = .cancelled then fail cancelledError
  else
    let current ← readCurrent row.taskId
    match current, row.state with
    | some current, .leased lease =>
      if lease.id ≠ value.leaseId || lease.credentialGeneration ≠ actor.credentialGeneration ||
          lease.expiresAt ≤ now then fail replacedError
      else
        match ← readProgress row.taskId value.cursor with
        | some existing =>
          reconcileProgress existing row value.leaseId semanticText (some lease.expiresAt)
        | none =>
          let latest ← readLatestCursor row.taskId
          if value.cursor ≠ latest + 1 then
            fail (conflictError (prose "Progress cursor must advance by exactly one" rfl))
          else
            let recordedAt ← iso now
            let envelope : ExternalAgentRecordedProgress :=
              ⟨row.toExternalAgentProgressIdentity, value.leaseId, value.cursor, value.semantic, recordedAt⟩
            let json ← boundedText (envelope.encoded tools) maxProgressBytes
              (prose "Progress envelope exceeds its byte envelope" rfl)
            let expires ← leaseExpiry current grant now
            let added : ProgressRow := ⟨row.taskId, value.cursor, value.leaseId,
              actor.credentialGeneration, json, tools.textDigest json, recordedAt⟩
            let mutation ← execute fun _ world => (world.renew added expires).map fun after => ((), after)
            match ← readProgress row.taskId value.cursor with
            | none =>
              match mutation with
              | .error message => fail (storageFailure message)
              | .ok _ =>
                fail (uncertainError (prose "Progress settlement could not be reconciled" rfl))
            | some saved =>
              let refreshed ← readBound row.taskId grant
              reconcileProgress saved refreshed value.leaseId semanticText
                (refreshed.state.lease.map (·.expiresAt))
    | _, _ => fail replacedError

end

section
variable {tools : Tools}

structure ExternalAgentResultInput where
  taskId : Text
  leaseId : Text
  idempotencyKey : Text
  semantic : ExternalAgentResultSemantic

structure ResultReceipt where
  row : TaskRow
  idempotencyKey : Text
  disposition : Disposition
  leaseId : Text
  workerSlot : Text
  resultSha256 : Text
  submittedAt : Nat
  workflowState : WorkflowState
  workflowNextStageIndex : Nat
  workflowSettled : Bool

/-- `HANDLER_GENERATION` -/
def waitGeneration : Text := prose "research-handlers.exploratory.external-wait.v1" rfl

/-- `prepareExternalAgentResultOutbox`: whether a result is also announced in the outbox. -/
def prepareOutbox (row : BoundRow) : Calls tools Bool :=
  match tools.parseRequest row.binding.requestJson with
  | none => .throw (.other (text "request"))
  | some request =>
    if request.handlerGeneration ≠ waitGeneration then return false
    else if request.operationId ≠ row.operationId || request.stage ≠ text "ANALYZE_BRANCHES" ||
        row.stageIndex ≠ 8 || row.taskId ≠ taskId row.requestSha256 then
      fail (corruptError (prose "External result wake identity is corrupt" rfl))
    else .request fun choice world =>
      match choice.outboxError with
      | some failure => (.error failure, world.advance choice)
      | none => (.ok true, world.advance choice)

/-- The `UPDATE` that records a result, with the number of rows it changed. -/
def World.record (world : World tools) (id leaseId : Text) (result : TaskResult) (submitted : Nat) :
    Except Text (Nat × World tools) :=
  match world.tasks.find id with
  | none => .ok (0, world)
  | some row =>
    match row.state with
    | .leased lease =>
      if lease.id = leaseId ∧ submitted < lease.expiresAt then
        (world.updateTask row (.recorded lease result) submitted).map fun after => (1, after)
      else .ok (0, world)
    | _ => .ok (0, world)

/-- `commitExternalAgentResult` -/
def commitResult (row : BoundRow) (leaseId : Text) (result : TaskResult) (submitted : Nat) :
    Calls tools (Except Failure Unit) := do
  match ← (prepareOutbox row).attempt with
  | .error failure => return .error failure
  | .ok announced =>
    let outcome ← execute fun choice world =>
      if announced ∧ choice.outbox = false then .error (text "EXTERNAL_AGENT_TASK_AUTHORITY_STALE")
      else world.record row.taskId leaseId result submitted
    match outcome with
    | .error message => return .error (.task (storageFailure message))
    | .ok changes =>
      if announced ∧ changes ≠ 1 then
        return .error (.task (uncertainError (prose "External result outbox settlement is uncertain" rfl)))
      else return .ok ()

/-- `storageFailure` -/
def rethrow {α : Type} : Failure → Calls tools α
  | .task error => fail error
  | .other message => fail (storageFailure message)

/-- `decodeExternalAgentRecordedResult` -/
def decodeResult (row : BoundRow) (leaseId : Text) (result : TaskResult) :
    Calls tools ExternalAgentRecordedResult :=
  let corrupt : Calls tools ExternalAgentRecordedResult :=
    fail (corruptError (prose "Recorded external task result is corrupt" rfl))
  match tools.parseResult result.json with
  | none => corrupt
  | some envelope =>
    if isTaskId row.taskId && isSha256 row.requestSha256 && isLeaseId leaseId &&
        researchWorkflowStages.idxOf row.stage = row.stageIndex &&
        envelope.identity = row.toExternalAgentProgressIdentity && envelope.leaseId = leaseId &&
        envelope.idempotencyKey = result.idempotencyKey && (envelope.semantic.checks tools).pass &&
        envelope.encoded tools = result.json then return envelope
    else corrupt

def differentResult : ExternalAgentTaskError :=
  conflictError (prose "A different result is already recorded for this task" rfl)

/-- `#workflowSettlement` -/
def workflowSettlement (row : BoundRow) : Calls tools (WorkflowState × Nat) := do
  let corrupt : ExternalAgentTaskError :=
    corruptError (prose "External task workflow settlement is corrupt" rfl)
  match ← query (uncertainError (prose "External task workflow settlement read is unavailable" rfl))
      (·.env.join row.toTaskIdentity) with
  | none => fail corrupt
  | some status =>
    if status.nextStageIndex > researchWorkflowStages.length ||
        (status.workflowState = .active && status.nextStageIndex < row.stageIndex) then fail corrupt
    else return (status.workflowState, status.nextStageIndex)

/-- `#reconcileResult` -/
def reconcileResult (row : BoundRow) (key semanticText : Text) : Calls tools ResultReceipt :=
  match row.state with
  | .recorded lease result => do
    if result.idempotencyKey ≠ key || tools.textDigest result.json ≠ result.sha256 then
      fail differentResult
    else
      let envelope ← decodeResult row lease.id result
      let existing ← boundedText envelope.semantic.encoded maxResultBytes
        (prose "Recorded result exceeds its byte envelope" rfl)
      if existing ≠ semanticText then fail differentResult
      else
        -- the readback of the outbox entry, for those results that have one
        let _ ← prepareOutbox row
        let (state, next) ← workflowSettlement row
        return {
          row := row.toTaskRow
          idempotencyKey := result.idempotencyKey
          disposition := envelope.semantic.disposition
          leaseId := lease.id
          workerSlot := lease.slot
          resultSha256 := result.sha256
          submittedAt := envelope.submittedAt
          workflowState := state
          workflowNextStageIndex := next
          workflowSettled := state = .engineCompleted || next > row.stageIndex }
  | _ => fail differentResult

def recordResult (actor : ExternalAgentTaskActor) (value : ExternalAgentResultInput) :
    Calls tools ResultReceipt := do
  schema
  let now ← currentTime
  let grant ← requireGrant actor now
  input (isTaskId value.taskId && isLeaseId value.leaseId)
    (prose "Task or lease identity is invalid" rfl)
  input (isString 256 value.idempotencyKey) (text "result.idempotency_key is invalid")
  inputAll (value.semantic.checks tools)
  let semanticText ← boundedText value.semantic.encoded maxResultBytes
    (prose "Result payload exceeds its byte envelope" rfl)
  let row ← readBound value.taskId grant
  match row.state with
  | .recorded _ _ => reconcileResult row value.idempotencyKey semanticText
  | .available =>
    if row.binding.workflowState = .cancelled then fail cancelledError else fail replacedError
  | .leased lease =>
    if row.binding.workflowState = .cancelled then fail cancelledError
    else if lease.id ≠ value.leaseId || lease.credentialGeneration ≠ actor.credentialGeneration ||
        lease.expiresAt ≤ now then fail replacedError
    else
      match ← readCurrent row.taskId with
      | none => fail replacedError
      | some _ =>
        let submitted ← iso now
        let envelope : ExternalAgentRecordedResult :=
          ⟨row.toExternalAgentProgressIdentity, value.leaseId, value.idempotencyKey, value.semantic,
            submitted⟩
        let json ← boundedText (envelope.encoded tools) maxResultBytes
          (prose "Result envelope exceeds its byte envelope" rfl)
        let result : TaskResult := ⟨value.idempotencyKey, json, tools.textDigest json⟩
        match ← commitResult row value.leaseId result submitted with
        | .ok _ =>
          reconcileResult (← readBound row.taskId grant) value.idempotencyKey semanticText
        | .error failure =>
          match ← (readBound row.taskId grant).attempt with
          | .error _ => rethrow failure
          | .ok reconciled =>
            match reconciled.state with
            | .recorded _ _ =>
              reconcileResult (← readBound row.taskId grant) value.idempotencyKey semanticText
            | _ => rethrow failure

end

section
variable (tools : Tools)

inductive Request where
  | publish (publication : ExternalAgentTaskPublication)
  | pull (actor : ExternalAgentTaskActor) (slot : Text)
  | progress (actor : ExternalAgentTaskActor) (value : ExternalAgentProgressInput)
  | result (actor : ExternalAgentTaskActor) (value : ExternalAgentResultInput)
  | change (env : Env tools)

def answering {α : Type} (call : Calls tools α) : Calls tools Unit := call.bind fun _ => .done (.ok ())

def Returned.of (value : ExternalAgentResultInput) (receipt : ResultReceipt) : Returned where
  taskId := receipt.row.taskId
  sentTask := value.taskId
  sentKey := value.idempotencyKey
  sent := value.semantic
  idempotencyKey := receipt.idempotencyKey
  disposition := receipt.disposition
  leaseId := receipt.leaseId
  workerSlot := receipt.workerSlot
  resultSha256 := receipt.resultSha256
  submittedAt := receipt.submittedAt

def service : Service (World tools) Choice (Request tools) Failure where
  serve _ request :=
    match request with
    | .publish publication => answering tools (publish publication)
    | .pull actor slot => answering tools (pull actor slot)
    | .progress actor value => answering tools (recordProgress actor value)
    | .result actor value => do
      let receipt ← recordResult actor value
      Program.assign fun world => { world with returned := world.returned ++ [.of value receipt] }
    | .change env => Program.assign fun world => { world with env }
  admits _ _ := true

end

end Delivery
