import Eliot.Delivery.Records
import Eliot.Sqlite.Engine

namespace Delivery
open Relational (Table)
open Sqlite (lengthBetween bytesUpTo)
open Text (isSha256)

section

structure Lease where
  id : Text
  slot : Text
  credentialGeneration : Text
  revision : Nat
  expiresAt : Nat
deriving DecidableEq

structure TaskResult where
  idempotencyKey : Text
  json : Text
  sha256 : Text
deriving DecidableEq

/-- A state with the columns that are set in it, as the table's `CHECK` has them. -/
inductive TaskState where
  | available
  | leased (lease : Lease)
  | recorded (lease : Lease) (result : TaskResult)
deriving DecidableEq

def TaskState.lease : TaskState → Option Lease
  | .available => none
  | .leased lease | .recorded lease _ => some lease

structure TaskRow extends TaskIdentity where
  state : TaskState
  updatedAt : Nat
deriving DecidableEq

structure ProgressRow where
  taskId : Text
  cursor : Nat
  leaseId : Text
  credentialGeneration : Text
  progressJson : Text
  progressSha256 : Text
  createdAt : Nat

inductive WorkflowState where
  | active
  | cancelled
  | engineCompleted
deriving DecidableEq

structure Binding where
  requestJson : Text
  attemptStarted : Bool
  budgetExpiresAtMs : Nat
  workflowState : WorkflowState
  nextStageIndex : Nat
  grantExpiresAt : Nat
  /-- whether `project_client_grant_current` has the grant as an active one -/
  grantCurrent : Bool
  /-- whether `research_workflow_current` has the run at the stage of the task -/
  workflowCurrent : Bool
  /-- whether the payload is the one that the generation of the handler needs -/
  payloadFits : Bool

/-- The conditions of `research_external_agent_task_current`. -/
def Binding.live (binding : Binding) (clock : Nat) : Bool :=
  binding.grantCurrent && clock < binding.grantExpiresAt && binding.workflowState = .active &&
    binding.attemptStarted && clock < binding.budgetExpiresAtMs && binding.workflowCurrent &&
    binding.payloadFits

variable (tools : Tools)

def requestFits (identity : TaskIdentity) (requestJson : Text) : Bool :=
  match tools.parseRequest requestJson with
  | none => false
  | some request => request.json = requestJson && tools.textDigest requestJson = identity.requestSha256 &&
    request.operationId = identity.operationId && request.stage = identity.stage

/-- The other tables: what `research_external_agent_task_binding` joins to a task. -/
structure Env where
  join : TaskIdentity → Option Binding
  fits : ∀ identity binding, join identity = some binding →
    requestFits tools identity binding.requestJson = true

structure Returned where
  taskId : Text
  sentTask : Text
  sentKey : Text
  sent : ExternalAgentResultSemantic
  idempotencyKey : Text
  disposition : Disposition
  leaseId : Text
  workerSlot : Text
  resultSha256 : Text
  submittedAt : Nat

structure World where
  clock : Nat
  env : Env tools
  tasks : Table TaskRow Text fun row => row.taskId
  progress : Table ProgressRow (Text × Nat) fun row => (row.taskId, row.cursor)
  returned : List Returned

end

section
variable {tools : Tools} (world : World tools)

/-- `research_external_agent_task_binding` -/
def World.bound (row : TaskRow) : Option Binding := world.env.join row.toTaskIdentity

/-- `research_external_agent_task_current` -/
def World.current (row : TaskRow) : Option Binding :=
  (world.bound row).filter fun binding => binding.live world.clock

end

section
variable {tools : Tools}

/-- A lease as the `CHECK`s of its columns want it. -/
def Lease.checked (lease : Lease) : Bool :=
  lengthBetween 1 128 lease.id && isWorkerSlot lease.slot &&
    lengthBetween 1 256 lease.credentialGeneration && 1 ≤ lease.revision && lease.revision ≤ 2147483647

def TaskResult.checked (result : TaskResult) : Bool :=
  lengthBetween 1 256 result.idempotencyKey && bytesUpTo 98304 result.json && isSha256 result.sha256

def TaskState.checked : TaskState → Bool
  | .available => true
  | .leased lease => lease.checked
  | .recorded lease result => lease.checked && result.checked

/-- `research_external_agent_task_transition` lets an update pass. -/
def transitionAllowed (old new : TaskRow) : Bool :=
  old.updatedAt ≤ new.updatedAt &&
    match old.state, new.state with
    | .available, .leased after => after.revision = 1
    | .leased before, .leased after =>
      if after.id = before.id then
        after.revision = before.revision && after.slot = before.slot &&
          after.credentialGeneration = before.credentialGeneration && before.expiresAt ≤ after.expiresAt
      else after.revision = before.revision + 1
    | .leased before, .recorded after _ =>
      after.id = before.id && after.revision = before.revision && after.slot = before.slot &&
        after.credentialGeneration = before.credentialGeneration
    | _, _ => false

/-- `research_external_agent_task_current_guard` lets an update pass. -/
def currentAllowed (world : World tools) (old new : TaskRow) : Bool :=
  (world.current old).any fun binding => new.state.lease.any fun after =>
    after.expiresAt ≤ binding.grantExpiresAt && after.expiresAt ≤ binding.budgetExpiresAtMs &&
      new.updatedAt < after.expiresAt &&
      match old.state with
      | .available => true
      | .leased before =>
        if after.id = before.id then new.updatedAt < before.expiresAt
        else before.expiresAt ≤ new.updatedAt
      | .recorded before _ => after.id = before.id && new.updatedAt < before.expiresAt

/-- `research_external_agent_task_result_guard` lets an update pass. -/
def resultAllowed (tools : Tools) (new : TaskRow) : Bool :=
  match new.state with
  | .recorded lease result =>
    (tools.parseResult result.json).any fun envelope =>
      envelope.identity = new.toExternalAgentProgressIdentity && envelope.leaseId = lease.id &&
        envelope.idempotencyKey = result.idempotencyKey && envelope.submittedAt = new.updatedAt
  | _ => true

def leasesApart (first second : TaskRow) : Bool :=
  (first.state.lease.all fun one => second.state.lease.all fun two => one.id ≠ two.id) &&
    match first.state, second.state with
    | .leased one, .leased two =>
      !(first.clientGrantId = second.clientGrantId &&
        first.clientGrantRevision = second.clientGrantRevision && one.slot = two.slot)
    | _, _ => true

/-- `UPDATE` of one task that a condition found. -/
def World.updateTask (world : World tools) (old : TaskRow) (state : TaskState) (now : Nat) :
    Except Text (World tools) :=
  let new := { old with state, updatedAt := now }
  if transitionAllowed old new = false then .error (text "EXTERNAL_AGENT_TASK_CONFLICT")
  else if currentAllowed world old new = false then .error (text "EXTERNAL_AGENT_TASK_AUTHORITY_STALE")
  else if resultAllowed tools new = false then .error (text "EXTERNAL_AGENT_RESULT_INVALID")
  else if (state.checked && old.createdAt ≤ now) = false then .error (text "CHECK constraint failed")
  else if (world.tasks.rows.any fun other => other.taskId ≠ old.taskId && !leasesApart new other) then
    .error (text "UNIQUE constraint failed")
  else .ok { world with tasks := world.tasks.write new }

/-- The `CHECK`s of a new task. -/
def TaskIdentity.checked (identity : TaskIdentity) : Bool :=
  lengthBetween 1 128 identity.taskId && lengthBetween 1 128 identity.operationId &&
    identity.stageIndex ≤ 17 && identity.stage ∈ researchWorkflowStages &&
    lengthBetween 1 128 identity.attemptRef && isSha256 identity.requestSha256 &&
    lengthBetween 1 256 identity.projectId && lengthBetween 1 256 identity.clientGrantId &&
    1 ≤ identity.clientGrantRevision && identity.clientGrantRevision ≤ 2147483647 &&
    lengthBetween 1 256 identity.granteeIssuer && lengthBetween 1 256 identity.granteeSubject &&
    identity.taskId = taskId identity.requestSha256

def identitiesApart (first second : TaskIdentity) : Bool :=
  first.attemptRef ≠ second.attemptRef && first.requestSha256 ≠ second.requestSha256 &&
    !(first.operationId = second.operationId && first.stageIndex = second.stageIndex)

def TaskIdentity.published (identity : TaskIdentity) : TaskRow :=
  { identity with state := .available, updatedAt := identity.createdAt }

/-- `INSERT … ON CONFLICT(task_id) DO NOTHING` with the guard after it. -/
def World.insertTask (world : World tools) (identity : TaskIdentity) : Except Text (World tools) :=
  let row := identity.published
  if identity.checked = false then .error (text "CHECK constraint failed")
  else match world.tasks.insert row with
    | none => .ok world
    | some tasks =>
      if (world.tasks.rows.any fun other => !identitiesApart identity other.toTaskIdentity) then
        .error (text "UNIQUE constraint failed")
      else if ((world.current row).any fun binding =>
          researchWorkflowStages.idxOf identity.stage = identity.stageIndex &&
            binding.nextStageIndex = identity.stageIndex) = false then
        .error (text "EXTERNAL_AGENT_TASK_AUTHORITY_STALE")
      else .ok { world with tasks }

/-- The greatest cursor of a task, or `0`. -/
def World.latestCursor (world : World tools) (id : Text) : Nat :=
  ((world.progress.rows.filter fun row => row.taskId = id).map (·.cursor)).foldl max 0

def ProgressRow.checked (row : ProgressRow) : Bool :=
  1 ≤ row.cursor && row.cursor ≤ 4096 && lengthBetween 1 128 row.leaseId &&
    lengthBetween 1 256 row.credentialGeneration && bytesUpTo 16384 row.progressJson &&
    isSha256 row.progressSha256

/-- `research_external_agent_progress_insert_guard` lets an insert pass. -/
def progressAllowed (world : World tools) (row : ProgressRow) : Bool :=
  (world.tasks.find row.taskId).any fun task => (world.current task).isSome &&
    match task.state with
    | .leased lease =>
      lease.id = row.leaseId && lease.credentialGeneration = row.credentialGeneration &&
        row.createdAt < lease.expiresAt && row.cursor = world.latestCursor row.taskId + 1 &&
        (tools.parseProgress row.progressJson).any fun envelope =>
          envelope.identity = task.toExternalAgentProgressIdentity && envelope.leaseId = row.leaseId &&
            envelope.cursor = row.cursor && envelope.recordedAt = row.createdAt
    | _ => false

def World.insertProgress (world : World tools) (row : ProgressRow) : Except Text (World tools) :=
  if progressAllowed world row = false then .error (text "EXTERNAL_AGENT_PROGRESS_CONFLICT")
  else if row.checked = false then .error (text "CHECK constraint failed")
  else match world.progress.insert row with
    | none => .error (text "UNIQUE constraint failed")
    | some progress => .ok { world with progress }

end

end Delivery
