import Eliot.Relational.Table
import Eliot.Sqlite.Engine

namespace Dispatch
open Relational (Table)
open Sqlite (Engine)

/-- A row of `computer_agent_dispatch`. -/
structure DispatchRow where
  dispatchId : Text
  projectId : Text
  taskKind : Text
  transport : Text
  routeRevision : Int
  priority : Int
  connectionId : Text
  connectionRevision : Int
  clientGrantId : Text
  clientGrantRevision : Int
  ownerPrincipalRef : Text
  ownerCredentialGeneration : Text
  actorIssuer : Text
  actorSubject : Text
  qualificationChallengeId : Text
  qualificationObservationRef : Text
  qualificationCredentialGeneration : Text
  deploymentGeneration : Text
  idempotencyKey : Text
  requestSha256 : Text
  runRequestSha256 : Text
  recordJson : Text
  recordSha256 : Text
  createdAt : Text
  expiresAt : Text
deriving DecidableEq

/-- A row of `computer_agent_dispatch_acceptance`. -/
structure AcceptanceRow where
  dispatchId : Text
  workflowInstanceId : Text
  investigationId : Text
  investigationRevision : Int
  actorIssuer : Text
  actorSubject : Text
  credentialGeneration : Text
  recordJson : Text
  recordSha256 : Text
  acceptedAt : Text
deriving DecidableEq

/-- A row of `computer_agent_dispatch_abandonment`. -/
structure AbandonmentRow where
  dispatchId : Text
  projectId : Text
  ownerPrincipalRef : Text
  ownerCredentialGeneration : Text
  reason : Text
  note : Option Text
  idempotencyKey : Text
  requestSha256 : Text
  recordJson : Text
  recordSha256 : Text
  abandonedAt : Text
deriving DecidableEq

/-- A row of `computer_agent_dispatch_decline`. -/
structure DeclineRow where
  dispatchId : Text
  projectId : Text
  connectionId : Text
  connectionRevision : Int
  actorIssuer : Text
  actorSubject : Text
  credentialGeneration : Text
  reason : Text
  note : Option Text
  idempotencyKey : Text
  requestSha256 : Text
  recordJson : Text
  recordSha256 : Text
  declinedAt : Text
deriving DecidableEq

/-- A row of `computer_agent_dispatch_reassignment`. -/
structure ReassignmentRow where
  predecessorDispatchId : Text
  successorDispatchId : Text
  projectId : Text
  ownerPrincipalRef : Text
  ownerCredentialGeneration : Text
  predecessorState : Text
  runRequestSha256 : Text
  successorTransport : Text
  successorRouteRevision : Int
  successorConnectionId : Text
  successorConnectionRevision : Int
  successorClientGrantId : Text
  successorClientGrantRevision : Int
  idempotencyKey : Text
  requestSha256 : Text
  recordJson : Text
  recordSha256 : Text
  reassignedAt : Text
deriving DecidableEq

section
open Text (prose)

/-- `length(value) BETWEEN low AND high` -/
def lengthBetween (value : Text) (low high : Nat) : Bool :=
  low ≤ (Text.codePoints value).length ∧ (Text.codePoints value).length ≤ high

/-- `value BETWEEN 1 AND 2147483647` -/
def isRevision (value : Int) : Bool := 1 ≤ value ∧ value ≤ 2147483647

def isRecord (engine : Engine) (json sha256 : Text) (most : Nat) : Bool :=
  engine.jsonValid json ∧ 1 ≤ Text.utf8Bytes json ∧ Text.utf8Bytes json ≤ most ∧ Text.isSha256 sha256

/-- `CHECK(json_extract(record_json,'$.field') IS value)` for each field -/
def agrees (engine : Engine) (json : Text) (fields : List (Text × Sqlite.Value)) : Bool :=
  fields.all fun field => !(engine.jsonExtract (.text json) field.1).differs field.2

/-- `CHECK((note IS NULL AND json_type(record_json,'$.note') IS NULL)
    OR json_extract(record_json,'$.note') IS note)` -/
def noteAgrees (engine : Engine) (json : Text) (note : Option Text) : Bool :=
  !(engine.jsonExtract (.text json) (prose "note" rfl)).differs (.ofText note)

def isTransport (value : Text) : Bool := value ∈ [prose "MCP_WRITE" rfl, prose "WEB_INBOX" rfl]

/-- `julianday(value, modifier)` for a modifier of so many milliseconds -/
def shifted (day : Option Int) (milliseconds : Int) : Option Int := day.map (· + milliseconds)

def DispatchRow.checked (engine : Engine) (row : DispatchRow) : Bool :=
  lengthBetween row.dispatchId 1 256 && row.taskKind = prose "RESEARCH_BRANCH_ANALYSIS" rfl &&
  isTransport row.transport && isRevision row.routeRevision && 0 ≤ row.priority &&
  row.priority ≤ 15 && isRevision row.connectionRevision && isRevision row.clientGrantRevision &&
  [row.ownerPrincipalRef, row.ownerCredentialGeneration, row.actorIssuer, row.actorSubject,
    row.qualificationObservationRef, row.qualificationCredentialGeneration, row.deploymentGeneration,
    row.idempotencyKey].all (lengthBetween · 1 256) &&
  Text.isSha256 row.requestSha256 && Text.isSha256 row.runRequestSha256 &&
  isRecord engine row.recordJson row.recordSha256 294912 &&
  (engine.julianday row.createdAt).isSome && (engine.julianday row.expiresAt).isSome &&
  agrees engine row.recordJson
    [(prose "protocol" rfl, .text (prose "eliotr.computer-agent-dispatch.v1" rfl)),
     (prose "dispatch_id" rfl, .text row.dispatchId),
     (prose "project_id" rfl, .text row.projectId),
     (prose "task_kind" rfl, .text row.taskKind),
     (prose "transport" rfl, .text row.transport),
     (prose "route_revision" rfl, .number row.routeRevision),
     (prose "priority" rfl, .number row.priority),
     (prose "connection_id" rfl, .text row.connectionId),
     (prose "connection_revision" rfl, .number row.connectionRevision),
     (prose "client_grant_id" rfl, .text row.clientGrantId),
     (prose "client_grant_revision" rfl, .number row.clientGrantRevision),
     (prose "owner_principal_ref" rfl, .text row.ownerPrincipalRef),
     (prose "owner_credential_generation" rfl, .text row.ownerCredentialGeneration),
     (prose "actor.issuer" rfl, .text row.actorIssuer),
     (prose "actor.authentication_method" rfl, .text (prose "service_token" rfl)),
     (prose "actor.subject" rfl, .text row.actorSubject),
     (prose "qualification.challenge_id" rfl, .text row.qualificationChallengeId),
     (prose "qualification.observation_ref" rfl, .text row.qualificationObservationRef),
     (prose "qualification.verified_credential_generation" rfl,
       .text row.qualificationCredentialGeneration),
     (prose "qualification.deployment_generation" rfl, .text row.deploymentGeneration),
     (prose "run_request.scope_expression.kind" rfl, .text (prose "PROJECT" rfl)),
     (prose "run_request.scope_expression.project_id" rfl, .text row.projectId),
     (prose "run_request.request_version" rfl, .text (prose "eliotr.research-run-request.v2" rfl)),
     (prose "run_request_sha256" rfl, .text row.runRequestSha256),
     (prose "created_at" rfl, .text row.createdAt),
     (prose "expires_at" rfl, .text row.expiresAt)] &&
  Sqlite.exceeds (engine.julianday row.expiresAt) (engine.julianday row.createdAt) &&
  Sqlite.atMost (engine.julianday row.expiresAt) (shifted (engine.julianday row.createdAt) 3600000)

def AcceptanceRow.checked (engine : Engine) (row : AcceptanceRow) : Bool :=
  lengthBetween row.workflowInstanceId 1 128 && lengthBetween row.investigationId 1 128 &&
  isRevision row.investigationRevision &&
  [row.actorIssuer, row.actorSubject, row.credentialGeneration].all (lengthBetween · 1 256) &&
  isRecord engine row.recordJson row.recordSha256 24576 && (engine.julianday row.acceptedAt).isSome &&
  agrees engine row.recordJson
    [(prose "protocol" rfl, .text (prose "eliotr.computer-agent-dispatch-accepted.v1" rfl)),
     (prose "dispatch_id" rfl, .text row.dispatchId),
     (prose "workflow_instance_id" rfl, .text row.workflowInstanceId),
     (prose "investigation_ref.id" rfl, .text row.investigationId),
     (prose "investigation_ref.revision" rfl, .number row.investigationRevision),
     (prose "actor.issuer" rfl, .text row.actorIssuer),
     (prose "actor.authentication_method" rfl, .text (prose "service_token" rfl)),
     (prose "actor.subject" rfl, .text row.actorSubject),
     (prose "credential_generation" rfl, .text row.credentialGeneration),
     (prose "accepted_at" rfl, .text row.acceptedAt)]

def AbandonmentRow.checked (engine : Engine) (row : AbandonmentRow) : Bool :=
  [row.projectId, row.ownerPrincipalRef, row.ownerCredentialGeneration, row.idempotencyKey].all
    (lengthBetween · 1 256) &&
  row.reason ∈ [prose "TARGET_UNAVAILABLE" rfl, prose "QUALIFICATION_EXPIRED" rfl,
    prose "ROUTE_CHANGED" rfl, prose "OWNER_REASSIGNMENT" rfl, prose "OWNER_CANCELLED" rfl,
    prose "OTHER" rfl] &&
  row.note.all (lengthBetween · 1 2048) && Text.isSha256 row.requestSha256 &&
  isRecord engine row.recordJson row.recordSha256 32768 && (engine.julianday row.abandonedAt).isSome &&
  (row.reason ≠ prose "OTHER" rfl || row.note.isSome) &&
  agrees engine row.recordJson
    [(prose "protocol" rfl, .text (prose "eliotr.computer-agent-dispatch-abandoned.v1" rfl)),
     (prose "dispatch_id" rfl, .text row.dispatchId),
     (prose "project_id" rfl, .text row.projectId),
     (prose "owner_principal_ref" rfl, .text row.ownerPrincipalRef),
     (prose "owner_credential_generation" rfl, .text row.ownerCredentialGeneration),
     (prose "reason" rfl, .text row.reason)] &&
  noteAgrees engine row.recordJson row.note &&
  agrees engine row.recordJson
    [(prose "idempotency_key" rfl, .text row.idempotencyKey),
     (prose "request_sha256" rfl, .text row.requestSha256),
     (prose "abandoned_at" rfl, .text row.abandonedAt)]

def DeclineRow.checked (engine : Engine) (row : DeclineRow) : Bool :=
  [row.projectId, row.connectionId, row.actorIssuer, row.actorSubject, row.credentialGeneration,
    row.idempotencyKey].all (lengthBetween · 1 256) &&
  isRevision row.connectionRevision &&
  row.reason ∈ [prose "UNAVAILABLE" rfl, prose "UNSUPPORTED_TASK" rfl,
    prose "INSUFFICIENT_CONTEXT" rfl, prose "LOCAL_POLICY" rfl, prose "TRANSIENT_FAILURE" rfl,
    prose "OTHER" rfl] &&
  row.note.all (lengthBetween · 1 2048) && Text.isSha256 row.requestSha256 &&
  isRecord engine row.recordJson row.recordSha256 32768 && (engine.julianday row.declinedAt).isSome &&
  (row.reason ≠ prose "OTHER" rfl || row.note.isSome) &&
  agrees engine row.recordJson
    [(prose "protocol" rfl, .text (prose "eliotr.computer-agent-dispatch-declined.v1" rfl)),
     (prose "dispatch_id" rfl, .text row.dispatchId),
     (prose "project_id" rfl, .text row.projectId),
     (prose "connection_id" rfl, .text row.connectionId),
     (prose "connection_revision" rfl, .number row.connectionRevision),
     (prose "actor.issuer" rfl, .text row.actorIssuer),
     (prose "actor.authentication_method" rfl, .text (prose "service_token" rfl)),
     (prose "actor.subject" rfl, .text row.actorSubject),
     (prose "credential_generation" rfl, .text row.credentialGeneration),
     (prose "reason" rfl, .text row.reason)] &&
  noteAgrees engine row.recordJson row.note &&
  agrees engine row.recordJson
    [(prose "idempotency_key" rfl, .text row.idempotencyKey),
     (prose "request_sha256" rfl, .text row.requestSha256),
     (prose "declined_at" rfl, .text row.declinedAt)]

def ReassignmentRow.checked (engine : Engine) (row : ReassignmentRow) : Bool :=
  [row.projectId, row.ownerPrincipalRef, row.ownerCredentialGeneration, row.successorConnectionId,
    row.successorClientGrantId, row.idempotencyKey].all (lengthBetween · 1 256) &&
  row.predecessorState ∈ [prose "ABANDONED" rfl, prose "DECLINED" rfl] &&
  Text.isSha256 row.runRequestSha256 && isTransport row.successorTransport &&
  [row.successorRouteRevision, row.successorConnectionRevision,
    row.successorClientGrantRevision].all isRevision &&
  Text.isSha256 row.requestSha256 && isRecord engine row.recordJson row.recordSha256 49152 &&
  (engine.julianday row.reassignedAt).isSome &&
  row.predecessorDispatchId ≠ row.successorDispatchId &&
  agrees engine row.recordJson
    [(prose "protocol" rfl, .text (prose "eliotr.computer-agent-dispatch-reassigned.v1" rfl)),
     (prose "predecessor_dispatch_id" rfl, .text row.predecessorDispatchId),
     (prose "successor_dispatch_id" rfl, .text row.successorDispatchId),
     (prose "project_id" rfl, .text row.projectId),
     (prose "owner_principal_ref" rfl, .text row.ownerPrincipalRef),
     (prose "owner_credential_generation" rfl, .text row.ownerCredentialGeneration),
     (prose "predecessor_state" rfl, .text row.predecessorState),
     (prose "run_request_sha256" rfl, .text row.runRequestSha256),
     (prose "successor_transport" rfl, .text row.successorTransport),
     (prose "successor_route_revision" rfl, .number row.successorRouteRevision),
     (prose "successor_connection_id" rfl, .text row.successorConnectionId),
     (prose "successor_connection_revision" rfl, .number row.successorConnectionRevision),
     (prose "successor_client_grant_id" rfl, .text row.successorClientGrantId),
     (prose "successor_client_grant_revision" rfl, .number row.successorClientGrantRevision),
     (prose "idempotency_key" rfl, .text row.idempotencyKey),
     (prose "request_sha256" rfl, .text row.requestSha256),
     (prose "reassigned_at" rfl, .text row.reassignedAt)]

end

end Dispatch
