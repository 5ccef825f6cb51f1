import Eliot.Dispatch.Tables
import Eliot.Json.Value

namespace Dispatch
open Text (prose)

structure Actor where
  issuer : Text
  subject : Text
deriving DecidableEq

structure VersionedRef where
  id : Text
  revision : Int
deriving DecidableEq

structure Qualification where
  challengeId : Text
  observationRef : Text
  verifiedCredentialGeneration : Text
  readyUntil : Text
  deploymentGeneration : Text
deriving DecidableEq

structure RunRequest where
  query : Text
  projectId : Text
  evidenceGrade : Text
  maxResults : Int
  inquiryProtocolRef : VersionedRef
deriving DecidableEq

structure ComputerAgentDispatchCreate where
  transport : Text
  expectedRouteRevision : Int
  connectionId : Text
  connectionRevision : Int
  clientGrantId : Text
  clientGrantRevision : Int
  expiresInSeconds : Int
  runRequest : RunRequest

structure ComputerAgentDispatch where
  dispatchId : Text
  projectId : Text
  transport : Text
  routeRevision : Int
  priority : Int
  connectionId : Text
  connectionRevision : Int
  clientGrantId : Text
  clientGrantRevision : Int
  ownerPrincipalRef : Text
  ownerCredentialGeneration : Text
  actor : Actor
  qualification : Qualification
  runRequest : RunRequest
  runRequestSha256 : Text
  createdAt : Text
  expiresAt : Text
deriving DecidableEq

structure ComputerAgentDispatchAcceptance where
  dispatchId : Text
  workflowInstanceId : Text
  investigationRef : VersionedRef
  connectionId : Text
  connectionRevision : Int
  clientGrantId : Text
  clientGrantRevision : Int
  actor : Actor
  credentialGeneration : Text
  acceptedAt : Text
deriving DecidableEq

structure Reasoned where
  reason : Text
  note : Option Text

structure ComputerAgentDispatchAbandonment where
  dispatchId : Text
  projectId : Text
  ownerPrincipalRef : Text
  ownerCredentialGeneration : Text
  reason : Text
  note : Option Text
  idempotencyKey : Text
  requestSha256 : Text
  abandonedAt : Text
deriving DecidableEq

structure ComputerAgentDispatchDeclineReceipt where
  dispatchId : Text
  projectId : Text
  connectionId : Text
  connectionRevision : Int
  actor : Actor
  credentialGeneration : Text
  reason : Text
  note : Option Text
  idempotencyKey : Text
  requestSha256 : Text
  declinedAt : Text
deriving DecidableEq

structure ComputerAgentDispatchReassign where
  expectedPredecessorState : Text
  expectedRunRequestSha256 : Text
  transport : Text
  expectedRouteRevision : Int
  connectionId : Text
  connectionRevision : Int
  clientGrantId : Text
  clientGrantRevision : Int
  expiresInSeconds : Int

structure ComputerAgentDispatchReassignment where
  predecessorDispatchId : Text
  successorDispatchId : Text
  projectId : Text
  ownerPrincipalRef : Text
  ownerCredentialGeneration : Text
  predecessorState : Text
  runRequestSha256 : Text
  successorTransport : Text
  successorRouteRevision : Int
  successorConnectionId : Text
  successorConnectionRevision : Int
  successorClientGrantId : Text
  successorClientGrantRevision : Int
  idempotencyKey : Text
  requestSha256 : Text
  reassignedAt : Text
deriving DecidableEq

def Actor.json (actor : Actor) : Json.Value := .object
  [(prose "issuer" rfl, .text actor.issuer),
   (prose "authentication_method" rfl, .text (prose "service_token" rfl)),
   (prose "subject" rfl, .text actor.subject)]

def VersionedRef.json (ref : VersionedRef) : Json.Value := .object
  [(prose "id" rfl, .text ref.id), (prose "revision" rfl, .number ref.revision)]

def Qualification.json (qualification : Qualification) : Json.Value := .object
  [(prose "challenge_id" rfl, .text qualification.challengeId),
   (prose "observation_ref" rfl, .text qualification.observationRef),
   (prose "verified_credential_generation" rfl, .text qualification.verifiedCredentialGeneration),
   (prose "ready_until" rfl, .text qualification.readyUntil),
   (prose "deployment_generation" rfl, .text qualification.deploymentGeneration)]

def RunRequest.json (request : RunRequest) : Json.Value := .object
  [(prose "query" rfl, .text request.query),
   (prose "product" rfl, .text (prose "RESEARCH" rfl)),
   (prose "scope_expression" rfl, .object
     [(prose "kind" rfl, .text (prose "PROJECT" rfl)), (prose "project_id" rfl, .text request.projectId)]),
   (prose "literals" rfl, .array []),
   (prose "evidence_grade" rfl, .text request.evidenceGrade),
   (prose "budget_ref" rfl, .text (prose "research-budget-v1" rfl)),
   (prose "max_results" rfl, .number request.maxResults),
   (prose "request_version" rfl, .text (prose "eliotr.research-run-request.v2" rfl)),
   (prose "inquiry_protocol_ref" rfl, request.inquiryProtocolRef.json)]

def ComputerAgentDispatchCreate.json (input : ComputerAgentDispatchCreate) : Json.Value := .object
  [(prose "transport" rfl, .text input.transport),
   (prose "expected_route_revision" rfl, .number input.expectedRouteRevision),
   (prose "connection_id" rfl, .text input.connectionId),
   (prose "connection_revision" rfl, .number input.connectionRevision),
   (prose "client_grant_id" rfl, .text input.clientGrantId),
   (prose "client_grant_revision" rfl, .number input.clientGrantRevision),
   (prose "expires_in_seconds" rfl, .number input.expiresInSeconds),
   (prose "run_request" rfl, input.runRequest.json)]

def ComputerAgentDispatch.json (dispatch : ComputerAgentDispatch) : Json.Value := .object
  [(prose "protocol" rfl, .text (prose "eliotr.computer-agent-dispatch.v1" rfl)),
   (prose "dispatch_id" rfl, .text dispatch.dispatchId),
   (prose "project_id" rfl, .text dispatch.projectId),
   (prose "task_kind" rfl, .text (prose "RESEARCH_BRANCH_ANALYSIS" rfl)),
   (prose "transport" rfl, .text dispatch.transport),
   (prose "route_revision" rfl, .number dispatch.routeRevision),
   (prose "priority" rfl, .number dispatch.priority),
   (prose "connection_id" rfl, .text dispatch.connectionId),
   (prose "connection_revision" rfl, .number dispatch.connectionRevision),
   (prose "client_grant_id" rfl, .text dispatch.clientGrantId),
   (prose "client_grant_revision" rfl, .number dispatch.clientGrantRevision),
   (prose "owner_principal_ref" rfl, .text dispatch.ownerPrincipalRef),
   (prose "owner_credential_generation" rfl, .text dispatch.ownerCredentialGeneration),
   (prose "actor" rfl, dispatch.actor.json),
   (prose "qualification" rfl, dispatch.qualification.json),
   (prose "run_request" rfl, dispatch.runRequest.json),
   (prose "run_request_sha256" rfl, .text dispatch.runRequestSha256),
   (prose "created_at" rfl, .text dispatch.createdAt),
   (prose "expires_at" rfl, .text dispatch.expiresAt)]

def ComputerAgentDispatchAcceptance.json (acceptance : ComputerAgentDispatchAcceptance) : Json.Value :=
  .object
    [(prose "protocol" rfl, .text (prose "eliotr.computer-agent-dispatch-accepted.v1" rfl)),
     (prose "dispatch_id" rfl, .text acceptance.dispatchId),
     (prose "workflow_instance_id" rfl, .text acceptance.workflowInstanceId),
     (prose "investigation_ref" rfl, acceptance.investigationRef.json),
     (prose "connection_id" rfl, .text acceptance.connectionId),
     (prose "connection_revision" rfl, .number acceptance.connectionRevision),
     (prose "client_grant_id" rfl, .text acceptance.clientGrantId),
     (prose "client_grant_revision" rfl, .number acceptance.clientGrantRevision),
     (prose "actor" rfl, acceptance.actor.json),
     (prose "credential_generation" rfl, .text acceptance.credentialGeneration),
     (prose "accepted_at" rfl, .text acceptance.acceptedAt)]

def Reasoned.json (input : Reasoned) : Json.Value := .object <|
  (prose "reason" rfl, .text input.reason) ::
    Json.optional (prose "note" rfl) (input.note.map Json.Value.text)

def ComputerAgentDispatchAbandonment.json (abandonment : ComputerAgentDispatchAbandonment) : Json.Value :=
  .object <|
    [(prose "protocol" rfl, .text (prose "eliotr.computer-agent-dispatch-abandoned.v1" rfl)),
     (prose "dispatch_id" rfl, .text abandonment.dispatchId),
     (prose "project_id" rfl, .text abandonment.projectId),
     (prose "owner_principal_ref" rfl, .text abandonment.ownerPrincipalRef),
     (prose "owner_credential_generation" rfl, .text abandonment.ownerCredentialGeneration),
     (prose "reason" rfl, .text abandonment.reason)] ++
    Json.optional (prose "note" rfl) (abandonment.note.map Json.Value.text) ++
    [(prose "idempotency_key" rfl, .text abandonment.idempotencyKey),
     (prose "request_sha256" rfl, .text abandonment.requestSha256),
     (prose "abandoned_at" rfl, .text abandonment.abandonedAt)]

def ComputerAgentDispatchDeclineReceipt.json (receipt : ComputerAgentDispatchDeclineReceipt) : Json.Value :=
  .object <|
    [(prose "protocol" rfl, .text (prose "eliotr.computer-agent-dispatch-declined.v1" rfl)),
     (prose "dispatch_id" rfl, .text receipt.dispatchId),
     (prose "project_id" rfl, .text receipt.projectId),
     (prose "connection_id" rfl, .text receipt.connectionId),
     (prose "connection_revision" rfl, .number receipt.connectionRevision),
     (prose "actor" rfl, receipt.actor.json),
     (prose "credential_generation" rfl, .text receipt.credentialGeneration),
     (prose "reason" rfl, .text receipt.reason)] ++
    Json.optional (prose "note" rfl) (receipt.note.map Json.Value.text) ++
    [(prose "idempotency_key" rfl, .text receipt.idempotencyKey),
     (prose "request_sha256" rfl, .text receipt.requestSha256),
     (prose "declined_at" rfl, .text receipt.declinedAt)]

def ComputerAgentDispatchReassign.json (input : ComputerAgentDispatchReassign) : Json.Value := .object
  [(prose "expected_predecessor_state" rfl, .text input.expectedPredecessorState),
   (prose "expected_run_request_sha256" rfl, .text input.expectedRunRequestSha256),
   (prose "transport" rfl, .text input.transport),
   (prose "expected_route_revision" rfl, .number input.expectedRouteRevision),
   (prose "connection_id" rfl, .text input.connectionId),
   (prose "connection_revision" rfl, .number input.connectionRevision),
   (prose "client_grant_id" rfl, .text input.clientGrantId),
   (prose "client_grant_revision" rfl, .number input.clientGrantRevision),
   (prose "expires_in_seconds" rfl, .number input.expiresInSeconds)]

def ComputerAgentDispatchReassignment.json (receipt : ComputerAgentDispatchReassignment) : Json.Value :=
  .object
    [(prose "protocol" rfl, .text (prose "eliotr.computer-agent-dispatch-reassigned.v1" rfl)),
     (prose "predecessor_dispatch_id" rfl, .text receipt.predecessorDispatchId),
     (prose "successor_dispatch_id" rfl, .text receipt.successorDispatchId),
     (prose "project_id" rfl, .text receipt.projectId),
     (prose "owner_principal_ref" rfl, .text receipt.ownerPrincipalRef),
     (prose "owner_credential_generation" rfl, .text receipt.ownerCredentialGeneration),
     (prose "predecessor_state" rfl, .text receipt.predecessorState),
     (prose "run_request_sha256" rfl, .text receipt.runRequestSha256),
     (prose "successor_transport" rfl, .text receipt.successorTransport),
     (prose "successor_route_revision" rfl, .number receipt.successorRouteRevision),
     (prose "successor_connection_id" rfl, .text receipt.successorConnectionId),
     (prose "successor_connection_revision" rfl, .number receipt.successorConnectionRevision),
     (prose "successor_client_grant_id" rfl, .text receipt.successorClientGrantId),
     (prose "successor_client_grant_revision" rfl, .number receipt.successorClientGrantRevision),
     (prose "idempotency_key" rfl, .text receipt.idempotencyKey),
     (prose "request_sha256" rfl, .text receipt.requestSha256),
     (prose "reassigned_at" rfl, .text receipt.reassignedAt)]

section
open Json (canonicalJson)

/-- A schema, and what `JSON.parse` followed by the schema makes of a text. -/
structure Codec (Record : Type) (json : Record → Json.Value) where
  schema : Record → Bool
  parse : Text → Option Record
  parse_canonicalJson : ∀ record, schema record = true → parse (canonicalJson (json record)) = some record

structure Tools where
  sha256Utf8 : Text → Text
  /-- `new Date(milliseconds).toISOString()` -/
  isoString : Int → Text
  dateParse : Text → Option Int
  createSchema : ComputerAgentDispatchCreate → Bool
  /-- whether `parse_run_request` accepts a request; what it makes of one keeps its project -/
  parseRunRequest : RunRequest → Bool
  abandonSchema : Reasoned → Bool
  declineSchema : Reasoned → Bool
  reassignSchema : ComputerAgentDispatchReassign → Bool
  dispatch : Codec ComputerAgentDispatch ComputerAgentDispatch.json
  acceptance : Codec ComputerAgentDispatchAcceptance ComputerAgentDispatchAcceptance.json
  abandonment : Codec ComputerAgentDispatchAbandonment ComputerAgentDispatchAbandonment.json
  decline : Codec ComputerAgentDispatchDeclineReceipt ComputerAgentDispatchDeclineReceipt.json
  reassignment : Codec ComputerAgentDispatchReassignment ComputerAgentDispatchReassignment.json

variable (tools : Tools)

/-- `sha256Utf8(canonicalJson(value))` -/
def Tools.digest (value : Json.Value) : Text := tools.sha256Utf8 (canonicalJson value)

def ComputerAgentDispatch.row (dispatch : ComputerAgentDispatch) (key requestSha256 : Text) :
    DispatchRow where
  dispatchId := dispatch.dispatchId
  projectId := dispatch.projectId
  taskKind := prose "RESEARCH_BRANCH_ANALYSIS" rfl
  transport := dispatch.transport
  routeRevision := dispatch.routeRevision
  priority := dispatch.priority
  connectionId := dispatch.connectionId
  connectionRevision := dispatch.connectionRevision
  clientGrantId := dispatch.clientGrantId
  clientGrantRevision := dispatch.clientGrantRevision
  ownerPrincipalRef := dispatch.ownerPrincipalRef
  ownerCredentialGeneration := dispatch.ownerCredentialGeneration
  actorIssuer := dispatch.actor.issuer
  actorSubject := dispatch.actor.subject
  qualificationChallengeId := dispatch.qualification.challengeId
  qualificationObservationRef := dispatch.qualification.observationRef
  qualificationCredentialGeneration := dispatch.qualification.verifiedCredentialGeneration
  deploymentGeneration := dispatch.qualification.deploymentGeneration
  idempotencyKey := key
  requestSha256 := requestSha256
  runRequestSha256 := dispatch.runRequestSha256
  recordJson := canonicalJson dispatch.json
  recordSha256 := tools.digest dispatch.json
  createdAt := dispatch.createdAt
  expiresAt := dispatch.expiresAt

def ComputerAgentDispatchAcceptance.row (acceptance : ComputerAgentDispatchAcceptance) : AcceptanceRow where
  dispatchId := acceptance.dispatchId
  workflowInstanceId := acceptance.workflowInstanceId
  investigationId := acceptance.investigationRef.id
  investigationRevision := acceptance.investigationRef.revision
  actorIssuer := acceptance.actor.issuer
  actorSubject := acceptance.actor.subject
  credentialGeneration := acceptance.credentialGeneration
  recordJson := canonicalJson acceptance.json
  recordSha256 := tools.digest acceptance.json
  acceptedAt := acceptance.acceptedAt

def ComputerAgentDispatchAbandonment.row (abandonment : ComputerAgentDispatchAbandonment) :
    AbandonmentRow where
  dispatchId := abandonment.dispatchId
  projectId := abandonment.projectId
  ownerPrincipalRef := abandonment.ownerPrincipalRef
  ownerCredentialGeneration := abandonment.ownerCredentialGeneration
  reason := abandonment.reason
  note := abandonment.note
  idempotencyKey := abandonment.idempotencyKey
  requestSha256 := abandonment.requestSha256
  recordJson := canonicalJson abandonment.json
  recordSha256 := tools.digest abandonment.json
  abandonedAt := abandonment.abandonedAt

def ComputerAgentDispatchDeclineReceipt.row (receipt : ComputerAgentDispatchDeclineReceipt) :
    DeclineRow where
  dispatchId := receipt.dispatchId
  projectId := receipt.projectId
  connectionId := receipt.connectionId
  connectionRevision := receipt.connectionRevision
  actorIssuer := receipt.actor.issuer
  actorSubject := receipt.actor.subject
  credentialGeneration := receipt.credentialGeneration
  reason := receipt.reason
  note := receipt.note
  idempotencyKey := receipt.idempotencyKey
  requestSha256 := receipt.requestSha256
  recordJson := canonicalJson receipt.json
  recordSha256 := tools.digest receipt.json
  declinedAt := receipt.declinedAt

def ComputerAgentDispatchReassignment.row (receipt : ComputerAgentDispatchReassignment) :
    ReassignmentRow where
  predecessorDispatchId := receipt.predecessorDispatchId
  successorDispatchId := receipt.successorDispatchId
  projectId := receipt.projectId
  ownerPrincipalRef := receipt.ownerPrincipalRef
  ownerCredentialGeneration := receipt.ownerCredentialGeneration
  predecessorState := receipt.predecessorState
  runRequestSha256 := receipt.runRequestSha256
  successorTransport := receipt.successorTransport
  successorRouteRevision := receipt.successorRouteRevision
  successorConnectionId := receipt.successorConnectionId
  successorConnectionRevision := receipt.successorConnectionRevision
  successorClientGrantId := receipt.successorClientGrantId
  successorClientGrantRevision := receipt.successorClientGrantRevision
  idempotencyKey := receipt.idempotencyKey
  requestSha256 := receipt.requestSha256
  recordJson := canonicalJson receipt.json
  recordSha256 := tools.digest receipt.json
  reassignedAt := receipt.reassignedAt

end

section

inductive Corrupt where
  | json
  | identity

variable (tools : Tools)

def decode {Record Row : Type} [DecidableEq Row] {json : Record → Json.Value} (codec : Codec Record json)
    (recordJson : Text) (row : Row) (bound : Record → Row) : Except Corrupt Record :=
  match codec.parse recordJson with
  | none => .error .json
  | some record => if row = bound record then .ok record else .error .identity

def decodeComputerAgentDispatch (row : DispatchRow) : Except Corrupt ComputerAgentDispatch := do
  let dispatch ← decode tools.dispatch row.recordJson row
    (·.row tools row.idempotencyKey row.requestSha256)
  if tools.digest dispatch.runRequest.json = row.runRequestSha256 then return dispatch
  else .error .identity

def decodeComputerAgentDispatchAcceptance (row : AcceptanceRow) :
    Except Corrupt ComputerAgentDispatchAcceptance :=
  decode tools.acceptance row.recordJson row (·.row tools)

def decodeComputerAgentDispatchAbandonment (row : AbandonmentRow) :
    Except Corrupt ComputerAgentDispatchAbandonment :=
  decode tools.abandonment row.recordJson row (·.row tools)

def decodeComputerAgentDispatchDecline (row : DeclineRow) :
    Except Corrupt ComputerAgentDispatchDeclineReceipt :=
  decode tools.decline row.recordJson row (·.row tools)

def decodeComputerAgentDispatchReassignment (row : ReassignmentRow) :
    Except Corrupt ComputerAgentDispatchReassignment :=
  decode tools.reassignment row.recordJson row (·.row tools)

theorem decode_row {Record Row : Type} [DecidableEq Row] {json : Record → Json.Value}
    {codec : Codec Record json} {record : Record} (valid : codec.schema record = true)
    (bound : Record → Row) :
    decode codec (Json.canonicalJson (json record)) (bound record) bound = .ok record := by
  rw [decode, codec.parse_canonicalJson record valid]
  exact if_pos rfl

theorem decodeDispatch_row {dispatch : ComputerAgentDispatch}
    (valid : tools.dispatch.schema dispatch = true)
    (digest : dispatch.runRequestSha256 = tools.digest dispatch.runRequest.json) (key requestSha256 : Text) :
    decodeComputerAgentDispatch tools (dispatch.row tools key requestSha256) = .ok dispatch := by
  have decoded : decode tools.dispatch (dispatch.row tools key requestSha256).recordJson
      (dispatch.row tools key requestSha256) (·.row tools key requestSha256) = .ok dispatch :=
    decode_row valid fun record => record.row tools key requestSha256
  unfold decodeComputerAgentDispatch
  rw [show (dispatch.row tools key requestSha256).idempotencyKey = key from rfl,
    show (dispatch.row tools key requestSha256).requestSha256 = requestSha256 from rfl, decoded]
  exact if_pos digest.symm

end

end Dispatch
