import Eliot.Dispatch.Tables

namespace Dispatch
open Relational (Table)
open Sqlite (Engine)

section
open Text (prose)

/-- What is read of a row of `project_computer_agent_route_current`. -/
structure RouteRow where
  projectId : Text
  taskKind : Text
  revision : Int
  state : Text
  strategy : Text
  ownerPrincipalRef : Text

/-- A row of `project_computer_agent_route_entry`. -/
structure RouteEntryRow where
  projectId : Text
  taskKind : Text
  routeRevision : Int
  priority : Int
  connectionId : Text
  connectionRevision : Int
deriving DecidableEq

/-- What is read of a row of `computer_agent_connection_current`, the lists as their entries. -/
structure ConnectionRow where
  connectionId : Text
  revision : Int
  state : Text
  ownerPrincipalRef : Text
  actorIssuer : Text
  actorSubject : Text
  transportCapabilities : List Text
  taskKinds : List Text

/-- What is read of a row of `project_client_grant_current`. -/
structure GrantRow where
  grantId : Text
  revision : Int
  state : Text
  projectId : Text
  grantorPrincipalRef : Text
  granteeMethod : Text
  granteeIssuer : Text
  granteeSubject : Text
  /-- whether the record has a `$.spend_policy_ref` -/
  sponsored : Bool
  /-- the entries of `$.allowed_operations` of the record -/
  allowedOperations : List Text
  expiresAt : Text

/-- A row of `project_owner`. -/
structure OwnerRow where
  projectId : Text
  principalRef : Text
deriving DecidableEq

/-- What is read of a row of `computer_agent_connection_qualification_observation`. -/
structure QualificationRow where
  challengeId : Text
  connectionId : Text
  connectionRevision : Int
  transport : Text
  issuedAt : Text
  ownerPrincipalRef : Text
  deploymentGeneration : Text
  challengeState : Text
  authProfile : Text
  observationRef : Option Text
  verifiedActorRef : Option Text
  verifiedCredentialGeneration : Option Text
  verifiedAuthenticationMethod : Option Text
  actorIssuer : Text
  actorSubject : Text
  connectionState : Text
  currentConnectionRevision : Int
  currentConnectionState : Text
  observedAt : Option Text
  verifiedExpiresAt : Option Text

/-- What is read of a row of `computer_agent_connection_qualification_binding`. -/
structure BindingRow where
  challengeId : Text
  connectionId : Text
  connectionRevision : Int
  transport : Text
  issuedAt : Text

/-- What is read of a row of `research_workflow_run`. -/
structure WorkflowRunRow where
  operationId : Text
  investigationId : Text
  initialRevision : Int
  principalRef : Text
  credentialGeneration : Text
  deploymentGeneration : Text
  idempotencyKey : Text
  handlerGeneration : Text

/-- What is read of a row of `research_computer_agent_route_binding`. -/
structure RouteBindingRow where
  operationId : Text
  projectId : Text
  taskKind : Text
  routeRevision : Int
  priority : Int
  connectionId : Text
  connectionRevision : Int
  clientGrantId : Text
  clientGrantRevision : Int
  actorIssuer : Text
  actorSubject : Text
deriving DecidableEq

structure Authority where
  routes : List RouteRow
  routeEntries : List RouteEntryRow
  connections : List ConnectionRow
  grants : List GrantRow
  owners : List OwnerRow
  qualifications : List QualificationRow
  bindings : List BindingRow
  workflowRuns : List WorkflowRunRow
  routeBindings : List RouteBindingRow
  /-- `julianday('now')` -/
  now : Int

variable (engine : Engine)

def BindingRow.supersedes (binding : BindingRow) (observed : QualificationRow) : Bool :=
  binding.connectionId = observed.connectionId &&
  binding.connectionRevision = observed.connectionRevision && binding.transport = observed.transport &&
  (Sqlite.exceeds (engine.julianday binding.issuedAt) (engine.julianday observed.issuedAt) ||
    binding.issuedAt = observed.issuedAt && observed.challengeId < binding.challengeId)

def QualificationRow.supports (observed : QualificationRow) (row : DispatchRow)
    (bindings : List BindingRow) : Bool :=
  observed.challengeId = row.qualificationChallengeId &&
  observed.connectionId = row.connectionId && observed.connectionRevision = row.connectionRevision &&
  observed.transport = row.transport && observed.ownerPrincipalRef = row.ownerPrincipalRef &&
  observed.deploymentGeneration = row.deploymentGeneration &&
  observed.challengeState = prose "CONFIRMED" rfl && observed.authProfile = prose "service-token" rfl &&
  observed.observationRef = some row.qualificationObservationRef &&
  observed.verifiedActorRef = some row.actorSubject &&
  observed.verifiedCredentialGeneration = some row.qualificationCredentialGeneration &&
  observed.verifiedAuthenticationMethod = some (prose "service_token" rfl) &&
  observed.actorIssuer = row.actorIssuer && observed.actorSubject = row.actorSubject &&
  observed.currentConnectionRevision = row.connectionRevision &&
  observed.currentConnectionState = prose "ENABLED" rfl &&
  !bindings.any (·.supersedes engine observed) &&
  Sqlite.atMost (engine.julianday row.expiresAt)
    (shifted (observed.observedAt.bind engine.julianday) 86400000) &&
  Sqlite.atMost (engine.julianday row.expiresAt) (observed.verifiedExpiresAt.bind engine.julianday)

def GrantRow.supports (grant : GrantRow) (row : DispatchRow) : Bool :=
  grant.grantId = row.clientGrantId && grant.revision = row.clientGrantRevision &&
  grant.state = prose "ACTIVE" rfl && grant.projectId = row.projectId &&
  grant.grantorPrincipalRef = row.ownerPrincipalRef && grant.granteeMethod = prose "service_token" rfl &&
  grant.granteeIssuer = row.actorIssuer && grant.granteeSubject = row.actorSubject &&
  prose "run" rfl ∈ grant.allowedOperations && prose "recover" rfl ∈ grant.allowedOperations &&
  prose "evidence" rfl ∈ grant.allowedOperations &&
  Sqlite.atMost (engine.julianday row.expiresAt) (engine.julianday grant.expiresAt)

def ConnectionRow.supports (connection : ConnectionRow) (row : DispatchRow) : Bool :=
  connection.connectionId = row.connectionId && connection.revision = row.connectionRevision &&
  connection.state = prose "ENABLED" rfl && connection.ownerPrincipalRef = row.ownerPrincipalRef &&
  connection.actorIssuer = row.actorIssuer && connection.actorSubject = row.actorSubject &&
  row.transport ∈ connection.transportCapabilities && row.taskKind ∈ connection.taskKinds

def Authority.supports (authority : Authority) (row : DispatchRow) : Bool :=
  (authority.routes.any fun route => route.projectId = row.projectId &&
    route.taskKind = row.taskKind && route.revision = row.routeRevision &&
    route.state = prose "ACTIVE" rfl && route.strategy = prose "ORIGINATING_MATCH" rfl &&
    route.ownerPrincipalRef = row.ownerPrincipalRef) &&
  (authority.routeEntries.any fun entry => entry.projectId = row.projectId &&
    entry.taskKind = row.taskKind && entry.routeRevision = row.routeRevision &&
    entry.priority = row.priority && entry.connectionId = row.connectionId &&
    entry.connectionRevision = row.connectionRevision) &&
  authority.connections.any (·.supports row) && authority.grants.any (·.supports engine row) &&
  ⟨row.projectId, row.ownerPrincipalRef⟩ ∈ authority.owners &&
  authority.qualifications.any (·.supports engine row authority.bindings) &&
  Sqlite.exceeds (engine.julianday row.expiresAt) (some authority.now)

def Authority.witnesses (authority : Authority) (row : DispatchRow) (acceptance : AcceptanceRow) :
    Bool :=
  authority.workflowRuns.any fun run =>
    run.operationId = acceptance.workflowInstanceId &&
    run.investigationId = acceptance.investigationId &&
    run.initialRevision = acceptance.investigationRevision &&
    run.principalRef = acceptance.actorSubject &&
    run.credentialGeneration = acceptance.credentialGeneration &&
    run.deploymentGeneration = row.deploymentGeneration &&
    run.idempotencyKey = prose "computer-agent-dispatch:" rfl ++ row.dispatchId &&
    run.handlerGeneration = prose "research-handlers.exploratory.v8" rfl &&
    authority.routeBindings.any fun binding =>
      binding = ⟨run.operationId, row.projectId, row.taskKind, row.routeRevision, row.priority,
        row.connectionId, row.connectionRevision, row.clientGrantId, row.clientGrantRevision,
        row.actorIssuer, row.actorSubject⟩

end

section
open Text (prose)

structure Tables where
  dispatches : Table DispatchRow Text DispatchRow.dispatchId
  acceptances : Table AcceptanceRow Text AcceptanceRow.dispatchId
  abandonments : Table AbandonmentRow Text AbandonmentRow.dispatchId
  declines : Table DeclineRow Text DeclineRow.dispatchId
  reassignments : Table ReassignmentRow Text ReassignmentRow.predecessorDispatchId
  dispatchKeys : (dispatches.rows.map fun row => (row.ownerPrincipalRef, row.idempotencyKey)).Nodup
  workflowInstances : (acceptances.rows.map (·.workflowInstanceId)).Nodup
  abandonmentKeys :
    (abandonments.rows.map fun row => (row.ownerPrincipalRef, row.idempotencyKey)).Nodup
  declineKeys :
    (declines.rows.map fun row => (row.actorIssuer, row.actorSubject, row.idempotencyKey)).Nodup
  successors : (reassignments.rows.map (·.successorDispatchId)).Nodup
  reassignmentKeys :
    (reassignments.rows.map fun row => (row.ownerPrincipalRef, row.idempotencyKey)).Nodup

def Tables.empty : Tables :=
  ⟨.empty, .empty, .empty, .empty, .empty, List.nodup_nil, List.nodup_nil, List.nodup_nil,
    List.nodup_nil, List.nodup_nil, List.nodup_nil⟩

def Tables.accepted (tables : Tables) (id : Text) : Bool := (tables.acceptances.find id).isSome

def Tables.abandoned (tables : Tables) (id : Text) : Bool := (tables.abandonments.find id).isSome

def Tables.declined (tables : Tables) (id : Text) : Bool := (tables.declines.find id).isSome

variable (engine : Engine) (authority : Authority) (tables : Tables)

/-- `julianday(later) >= julianday(earlier)` -/
def notBefore (later earlier : Text) : Bool :=
  Sqlite.atMost (engine.julianday earlier) (engine.julianday later)

def dispatchGuard (row : DispatchRow) : Bool := authority.supports engine row

def acceptanceGuard (row : AcceptanceRow) : Bool :=
  (match tables.dispatches.find row.dispatchId with
  | some offer => offer.actorIssuer = row.actorIssuer && offer.actorSubject = row.actorSubject &&
    offer.qualificationCredentialGeneration = row.credentialGeneration &&
    authority.witnesses offer row && notBefore engine row.acceptedAt offer.createdAt
  | none => false) &&
  !tables.abandoned row.dispatchId && !tables.declined row.dispatchId

def abandonmentGuard (row : AbandonmentRow) : Bool :=
  (match tables.dispatches.find row.dispatchId with
  | some offer => ⟨offer.projectId, offer.ownerPrincipalRef⟩ ∈ authority.owners &&
    offer.projectId = row.projectId && offer.ownerPrincipalRef = row.ownerPrincipalRef &&
    !tables.accepted row.dispatchId && notBefore engine row.abandonedAt offer.createdAt
  | none => false) &&
  !tables.declined row.dispatchId

def declineGuard (row : DeclineRow) : Bool :=
  match tables.dispatches.find row.dispatchId with
  | some offer => offer.projectId = row.projectId && offer.connectionId = row.connectionId &&
    offer.connectionRevision = row.connectionRevision && offer.actorIssuer = row.actorIssuer &&
    offer.actorSubject = row.actorSubject &&
    offer.qualificationCredentialGeneration = row.credentialGeneration &&
    !tables.accepted row.dispatchId && !tables.abandoned row.dispatchId &&
    notBefore engine row.declinedAt offer.createdAt
  | none => false

def closedAs (row : ReassignmentRow) : Bool :=
  match tables.abandonments.find row.predecessorDispatchId,
    tables.declines.find row.predecessorDispatchId with
  | some abandonment, none => row.predecessorState = prose "ABANDONED" rfl &&
    notBefore engine row.reassignedAt abandonment.abandonedAt
  | none, some decline => row.predecessorState = prose "DECLINED" rfl &&
    notBefore engine row.reassignedAt decline.declinedAt
  | _, _ => false

def reassignmentGuard (row : ReassignmentRow) : Bool :=
  match tables.dispatches.find row.predecessorDispatchId,
    tables.dispatches.find row.successorDispatchId with
  | some predecessor, some successor =>
    ⟨predecessor.projectId, predecessor.ownerPrincipalRef⟩ ∈ authority.owners &&
    predecessor.projectId = row.projectId && successor.projectId = row.projectId &&
    predecessor.ownerPrincipalRef = row.ownerPrincipalRef &&
    successor.ownerPrincipalRef = row.ownerPrincipalRef &&
    successor.ownerCredentialGeneration = row.ownerCredentialGeneration &&
    predecessor.runRequestSha256 = row.runRequestSha256 &&
    successor.runRequestSha256 = row.runRequestSha256 &&
    successor.transport = row.successorTransport &&
    successor.routeRevision = row.successorRouteRevision &&
    successor.connectionId = row.successorConnectionId &&
    successor.connectionRevision = row.successorConnectionRevision &&
    successor.clientGrantId = row.successorClientGrantId &&
    successor.clientGrantRevision = row.successorClientGrantRevision &&
    !tables.accepted row.predecessorDispatchId && !tables.accepted row.successorDispatchId &&
    !tables.abandoned row.successorDispatchId && !tables.declined row.successorDispatchId &&
    closedAs engine tables row && notBefore engine successor.createdAt predecessor.createdAt &&
    notBefore engine row.reassignedAt successor.createdAt
  | _, _ => false

def Tables.insertDispatch (row : DispatchRow) : Option Tables := do
  guard (dispatchGuard engine authority row && row.checked engine)
  let dispatches ← tables.dispatches.insert row
  if keys : (dispatches.rows.map fun row => (row.ownerPrincipalRef, row.idempotencyKey)).Nodup then
    some { tables with dispatches, dispatchKeys := keys }
  else none

/-- `INSERT ... ON CONFLICT(dispatch_id) DO NOTHING` -/
def Tables.insertAcceptance (row : AcceptanceRow) : Option Tables := do
  guard (acceptanceGuard engine authority tables row && row.checked engine)
  match tables.acceptances.insert row with
  | none => some tables
  | some acceptances =>
    if instances : (acceptances.rows.map (·.workflowInstanceId)).Nodup then
      some { tables with acceptances, workflowInstances := instances }
    else none

def Tables.insertAbandonment (row : AbandonmentRow) : Option Tables := do
  guard (abandonmentGuard engine authority tables row && row.checked engine)
  let abandonments ← tables.abandonments.insert row
  if keys : (abandonments.rows.map fun row => (row.ownerPrincipalRef, row.idempotencyKey)).Nodup then
    some { tables with abandonments, abandonmentKeys := keys }
  else none

def Tables.insertDecline (row : DeclineRow) : Option Tables := do
  guard (declineGuard engine tables row && row.checked engine)
  let declines ← tables.declines.insert row
  if keys : (declines.rows.map fun row =>
      (row.actorIssuer, row.actorSubject, row.idempotencyKey)).Nodup then
    some { tables with declines, declineKeys := keys }
  else none

def Tables.insertReassignment (row : ReassignmentRow) : Option Tables := do
  guard (reassignmentGuard engine authority tables row && row.checked engine)
  let reassignments ← tables.reassignments.insert row
  if successors : (reassignments.rows.map (·.successorDispatchId)).Nodup then
    if keys : (reassignments.rows.map fun row => (row.ownerPrincipalRef, row.idempotencyKey)).Nodup then
      some { tables with reassignments, successors, reassignmentKeys := keys }
    else none
  else none

inductive Insert where
  | dispatch (row : DispatchRow)
  | acceptance (row : AcceptanceRow)
  | abandonment (row : AbandonmentRow)
  | decline (row : DeclineRow)
  | reassignment (row : ReassignmentRow)

def Tables.insert : Insert → Option Tables
  | .dispatch row => tables.insertDispatch engine authority row
  | .acceptance row => tables.insertAcceptance engine authority row
  | .abandonment row => tables.insertAbandonment engine authority row
  | .decline row => tables.insertDecline engine row
  | .reassignment row => tables.insertReassignment engine authority row

end

end Dispatch
