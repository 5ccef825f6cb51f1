import Eliot.Dispatch.Guards
import Eliot.Dispatch.Records

namespace Dispatch
open Relational (Table)
open Sqlite (Engine)
open Text (prose)

structure ComputerAgentPreferredDispatchCreate where
  transport : Text
  expectedRouteRevision : Int
  clientGrantId : Text
  clientGrantRevision : Int
  expiresInSeconds : Int
  runRequest : RunRequest

structure ComputerAgentPreferredDispatchSelection where
  selectionId : Text
  projectId : Text
  transport : Text
  routeRevision : Int
  priority : Int
  connectionId : Text
  connectionRevision : Int
  clientGrantId : Text
  clientGrantRevision : Int
  ownerPrincipalRef : Text
  ownerCredentialGeneration : Text
  qualification : Qualification
  runRequestSha256 : Text
  idempotencyKey : Text
  requestSha256 : Text
  selectedAt : Text
deriving DecidableEq

structure ComputerAgentPreferredDispatchSettlement where
  selectionId : Text
  dispatchId : Text
  settledAt : Text
deriving DecidableEq

structure ComputerAgentPreferredDispatchReceipt where
  selection : ComputerAgentPreferredDispatchSelection
  settlement : ComputerAgentPreferredDispatchSettlement
  dispatch : ComputerAgentDispatch

def ComputerAgentPreferredDispatchCreate.json (input : ComputerAgentPreferredDispatchCreate) :
    Json.Value := .object
  [(prose "transport" rfl, .text input.transport),
   (prose "expected_route_revision" rfl, .number input.expectedRouteRevision),
   (prose "client_grant_id" rfl, .text input.clientGrantId),
   (prose "client_grant_revision" rfl, .number input.clientGrantRevision),
   (prose "expires_in_seconds" rfl, .number input.expiresInSeconds),
   (prose "run_request" rfl, input.runRequest.json)]

def ComputerAgentPreferredDispatchSelection.json (selection : ComputerAgentPreferredDispatchSelection) :
    Json.Value := .object
  [(prose "protocol" rfl, .text (prose "eliotr.computer-agent-preferred-selection.v1" rfl)),
   (prose "selection_id" rfl, .text selection.selectionId),
   (prose "project_id" rfl, .text selection.projectId),
   (prose "task_kind" rfl, .text (prose "RESEARCH_BRANCH_ANALYSIS" rfl)),
   (prose "selection_strategy" rfl, .text (prose "FIRST_READY" rfl)),
   (prose "transport" rfl, .text selection.transport),
   (prose "route_revision" rfl, .number selection.routeRevision),
   (prose "priority" rfl, .number selection.priority),
   (prose "connection_id" rfl, .text selection.connectionId),
   (prose "connection_revision" rfl, .number selection.connectionRevision),
   (prose "client_grant_id" rfl, .text selection.clientGrantId),
   (prose "client_grant_revision" rfl, .number selection.clientGrantRevision),
   (prose "owner_principal_ref" rfl, .text selection.ownerPrincipalRef),
   (prose "owner_credential_generation" rfl, .text selection.ownerCredentialGeneration),
   (prose "qualification" rfl, selection.qualification.json),
   (prose "run_request_sha256" rfl, .text selection.runRequestSha256),
   (prose "idempotency_key" rfl, .text selection.idempotencyKey),
   (prose "request_sha256" rfl, .text selection.requestSha256),
   (prose "selected_at" rfl, .text selection.selectedAt)]

def ComputerAgentPreferredDispatchSettlement.json (settlement : ComputerAgentPreferredDispatchSettlement) :
    Json.Value := .object
  [(prose "protocol" rfl, .text (prose "eliotr.computer-agent-preferred-dispatch-settlement.v1" rfl)),
   (prose "selection_id" rfl, .text settlement.selectionId),
   (prose "dispatch_id" rfl, .text settlement.dispatchId),
   (prose "settled_at" rfl, .text settlement.settledAt)]

structure PreferredTools extends Tools where
  preferredSchema : ComputerAgentPreferredDispatchCreate → Bool
  selection : Codec ComputerAgentPreferredDispatchSelection ComputerAgentPreferredDispatchSelection.json
  settlement : Codec ComputerAgentPreferredDispatchSettlement ComputerAgentPreferredDispatchSettlement.json
  receiptSchema : ComputerAgentPreferredDispatchReceipt → Bool

section
open Json (canonicalJson)

/-- A row of `computer_agent_preferred_dispatch_selection`. -/
structure SelectionRow where
  selectionId : Text
  projectId : Text
  taskKind : Text
  selectionStrategy : Text
  transport : Text
  routeRevision : Int
  priority : Int
  connectionId : Text
  connectionRevision : Int
  clientGrantId : Text
  clientGrantRevision : Int
  ownerPrincipalRef : Text
  ownerCredentialGeneration : Text
  qualificationChallengeId : Text
  qualificationObservationRef : Text
  qualificationCredentialGeneration : Text
  qualificationReadyUntil : Text
  deploymentGeneration : Text
  runRequestSha256 : Text
  idempotencyKey : Text
  requestSha256 : Text
  recordJson : Text
  recordSha256 : Text
  selectedAt : Text
deriving DecidableEq

/-- A row of `computer_agent_preferred_dispatch_settlement`. -/
structure SettlementRow where
  selectionId : Text
  dispatchId : Text
  recordJson : Text
  recordSha256 : Text
  settledAt : Text
deriving DecidableEq

variable (tools : PreferredTools)

def ComputerAgentPreferredDispatchSelection.row (selection : ComputerAgentPreferredDispatchSelection) :
    SelectionRow where
  selectionId := selection.selectionId
  projectId := selection.projectId
  taskKind := prose "RESEARCH_BRANCH_ANALYSIS" rfl
  selectionStrategy := prose "FIRST_READY" rfl
  transport := selection.transport
  routeRevision := selection.routeRevision
  priority := selection.priority
  connectionId := selection.connectionId
  connectionRevision := selection.connectionRevision
  clientGrantId := selection.clientGrantId
  clientGrantRevision := selection.clientGrantRevision
  ownerPrincipalRef := selection.ownerPrincipalRef
  ownerCredentialGeneration := selection.ownerCredentialGeneration
  qualificationChallengeId := selection.qualification.challengeId
  qualificationObservationRef := selection.qualification.observationRef
  qualificationCredentialGeneration := selection.qualification.verifiedCredentialGeneration
  qualificationReadyUntil := selection.qualification.readyUntil
  deploymentGeneration := selection.qualification.deploymentGeneration
  runRequestSha256 := selection.runRequestSha256
  idempotencyKey := selection.idempotencyKey
  requestSha256 := selection.requestSha256
  recordJson := canonicalJson selection.json
  recordSha256 := tools.digest selection.json
  selectedAt := selection.selectedAt

def ComputerAgentPreferredDispatchSettlement.row (settlement : ComputerAgentPreferredDispatchSettlement) :
    SettlementRow where
  selectionId := settlement.selectionId
  dispatchId := settlement.dispatchId
  recordJson := canonicalJson settlement.json
  recordSha256 := tools.digest settlement.json
  settledAt := settlement.settledAt

def decodeSelection (row : SelectionRow) : Except Corrupt ComputerAgentPreferredDispatchSelection :=
  decode tools.selection row.recordJson row (·.row tools)

def decodeSettlement (row : SettlementRow) : Except Corrupt ComputerAgentPreferredDispatchSettlement :=
  decode tools.settlement row.recordJson row (·.row tools)

end

def SelectionRow.checked (engine : Engine) (row : SelectionRow) : Bool :=
  lengthBetween row.selectionId 1 128 && row.taskKind = prose "RESEARCH_BRANCH_ANALYSIS" rfl &&
  row.selectionStrategy = prose "FIRST_READY" rfl && isTransport row.transport &&
  [row.routeRevision, row.connectionRevision, row.clientGrantRevision].all isRevision &&
  0 ≤ row.priority && row.priority ≤ 15 &&
  [row.ownerPrincipalRef, row.ownerCredentialGeneration, row.qualificationObservationRef,
    row.qualificationCredentialGeneration, row.deploymentGeneration, row.idempotencyKey].all
    (lengthBetween · 1 256) &&
  (engine.julianday row.qualificationReadyUntil).isSome && Text.isSha256 row.runRequestSha256 &&
  Text.isSha256 row.requestSha256 && isRecord engine row.recordJson row.recordSha256 32768 &&
  (engine.julianday row.selectedAt).isSome &&
  row.selectionId = prose "preferred-selection-" rfl ++ row.requestSha256.take 48 &&
  Sqlite.exceeds (engine.julianday row.qualificationReadyUntil) (engine.julianday row.selectedAt) &&
  agrees engine row.recordJson
    [(prose "protocol" rfl, .text (prose "eliotr.computer-agent-preferred-selection.v1" rfl)),
     (prose "selection_id" rfl, .text row.selectionId),
     (prose "project_id" rfl, .text row.projectId),
     (prose "task_kind" rfl, .text row.taskKind),
     (prose "selection_strategy" rfl, .text row.selectionStrategy),
     (prose "transport" rfl, .text row.transport),
     (prose "route_revision" rfl, .number row.routeRevision),
     (prose "priority" rfl, .number row.priority),
     (prose "connection_id" rfl, .text row.connectionId),
     (prose "connection_revision" rfl, .number row.connectionRevision),
     (prose "client_grant_id" rfl, .text row.clientGrantId),
     (prose "client_grant_revision" rfl, .number row.clientGrantRevision),
     (prose "owner_principal_ref" rfl, .text row.ownerPrincipalRef),
     (prose "owner_credential_generation" rfl, .text row.ownerCredentialGeneration),
     (prose "qualification.challenge_id" rfl, .text row.qualificationChallengeId),
     (prose "qualification.observation_ref" rfl, .text row.qualificationObservationRef),
     (prose "qualification.verified_credential_generation" rfl,
       .text row.qualificationCredentialGeneration),
     (prose "qualification.ready_until" rfl, .text row.qualificationReadyUntil),
     (prose "qualification.deployment_generation" rfl, .text row.deploymentGeneration),
     (prose "run_request_sha256" rfl, .text row.runRequestSha256),
     (prose "idempotency_key" rfl, .text row.idempotencyKey),
     (prose "request_sha256" rfl, .text row.requestSha256),
     (prose "selected_at" rfl, .text row.selectedAt)]

def SettlementRow.checked (engine : Engine) (row : SettlementRow) : Bool :=
  isRecord engine row.recordJson row.recordSha256 8192 && (engine.julianday row.settledAt).isSome &&
  agrees engine row.recordJson
    [(prose "protocol" rfl, .text (prose "eliotr.computer-agent-preferred-dispatch-settlement.v1" rfl)),
     (prose "selection_id" rfl, .text row.selectionId),
     (prose "dispatch_id" rfl, .text row.dispatchId),
     (prose "settled_at" rfl, .text row.settledAt)]

section
variable (engine : Engine) (authority : Authority)

/-- A row of the view `computer_agent_preferred_ready_qualification`. -/
def Authority.isReady (observed : QualificationRow) : Bool :=
  !(authority.qualifications.any fun other => other.connectionId = observed.connectionId &&
    other.connectionRevision = observed.connectionRevision && other.transport = observed.transport &&
    (observed.issuedAt < other.issuedAt ||
      observed.issuedAt = other.issuedAt && observed.challengeId < other.challengeId)) &&
  observed.challengeState = prose "CONFIRMED" rfl && observed.authProfile = prose "service-token" rfl &&
  observed.connectionState = prose "ENABLED" rfl &&
  observed.currentConnectionState = prose "ENABLED" rfl &&
  observed.currentConnectionRevision = observed.connectionRevision &&
  observed.verifiedAuthenticationMethod = some (prose "service_token" rfl) &&
  observed.verifiedActorRef = some observed.actorSubject

def QualificationRow.coversTime (observed : QualificationRow) (time : Text) : Bool :=
  Sqlite.atMost (observed.observedAt.bind engine.julianday) (engine.julianday time) &&
  Sqlite.exceeds (shifted (observed.observedAt.bind engine.julianday) 86400000) (engine.julianday time) &&
  Sqlite.exceeds (observed.verifiedExpiresAt.bind engine.julianday) (engine.julianday time)

def selectionRouteGuard (row : SelectionRow) : Bool :=
  (authority.routes.any fun route => route.projectId = row.projectId &&
    route.taskKind = row.taskKind && route.revision = row.routeRevision &&
    route.state = prose "ACTIVE" rfl && route.ownerPrincipalRef = row.ownerPrincipalRef) &&
  (⟨row.projectId, row.taskKind, row.routeRevision, row.priority, row.connectionId,
    row.connectionRevision⟩ ∈ authority.routeEntries) &&
  (authority.connections.any fun connection => connection.connectionId = row.connectionId &&
    connection.revision = row.connectionRevision && connection.state = prose "ENABLED" rfl &&
    connection.ownerPrincipalRef = row.ownerPrincipalRef && row.taskKind ∈ connection.taskKinds &&
    row.transport ∈ connection.transportCapabilities) &&
  ⟨row.projectId, row.ownerPrincipalRef⟩ ∈ authority.owners

def selectionGrantGuard (row : SelectionRow) : Bool :=
  authority.grants.any fun grant => authority.connections.any fun connection =>
    connection.connectionId = row.connectionId && connection.revision = row.connectionRevision &&
    grant.grantId = row.clientGrantId && grant.revision = row.clientGrantRevision &&
    grant.state = prose "ACTIVE" rfl && grant.projectId = row.projectId &&
    grant.grantorPrincipalRef = row.ownerPrincipalRef && grant.granteeMethod = prose "service_token" rfl &&
    grant.granteeIssuer = connection.actorIssuer && grant.granteeSubject = connection.actorSubject &&
    grant.sponsored &&
    Sqlite.exceeds (engine.julianday grant.expiresAt) (engine.julianday row.selectedAt) &&
    prose "run" rfl ∈ grant.allowedOperations && prose "recover" rfl ∈ grant.allowedOperations &&
    prose "evidence" rfl ∈ grant.allowedOperations

def selectionQualificationGuard (row : SelectionRow) : Bool :=
  authority.qualifications.any fun observed =>
    authority.isReady observed && observed.challengeId = row.qualificationChallengeId &&
    observed.connectionId = row.connectionId && observed.connectionRevision = row.connectionRevision &&
    observed.transport = row.transport && observed.ownerPrincipalRef = row.ownerPrincipalRef &&
    observed.observationRef = some row.qualificationObservationRef &&
    observed.verifiedCredentialGeneration = some row.qualificationCredentialGeneration &&
    observed.deploymentGeneration = row.deploymentGeneration &&
    observed.coversTime engine row.selectedAt &&
    Sqlite.atMost (engine.julianday row.qualificationReadyUntil)
      (shifted (observed.observedAt.bind engine.julianday) 86400000) &&
    Sqlite.atMost (engine.julianday row.qualificationReadyUntil)
      (observed.verifiedExpiresAt.bind engine.julianday)

def selectionPriorityGuard (row : SelectionRow) : Bool :=
  !(authority.routeEntries.any fun entry => authority.connections.any fun connection =>
    authority.qualifications.any fun observed =>
      connection.connectionId = entry.connectionId && connection.revision = entry.connectionRevision &&
      connection.state = prose "ENABLED" rfl && authority.isReady observed &&
      observed.connectionId = entry.connectionId &&
      observed.connectionRevision = entry.connectionRevision && observed.transport = row.transport &&
      entry.projectId = row.projectId && entry.taskKind = row.taskKind &&
      entry.routeRevision = row.routeRevision && entry.priority < row.priority &&
      connection.ownerPrincipalRef = row.ownerPrincipalRef && row.taskKind ∈ connection.taskKinds &&
      row.transport ∈ connection.transportCapabilities &&
      observed.deploymentGeneration = row.deploymentGeneration &&
      observed.coversTime engine row.selectedAt)

structure Selections where
  selections : Table SelectionRow Text SelectionRow.selectionId
  settlements : Table SettlementRow Text SettlementRow.selectionId
  selectionKeys : (selections.rows.map fun row => (row.ownerPrincipalRef, row.idempotencyKey)).Nodup
  settledDispatches : (settlements.rows.map (·.dispatchId)).Nodup

theorem no_keys : ([] : List (Text × Text)).Nodup := List.nodup_nil

def Selections.empty : Selections := ⟨.empty, .empty, no_keys, List.nodup_nil⟩

def settlementGuard (tables : Tables) (preferred : Selections) (row : SettlementRow) : Bool :=
  match preferred.selections.find row.selectionId, tables.dispatches.find row.dispatchId with
  | some selection, some dispatch =>
    dispatch.projectId = selection.projectId && dispatch.taskKind = selection.taskKind &&
    dispatch.transport = selection.transport && dispatch.routeRevision = selection.routeRevision &&
    dispatch.priority = selection.priority && dispatch.connectionId = selection.connectionId &&
    dispatch.connectionRevision = selection.connectionRevision &&
    dispatch.clientGrantId = selection.clientGrantId &&
    dispatch.clientGrantRevision = selection.clientGrantRevision &&
    dispatch.ownerPrincipalRef = selection.ownerPrincipalRef &&
    dispatch.ownerCredentialGeneration = selection.ownerCredentialGeneration &&
    dispatch.qualificationChallengeId = selection.qualificationChallengeId &&
    dispatch.qualificationObservationRef = selection.qualificationObservationRef &&
    dispatch.qualificationCredentialGeneration = selection.qualificationCredentialGeneration &&
    dispatch.deploymentGeneration = selection.deploymentGeneration &&
    dispatch.runRequestSha256 = selection.runRequestSha256 &&
    notBefore engine dispatch.createdAt selection.selectedAt &&
    Sqlite.atMost (engine.julianday dispatch.expiresAt)
      (engine.julianday selection.qualificationReadyUntil) &&
    notBefore engine row.settledAt dispatch.createdAt
  | _, _ => false

def Selections.insertSelection (preferred : Selections) (row : SelectionRow) : Option Selections := do
  guard (selectionRouteGuard authority row && selectionGrantGuard engine authority row &&
    selectionQualificationGuard engine authority row && selectionPriorityGuard engine authority row &&
    row.checked engine)
  let selections ← preferred.selections.insert row
  if keys : (selections.rows.map fun row => (row.ownerPrincipalRef, row.idempotencyKey)).Nodup then
    some { preferred with selections, selectionKeys := keys }
  else none

def Selections.insertSettlement (preferred : Selections) (tables : Tables) (row : SettlementRow) :
    Option Selections := do
  guard (settlementGuard engine tables preferred row && row.checked engine)
  let settlements ← preferred.settlements.insert row
  if dispatches : (settlements.rows.map (·.dispatchId)).Nodup then
    some { preferred with settlements, settledDispatches := dispatches }
  else none

end

end Dispatch
