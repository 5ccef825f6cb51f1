import Eliot.Dispatch.Calls

namespace Dispatch
open Async
open Sqlite (Engine)
open Text (prose)

section
variable (engine : Engine)

def readSelectionReplay (purpose : Purpose) (principal key : Text) : Calls (Option SelectionRow) :=
  read purpose (fun _ world => world.preferred.selections.rows.find? fun row =>
    row.ownerPrincipalRef = principal ∧ row.idempotencyKey = key)
    "Preferred selection replay is unavailable"

def readSettlement (selectionId : Text) : Calls (Option SettlementRow) :=
  read .other (fun _ world => world.preferred.settlements.find selectionId)
    "Preferred dispatch settlement read is unavailable"

def insertSelection (row : SelectionRow) (authority : Authority) (world : World) : Option World :=
  (world.preferred.insertSelection engine authority row).map fun preferred => { world with preferred }

def insertSettlement (row : SettlementRow) (_ : Authority) (world : World) : Option World :=
  (world.preferred.insertSettlement engine world.tables row).map fun preferred =>
    { world with preferred }

/-- `mapReadiness` -/
def mapReadiness {α : Type} : Except Dependency α → Calls α
  | .ok value => return value
  | .error .retryable =>
    failRetryable .storageUnavailable 503 "Preferred route readiness is unavailable"
  | .error .corrupt => fail .storageCorrupt 500 "Preferred route readiness is corrupt"
  | .error .refused => fail .authorityStale 409 "Preferred route readiness is no longer current"
  | .error .other => Call.throw .other

end

section
variable (engine : Engine) (tools : PreferredTools) (deploymentGeneration : Text)

def preferredClock : String := "Preferred-dispatch clock"

/-- `idempotency`, for the keys that owners choose -/
def preferredKey (value : Option Text) : Calls Text :=
  match value.filter fun key => isKey key && !preferredPrefix.isPrefixOf key with
  | some key => return key
  | none =>
    fail .inputInvalid 400 "Idempotency-Key is required, invalid, or uses a reserved prefix"

def preferredSha (projectId principalRef : Text) (input : ComputerAgentPreferredDispatchCreate) : Text :=
  tools.digest (.object
    [(prose "protocol" rfl, .text (prose "eliotr.computer-agent-preferred-dispatch-create.v1" rfl)),
     (prose "project_id" rfl, .text projectId),
     (prose "owner_principal_ref" rfl, .text principalRef),
     (prose "input" rfl, input.json)])

def dispatchMatch (dispatch : ComputerAgentDispatch) (selection : ComputerAgentPreferredDispatchSelection)
    (runRequest : RunRequest) : Bool :=
  dispatch.projectId = selection.projectId && dispatch.transport = selection.transport &&
  dispatch.routeRevision = selection.routeRevision && dispatch.priority = selection.priority &&
  dispatch.connectionId = selection.connectionId &&
  dispatch.connectionRevision = selection.connectionRevision &&
  dispatch.clientGrantId = selection.clientGrantId &&
  dispatch.clientGrantRevision = selection.clientGrantRevision &&
  dispatch.ownerPrincipalRef = selection.ownerPrincipalRef &&
  dispatch.ownerCredentialGeneration = selection.ownerCredentialGeneration &&
  Json.canonicalJson dispatch.qualification.json = Json.canonicalJson selection.qualification.json &&
  dispatch.runRequestSha256 = selection.runRequestSha256 &&
  Json.canonicalJson dispatch.runRequest.json = Json.canonicalJson runRequest.json

def requireDispatchMatch (dispatch : ComputerAgentDispatch)
    (selection : ComputerAgentPreferredDispatchSelection) (runRequest : RunRequest) : Calls Unit :=
  require (dispatchMatch dispatch selection runRequest) .identityConflict 409
    "Preferred selection settled a different exact dispatch"

/-- `ComputerAgentPreferredDispatchReceiptSchema.parse` -/
def parseReceipt (selection : ComputerAgentPreferredDispatchSelection)
    (settlement : ComputerAgentPreferredDispatchSettlement) (dispatch : ComputerAgentDispatch) :
    Calls ComputerAgentPreferredDispatchReceipt :=
  if tools.receiptSchema ⟨selection, settlement, dispatch⟩ then return ⟨selection, settlement, dispatch⟩
  else Call.throw .other

def receipt (selection : ComputerAgentPreferredDispatchSelection)
    (settlement : ComputerAgentPreferredDispatchSettlement) (runRequest : RunRequest) :
    Calls ComputerAgentPreferredDispatchReceipt := do
  match ← readDispatch .other settlement.dispatchId with
  | none => fail .storageCorrupt 500 "Preferred settlement references a missing dispatch"
  | some row =>
    let dispatch ← decoded (decodeComputerAgentDispatch tools.toTools row)
      "Dispatch record is not valid JSON" "Dispatch record identity is corrupt"
    requireDispatchMatch dispatch selection runRequest
    parseReceipt tools selection settlement dispatch

def Readiness.preferred (readiness : Readiness) (preferred : PreferredReady) :
    Option (ReadinessEntry × Qualification) :=
  match readiness.entries[preferred.priority]? with
  | some entry =>
    match entry.qualification with
    | some ⟨true, challengeId, _, _, _, deployment, some observationRef, some readyUntil,
        some verifiedCredentialGeneration⟩ =>
      if entry.eligible && entry.connectionId = preferred.connectionId &&
        entry.connectionRevision = preferred.connectionRevision && deployment = deploymentGeneration then
        some (entry, ⟨challengeId, observationRef, verifiedCredentialGeneration, readyUntil, deployment⟩)
      else none
    | _ => none
  | none => none

def prepareSelection (identity : Identity) (projectId key requestSha : Text)
    (input : ComputerAgentPreferredDispatchCreate) : Calls ComputerAgentPreferredDispatchSelection := do
  let readiness ← mapReadiness (← consult .authority Choice.readiness)
  match readiness.preferredReadyConnection.filter fun _ =>
      readiness.active && readiness.routeRevision = input.expectedRouteRevision with
  | none =>
    fail .authorityStale 409
      "The expected route has no READY preferred connection for this transport"
  | some preferred =>
    match readiness.preferred deploymentGeneration preferred with
    | none => fail .storageCorrupt 500 "Preferred readiness report is internally inconsistent"
    | some (entry, qualification) =>
      let selection : ComputerAgentPreferredDispatchSelection :=
        { selectionId := prose "preferred-selection-" rfl ++ requestSha.take 48
          projectId
          transport := input.transport
          routeRevision := readiness.routeRevision
          priority := entry.priority
          connectionId := entry.connectionId
          connectionRevision := entry.connectionRevision
          clientGrantId := input.clientGrantId
          clientGrantRevision := input.clientGrantRevision
          ownerPrincipalRef := identity.principalRef
          ownerCredentialGeneration := identity.credentialGeneration
          qualification
          runRequestSha256 := tools.digest input.runRequest.json
          idempotencyKey := key
          requestSha256 := requestSha
          selectedAt := readiness.observedAt }
      if tools.selection.schema selection then return selection else Call.throw .other

def settleSelection (context : Context) (selection : ComputerAgentPreferredDispatchSelection)
    (principalRef key : Text) : Calls SelectionRow := do
  let record := Json.canonicalJson selection.json
  let _ ← owner preferredClock context
  let _ ← write (insertSelection engine (selection.row tools))
  match ← readSelectionReplay (.selected record) principalRef key with
  | none =>
    failRetryable .settlementUncertain 503
      "Preferred selection acknowledgement is uncertain; retry the same request"
  | some row =>
    let recorded ← decoded (decodeSelection tools row) "Preferred selection is not valid JSON"
      "Preferred selection identity is corrupt"
    require (Json.canonicalJson recorded.json = record) .storageCorrupt 500
      "Preferred selection readback differs from the intended record"
    return row

def internalKey (selection : ComputerAgentPreferredDispatchSelection) : Text :=
  preferredPrefix ++ selection.requestSha256.take 48

def internalInput (selection : ComputerAgentPreferredDispatchSelection)
    (input : ComputerAgentPreferredDispatchCreate) : ComputerAgentDispatchCreate :=
  ⟨selection.transport, selection.routeRevision, selection.connectionId, selection.connectionRevision,
    selection.clientGrantId, selection.clientGrantRevision, input.expiresInSeconds, input.runRequest⟩

def dispatchOf (context : Context) (identity : Identity) (projectId : Text)
    (selection : ComputerAgentPreferredDispatchSelection) (input : ComputerAgentPreferredDispatchCreate) :
    Calls ComputerAgentDispatch := do
  match ← readDispatchReplay .lookup identity.principalRef (internalKey selection) with
  | some existing =>
    let dispatch ← decoded (decodeComputerAgentDispatch tools.toTools existing)
      "Dispatch record is not valid JSON" "Dispatch record identity is corrupt"
    requireDispatchMatch dispatch selection input.runRequest
    return dispatch
  | none =>
    let dispatch ← create engine tools.toTools deploymentGeneration true
      { context with idempotencyKey := some (internalKey selection) } projectId
      (internalInput selection input)
    requireDispatchMatch dispatch selection input.runRequest
    return dispatch

def settlePreferred (context : Context) (selection : ComputerAgentPreferredDispatchSelection)
    (dispatch : ComputerAgentDispatch) : Calls ComputerAgentPreferredDispatchReceipt := do
  let settlement : ComputerAgentPreferredDispatchSettlement :=
    ⟨selection.selectionId, dispatch.dispatchId, dispatch.createdAt⟩
  if tools.settlement.schema settlement then
    let record := Json.canonicalJson settlement.json
    let _ ← owner preferredClock context
    let _ ← write (insertSettlement engine (settlement.row tools))
    match ← readSettlement selection.selectionId with
    | none =>
      failRetryable .settlementUncertain 503
        "Preferred dispatch settlement is uncertain; retry the same request"
    | some row =>
      let recorded ← decoded (decodeSettlement tools row)
        "Preferred dispatch settlement is not valid JSON"
        "Preferred dispatch settlement identity is corrupt"
      require (Json.canonicalJson recorded.json = record) .storageCorrupt 500
        "Preferred dispatch settlement readback differs from the intended record"
      let _ ← owner preferredClock context
      parseReceipt tools selection recorded dispatch
  else Call.throw .other

def settleRequest (context : Context) (identity : Identity) (projectId requestSha : Text)
    (input : ComputerAgentPreferredDispatchCreate) (row : SelectionRow) :
    Calls ComputerAgentPreferredDispatchReceipt := do
  let selection ← decoded (decodeSelection tools row) "Preferred selection is not valid JSON"
    "Preferred selection identity is corrupt"
  require (selection.requestSha256 = requestSha &&
    selection.runRequestSha256 = tools.digest input.runRequest.json) .identityConflict 409
    "Preferred selection is bound to another request"
  match ← readSettlement selection.selectionId with
  | some settled =>
    let _ ← owner preferredClock context
    let settlement ← decoded (decodeSettlement tools settled)
      "Preferred dispatch settlement is not valid JSON"
      "Preferred dispatch settlement identity is corrupt"
    receipt tools selection settlement input.runRequest
  | none =>
    require (selection.ownerCredentialGeneration = identity.credentialGeneration) .authorityStale 409
      "Unsettled preferred selection belongs to another owner credential generation"
    let dispatch ← dispatchOf engine tools deploymentGeneration context identity projectId selection input
    settlePreferred engine tools context selection dispatch

/-- The `create` of the preferred dispatches. -/
def createPreferred (context : Context) (projectId : Text)
    (input : ComputerAgentPreferredDispatchCreate) : Calls ComputerAgentPreferredDispatchReceipt := do
  requireSchema "Computer-agent preferred dispatch migration 0094 is required"
  let identity ← owner preferredClock context
  let projectId ← identifier projectId "project_id"
  require (tools.preferredSchema input && input.runRequest.projectId = projectId) .inputInvalid 400
    "Preferred dispatch input contains unknown, invalid or cross-project fields"
  let key ← preferredKey context.idempotencyKey
  let requestSha := preferredSha tools projectId identity.principalRef input
  match ← readSelectionReplay .lookup identity.principalRef key with
  | some row =>
    require (row.projectId = projectId && row.requestSha256 = requestSha) .identityConflict 409
      "Idempotency-Key is already bound to another preferred selection"
    settleRequest engine tools deploymentGeneration context identity projectId requestSha input row
  | none =>
    let selection ← prepareSelection tools deploymentGeneration identity projectId key requestSha input
    let row ← settleSelection engine tools context selection identity.principalRef key
    settleRequest engine tools deploymentGeneration context identity projectId requestSha input row

end

end Dispatch
