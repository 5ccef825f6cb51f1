import Eliot.Dispatch.Requests

namespace Dispatch
open Async
open Sqlite (Engine)
open Text (prose)

structure Context where
  principalRef : Text
  credentialGeneration : Text
  issuer : Text
  idempotencyKey : Option Text
  /-- `X-Eliotr-Client-Grant` -/
  clientGrant : Option Text

structure Identity where
  principalRef : Text
  credentialGeneration : Text

def isAlphanumeric (unit : Nat) : Bool :=
  Text.isDigit unit || (65 ≤ unit && unit ≤ 90) || (97 ≤ unit && unit ≤ 122)

/-- `/^[A-Za-z0-9][A-Za-z0-9…]{0,255}$/u` with some further signs -/
def isName (signs : List Nat) (value : Text) : Bool :=
  match value with
  | [] => false
  | first :: rest => isAlphanumeric first && rest.length ≤ 255 &&
    rest.all fun unit => isAlphanumeric unit || unit ∈ signs

/-- `ID` -/
def isIdentifier : Text → Bool := isName [46, 95, 58, 64, 47, 45]

/-- `KEY` -/
def isKey : Text → Bool := isName [58, 46, 95, 47, 45]

def identifier (value : Text) (label : String) : Calls Text := do
  require (isIdentifier value) .inputInvalid 400 (label ++ " is invalid")
  return value

def idempotency (value : Option Text) : Calls Text :=
  match value.filter isKey with
  | some key => return key
  | none => fail .inputInvalid 400 "Idempotency-Key is required and invalid"

def owner (clock : String) (context : Context) : Calls Identity := do
  let _ ← instant clock
  match ← consult .local Choice.session with
  | .foreign => fail .ownerRequired 403 "A current owner request is required"
  | .ended => fail .ownerRequired 403 "Owner session is no longer current"
  | .current =>
    let principalRef ← identifier context.principalRef "owner principal"
    let credentialGeneration ← identifier context.credentialGeneration "owner credential generation"
    return ⟨principalRef, credentialGeneration⟩

def requireSchema (message : String) : Calls Unit :=
  .request .other fun choice world =>
    match choice.outcome with
    | .answered => (.ok (), world)
    | .lost _ => (.error (.dispatch ⟨.schemaNotReady, 503, text message, true⟩), world)

section
variable (tools : Tools)

/-- `Date.parse(value) <= now`, which is false where it is not a date -/
def expiredBy (value : Text) (now : Int) : Bool := (tools.dateParse value).any (· ≤ now)

def requireGrant (grant : Option Grant) (projectId ownerPrincipalRef : Text) (actor : Actor)
    (revision now : Int) : Calls Grant :=
  match grant.filter fun grant => grant.active && grant.revision = revision &&
      grant.projectId = projectId && grant.grantorPrincipalRef = ownerPrincipalRef &&
      grant.granteeMethod = prose "service_token" rfl && grant.grantee = actor &&
      prose "run" rfl ∈ grant.allowedOperations && prose "recover" rfl ∈ grant.allowedOperations &&
      prose "evidence" rfl ∈ grant.allowedOperations && grant.spendPolicyRef.isSome &&
      !expiredBy tools grant.expiresAt now with
  | some grant => return grant
  | none =>
    fail .authorityStale 409
      "Exact current run, recovery, evidence and sponsorship delegation is required"

def requireReadyQualification (status : Option QualificationStatus) (connection : Connection)
    (transport deploymentGeneration : Text) (now : Int) : Calls Qualification := do
  match status with
  | some ⟨true, challengeId, connectionId, connectionRevision, through, deployment, some observationRef,
      some readyUntil, some verifiedCredentialGeneration⟩ =>
    require (connectionId = connection.connectionId && connectionRevision = connection.revision &&
      through = transport && deployment = deploymentGeneration && !expiredBy tools readyUntil now)
      .authorityStale 409 "The selected connection is not currently qualified for this transport"
    return ⟨challengeId, observationRef, verifiedCredentialGeneration, readyUntil, deployment⟩
  | _ => fail .authorityStale 409 "The selected connection is not currently qualified for this transport"

def requireRunRequest (runRequest : RunRequest) (projectId : Text) : Calls Unit := do
  require (tools.parseRunRequest runRequest) .inputInvalid 400
    "Dispatch contains an invalid explicit Research request"
  require (runRequest.projectId = projectId) .inputInvalid 400
    "Dispatch requires one explicit-protocol PROJECT Research request"

def readConnections (connectionId : Text) (connectionRevision : Int) (accepts : Connection → Connection → Bool) :
    Calls Connection := do
  let exact ← mapDependency (← consult .authority Choice.exact)
  let current ← mapDependency (← consult .authority Choice.current)
  match exact, current with
  | some exact, some current =>
    if exact.connectionId = connectionId && exact.revision = connectionRevision &&
      accepts exact current then return exact
    else fail .authorityStale 409 "The selected connection revision is not current, enabled and capable"
  | _, _ => fail .authorityStale 409 "The selected connection revision is not current, enabled and capable"

end

section
variable (engine : Engine) (tools : Tools) (deploymentGeneration : Text)

def clock : String := "Dispatch clock"

def createSha (projectId : Text) (principalRef : Text) (input : ComputerAgentDispatchCreate) : Text :=
  tools.digest (.object
    [(prose "protocol" rfl, .text (prose "eliotr.computer-agent-dispatch-create.v1" rfl)),
     (prose "project_id" rfl, .text projectId),
     (prose "owner_principal_ref" rfl, .text principalRef),
     (prose "input" rfl, input.json)])

def prepareDispatch (identity : Identity) (projectId key requestSha : Text)
    (input : ComputerAgentDispatchCreate) : Calls ComputerAgentDispatch := do
  let current ← instant clock
  let route ← mapDependency (← consult .authority Choice.route)
  require (route.active && route.revision = input.expectedRouteRevision) .authorityStale 409
    "The selected project route revision is not current and active"
  let priority := route.connections.findIdx (· = (input.connectionId, input.connectionRevision))
  require (priority < route.connections.length) .denied 403
    "The selected connection revision is not in the active project route"
  let exact ← readConnections input.connectionId input.connectionRevision fun exact currentConnection =>
    exact.enabled && currentConnection.enabled && currentConnection.revision = exact.revision &&
    exact.ownerPrincipalRef = identity.principalRef &&
    prose "RESEARCH_BRANCH_ANALYSIS" rfl ∈ exact.taskKinds &&
    input.transport ∈ exact.transportCapabilities
  let grant ← requireGrant tools (← mapDependency (← consult .authority Choice.grant)) projectId
    identity.principalRef exact.actor input.clientGrantRevision current
  let qualification ← requireReadyQualification tools
    (← mapDependency (← consult .qualification Choice.status)) exact input.transport
    deploymentGeneration current
  match tools.dateParse grant.expiresAt, tools.dateParse qualification.readyUntil with
  | some granted, some ready =>
    let expiresMs := min (min (current + input.expiresInSeconds * 1000) granted) ready
    require (current + 10000 < expiresMs) .authorityStale 409
      "Dispatch authority expires too soon; renew grant or qualification first"
    let dispatch : ComputerAgentDispatch :=
      { dispatchId := prose "dispatch-" rfl ++
          (tools.sha256Utf8 (identity.principalRef ++ 124 :: key ++ 124 :: requestSha)).take 48
        projectId
        transport := input.transport
        routeRevision := route.revision
        priority := priority
        connectionId := exact.connectionId
        connectionRevision := exact.revision
        clientGrantId := grant.grantId
        clientGrantRevision := grant.revision
        ownerPrincipalRef := identity.principalRef
        ownerCredentialGeneration := identity.credentialGeneration
        actor := exact.actor
        qualification
        runRequest := input.runRequest
        runRequestSha256 := tools.digest input.runRequest.json
        createdAt := tools.isoString current
        expiresAt := tools.isoString expiresMs }
    if tools.dispatch.schema dispatch then
      require (Text.utf8Bytes (Json.canonicalJson dispatch.json) ≤ 294912) .inputInvalid 413
        "Dispatch exceeds its byte envelope"
      return dispatch
    else Call.throw .other
  | _, _ =>
    fail .authorityStale 409
      "Dispatch authority expires too soon; renew grant or qualification first"

def settleDispatch (context : Context) (dispatch : ComputerAgentDispatch) (key requestSha : Text) :
    Calls ComputerAgentDispatch := do
  let record := Json.canonicalJson dispatch.json
  let _ ← owner clock context
  let _ ← write (insertInto engine (.dispatch (dispatch.row tools key requestSha)))
  match ← readDispatchReplay (.settled record) dispatch.ownerPrincipalRef key with
  | none =>
    failRetryable .settlementUncertain 503
      "Dispatch receipt is unavailable; retry with the same Idempotency-Key"
  | some settled =>
    require (settled.requestSha256 = requestSha) .identityConflict 409
      "Idempotency-Key settled another dispatch"
    let stored ← decoded (decodeComputerAgentDispatch tools settled) "Dispatch record is not valid JSON"
      "Dispatch record identity is corrupt"
    require (Json.canonicalJson stored.json = record) .storageCorrupt 500
      "Dispatch receipt differs from the intended record"
    let _ ← owner clock context
    return stored

def replayDispatch (context : Context) (projectId requestSha : Text) (replay : DispatchRow) :
    Calls ComputerAgentDispatch := do
  require (replay.projectId = projectId && replay.requestSha256 = requestSha) .identityConflict 409
    "Idempotency-Key is already bound to another dispatch"
  let _ ← owner clock context
  decoded (decodeComputerAgentDispatch tools replay) "Dispatch record is not valid JSON"
    "Dispatch record identity is corrupt"

def preferredPrefix : Text := prose "preferred-dispatch-" rfl

def create (allowPreferredInternalKey : Bool) (context : Context) (projectId : Text)
    (input : ComputerAgentDispatchCreate) : Calls ComputerAgentDispatch := do
  requireSchema "Computer-agent dispatch migrations 0090 through 0093 are required"
  let identity ← owner clock context
  let projectId ← identifier projectId "project_id"
  require (tools.createSchema input) .inputInvalid 400
    "Dispatch input contains unknown or invalid fields"
  requireRunRequest tools input.runRequest projectId
  let key ← idempotency context.idempotencyKey
  require (!preferredPrefix.isPrefixOf key || allowPreferredInternalKey) .inputInvalid 400
    "Idempotency-Key uses the reserved preferred-dispatch namespace"
  let requestSha := createSha tools projectId identity.principalRef input
  match ← readDispatchReplay .lookup identity.principalRef key with
  | some replay => replayDispatch tools context projectId requestSha replay
  | none =>
    let dispatch ← prepareDispatch tools deploymentGeneration identity projectId key requestSha input
    settleDispatch engine tools context dispatch key requestSha

end

section
variable (engine : Engine) (tools : Tools) (deploymentGeneration : Text) (number : Nat)

def serviceGrant (context : Context) (dispatch : ComputerAgentDispatch) : Calls Unit := do
  require (context.clientGrant = some dispatch.clientGrantId) .denied 403
    "Dispatch acceptance requires the exact grant locator selected by the owner"
  let lease ← mapDependency (← consult .authority Choice.lease)
  let now ← instant clock
  let _ ← requireGrant tools (some lease) dispatch.projectId dispatch.ownerPrincipalRef dispatch.actor
    dispatch.clientGrantRevision now

def requireTarget (context : Context) (dispatch : ComputerAgentDispatch) : Calls Unit := do
  let current ← instant clock
  let expired := expiredBy tools dispatch.expiresAt current
  require (dispatch.qualification.deploymentGeneration = deploymentGeneration && !expired &&
    dispatch.qualification.verifiedCredentialGeneration = context.credentialGeneration)
    (if expired then .expired else .authorityStale) 409
    "Dispatch is expired or bound to another credential/deployment generation"
  let connection ← mapDependency (← consult .authority Choice.forTask)
  require (connection.connectionId = dispatch.connectionId &&
    connection.revision = dispatch.connectionRevision && connection.actor = dispatch.actor) .denied 403
    "Verified service actor is not the owner-selected dispatch target"
  serviceGrant tools context dispatch
  let route ← mapDependency (← consult .authority Choice.currentRoute)
  require (route.any fun route => route.active && route.revision = dispatch.routeRevision &&
    0 ≤ dispatch.priority && route.connections[dispatch.priority.toNat]? =
      some (dispatch.connectionId, dispatch.connectionRevision)) .authorityStale 409
    "Owner route changed before dispatch acceptance"
  let qualification ← mapDependency (← consult .authority Choice.qualification)
  require (qualification.challengeId = dispatch.qualification.challengeId &&
    qualification.observationRef = dispatch.qualification.observationRef &&
    qualification.verifiedCredentialGeneration = dispatch.qualification.verifiedCredentialGeneration &&
    qualification.readyUntil = dispatch.qualification.readyUntil) .authorityStale 409
    "Connection qualification changed before dispatch acceptance"
  let current ← readCurrentOffer engine (some number) dispatch.dispatchId
  require current .authorityStale 409 "Dispatch is no longer a current pending offer"
  requireCurrent number

def settleAcceptance (context : Context) (dispatch : ComputerAgentDispatch) (started : Started) :
    Calls ComputerAgentDispatchAcceptance := do
  let now ← instant clock
  let acceptance : ComputerAgentDispatchAcceptance :=
    { dispatchId := dispatch.dispatchId
      workflowInstanceId := started.workflowInstanceId
      investigationRef := started.investigationRef
      connectionId := dispatch.connectionId
      connectionRevision := dispatch.connectionRevision
      clientGrantId := dispatch.clientGrantId
      clientGrantRevision := dispatch.clientGrantRevision
      actor := dispatch.actor
      credentialGeneration := context.credentialGeneration
      acceptedAt := tools.isoString now }
  if tools.acceptance.schema acceptance then
    let record := Json.canonicalJson acceptance.json
    let _ ← write (insertInto engine (.acceptance (acceptance.row tools)))
    match ← readAcceptance (.settled record) dispatch.dispatchId with
    | none =>
      failRetryable .settlementUncertain 503
        "Run exists but dispatch acceptance receipt is unavailable; retry this acceptance"
    | some settledRow =>
      let settled ← decoded (decodeComputerAgentDispatchAcceptance tools settledRow)
        "Dispatch acceptance is not valid JSON" "Dispatch acceptance identity is corrupt"
      require (Json.canonicalJson settled.json = record) .identityConflict 409
        "Dispatch was accepted as another Research run"
      return settled
  else Call.throw .other

def startFailed {α : Type} : RunFailure → Calls α
  | .unavailable =>
    failRetryable .settlementUncertain 503
      "Research run admission is temporarily unavailable"
  | .conflict => fail .identityConflict 409 "Dispatch run identity conflicts with another operation"
  | .refused => fail .authorityStale 409 "Research run authority changed before acceptance"
  | .other => Call.throw .other

def replayAcceptance (context : Context) (dispatch : ComputerAgentDispatch) (existingRow : AcceptanceRow) :
    Calls ComputerAgentDispatchAcceptance := do
  require (context.credentialGeneration = dispatch.qualification.verifiedCredentialGeneration) .denied 403
    "Accepted dispatch belongs to another credential generation"
  serviceGrant tools context dispatch
  requireCurrent number
  decoded (decodeComputerAgentDispatchAcceptance tools existingRow)
    "Dispatch acceptance is not valid JSON" "Dispatch acceptance identity is corrupt"

def accept (context : Context) (dispatchId : Text) : Calls ComputerAgentDispatchAcceptance := do
  requireSchema "Computer-agent dispatch migrations 0090 through 0093 are required"
  let dispatchId ← identifier dispatchId "dispatch_id"
  match ← readDispatch .other dispatchId with
  | none => fail .notFound 404 "Computer-agent dispatch does not exist"
  | some row =>
    let dispatch ← decoded (decodeComputerAgentDispatch tools row) "Dispatch record is not valid JSON"
      "Dispatch record identity is corrupt"
    match ← readAcceptance .lookup dispatchId with
    | some existingRow => replayAcceptance tools number context dispatch existingRow
    | none =>
      requireTarget engine tools deploymentGeneration number context dispatch
      match ← startRun number dispatch.dispatchId with
      | .error failure => startFailed failure
      | .ok started => settleAcceptance engine tools context dispatch started

end

section
variable (engine : Engine) (tools : Tools)

def abandonmentClock : String := "Dispatch abandonment clock"

def requireProjectOwner (projectId principal : Text) : Calls Unit := do
  let row ← read .other
    (fun authority _ => decide (⟨projectId, principal⟩ ∈ authority.owners))
    "Project owner authority read is unavailable"
  require row .ownerRequired 403 "Current project owner authority is required"

def abandonSha (dispatchId projectId principalRef key : Text) (input : Reasoned) : Text :=
  tools.digest (.object
    [(prose "protocol" rfl, .text (prose "eliotr.computer-agent-dispatch-abandon-request.v1" rfl)),
     (prose "dispatch_id" rfl, .text dispatchId),
     (prose "project_id" rfl, .text projectId),
     (prose "owner_principal_ref" rfl, .text principalRef),
     (prose "idempotency_key" rfl, .text key),
     (prose "input" rfl, input.json)])

def settleAbandonment (context : Context) (identity : Identity) (dispatchId projectId key requestSha : Text)
    (input : Reasoned) : Calls ComputerAgentDispatchAbandonment := do
  let now ← instant abandonmentClock
  let abandonment : ComputerAgentDispatchAbandonment :=
    { dispatchId
      projectId
      ownerPrincipalRef := identity.principalRef
      ownerCredentialGeneration := identity.credentialGeneration
      reason := input.reason
      note := input.note
      idempotencyKey := key
      requestSha256 := requestSha
      abandonedAt := tools.isoString now }
  if tools.abandonment.schema abandonment then
    let record := Json.canonicalJson abandonment.json
    let _ ← owner abandonmentClock context
    let _ ← write (insertInto engine (.abandonment (abandonment.row tools)))
    match ← readAbandonment (.settled record) dispatchId with
    | none =>
      failRetryable .settlementUncertain 503
        "Dispatch abandonment receipt is unavailable; retry with the same Idempotency-Key"
    | some settled =>
      require (settled.requestSha256 = requestSha && settled.idempotencyKey = key) .identityConflict 409
        "Dispatch settled another abandonment action"
      let stored ← decoded (decodeComputerAgentDispatchAbandonment tools settled)
        "Dispatch abandonment is not valid JSON" "Dispatch abandonment identity is corrupt"
      require (Json.canonicalJson stored.json = record) .storageCorrupt 500
        "Dispatch abandonment readback differs from the intended record"
      let _ ← owner abandonmentClock context
      return stored
  else Call.throw .other

def replayAbandonment (context : Context) (dispatchId projectId requestSha : Text)
    (replay : AbandonmentRow) : Calls ComputerAgentDispatchAbandonment := do
  require (replay.dispatchId = dispatchId && replay.projectId = projectId &&
    replay.requestSha256 = requestSha) .identityConflict 409
    "Idempotency-Key is already bound to another dispatch abandonment"
  let _ ← owner abandonmentClock context
  decoded (decodeComputerAgentDispatchAbandonment tools replay)
    "Dispatch abandonment is not valid JSON" "Dispatch abandonment identity is corrupt"

def abandon (context : Context) (projectId dispatchId : Text) (input : Reasoned) :
    Calls ComputerAgentDispatchAbandonment := do
  requireSchema "Computer-agent dispatch abandonment migration 0091 is required"
  let identity ← owner abandonmentClock context
  let projectId ← identifier projectId "project_id"
  let dispatchId ← identifier dispatchId "dispatch_id"
  require (tools.abandonSchema input) .inputInvalid 400
    "Dispatch abandonment contains unknown or invalid fields"
  let key ← idempotency context.idempotencyKey
  requireProjectOwner projectId identity.principalRef
  match (← readDispatch .other dispatchId).filter (·.projectId = projectId) with
  | none => fail .notFound 404 "Computer-agent dispatch does not exist in this project"
  | some row =>
    let dispatch ← decoded (decodeComputerAgentDispatch tools row) "Dispatch record is not valid JSON"
      "Dispatch record identity is corrupt"
    require (dispatch.ownerPrincipalRef = identity.principalRef) .ownerRequired 403
      "Dispatch belongs to another project owner"
    let requestSha := abandonSha tools dispatch.dispatchId projectId identity.principalRef key input
    match ← readAbandonmentReplay identity.principalRef key with
    | some replay => replayAbandonment tools context dispatch.dispatchId projectId requestSha replay
    | none =>
      let existing ← readAbandonment .existing dispatch.dispatchId
      require existing.isNone .identityConflict 409
        "Dispatch was already abandoned by another immutable action"
      let acceptance ← readAcceptance .other dispatch.dispatchId
      require acceptance.isNone .identityConflict 409
        "Accepted dispatch cannot be abandoned; cancel the existing Research run instead"
      settleAbandonment engine tools context identity dispatch.dispatchId projectId key requestSha input

end

section
variable (engine : Engine) (tools : Tools)

def declineClock : String := "Dispatch decline clock"

def serviceIdentity (context : Context) : Calls Unit := do
  let _ ← instant declineClock
  let session ← consult .local Choice.session
  require (session = .current) .serviceRequired 403 "A current verified service-token actor is required"
  let _ ← identifier context.issuer "actor issuer"
  let _ ← identifier context.principalRef "actor subject"
  let _ ← identifier context.credentialGeneration "actor credential generation"

def declineSha (dispatch : ComputerAgentDispatch) (credentialGeneration key : Text) (input : Reasoned) :
    Text :=
  tools.digest (.object
    [(prose "protocol" rfl, .text (prose "eliotr.computer-agent-dispatch-decline-request.v1" rfl)),
     (prose "dispatch_id" rfl, .text dispatch.dispatchId),
     (prose "connection_id" rfl, .text dispatch.connectionId),
     (prose "connection_revision" rfl, .number dispatch.connectionRevision),
     (prose "actor" rfl, dispatch.actor.json),
     (prose "credential_generation" rfl, .text credentialGeneration),
     (prose "idempotency_key" rfl, .text key),
     (prose "input" rfl, input.json)])

def settleDecline (context : Context) (dispatch : ComputerAgentDispatch) (key requestSha : Text)
    (input : Reasoned) : Calls ComputerAgentDispatchDeclineReceipt := do
  let now ← instant declineClock
  let receipt : ComputerAgentDispatchDeclineReceipt :=
    { dispatchId := dispatch.dispatchId
      projectId := dispatch.projectId
      connectionId := dispatch.connectionId
      connectionRevision := dispatch.connectionRevision
      actor := dispatch.actor
      credentialGeneration := context.credentialGeneration
      reason := input.reason
      note := input.note
      idempotencyKey := key
      requestSha256 := requestSha
      declinedAt := tools.isoString now }
  if tools.decline.schema receipt then
    let record := Json.canonicalJson receipt.json
    serviceIdentity context
    let _ ← write (insertInto engine (.decline (receipt.row tools)))
    match ← readDecline (.settled record) dispatch.dispatchId with
    | none =>
      failRetryable .settlementUncertain 503
        "Dispatch decline receipt is unavailable; retry with the same Idempotency-Key"
    | some settled =>
      require (settled.requestSha256 = requestSha && settled.idempotencyKey = key) .identityConflict 409
        "Dispatch settled another decline action"
      let stored ← decoded (decodeComputerAgentDispatchDecline tools settled)
        "Dispatch decline is not valid JSON" "Dispatch decline identity is corrupt"
      require (Json.canonicalJson stored.json = record) .storageCorrupt 500
        "Dispatch decline readback differs from the intended record"
      serviceIdentity context
      return stored
  else Call.throw .other

def decline (context : Context) (dispatchId : Text) (input : Reasoned) :
    Calls ComputerAgentDispatchDeclineReceipt := do
  requireSchema "Computer-agent dispatch decline migration 0092 is required"
  serviceIdentity context
  let dispatchId ← identifier dispatchId "dispatch_id"
  require (tools.declineSchema input) .inputInvalid 400
    "Dispatch decline contains unknown or invalid fields"
  let key ← idempotency context.idempotencyKey
  match ← readDispatch .other dispatchId with
  | none => fail .notFound 404 "Computer-agent dispatch does not exist"
  | some row =>
    let dispatch ← decoded (decodeComputerAgentDispatch tools row) "Dispatch record is not valid JSON"
      "Dispatch record identity is corrupt"
    require (dispatch.actor = ⟨context.issuer, context.principalRef⟩ &&
      dispatch.qualification.verifiedCredentialGeneration = context.credentialGeneration) .denied 403
      "Only the exact selected actor credential generation may decline this dispatch"
    let requestSha := declineSha tools dispatch context.credentialGeneration key input
    match ← readDeclineReplay context.issuer context.principalRef key with
    | some replay =>
      require (replay.dispatchId = dispatch.dispatchId && replay.requestSha256 = requestSha)
        .identityConflict 409 "Idempotency-Key is already bound to another dispatch decline"
      serviceIdentity context
      decoded (decodeComputerAgentDispatchDecline tools replay)
        "Dispatch decline is not valid JSON" "Dispatch decline identity is corrupt"
    | none =>
      let existing ← readDecline .lookup dispatch.dispatchId
      require existing.isNone .identityConflict 409
        "Dispatch was already declined by another immutable action"
      let acceptance ← readAcceptance .lookup dispatch.dispatchId
      let abandonment ← readAbandonment .lookup dispatch.dispatchId
      require (acceptance.isNone && abandonment.isNone) .identityConflict 409
        "Accepted or abandoned dispatch cannot be declined"
      settleDecline engine tools context dispatch key requestSha input

end

section
variable (engine : Engine) (tools : Tools) (deploymentGeneration : Text)

def reassignmentClock : String := "Dispatch reassignment clock"

/-- What `readComputerAgentDispatchStatus` reads of the records of a dispatch, and its state where the
    dispatch is closed. -/
def readStatus (dispatch : ComputerAgentDispatch) (now : Int) : Calls (Option Text) := do
  let accepted ← readAcceptance .other dispatch.dispatchId
  let abandoned ← readAbandonment .other dispatch.dispatchId
  let declined ← readDecline .other dispatch.dispatchId
  let reassigned ← readReassignment .other dispatch.dispatchId
  let acceptance ← accepted.mapM fun row => decoded (decodeComputerAgentDispatchAcceptance tools row)
    "Dispatch acceptance is not valid JSON" "Dispatch acceptance identity is corrupt"
  let abandonment ← abandoned.mapM fun row => decoded (decodeComputerAgentDispatchAbandonment tools row)
    "Dispatch abandonment is not valid JSON" "Dispatch abandonment identity is corrupt"
  let decline ← declined.mapM fun row => decoded (decodeComputerAgentDispatchDecline tools row)
    "Dispatch decline is not valid JSON" "Dispatch decline identity is corrupt"
  let _ ← reassigned.mapM fun row => decoded (decodeComputerAgentDispatchReassignment tools row)
    "Dispatch reassignment is not valid JSON" "Dispatch reassignment identity is corrupt"
  require ([acceptance.isSome, abandonment.isSome, decline.isSome].count true ≤ 1) .storageCorrupt 500
    "Dispatch has conflicting terminal receipts"
  if acceptance.isSome then return none
  else if abandonment.isSome then return some (prose "ABANDONED" rfl)
  else if decline.isSome then return some (prose "DECLINED" rfl)
  else if expiredBy tools dispatch.expiresAt now then return none
  else do
    let _ ← readCurrentOffer engine none dispatch.dispatchId
    return none

def reassignSha (predecessorId projectId principalRef key : Text) (input : ComputerAgentDispatchReassign) :
    Text :=
  tools.digest (.object
    [(prose "protocol" rfl, .text (prose "eliotr.computer-agent-dispatch-reassignment-request.v1" rfl)),
     (prose "predecessor_dispatch_id" rfl, .text predecessorId),
     (prose "project_id" rfl, .text projectId),
     (prose "owner_principal_ref" rfl, .text principalRef),
     (prose "idempotency_key" rfl, .text key),
     (prose "input" rfl, input.json)])

def successorKey (predecessorId principalRef key requestSha : Text) : Text :=
  prose "computer-agent-reassign:" rfl ++ tools.digest (.object
    [(prose "protocol" rfl,
       .text (prose "eliotr.computer-agent-dispatch-reassignment-successor-key.v1" rfl)),
     (prose "predecessor_dispatch_id" rfl, .text predecessorId),
     (prose "owner_principal_ref" rfl, .text principalRef),
     (prose "reassignment_idempotency_key" rfl, .text key),
     (prose "reassignment_request_sha256" rfl, .text requestSha)])

def settleReassignment (context : Context) (identity : Identity)
    (predecessor successor : ComputerAgentDispatch) (projectId state key requestSha : Text) :
    Calls ComputerAgentDispatchReassignment := do
  let now ← instant reassignmentClock
  let receipt : ComputerAgentDispatchReassignment :=
    { predecessorDispatchId := predecessor.dispatchId
      successorDispatchId := successor.dispatchId
      projectId
      ownerPrincipalRef := identity.principalRef
      ownerCredentialGeneration := identity.credentialGeneration
      predecessorState := state
      runRequestSha256 := predecessor.runRequestSha256
      successorTransport := successor.transport
      successorRouteRevision := successor.routeRevision
      successorConnectionId := successor.connectionId
      successorConnectionRevision := successor.connectionRevision
      successorClientGrantId := successor.clientGrantId
      successorClientGrantRevision := successor.clientGrantRevision
      idempotencyKey := key
      requestSha256 := requestSha
      reassignedAt := tools.isoString now }
  if tools.reassignment.schema receipt then
    let record := Json.canonicalJson receipt.json
    let _ ← owner reassignmentClock context
    let _ ← write (insertInto engine (.reassignment (receipt.row tools)))
    match ← readReassignment (.settled record) predecessor.dispatchId with
    | none => failRetryable .settlementUncertain 503 "Dispatch reassignment was not recorded"
    | some settled =>
      let stored ← decoded (decodeComputerAgentDispatchReassignment tools settled)
        "Dispatch reassignment is not valid JSON" "Dispatch reassignment identity is corrupt"
      require (Json.canonicalJson stored.json = record) .identityConflict 409
        "Recorded reassignment differs from the requested successor"
      let _ ← owner reassignmentClock context
      return stored
  else Call.throw .other

def createSuccessor (context : Context) (predecessor : ComputerAgentDispatch) (projectId : Text)
    (principalRef key requestSha : Text) (input : ComputerAgentDispatchReassign) :
    Calls ComputerAgentDispatch := do
  let successor ← create engine tools deploymentGeneration false
    { context with
      idempotencyKey := some (successorKey tools predecessor.dispatchId principalRef key requestSha) }
    projectId ⟨input.transport, input.expectedRouteRevision, input.connectionId, input.connectionRevision,
      input.clientGrantId, input.clientGrantRevision, input.expiresInSeconds, predecessor.runRequest⟩
  require (successor.dispatchId ≠ predecessor.dispatchId &&
    successor.projectId = predecessor.projectId && successor.ownerPrincipalRef = principalRef &&
    successor.runRequestSha256 = predecessor.runRequestSha256 &&
    successor.transport = input.transport && successor.routeRevision = input.expectedRouteRevision &&
    successor.connectionId = input.connectionId &&
    successor.connectionRevision = input.connectionRevision &&
    successor.clientGrantId = input.clientGrantId &&
    successor.clientGrantRevision = input.clientGrantRevision) .storageCorrupt 500
    "Successor dispatch readback differs from the reassignment request"
  return successor

def reassign (context : Context) (projectId predecessorId : Text)
    (input : ComputerAgentDispatchReassign) : Calls ComputerAgentDispatchReassignment := do
  requireSchema "Computer-agent dispatch reassignment migration 0093 is required"
  let identity ← owner reassignmentClock context
  let projectId ← identifier projectId "project_id"
  let predecessorId ← identifier predecessorId "predecessor dispatch_id"
  require (tools.reassignSchema input) .inputInvalid 400
    "Dispatch reassignment contains unknown or invalid fields"
  let key ← idempotency context.idempotencyKey
  match ← readDispatch .other predecessorId with
  | none => fail .notFound 404 "Predecessor dispatch does not exist"
  | some row =>
    let predecessor ← decoded (decodeComputerAgentDispatch tools row) "Dispatch record is not valid JSON"
      "Dispatch record identity is corrupt"
    require (predecessor.projectId = projectId &&
      predecessor.ownerPrincipalRef = identity.principalRef) .notFound 404
      "Predecessor dispatch does not exist in this owner project"
    let current ← instant reassignmentClock
    match ← readStatus engine tools predecessor current with
    | none => fail .identityConflict 409 "Only an abandoned or declined predecessor may be reassigned"
    | some state =>
      require (state = input.expectedPredecessorState) .identityConflict 409
        "Predecessor terminal state changed before reassignment"
      require (input.expectedRunRequestSha256 = predecessor.runRequestSha256) .identityConflict 409
        "Frozen Research request changed before reassignment"
      let requestSha := reassignSha tools predecessor.dispatchId projectId identity.principalRef key input
      let byPredecessor ← readReassignment .lookup predecessor.dispatchId
      let replay ← readReassignmentReplay identity.principalRef key
      match byPredecessor <|> replay with
      | some existing =>
        require (existing.predecessorDispatchId = predecessor.dispatchId &&
          existing.requestSha256 = requestSha && existing.idempotencyKey = key) .identityConflict 409
          "Dispatch or Idempotency-Key is already bound to another reassignment"
        let _ ← owner reassignmentClock context
        decoded (decodeComputerAgentDispatchReassignment tools existing)
          "Dispatch reassignment is not valid JSON" "Dispatch reassignment identity is corrupt"
      | none =>
        let successor ← createSuccessor engine tools deploymentGeneration context predecessor projectId
          identity.principalRef key requestSha input
        settleReassignment engine tools context identity predecessor successor projectId state key
          requestSha

end

end Dispatch
