import Eliot.Async.Interference
import Eliot.Dispatch.Selections

namespace Dispatch
open Async
open Sqlite (Engine)
open Text (prose)

/-- What `start_run` returns. -/
structure Started where
  workflowInstanceId : Text
  investigationRef : VersionedRef

/-- The tables, the Research runs by the idempotency key they were started with, and histories: which
    accept calls have seen their dispatch as a current offer and have not come past `start_run`, which
    dispatches were abandoned or declined while one of them was accepted, and how often the tables were
    changed by a call. -/
structure World where
  tables : Tables
  preferred : Selections
  runs : List (Text × Started)
  claims : List (Nat × Text)
  disturbed : List Text
  own : Nat

/-- `Idempotency-Key` of the run of a dispatch -/
def runKey (dispatchId : Text) : Text := prose "computer-agent-dispatch:" rfl ++ dispatchId

def World.run (world : World) (dispatchId : Text) : Option Started :=
  world.runs.lookup (runKey dispatchId)

/-- An accept call has seen the dispatch as a current offer, and its acceptance is not stored yet;
    not any more if it is clear that the call starts no run. -/
def World.accepting (world : World) (dispatchId : Text) : Bool :=
  (world.claims.any fun claim => claim.2 = dispatchId) || (world.run dispatchId).isSome

def World.empty : World := ⟨.empty, .empty, [], [], [], 0⟩

inductive ErrorCode where
  | schemaNotReady
  | ownerRequired
  | serviceRequired
  | inputInvalid
  | notFound
  | denied
  | authorityStale
  | expired
  | identityConflict
  | storageCorrupt
  | storageUnavailable
  | settlementUncertain
deriving DecidableEq

structure DispatchError where
  code : ErrorCode
  status : Nat
  message : Text
  retryable : Bool

/-- What a call throws; `other` is any exception that is not its own. -/
inductive Failure where
  | dispatch (error : DispatchError)
  | other

/-- A failure of another store of the program, by what `mapDependency` tells apart. -/
inductive Dependency where
  | retryable
  | corrupt
  | refused
  | other

inductive Outcome where
  | answered
  | lost (ran : Bool)
deriving DecidableEq

/-- What is read of `ProjectComputerAgentRoute`. -/
structure Route where
  active : Bool
  revision : Int
  connections : List (Text × Int)

/-- What is read of `ComputerAgentConnection`. -/
structure Connection where
  connectionId : Text
  revision : Int
  enabled : Bool
  ownerPrincipalRef : Text
  actor : Actor
  transportCapabilities : List Text
  taskKinds : List Text

/-- What is read of `ProjectClientGrant`. -/
structure Grant where
  grantId : Text
  revision : Int
  active : Bool
  projectId : Text
  grantorPrincipalRef : Text
  granteeMethod : Text
  grantee : Actor
  allowedOperations : List Text
  spendPolicyRef : Option Text
  expiresAt : Text

/-- What is read of `ComputerAgentQualificationStatus`. -/
structure QualificationStatus where
  ready : Bool
  challengeId : Text
  connectionId : Text
  connectionRevision : Int
  transport : Text
  deploymentGeneration : Text
  observationRef : Option Text
  readyUntil : Option Text
  verifiedCredentialGeneration : Option Text

/-- What is read of an entry of `ProjectComputerAgentRouteReadiness`. -/
structure ReadinessEntry where
  priority : Int
  connectionId : Text
  connectionRevision : Int
  eligible : Bool
  qualification : Option QualificationStatus

structure PreferredReady where
  priority : Nat
  connectionId : Text
  connectionRevision : Int

structure Readiness where
  active : Bool
  routeRevision : Int
  observedAt : Text
  entries : List ReadinessEntry
  preferredReadyConnection : Option PreferredReady

/-- Whether the caller is who the call requires: a request of another kind or one that was cancelled is
    not, nor is one whose access has ended. -/
inductive Session where
  | current
  | foreign
  | ended
deriving DecidableEq

/-- How `start_run` fails. -/
inductive RunFailure where
  /-- retryable, or of a status from 500 on -/
  | unavailable
  | conflict
  | refused
  | other
deriving DecidableEq

/-- How a request is answered: by the database, by the clock and the session, by the other stores of
    the program, and by `start_run`. -/
structure Choice where
  outcome : Outcome
  authority : Authority
  session : Session
  /-- the clock, if it can be read -/
  now : Option Int
  route : Except Dependency Route
  currentRoute : Except Dependency (Option Route)
  exact : Except Dependency (Option Connection)
  current : Except Dependency (Option Connection)
  forTask : Except Dependency Connection
  grant : Except Dependency (Option Grant)
  lease : Except Dependency Grant
  leaseCurrent : Except Dependency Unit
  status : Except Dependency (Option QualificationStatus)
  qualification : Except Dependency Qualification
  readiness : Except Dependency Readiness
  /-- whether `start_run` starts a run where there is none, which one, and how it fails otherwise -/
  starts : Bool
  started : Started
  runFailure : Option RunFailure

inductive Purpose where
  /-- whether the key has its record already -/
  | lookup
  /-- whether the dispatch has a record under another key -/
  | existing
  /-- anything that is not about the record of the call -/
  | other
  /-- the clock or the session -/
  | local
  /-- what another store of the program answers -/
  | authority
  /-- the qualification that a dispatch is created with -/
  | qualification
  | offer
  | start
  | write
  /-- the read of what is stored after the write of this record -/
  | settled (record : Text)
  /-- the same for a selection -/
  | selected (record : Text)

abbrev Calls := Call World Purpose Choice Failure

def fail {α : Type} (code : ErrorCode) (status : Nat) (message : String) : Calls α :=
  Call.throw (.dispatch ⟨code, status, text message, false⟩)

/-- `fail` with `retryable` -/
def failRetryable {α : Type} (code : ErrorCode) (status : Nat) (message : String) : Calls α :=
  Call.throw (.dispatch ⟨code, status, text message, true⟩)

def require (condition : Bool) (code : ErrorCode) (status : Nat) (message : String) : Calls Unit :=
  if condition then return () else fail code status message

def consult {α : Type} (purpose : Purpose) (answer : Choice → α) : Calls α :=
  .request purpose fun choice world => (.ok (answer choice), world)

def read {α : Type} (purpose : Purpose) (query : Authority → World → α) (message : String) : Calls α :=
  .request purpose fun choice world =>
    match choice.outcome with
    | .answered => (.ok (query choice.authority world), world)
    | .lost _ => (.error (.dispatch ⟨.storageUnavailable, 503, text message, true⟩), world)

def write (change : Authority → World → Option World) : Calls Bool :=
  .request .write fun choice world =>
    match choice.outcome, change choice.authority world with
    | .lost false, _ | _, none => (.ok false, world)
    | outcome, some after => (.ok (outcome = .answered), { after with own := world.own + 1 })

def instant (clock : String) : Calls Int := do
  match ← consult .local Choice.now with
  | none => failRetryable .storageUnavailable 503 (clock ++ " is unavailable")
  | some now =>
    if Text.isSafeInteger now && 0 ≤ now then return now
    else failRetryable .storageUnavailable 503 (clock ++ " is invalid")

/-- `mapDependency` -/
def mapDependency {α : Type} : Except Dependency α → Calls α
  | .ok value => return value
  | .error .retryable =>
    failRetryable .storageUnavailable 503 "Dispatch authority could not be read"
  | .error .corrupt => fail .storageCorrupt 500 "Dispatch authority record is corrupt"
  | .error .refused => fail .authorityStale 409 "Dispatch authority is no longer current"
  | .error .other => Call.throw .other

def decoded {Record : Type} (result : Except Corrupt Record) (invalid corrupt : String) : Calls Record :=
  match result with
  | .ok record => return record
  | .error .json => fail .storageCorrupt 500 invalid
  | .error .identity => fail .storageCorrupt 500 corrupt

section
variable (engine : Engine)

def World.close (world : World) (dispatchId : Text) (tables : Tables) : World :=
  { world with
    tables
    disturbed := if world.accepting dispatchId then dispatchId :: world.disturbed else world.disturbed }

def insertInto (insert : Insert) (authority : Authority) (world : World) : Option World :=
  (world.tables.insert engine authority insert).map fun tables =>
    match insert with
    | .abandonment row => world.close row.dispatchId tables
    | .decline row => world.close row.dispatchId tables
    | _ => { world with tables }

def readDispatch (purpose : Purpose) (id : Text) : Calls (Option DispatchRow) :=
  read purpose (fun _ world => world.tables.dispatches.find id) "Dispatch read is unavailable"

def readDispatchReplay (purpose : Purpose) (principal key : Text) : Calls (Option DispatchRow) :=
  read purpose (fun _ world => world.tables.dispatches.rows.find? fun row =>
    row.ownerPrincipalRef = principal ∧ row.idempotencyKey = key) "Dispatch replay read is unavailable"

def readAcceptance (purpose : Purpose) (id : Text) : Calls (Option AcceptanceRow) :=
  read purpose (fun _ world => world.tables.acceptances.find id)
    "Dispatch acceptance read is unavailable"

def readAbandonment (purpose : Purpose) (id : Text) : Calls (Option AbandonmentRow) :=
  read purpose (fun _ world => world.tables.abandonments.find id)
    "Dispatch abandonment read is unavailable"

def readAbandonmentReplay (principal key : Text) : Calls (Option AbandonmentRow) :=
  read .lookup (fun _ world => world.tables.abandonments.rows.find? fun row =>
    row.ownerPrincipalRef = principal ∧ row.idempotencyKey = key)
    "Dispatch abandonment replay read is unavailable"

def readDecline (purpose : Purpose) (id : Text) : Calls (Option DeclineRow) :=
  read purpose (fun _ world => world.tables.declines.find id) "Dispatch decline read is unavailable"

def readDeclineReplay (issuer subject key : Text) : Calls (Option DeclineRow) :=
  read .lookup (fun _ world => world.tables.declines.rows.find? fun row =>
    row.actorIssuer = issuer ∧ row.actorSubject = subject ∧ row.idempotencyKey = key)
    "Dispatch decline replay read is unavailable"

def readReassignment (purpose : Purpose) (id : Text) : Calls (Option ReassignmentRow) :=
  read purpose (fun _ world => world.tables.reassignments.find id)
    "Dispatch reassignment read is unavailable"

def readReassignmentReplay (principal key : Text) : Calls (Option ReassignmentRow) :=
  read .lookup (fun _ world => world.tables.reassignments.rows.find? fun row =>
    row.ownerPrincipalRef = principal ∧ row.idempotencyKey = key)
    "Dispatch reassignment replay read is unavailable"

/-- Whether the view `computer_agent_dispatch_offer_claimable` has the dispatch. -/
def Tables.claimable (tables : Tables) (authority : Authority) (id : Text) : Bool :=
  (match tables.dispatches.find id with
  | some row => authority.supports engine row
  | none => false) &&
  !tables.accepted id && !tables.abandoned id && !tables.declined id

def readCurrentOffer (claimant : Option Nat) (id : Text) : Calls Bool :=
  .request .offer fun choice world =>
    match choice.outcome with
    | .answered =>
      let current := world.tables.claimable engine choice.authority id
      (.ok current, match claimant with
        | some number => if current then { world with claims := (number, id) :: world.claims } else world
        | none => world)
    | .lost _ => (.error (.dispatch ⟨.storageUnavailable, 503,
        text "Current dispatch authority is unavailable", true⟩), world)

def World.release (world : World) (number : Nat) : World :=
  { world with claims := world.claims.filter fun claim => claim.1 ≠ number }

def requireCurrent (number : Nat) : Calls Unit := do
  let result ← .request .authority fun choice world =>
    (.ok choice.leaseCurrent, match choice.leaseCurrent with
      | .ok _ => world
      | .error _ => world.release number)
  mapDependency result

/-- At most one run is started under a key; where `start_run` fails it may have started it. -/
def startRun (number : Nat) (dispatchId : Text) : Calls (Except RunFailure Started) :=
  .request .start fun choice world =>
    let runs := if (world.run dispatchId).isNone ∧ choice.starts then
      (runKey dispatchId, choice.started) :: world.runs else world.runs
    let after := { world.release number with runs }
    (.ok (match choice.runFailure, after.run dispatchId with
      | some failure, _ => .error failure
      | none, some started => .ok started
      | none, none => .error .other), after)

end

end Dispatch
