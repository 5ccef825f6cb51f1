import Eliot.Async.Interference
import Eliot.Investigation.Commands
import Eliot.Investigation.LedgerCommands

namespace Investigation
open Async
open Sqlite (Engine)

structure World where
  ledger : Ledger
  own : Nat

inductive Outcome where
  | answered
  | lost (ran : Bool)
deriving DecidableEq

structure Choice where
  authority : Authority
  outcome : Outcome

inductive D1Error where
  | failed (failure : Failure)
  | lost
deriving DecidableEq

inductive StoreError where
  | ledger (error : LedgerError)
  | d1 (error : D1Error)
deriving DecidableEq

inductive Purpose where
  /-- whether a key or an event is there already -/
  | lookup
  /-- what the next head is checked against, or what must not be bound yet -/
  | current
  /-- a head that is compared with the one of the call -/
  | compared
  /-- a head that is read back after the write -/
  | readback
  | events
  | fence
  | epoch
  | committed
  | write
deriving DecidableEq

abbrev Store := Call World Purpose Choice StoreError

def read {α : Type} (purpose : Purpose) (query : Authority → Ledger → α) : Store α :=
  .request purpose fun choice world =>
    match choice.outcome with
    | .answered => (.ok (query choice.authority world.ledger), world)
    | .lost _ => (.error (.d1 .lost), world)

def check {α : Type} (result : Except LedgerError α) : Store α :=
  .done (result.mapError StoreError.ledger)

def fail {α : Type} (code : LedgerErrorCode) (message : String) : Store α :=
  check (ledgerFail code message)

/-- `ledgerFail("LEDGER_SETTLEMENT_UNCERTAIN", message, true)` -/
def uncertain {α : Type} (message : String) : Store α :=
  check (throw ⟨.settlementUncertain, text message, true⟩)

def require (condition : Bool) (code : LedgerErrorCode) (message : String) : Store Unit :=
  check (if condition then return () else ledgerFail code message)

section
variable (tools : Tools)

def decodeHead (row : HeadRow) : Store LedgerHead :=
  match decodeLedgerHead tools row with
  | some head => return head
  | none => fail .inputInvalid "stored ledger head is malformed"

def decodeEvent (row : EventRow) : Except LedgerError LedgerEvent :=
  match decodeLedgerEvent tools row with
  | some event => return event
  | none => ledgerFail .inputInvalid "stored ledger event is malformed"

/-- `mapSnapshotReadError` -/
def guarded {α : Type} (read : Store α) : Store α := do
  match ← read.attempt with
  | .ok value => return value
  | .error (.ledger error) => check (throw error)
  | .error (.d1 _) => uncertain "ledger read outcome is unknown"

def assertContiguous (head : LedgerHead) (events : List LedgerEvent) : Checking :=
  if (events.length : Int) ≠ head.eventHead then
    ledgerFail .inputInvalid "ledger event/head count diverged"
  else if events.zipIdx.all fun place => place.1.sequence = place.2 + 1 ∧
      place.1.investigationId = head.investigationId then return ()
  else ledgerFail .inputInvalid "ledger events are not contiguous"

/-- `SELECT * FROM investigation_ledger_event WHERE investigation_id = … AND sequence <= …
    ORDER BY sequence ASC` -/
def Ledger.selectEvents (ledger : Ledger) (investigationId : Text) (eventHead : Int) : List EventRow :=
  (ledger.events.rows.filter fun event =>
    event.investigationId = investigationId ∧ event.sequence ≤ eventHead).insertionSort
      (·.sequence ≤ ·.sequence)

def Ledger.selectByEventId (ledger : Ledger) (eventId : Text) : Option EventRow :=
  ledger.events.rows.find? (·.eventId = eventId)

def Ledger.selectByIdempotency (ledger : Ledger) (idempotencyKey : Text) : Option HeadRow :=
  ledger.heads.rows.find? (·.idempotencyKey = idempotencyKey)

def readEvents (head : LedgerHead) : Store (List LedgerEvent) := do
  require (1 ≤ head.eventHead && head.eventHead ≤ Text.maxSafeInteger) .inputInvalid
    "ledger event head must be a positive safe integer"
  let rows ← guarded (read .events fun _ ledger =>
    ledger.selectEvents head.investigationId head.eventHead)
  let events ← check (rows.mapM (decodeEvent tools))
  check (assertContiguous head events)
  return events

def readSnapshot (purpose : Purpose) (investigationId : Text) :
    Store (Option (LedgerHead × List LedgerEvent)) := do
  match ← guarded (read purpose fun _ ledger => ledger.heads.find investigationId) with
  | none => return none
  | some row =>
    let head ← decodeHead tools row
    let events ← readEvents tools head
    return some (head, events)

def storedEvent (eventId : Text) : Store (Option LedgerEvent) := do
  match ← read .lookup fun _ ledger => ledger.selectByEventId eventId with
  | none => return none
  | some row => return some (← check (decodeEvent tools row))

def appliedAlready (head : LedgerHead) (parsedEvent : LedgerEvent) : Store (Option LedgerHead) := do
  match ← storedEvent tools parsedEvent.eventId with
  | none => return none
  | some stored =>
    require (stored = parsedEvent) .conflict "event id reused with different event bytes"
    match ← readSnapshot tools .compared head.investigationId with
    | some (fresh, events) =>
      require (fresh = head ∧ parsedEvent ∈ events) .conflict
        "event id already bound to a committed event"
      return some fresh
    | none => fail .conflict "event id already bound to a committed event"

def readCommandFence (head : LedgerHead) : Store LedgerCommandFence := do
  let fence : Store LedgerCommandFence := do
    let purgeRevision ← read .fence fun authority _ => authority.purgeRevision
    let scope ← read .fence fun authority _ => authority.scopeSnapshot.find? fun scope =>
      scope.snapshotId = head.scopeSnapshotId ∧ scope.revision = head.scopeSnapshotRevision
    return {
      principalRef := head.principalRef
      scopeSnapshotId := head.scopeSnapshotId
      scopeSnapshotRevision := head.scopeSnapshotRevision
      policyGeneration := head.policyGeneration
      policyAuthorityRef := head.policyAuthorityRef
      deploymentGeneration := head.deploymentGeneration
      purgeRevision := purgeRevision
      scopePurgeRevision := scope.map (·.purgeLedgerRevision) }
  match ← fence.attempt with
  | .ok fence => return fence
  | .error _ => uncertain "ledger fence read failed; no effect was committed"

def readEpoch : Store Int := do
  match ← read .epoch fun authority _ => authority.investigationLedgerEpoch with
  | some generation => return generation
  | none => uncertain "ledger epoch missing"

def hasCommittedCommand (commandId : Text) : Store Bool := do
  match ← (read .committed fun _ ledger => ledger.commands.find commandId).attempt with
  | .ok row => return row.isSome
  | .error _ => return false

end

section
variable (tools : Tools) (engine : Engine)

/-- `database.batch` with the one statement that inserts a command. -/
def insertStatement (command : CommandRow) : Store Unit :=
  .request .write fun choice world =>
    let told {α : Type} (result : Except StoreError α) : Except StoreError α :=
      match choice.outcome with
      | .answered => result
      | .lost _ => .error (.d1 .lost)
    if choice.outcome = .lost false then (.error (.d1 .lost), world)
    else match insertCommand engine choice.authority command world.ledger with
      | .error failure => (told (.error (.d1 (.failed failure))), world)
      | .ok after => (told (.ok ()), ⟨after, world.own + 1⟩)

def D1Error.message : D1Error → Text
  | .failed (.raised message) => message
  | .failed .constraint => text "constraint failed"
  | .lost => text "Network connection lost"

def mapTriggerError {α : Type} (error : D1Error) : Store α :=
  match parseLedgerTriggerCode error.message with
  | some code =>
    if code = .settlementUncertain then
      if isConstraintMessage error.message then fail .conflict "ledger conflicted"
      else uncertain "ledger outcome is unknown"
    else check (throw ⟨code, error.message, false⟩)
  | none => uncertain "ledger outcome is unknown"

def throwIfCancelled (cancelled : Bool) : Store Unit :=
  if cancelled then uncertain "ledger operation cancelled" else return ()

inductive Disposition where
  | created
  | existing

def requireInput (condition : Bool) (message : String) : Checking :=
  if condition then return () else ledgerFail .inputInvalid message

def checkCreateInput (head : LedgerHead) (firstEvent : LedgerEvent) : Checking := do
  requireInput (tools.headSchema head) "ledger head failed strict validation"
  requireInput (tools.eventSchema firstEvent) "ledger event failed strict validation"
  assertCanonicalLedgerTimestamp tools head.createdAt "head created_at"
  assertCanonicalLedgerTimestamp tools head.updatedAt "head updated_at"
  assertCanonicalLedgerTimestamp tools firstEvent.createdAt "event created_at"
  requireInput (firstEvent.sequence = 1 ∧ firstEvent.kind = .created ∧
    firstEvent.investigationId = head.investigationId)
    "first ledger event must be CREATED sequence 1"
  requireInput (head.revision = 1 ∧ head.eventHead = 1)
    "new ledger head must start at revision 1 with one event"

def checkAppendInput (head : LedgerHead) (parsedEvent : LedgerEvent) : Checking := do
  requireInput (tools.headSchema head) "ledger head failed strict validation"
  requireInput (tools.eventSchema parsedEvent) "ledger event failed strict validation"
  assertCanonicalLedgerTimestamp tools head.updatedAt "head updated_at"
  assertCanonicalLedgerTimestamp tools parsedEvent.createdAt "event created_at"

def sameCreation (head : LedgerHead) (firstEvent : LedgerEvent) (missing conflict : Store LedgerHead)
    (investigationId : Text) : Store LedgerHead := do
  match ← readSnapshot tools .compared investigationId with
  | none => missing
  | some (existing, events) =>
    if existing = head ∧ events.head? = some firstEvent then return existing else conflict

def writeCreation (head : LedgerHead) (firstEvent : LedgerEvent) (command : CommandRow) :
    Store (LedgerHead × Disposition) := do
  match ← (insertStatement engine command).attempt with
  | .error (.ledger error) => check (throw error)
  | .error (.d1 error) =>
    if ← hasCommittedCommand command.commandId then
      let raced : Store LedgerHead := fail .conflict
        "idempotency identity raced with different ledger bytes"
      let existing ← sameCreation tools head firstEvent raced raced head.investigationId
      return (existing, .existing)
    else mapTriggerError error
  | .ok () =>
    match ← readSnapshot tools .readback head.investigationId with
    | none => uncertain "ledger create readback missing"
    | some (readback, _) =>
      if readback = head then return (readback, .created)
      else uncertain "ledger create readback diverged"

def create (head : LedgerHead) (firstEvent : LedgerEvent) (cancelled : Bool) :
    Store (LedgerHead × Disposition) := do
  throwIfCancelled cancelled
  check (checkCreateInput tools head firstEvent)
  match ← read .lookup fun _ ledger => ledger.selectByIdempotency head.idempotencyKey with
  | some byKey =>
    let found ← decodeHead tools byKey
    let existing ← sameCreation tools head firstEvent (uncertain "idempotent readback missing")
      (fail .conflict "idempotency identity already bound to different ledger bytes")
      found.investigationId
    return (existing, .existing)
  | none =>
    let bound ← read .current fun _ ledger => ledger.heads.find head.investigationId
    require bound.isNone .conflict "investigation id is already bound"
    let taken ← read .current fun _ ledger => ledger.selectByEventId firstEvent.eventId
    require taken.isNone .conflict "event id is already bound"
    let fence ← readCommandFence head
    let epoch ← readEpoch
    check (assertHeadEventTimes tools head firstEvent head.updatedAt)
    writeCreation tools engine head firstEvent
      (buildCreateCommand tools head firstEvent fence epoch head.updatedAt)

def checkAppendShape (head current : LedgerHead) (parsedEvent : LedgerEvent)
    (expectedRevision : Int) : Store Unit := do
  require (current.revision = expectedRevision) .staleHead "stale expected revision for ledger head"
  require (head.revision = current.revision + 1 ∧ parsedEvent.sequence = current.eventHead + 1)
    .inputInvalid "ledger append must advance revision and sequence by one"
  require (head.investigationId = current.investigationId ∧
    parsedEvent.investigationId = current.investigationId) .inputInvalid
    "ledger append bound to another investigation"
  require (head.evidenceGrade = current.evidenceGrade ∧ head.protocolVersion = current.protocolVersion)
    .supersessionRequired "protocol or grade change requires explicit supersession"
  require (head.idempotencyKey = current.idempotencyKey ∧ head.principalRef = current.principalRef ∧
    head.inputDigest = current.inputDigest ∧ head.policyGeneration = current.policyGeneration ∧
    head.deploymentGeneration = current.deploymentGeneration) .inputInvalid
    "ledger authority identity is immutable"

/-- `/protocol\/grade change requires explicit supersession/i` -/
def isProtocolChange (message : Text) : Bool :=
  mentions (lowerCase message) (text "protocol/grade change requires explicit supersession")

def settleAppend (head : LedgerHead) (parsedEvent : LedgerEvent) (commandId : Text)
    (error : D1Error) : Store LedgerHead := do
  require (!isProtocolChange error.message)
    .supersessionRequired "protocol or grade change requires explicit supersession"
  if ← hasCommittedCommand commandId then
    match ← appliedAlready tools head parsedEvent with
    | some committed => return committed
    | none => fail .conflict "event id already bound to a committed event"
  else
    match ← appliedAlready tools head parsedEvent with
    | some replayed => return replayed
    | none => mapTriggerError error

def writeAppend (head : LedgerHead) (parsedEvent : LedgerEvent) (command : CommandRow) :
    Store LedgerHead := do
  match ← (insertStatement engine command).attempt with
  | .error (.ledger error) => check (throw error)
  | .error (.d1 error) => settleAppend tools head parsedEvent command.commandId error
  | .ok () =>
    match ← readSnapshot tools .readback head.investigationId with
    | none => uncertain "ledger append readback diverged"
    | some (readback, _) =>
      if readback = head then return readback
      else uncertain "ledger append readback diverged"

def freshAppend (head : LedgerHead) (expectedRevision : Int) (parsedEvent : LedgerEvent) :
    Store LedgerHead := do
  match ← read .current fun _ ledger => ledger.heads.find head.investigationId with
  | none => fail .conflict "unknown investigation ledger"
  | some currentRow =>
    let current ← decodeHead tools currentRow
    checkAppendShape head current parsedEvent expectedRevision
    check (assertAppendMutationMask current head parsedEvent)
    match ← appliedAlready tools head parsedEvent with
    | some racedReplay => return racedReplay
    | none =>
      let fence ← readCommandFence head
      let epoch ← readEpoch
      check (assertHeadEventTimes tools head parsedEvent head.updatedAt)
      writeAppend tools engine head parsedEvent
        (buildAppendCommand tools head expectedRevision parsedEvent fence epoch head.updatedAt)

def append (head : LedgerHead) (expectedRevision : Int) (parsedEvent : LedgerEvent)
    (cancelled : Bool) : Store LedgerHead := do
  throwIfCancelled cancelled
  check (checkAppendInput tools head parsedEvent)
  match ← appliedAlready tools head parsedEvent with
  | some fastReplay => return fastReplay
  | none => freshAppend tools engine head expectedRevision parsedEvent

end
end Investigation
