import Eliot.Investigation.Ports

namespace Investigation

abbrev Checking := Except LedgerError Unit

def ledgerFail {α : Type} (code : LedgerErrorCode) (message : String) : Except LedgerError α :=
  throw ⟨code, text message, false⟩

section
variable (tools : Tools)

/-- `/^\d{4}-\d{2}-\d{2}T\d{2}:\d{2}:\d{2}\.\d{3}Z$/`, a digit for each `0` -/
def isTimestampShape (value : Text) : Bool :=
  let shape := text "0000-00-00T00:00:00.000Z"
  value.length = shape.length && (value.zip shape).all fun place =>
    if place.2 = 48 then Text.isDigit place.1 else place.1 = place.2

def isCanonicalLedgerTimestamp (value : Text) : Bool :=
  let part (start stop : Nat) : Int := Text.number (Text.slice value start stop)
  let month := part 5 7
  let day := part 8 10
  isTimestampShape value && !(month < 1 || month > 12 || day < 1 || day > 31 || part 11 13 > 23 ||
      part 14 16 > 59 || part 17 19 > 59) &&
    match tools.dateParse value with
    | none => false
    | some millis => !(day > tools.lastDay millis month) && tools.toISOString millis = value

def assertCanonicalLedgerTimestamp (value : Text) (what : String) : Checking :=
  if isCanonicalLedgerTimestamp tools value then return ()
  else ledgerFail .inputInvalid ("ledger " ++ what ++ " is not canonical UTC millis-Z")

def assertHeadEventTimes (head : LedgerHead) (event : LedgerEvent) (observedAt : Text) : Checking := do
  assertCanonicalLedgerTimestamp tools observedAt "observed_at"
  assertCanonicalLedgerTimestamp tools head.createdAt "head created_at"
  assertCanonicalLedgerTimestamp tools head.updatedAt "head updated_at"
  assertCanonicalLedgerTimestamp tools event.createdAt "event created_at"

def ledgerCommandExpiry (observedAt : Text) : Text :=
  tools.toISOString ((tools.dateParse observedAt).getD 0 + 5 * 60 * 1000)

end

def maskFail {α : Type} (message : String) : Except LedgerError α := ledgerFail .inputInvalid message

def requireThat (condition : Bool) (message : String) : Checking :=
  if condition then return () else maskFail message

def checkFlip (event : LedgerEvent) (start : List ObligationStatus) (finish : ObligationStatus)
    (a b : LedgerObligation) : Checking := do
  if !(a.status ∈ start) || b.status ≠ finish then
    if a.status = .deviated && finish = .accepted then
      ledgerFail .supersessionRequired "deviated obligation requires explicit supersession"
    else maskFail "obligation status transition is not permitted for this event kind"
  requireThat (a.obligationId = b.obligationId && a.verifierRef = b.verifierRef && a.lane = b.lane &&
      a.exposed = b.exposed && a.kind = b.kind &&
      a.dependencyObligationIds = b.dependencyObligationIds &&
      a.certificateKind = b.certificateKind && a.blocking = b.blocking)
    "obligation identity changed outside registration"
  if finish = .accepted then
    if some b.verifierRef ≠ event.verifierRef || some event.actorRef ≠ event.verifierRef then
      ledgerFail .verifierDenied "only the named verifier accepts"
  else requireThat (b.metricRef = a.metricRef) "deviation must not rewrite the obligation metric"
  if a.exposed && a.lane = .confirmatory && b.metricRef ≠ a.metricRef then
    ledgerFail .supersessionRequired "confirmatory metric changed after exposure"

/-- The loop over the obligations side by side; `found` says whether one differed before. -/
def flipLoop (event : LedgerEvent) (start : List ObligationStatus) (finish : ObligationStatus) :
    Bool → List (LedgerObligation × LedgerObligation) → Checking
  | found, [] => requireThat found "event kind requires its reserved field to advance"
  | found, (a, b) :: rest =>
    if a = b then flipLoop event start finish found rest
    else do
      requireThat (!found) "more than one obligation changed in a single event"
      checkFlip event start finish a b
      flipLoop event start finish true rest

def singleObligationFlip (current next : LedgerHead) (event : LedgerEvent)
    (start : List ObligationStatus) (finish : ObligationStatus) : Checking := do
  requireThat (next.obligations.length = current.obligations.length)
    "obligation cardinality changed outside registration"
  flipLoop event start finish false (current.obligations.zip next.obligations)

def growsByOne {α : Type} [DecidableEq α] (current next : List α) : Bool :=
  next.length = current.length + 1 && next.take current.length = current

def assertAppendMutationMask (current next : LedgerHead) (event : LedgerEvent) : Checking := do
  requireThat (event.kind ≠ .created && event.kind ≠ .superseded)
    "event kind requires an explicit create or supersede command"
  requireThat (next.portfolioRef = current.portfolioRef && next.debtRefs = current.debtRefs)
    "portfolio or debt refs are immutable outside supersession"
  requireThat (next.goal = current.goal && next.lane = current.lane &&
      next.modelProfileRef = current.modelProfileRef && next.createdAt = current.createdAt &&
      next.supersedesId = current.supersedesId &&
      next.supersessionReason = current.supersessionReason)
    "lineage or descriptive identity changed outside supersession"
  let laneSame : Bool := next.laneRegistrations = current.laneRegistrations
  let oblSame : Bool := next.obligations = current.obligations
  let hypSame : Bool := next.hypotheses = current.hypotheses
  let chkSame : Bool := next.checkpointHead = current.checkpointHead
  let obsSame : Bool := next.observedExecution = current.observedExecution &&
    next.observedFidelity = current.observedFidelity &&
    next.observedAssurance = current.observedAssurance
  let statuses (before after : LedgerStatus) : Bool := current.status = before && next.status = after
  match event.kind with
  | .checkpoint =>
    requireThat (statuses .open .open) "checkpoint requires an open ledger"
    requireThat (oblSame && hypSame && laneSame && obsSame) "checkpoint mutated a protected family"
  | .obligationAccepted =>
    requireThat (statuses .open .open) "acceptance requires an open ledger"
    if event.verifierRef ≠ some event.actorRef then
      ledgerFail .verifierDenied "only the named verifier accepts"
    requireThat (chkSame && hypSame && laneSame && obsSame) "acceptance mutated a protected family"
    requireThat (!oblSame) "acceptance left obligations unchanged"
    singleObligationFlip current next event [.registered] .accepted
  | .deviation =>
    requireThat (statuses .open .open) "deviation requires an open ledger"
    requireThat (chkSame && hypSame && laneSame) "deviation mutated a protected family"
    requireThat (next.observedFidelity = current.observedFidelity &&
      next.observedAssurance = current.observedAssurance)
      "deviation mutated a protected observed family"
    requireThat (!oblSame) "deviation left obligations unchanged"
    singleObligationFlip current next event [.registered, .accepted] .deviated
    requireThat (next.observedExecution ≠ current.observedExecution)
      "deviation requires an observed note"
    requireThat (next.observedExecution.any fun note => 1 ≤ note.length && note.length ≤ 1024)
      "observed note is invalid"
  | .observed =>
    requireThat (statuses .open .open) "observation requires an open ledger"
    requireThat (oblSame && hypSame && laneSame && chkSame) "observation mutated a protected family"
    requireThat (!obsSame) "observation left observed state unchanged"
    requireThat ([next.observedExecution, next.observedFidelity, next.observedAssurance].all fun value =>
      value.all fun value => 1 ≤ value.length && value.length ≤ 1024) "observed value is invalid"
  | .closed =>
    requireThat (statuses .open .closed) "close requires an open ledger"
    requireThat (oblSame && hypSame && laneSame && chkSame && obsSame) "close mutated a protected family"
  | .reopened =>
    requireThat (statuses .closed .open) "reopen requires a closed ledger"
    requireThat (oblSame && hypSame && laneSame && chkSame && obsSame) "reopen mutated a protected family"
  | .laneRegistered =>
    requireThat (statuses .open .open) "lane registration requires an open ledger"
    requireThat (oblSame && hypSame && chkSame && obsSame)
      "lane registration mutated a protected family"
    requireThat (growsByOne current.laneRegistrations next.laneRegistrations)
      "lane registration must append exactly one entry"
  | .obligationRegistered =>
    requireThat (statuses .open .open) "obligation registration requires an open ledger"
    requireThat (chkSame && hypSame && laneSame && obsSame)
      "obligation registration mutated a protected family"
    requireThat (growsByOne current.obligations next.obligations)
      "obligation registration must append exactly one entry"
    requireThat (next.obligations.getLast?.all (·.status = .registered))
      "registered obligation must start REGISTERED"
    requireThat (!next.obligations.getLast?.any fun added =>
      current.obligations.any (·.obligationId = added.obligationId)) "duplicate obligation id"
  | .hypothesisRecorded =>
    requireThat (statuses .open .open) "hypothesis record requires an open ledger"
    requireThat (oblSame && chkSame && laneSame && obsSame)
      "hypothesis record mutated a protected family"
    requireThat (growsByOne current.hypotheses next.hypotheses)
      "hypothesis record must append exactly one entry"
  | .created | .superseded => maskFail "event kind requires an explicit create or supersede command"

section
variable (tools : Tools)

def ledgerCommandIdFor (eventId : Text) : Text := (text "cmd-" ++ eventId).take 256

structure LedgerCommandFence where
  principalRef : Text
  scopeSnapshotId : Text
  scopeSnapshotRevision : Int
  policyGeneration : Text
  policyAuthorityRef : Text
  deploymentGeneration : Text
  purgeRevision : Int
  scopePurgeRevision : Option Int

def EventRow.mark (event : EventRow) : OldEvent where
  investigationId := event.investigationId
  sequence := event.sequence
  eventId := event.eventId
  kind := event.kind
  payloadHandleRef := event.payloadHandleRef
  payloadDigest := event.payloadDigest
  actorRef := event.actorRef
  verifierRef := event.verifierRef
  createdAt := event.createdAt

/-- `metaParams` and the bytes of the heads and events -/
def buildCommand (commandId : Text) (op : OpKind) (expectedOldRevision expectedNewRevision
    expectedOldEventHead expectedNewEventHead epoch : Int) (fence : LedgerCommandFence)
    (observedAt : Text) (oldHead : OldHead) (oldEvent : OldEvent) (newHead : HeadRow)
    (newEvent : EventRow) : CommandRow where
  commandId := commandId
  opKind := op
  expectedOldRevision := expectedOldRevision
  expectedNewRevision := expectedNewRevision
  expectedOldEventHead := expectedOldEventHead
  expectedNewEventHead := expectedNewEventHead
  expectedEpoch := epoch
  principalRef := fence.principalRef
  scopeSnapshotId := fence.scopeSnapshotId
  scopeSnapshotRevision := fence.scopeSnapshotRevision
  policyGeneration := fence.policyGeneration
  policyAuthorityRef := fence.policyAuthorityRef
  deploymentGeneration := fence.deploymentGeneration
  globalPurgeRevision := fence.purgeRevision
  scopePurgeRevision := fence.scopePurgeRevision
  observedAt := observedAt
  expiresAt := ledgerCommandExpiry tools observedAt
  oldHead := oldHead
  oldEvent := oldEvent
  newHead := newHead
  newEvent := newEvent

def buildCreateCommand (head : LedgerHead) (event : LedgerEvent) (fence : LedgerCommandFence)
    (epoch : Int) (observedAt : Text) : CommandRow :=
  buildCommand tools (ledgerCommandIdFor event.eventId) .create 0 1 0 1 epoch fence observedAt
    noHead noEvent (ledgerHeadBindings tools head) event

def buildAppendCommand (head : LedgerHead) (expectedRevision : Int) (event : LedgerEvent)
    (fence : LedgerCommandFence) (epoch : Int) (observedAt : Text) : CommandRow :=
  buildCommand tools (ledgerCommandIdFor event.eventId) .append expectedRevision head.revision
    (head.eventHead - 1) head.eventHead epoch fence observedAt noHead noEvent
    (ledgerHeadBindings tools head) event

def buildSupersedeCommand (oldHead : LedgerHead) (oldEvent : LedgerEvent) (expectedOldRevision : Int)
    (newHead : LedgerHead) (newEvent : LedgerEvent) (fence : LedgerCommandFence) (epoch : Int)
    (observedAt : Text) : CommandRow :=
  buildCommand tools (ledgerCommandIdFor oldEvent.eventId) .supersede expectedOldRevision
    oldHead.revision (oldHead.eventHead - 1) oldHead.eventHead epoch fence observedAt
    (ledgerHeadBindings tools oldHead).mark oldEvent.mark (ledgerHeadBindings tools newHead) newEvent

end
end Investigation
