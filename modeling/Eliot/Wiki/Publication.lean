import Eliot.Async.Interference
import Eliot.Wiki.Pages

namespace Wiki
open Async

inductive DraftRiskClass where
  | d0Mechanical
  | d1LowRiskAdditive
  | d2Analytical
  | d3AuthoritySensitive

structure WikiProposalRecord where
  proposalRef : VersionedRef
  page : WikiPageRevision
  riskClass : DraftRiskClass

structure WikiImmutableRevisionReceipt where
  pageRef : VersionedRef
  manifestRef : Text
  bodyObjectRef : Text
  bodySha256 : Text

structure WikiHeadReadback where
  pageRef : VersionedRef
  manifestRef : Text
deriving DecidableEq

structure WikiHeadCommit where
  proposalRef : VersionedRef
  page : WikiPageRevision
  expectedHeadRevision : Option Int
  manifestRef : Text
  committerRef : Text

inductive WikiHeadCommitDisposition where
  | committed
  | existing
  | conflict
  /-- anything else -/
  | other
deriving DecidableEq

inductive WikiPublicationErrorCode where
  | inputInvalid
  | proposalNotFound
  | proposalReadbackMismatch
  | publicationIncomplete
  | headConflict
  | immutableReadbackMismatch
  | settlementUncertain
deriving DecidableEq

structure WikiPublicationError where
  code : WikiPublicationErrorCode
  message : Text
  retryable : Bool
deriving DecidableEq

inductive Failure where
  | publication (error : WikiPublicationError)
  | port
deriving DecidableEq

/-- What is behind the port: the immutable revisions by page and manifest, the heads of the pages, all
    heads that there ever were, and the head that the call at hand committed. -/
structure Shelf where
  revisions : VersionedRef → Text → Option WikiPageRevision
  heads : Text → Option WikiHeadReadback
  history : List WikiHeadReadback
  own : Option WikiHeadReadback

inductive Purpose where
  | proposal
  | head
  /-- the head of a page that has the revision of the call already -/
  | replay
  /-- the head after the commit of the call -/
  | settled
  | validation
  | write
  | readback
  | commit

structure Choice where
  fails : Bool
  proposal : Option WikiProposalRecord
  evidenceComplete : Bool
  coverageComplete : Bool
  dependenciesComplete : Bool
  reviewedCoverage : Bool
  /-- the manifest under which a revision is written, if it is -/
  written : Option Text
  receipt : WikiImmutableRevisionReceipt
  /-- whether a commit whose expected head is there takes place -/
  applied : Bool
  disposition : WikiHeadCommitDisposition

abbrev Publishing := Call Shelf Purpose Choice Failure

def ask {α : Type} (purpose : Purpose) (action : Choice → Shelf → α × Shelf) : Publishing α :=
  .request purpose fun choice shelf =>
    let (reply, after) := action choice shelf
    (if choice.fails then .error .port else .ok reply, after)

def Shelf.write (shelf : Shelf) (ref : VersionedRef) (manifest : Text) (page : WikiPageRevision) : Shelf :=
  { shelf with revisions := fun key name =>
      if key = ref ∧ name = manifest ∧ shelf.revisions ref manifest = none then some page
      else shelf.revisions key name }

def Shelf.revision (shelf : Shelf) (pageId : Text) : Option Int :=
  (shelf.heads pageId).map (·.pageRef.revision)

def Shelf.advance (shelf : Shelf) (head : WikiHeadReadback) : Shelf :=
  { shelf with
    heads := fun id => if id = head.pageRef.id then some head else shelf.heads id
    history := shelf.history ++ [head] }

def readHead (purpose : Purpose) (pageId : Text) : Publishing (Option WikiHeadReadback) :=
  ask purpose fun _ shelf => (shelf.heads pageId, shelf)

def readImmutableRevision (pageRef : VersionedRef) (manifestRef : Text) :
    Publishing (Option WikiPageRevision) :=
  ask .readback fun _ shelf => (shelf.revisions pageRef manifestRef, shelf)

def writeImmutableRevision (page : WikiPageRevision) : Publishing WikiImmutableRevisionReceipt :=
  ask .write fun choice shelf =>
    (choice.receipt,
      match choice.written with
      | some manifest => shelf.write page.pageRef manifest page
      | none => shelf)

def commitHead (input : WikiHeadCommit) : Publishing WikiHeadCommitDisposition :=
  ask .commit fun choice shelf =>
    let head : WikiHeadReadback := ⟨input.page.pageRef, input.manifestRef⟩
    if choice.applied ∧ shelf.revision input.page.pageRef.id = input.expectedHeadRevision then
      (.committed, { shelf.advance head with own := some head })
    else (if choice.disposition = .committed then .conflict else choice.disposition, shelf)

section

structure Tools where
  refSchema : VersionedRef → Bool
  pageSchema : WikiPageRevision → Bool
  canonicalPage : WikiPageRevision → Except Text Text
  reviewsCoverage : Bool

variable (tools : Tools)

/-- `fail` without `retryable` -/
def wikiFail {α : Type} (code : WikiPublicationErrorCode) (message : String) : Publishing α :=
  Call.throw (.publication ⟨code, text message, false⟩)

/-- `fail("WIKI_SETTLEMENT_UNCERTAIN", message, true)` -/
def uncertain {α : Type} (message : String) : Publishing α :=
  Call.throw (.publication ⟨.settlementUncertain, text message, true⟩)

def require (condition : Bool) (code : WikiPublicationErrorCode) (message : String) : Publishing Unit :=
  if condition then return () else wikiFail code message

/-- The `nonEmpty` of the publisher, which bounds the length too. -/
def boundedNonEmpty (value : Text) : Bool := nonEmpty value && value.length ≤ 256

def settling {α : Type} (call : Publishing α) (message : String) : Publishing α := do
  match ← call.attempt with
  | .ok value => return value
  | .error _ => uncertain message

def parseRef (ref : VersionedRef) (label : String) : Publishing VersionedRef :=
  if tools.refSchema ref then return ref
  else wikiFail .inputInvalid (label ++ " failed strict validation")

def parsePage (page : WikiPageRevision) : Publishing WikiPageRevision :=
  if tools.pageSchema page then
    match tools.canonicalPage page with
    | .ok _ => return page
    | .error message => Call.throw (.publication ⟨.inputInvalid, message, false⟩)
  else wikiFail .inputInvalid "wiki revision failed strict validation"

def samePage (left right : WikiPageRevision) : Bool :=
  if tools.pageSchema left && tools.pageSchema right then
    match tools.canonicalPage left, tools.canonicalPage right with
    | .ok left, .ok right => left = right
    | _, _ => false
  else false

def expectedRevision (value : Int) : Publishing (Option Int) := do
  require (Text.isSafeInteger value && value ≥ 0) .inputInvalid
    "expected head revision must be a non-negative safe integer"
  return if value = 0 then none else some value

def publishedRevision (candidate : WikiPageRevision) (expected : Option Int) (committerRef : Text) :
    Publishing WikiPageRevision := do
  require (boundedNonEmpty committerRef) .inputInvalid "committer reference is invalid"
  let raw : WikiPageRevision := { candidate with
    status := .published
    reviewerRef := some committerRef
    supersedesRef := expected.map fun revision => ⟨candidate.pageRef.id, revision⟩ }
  require (tools.pageSchema raw) .inputInvalid "published wiki revision could not be materialized"
  parsePage tools raw

def readProposal (proposalRef : VersionedRef) : Publishing WikiProposalRecord := do
  match ← settling (ask .proposal fun choice shelf => (choice.proposal, shelf))
      "wiki proposal read is unavailable" with
  | none => wikiFail .proposalNotFound "wiki proposal does not exist"
  | some stored =>
    let storedRef ← parseRef tools stored.proposalRef "stored proposal reference"
    let page ← parsePage tools stored.page
    require (storedRef = proposalRef) .proposalReadbackMismatch
      "wiki proposal readback has a foreign identity"
    return ⟨storedRef, page, stored.riskClass⟩

def validatePublication : Publishing Unit := do
  let message := "wiki publication authority readback is unavailable"
  let (evidenceComplete, coverageComplete, dependenciesComplete) ← settling
    (ask .validation fun choice shelf =>
      ((choice.evidenceComplete, choice.coverageComplete, choice.dependenciesComplete), shelf)) message
  let coverageComplete ← if !coverageComplete && tools.reviewsCoverage then
      settling (ask .validation fun choice shelf => (choice.reviewedCoverage, shelf)) message
    else pure coverageComplete
  require (evidenceComplete && coverageComplete && dependenciesComplete) .publicationIncomplete
    "wiki publication evidence, coverage, or dependency closure is incomplete"

inductive Reconciliation where
  | matched
  | different
  | absent
  | unknown

def reconcileHead (purpose : Purpose) (page : WikiPageRevision) (manifestRef : Option Text) :
    Publishing Reconciliation := do
  match ← (readHead purpose page.pageRef.id).attempt with
  | .error _ => return .unknown
  | .ok none => return .absent
  | .ok (some head) =>
    if !tools.refSchema head.pageRef then return .unknown
    else if head.pageRef ≠ page.pageRef || !boundedNonEmpty head.manifestRef ||
        manifestRef.any (head.manifestRef ≠ ·) then return .different
    else match ← (readImmutableRevision page.pageRef head.manifestRef).attempt with
      | .error _ => return .unknown
      | .ok none => return .unknown
      | .ok (some stored) => return if samePage tools stored page then .matched else .different

def verifyImmutableReceipt (page : WikiPageRevision) (receipt : WikiImmutableRevisionReceipt) :
    Publishing Unit := do
  require (tools.refSchema receipt.pageRef) .immutableReadbackMismatch
    "immutable revision receipt is malformed"
  require (receipt.pageRef = page.pageRef && boundedNonEmpty receipt.manifestRef &&
    receipt.bodyObjectRef = page.bodyObjectRef && receipt.bodySha256 = page.bodySha256)
    .immutableReadbackMismatch "immutable revision receipt does not bind the published bytes"

def commitPublished (published : WikiPageRevision) (commit : WikiHeadCommit) :
    Publishing WikiPageRevision := do
  let lost := "another wiki publisher won the expected-head CAS"
  match ← (commitHead commit).attempt with
  | .error _ =>
    match ← reconcileHead tools .settled published (some commit.manifestRef) with
    | .matched => return published
    | .different => wikiFail .headConflict lost
    | _ => uncertain "wiki head mutation outcome is unknown"
  | .ok .conflict => wikiFail .headConflict lost
  | .ok .other => uncertain "wiki store returned an unknown commit disposition"
  | .ok _ =>
    match ← reconcileHead tools .settled published (some commit.manifestRef) with
    | .matched => return published
    | .different => wikiFail .headConflict "wiki head readback belongs to another revision"
    | _ => uncertain "wiki publication lacks exact revision, head, proposal and change readback"

def writePublished (stored : WikiProposalRecord) (published : WikiPageRevision) (expected : Option Int)
    (committerRef : Text) : Publishing WikiPageRevision := do
  let immutable ← settling (writeImmutableRevision published)
    "immutable wiki revision write is uncertain"
  verifyImmutableReceipt tools published immutable
  let readback ← settling (readImmutableRevision published.pageRef immutable.manifestRef)
    "immutable wiki revision readback is unavailable"
  require (readback.any (samePage tools · published)) .immutableReadbackMismatch
    "immutable wiki revision failed exact readback"
  commitPublished tools published
    ⟨stored.proposalRef, published, expected, immutable.manifestRef, committerRef⟩

def replayPublished (published : WikiPageRevision) : Publishing WikiPageRevision := do
  match ← reconcileHead tools .replay published none with
  | .matched => return published
  | .different =>
    wikiFail .headConflict "wiki revision is already occupied by different immutable bytes"
  | _ => uncertain "wiki head replay cannot be settled"

def publishOver (stored : WikiProposalRecord) (published : WikiPageRevision) (expected : Option Int)
    (committerRef : Text) (currentRevision : Option Int) : Publishing WikiPageRevision := do
  require (wikiTargetsExpectedHead stored.page currentRevision expected) .headConflict
    "wiki head no longer matches the expected revision"
  validatePublication tools
  writePublished tools stored published expected committerRef

def parseHead (head : Option WikiHeadReadback) : Publishing (Option VersionedRef) :=
  match head with
  | none => return none
  | some head => do return some (← parseRef tools head.pageRef "wiki head reference")

def publishStored (stored : WikiProposalRecord) (expectedHeadRevision : Int) (committerRef : Text) :
    Publishing WikiPageRevision := do
  let expected ← expectedRevision expectedHeadRevision
  require (wikiMayBePublished stored.page) .publicationIncomplete
    "wiki proposal does not satisfy publication invariants"
  let published ← publishedRevision tools stored.page expected committerRef
  let head ← settling (readHead .head stored.page.pageRef.id) "wiki head read is unavailable"
  let headRef ← parseHead tools head
  if headRef = some published.pageRef then replayPublished tools published
  else publishOver tools stored published expected committerRef (headRef.map (·.revision))

def publish (proposalRef : VersionedRef) (expectedHeadRevision : Int) (committerRef : Text) :
    Publishing WikiPageRevision := do
  let proposalRef ← parseRef tools proposalRef "proposal reference"
  let stored ← readProposal tools proposalRef
  publishStored tools stored expectedHeadRevision committerRef

end

end Wiki
