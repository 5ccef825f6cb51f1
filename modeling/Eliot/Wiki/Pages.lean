import Eliot.Text.Basic

namespace Wiki
open Text (isSafeInteger isSha256)

structure VersionedRef where
  id : Text
  revision : Int
deriving DecidableEq

inductive EvidenceLabel where
  | sourceSupported
  | derivedInference
  | hypothesis
  | contested
  | unresolved
  | editorialRecommendation
  | redactedDependency
deriving DecidableEq

inductive PageStatus where
  | draft
  | published
  | superseded
  | pendingRevalidation
  | redactedDependency
deriving DecidableEq

structure WikiPageRevision where
  pageRef : VersionedRef
  pageType : Text
  title : Text
  scopeSnapshotRef : VersionedRef
  bodyObjectRef : Text
  bodySha256 : Text
  statementLabels : List (Text × EvidenceLabel)
  evidenceMapRef : Text
  counterpositionRefs : List Text
  coverageReceiptRef : VersionedRef
  limitations : List Text
  dependencyRefs : List Text
  generatorGeneration : Text
  reviewerRef : Option Text
  status : PageStatus
  supersedesRef : Option VersionedRef
  /-- the JSON of the metadata -/
  publicationMetadata : Text
  createdAt : Text
deriving DecidableEq

inductive WikiPublicationIssue where
  | statusNotDraft
  | pageReferenceInvalid
  | revisionLineageInvalid
  | titleInvalid
  | bodyReferenceInvalid
  | bodyDigestInvalid
  | statementLabelsEmpty
  | statementLabelInvalid
  | redactedDependencyPresent
  | evidenceMapInvalid
  | coverageReferenceInvalid
  | counterpositionInvalid
  | contestedWithoutCounterposition
  | limitationInvalid
  | unresolvedWithoutLimitation
  | dependencyInvalid
  | dependencySelfReference
  | generatorInvalid

def nonEmpty (value : Text) : Bool := value.length > 0 && value = Text.trim value

def validRef (ref : VersionedRef) : Bool := nonEmpty ref.id && isSafeInteger ref.revision && ref.revision > 0

def hasDuplicateOrInvalid (values : List Text) : Bool := !(values.all nonEmpty && values.Nodup)

def statementLabels (page : WikiPageRevision) : Option (List EvidenceLabel) :=
  if page.statementLabels.all fun entry => nonEmpty entry.1 then some (page.statementLabels.map Prod.snd)
  else none

def lineageValid (page : WikiPageRevision) : Bool :=
  if page.pageRef.revision = 1 then page.supersedesRef.isNone
  else page.supersedesRef.any fun supersedes => validRef supersedes && supersedes.id = page.pageRef.id &&
    supersedes.revision = page.pageRef.revision - 1

def wikiPublicationIssues (page : WikiPageRevision) : List WikiPublicationIssue :=
  let labels := statementLabels page
  let has (label : EvidenceLabel) : Bool := labels.any (label ∈ ·)
  let issue (found : Bool) (issue : WikiPublicationIssue) : List WikiPublicationIssue :=
    if found then [issue] else []
  issue (page.status ≠ .draft) .statusNotDraft ++
  issue (!validRef page.pageRef || !validRef page.scopeSnapshotRef) .pageReferenceInvalid ++
  issue (!nonEmpty page.title) .titleInvalid ++
  issue (!nonEmpty page.bodyObjectRef) .bodyReferenceInvalid ++
  issue (!isSha256 page.bodySha256) .bodyDigestInvalid ++
  issue (labels = some []) .statementLabelsEmpty ++
  issue labels.isNone .statementLabelInvalid ++
  issue (has .redactedDependency) .redactedDependencyPresent ++
  issue (!nonEmpty page.evidenceMapRef) .evidenceMapInvalid ++
  issue (!validRef page.coverageReceiptRef) .coverageReferenceInvalid ++
  issue (hasDuplicateOrInvalid page.counterpositionRefs) .counterpositionInvalid ++
  issue (has .contested && page.counterpositionRefs.length = 0) .contestedWithoutCounterposition ++
  issue (hasDuplicateOrInvalid page.limitations) .limitationInvalid ++
  issue ((has .unresolved || has .contested) && page.limitations.length = 0)
    .unresolvedWithoutLimitation ++
  issue (hasDuplicateOrInvalid page.dependencyRefs) .dependencyInvalid ++
  issue (validRef page.pageRef && page.dependencyRefs.any fun dependency =>
    dependency = page.pageRef.id ||
      dependency = page.pageRef.id ++ text ":" ++ Text.integer page.pageRef.revision) .dependencySelfReference ++
  issue (!nonEmpty page.generatorGeneration) .generatorInvalid ++
  issue (validRef page.pageRef && !lineageValid page) .revisionLineageInvalid

def wikiMayBePublished (page : WikiPageRevision) : Bool := (wikiPublicationIssues page).length = 0

def expectedHeadMatches (currentRevision expectedRevision : Option Int) : Bool :=
  currentRevision = expectedRevision

def wikiTargetsExpectedHead (page : WikiPageRevision) (currentRevision expectedRevision : Option Int) :
    Bool :=
  if !expectedHeadMatches currentRevision expectedRevision || !validRef page.pageRef then false
  else match expectedRevision with
    | none => page.pageRef.revision = 1 && page.supersedesRef.isNone
    | some expected => isSafeInteger expected && expected > 0 && page.pageRef.revision = expected + 1 &&
      page.supersedesRef.any fun supersedes => validRef supersedes && supersedes.id = page.pageRef.id &&
        supersedes.revision = expected

end Wiki
