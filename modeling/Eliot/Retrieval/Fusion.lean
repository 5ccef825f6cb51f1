import Eliot.Collections.Grouping
import Eliot.Collections.Sorting
import Eliot.Text.Json

namespace Retrieval
open Text (jsonString jsonArray isSha256)
open Sorting (either Compares)

inductive RetrievalLane where
  | ident | exact | lex | sem | literal | sourcecard | atlas | atom | argument
  | wiki | artifact | structural | code | web | exhaustive | verify
deriving DecidableEq

def RetrievalLane.name : RetrievalLane → Text
  | .ident => Text.prose "IDENT" rfl
  | .exact => Text.prose "EXACT" rfl
  | .lex => Text.prose "LEX" rfl
  | .sem => Text.prose "SEM" rfl
  | .literal => Text.prose "LITERAL" rfl
  | .sourcecard => Text.prose "SOURCECARD" rfl
  | .atlas => Text.prose "ATLAS" rfl
  | .atom => Text.prose "ATOM" rfl
  | .argument => Text.prose "ARGUMENT" rfl
  | .wiki => Text.prose "WIKI" rfl
  | .artifact => Text.prose "ARTIFACT" rfl
  | .structural => Text.prose "STRUCTURE" rfl
  | .code => Text.prose "CODE" rfl
  | .web => Text.prose "WEB" rfl
  | .exhaustive => Text.prose "EXHAUSTIVE" rfl
  | .verify => Text.prose "VERIFY" rfl

inductive MetadataValue where
  | text (value : Text)
  | number (value : ℚ)
  | flag (value : Bool)
deriving DecidableEq

structure LocatorCandidate where
  candidateId : Text
  lane : RetrievalLane
  sourceRevisionRef : Text
  canonicalSectionId : Text
  preview : Text
  rawScore : ℚ
  rank : Nat
  indexGeneration : Text
  metadata : List (Text × MetadataValue)
deriving DecidableEq

/-- `localeCompare` as a total order of strings, and the JSON of a number. -/
structure Runtime where
  localeCompare : Text → Text → Int
  numberJson : ℚ → Text
  same : ∀ left right, localeCompare left right = 0 ↔ left = right
  swap : ∀ left right, localeCompare left right < 0 ↔ 0 < localeCompare right left
  trans : ∀ first second third, localeCompare first second ≤ 0 → localeCompare second third ≤ 0 →
    localeCompare first third ≤ 0

structure RankedLists where
  entries : List (RetrievalLane × List LocatorCandidate)
  distinct : (entries.map Prod.fst).Nodup

structure FusionOptions where
  reciprocalRankConstant : ℚ
  laneWeights : RetrievalLane → Option ℚ
  maxPerSourceRevision : Int
  maxPerFamily : Option Int
  familyOf : Option (LocatorCandidate → Text)
  maxDiversityScanCandidates : Option Int

inductive DropReason where
  | duplicateIdentityInList
  | identityDigestConflict
  | diversityScanLimit

structure FusionIdentityConflictError where
  sourceRevisionRef : Text
  canonicalSectionId : Text

structure FusedCandidate where
  candidate : LocatorCandidate
  resolutionCandidate : Option LocatorCandidate
  fusedScore : ℚ
  contributingLanes : List RetrievalLane

/-- The fused list, and the calls of `onDroppedCandidate`. -/
structure Fusion where
  fused : List FusedCandidate
  dropped : List (LocatorCandidate × DropReason)

def defaultFamilyOf (candidate : LocatorCandidate) : Text :=
  match Insertion.get (Text.prose "source_family" rfl) candidate.metadata with
  | some (.text raw) => if 0 < raw.length then raw else candidate.sourceRevisionRef
  | _ => candidate.sourceRevisionRef

def authoritativeContentDigest (candidate : LocatorCandidate) : Option Text :=
  match Insertion.get (Text.prose "content_sha256" rfl) candidate.metadata with
  | some (.text value) => if isSha256 value then some value else none
  | _ => none

def requireCompatibleAuthority (candidates : List LocatorCandidate) : Except FusionIdentityConflictError Unit :=
  let digests := Insertion.unique (candidates.filterMap authoritativeContentDigest)
  match candidates.head? with
  | none => return ()
  | some first =>
    if digests.length > 1 then throw ⟨first.sourceRevisionRef, first.canonicalSectionId⟩ else return ()

def fullLexicalResolutionCandidate (byLane : List (RetrievalLane × LocatorCandidate)) : Option LocatorCandidate :=
  match Insertion.get .sem byLane, Insertion.get .lex byLane with
  | some semantic, some lexical =>
    match authoritativeContentDigest lexical, authoritativeContentDigest semantic with
    | some lexicalDigest, some semanticDigest => if lexicalDigest = semanticDigest then some lexical else none
    | _, _ => none
  | _, _ => none

/-- `JSON.stringify([candidate.source_revision_ref, candidate.canonical_section_id])` -/
def identityKey (candidate : LocatorCandidate) : Text :=
  jsonArray [jsonString candidate.sourceRevisionRef, jsonString candidate.canonicalSectionId]

section
variable (runtime : Runtime)

def metadataJson : MetadataValue → Text
  | .text value => jsonString value
  | .number value => runtime.numberJson value
  | .flag value => if value then Text.prose "true" rfl else Text.prose "false" rfl

def metadataKey (candidate : LocatorCandidate) : Text :=
  jsonArray (((candidate.metadata.map Prod.fst).insertionSort (· ≤ ·)).filterMap fun key =>
    (Insertion.get key candidate.metadata).map fun value => jsonArray [jsonString key, metadataJson runtime value])

def compareRepresentatives (left right : LocatorCandidate) : ℚ :=
  either ((left.rank : ℚ) - right.rank) <|
  either (runtime.localeCompare left.candidateId right.candidateId) <|
  either (runtime.localeCompare left.indexGeneration right.indexGeneration) <|
  either (right.rawScore - left.rawScore) <|
  either (runtime.localeCompare left.preview right.preview)
    (runtime.localeCompare (metadataKey runtime left) (metadataKey runtime right))

def sortRepresentatives (rows : List LocatorCandidate) : List LocatorCandidate :=
  rows.insertionSort fun left right => compareRepresentatives runtime left right ≤ 0

/-- `identities`: the representative of each lane by the key of the identity. -/
abbrev Identities := List (Text × List (RetrievalLane × LocatorCandidate))

def recordIdentity (lane : RetrievalLane) (state : Identities × List (LocatorCandidate × DropReason))
    (entry : Text × List LocatorCandidate) :
    Except FusionIdentityConflictError (Identities × List (LocatorCandidate × DropReason)) := do
  requireCompatibleAuthority entry.2
  match sortRepresentatives runtime entry.2 with
  | [] => return state
  | best :: duplicates =>
    return (Grouping.put2 entry.1 lane best state.1,
      state.2 ++ duplicates.map fun duplicate => (duplicate, .duplicateIdentityInList))

def recordLane (state : Identities × List (LocatorCandidate × DropReason))
    (ranked : RetrievalLane × List LocatorCandidate) :
    Except FusionIdentityConflictError (Identities × List (LocatorCandidate × DropReason)) :=
  (Grouping.gather identityKey ranked.2).foldlM (recordIdentity runtime ranked.1) state

def collectIdentities (candidatesByLane : RankedLists) :
    Except FusionIdentityConflictError (Identities × List (LocatorCandidate × DropReason)) :=
  candidatesByLane.entries.foldlM (recordLane runtime) ([], [])

structure Aggregate where
  candidate : LocatorCandidate
  score : ℚ
  /-- `none` is `Number.NEGATIVE_INFINITY`. -/
  representativeContribution : Option ℚ
  lanes : List RetrievalLane

variable (options : FusionOptions)

def contribution (entry : RetrievalLane × LocatorCandidate) : ℚ :=
  (options.laneWeights entry.1).getD 1 / (options.reciprocalRankConstant + entry.2.rank)

def addContribution (aggregate : Option Aggregate) (entry : RetrievalLane × LocatorCandidate) : Option Aggregate :=
  let contribution := contribution options entry
  let current := aggregate.getD ⟨entry.2, 0, none, []⟩
  let scored : Aggregate :=
    { current with score := current.score + contribution, lanes := Insertion.add current.lanes entry.1 }
  if current.representativeContribution.all (· < contribution) ∨
      (current.representativeContribution = some contribution ∧
        compareRepresentatives runtime entry.2 current.candidate < 0) then
    some { scored with candidate := entry.2, representativeContribution := some contribution }
  else some scored

def sortLanes (byLane : List (RetrievalLane × LocatorCandidate)) : List (RetrievalLane × LocatorCandidate) :=
  byLane.insertionSort fun left right => runtime.localeCompare left.1.name right.1.name ≤ 0

def aggregateIdentity (identity : Text × List (RetrievalLane × LocatorCandidate)) :
    Except FusionIdentityConflictError (Option Aggregate) := do
  let entries := sortLanes runtime identity.2
  requireCompatibleAuthority (entries.map Prod.snd)
  return entries.foldl (addContribution runtime options) none

def compareAggregates (left right : Aggregate) : ℚ :=
  either (right.score - left.score) <|
  either (runtime.localeCompare left.candidate.candidateId right.candidate.candidateId) <|
  either (runtime.localeCompare left.candidate.sourceRevisionRef right.candidate.sourceRevisionRef) <|
  either (runtime.localeCompare left.candidate.canonicalSectionId right.candidate.canonicalSectionId)
    (runtime.localeCompare left.candidate.indexGeneration right.candidate.indexGeneration)

def orderAggregates (identities : Identities) : Except FusionIdentityConflictError (List Aggregate) := do
  let aggregates ← identities.mapM (aggregateIdentity runtime options)
  return aggregates.reduceOption.insertionSort fun left right => compareAggregates runtime left right ≤ 0

structure Scan where
  perSource : List (Text × Nat)
  perFamily : List (Text × Nat)
  scanned : Nat
  selected : List Aggregate
  dropped : List (LocatorCandidate × DropReason)

def familyOf (candidate : LocatorCandidate) : Text :=
  options.familyOf.getD defaultFamilyOf candidate

def diversityScanLimit : Int := options.maxDiversityScanCandidates.getD Text.maxSafeInteger

def scanAggregate (state : Scan) (entry : Aggregate) : Scan :=
  if state.scanned ≥ diversityScanLimit options then
    { state with dropped := state.dropped ++ [(entry.candidate, .diversityScanLimit)] }
  else
    let state := { state with scanned := state.scanned + 1 }
    let source := entry.candidate.sourceRevisionRef
    let count : Nat := (Insertion.get source state.perSource).getD 0
    if count ≥ options.maxPerSourceRevision then state
    else
      let chosen := { state with
        perSource := Insertion.put source (count + 1) state.perSource
        selected := state.selected ++ [entry] }
      match options.maxPerFamily with
      | none => chosen
      | some maxPerFamily =>
        let family := familyOf options entry.candidate
        let familyCount : Nat := (Insertion.get family state.perFamily).getD 0
        if familyCount ≥ maxPerFamily then state
        else { chosen with perFamily := Insertion.put family (familyCount + 1) state.perFamily }

def scanAggregates (ordered : List Aggregate) : Scan :=
  ordered.foldl (scanAggregate options) ⟨[], [], 0, [], []⟩

def presentAggregate (identities : Identities) (entry : Aggregate) : FusedCandidate where
  candidate := entry.candidate
  resolutionCandidate :=
    (Insertion.get (identityKey entry.candidate) identities).bind fullLexicalResolutionCandidate
  fusedScore := entry.score
  contributingLanes := entry.lanes.insertionSort fun left right => left.name ≤ right.name

def reciprocalRankFuse (candidatesByLane : RankedLists) : Except FusionIdentityConflictError Fusion := do
  let (identities, duplicates) ← collectIdentities runtime candidatesByLane
  let ordered ← orderAggregates runtime options identities
  let scan := scanAggregates options ordered
  return ⟨scan.selected.map (presentAggregate identities), duplicates ++ scan.dropped⟩

end

end Retrieval
