import Eliot.Retrieval.Exhaustive
import Eliot.Text.Occurrences
import Eliot.Text.Scalars
import Mathlib.Algebra.Field.Rat

namespace Retrieval
open Text (isSafeInteger isSha256)

/-- `EXACT_VERIFICATION_BOUNDS` -/
def maxExcerptBytes : Nat := 256 * 1024
def maxScanBytes : Nat := 4 * 1024 * 1024
def maxExactProbes : Nat := 64
def maxExactProbeBytes : Nat := 8 * 1024
def maxRegexPatterns : Nat := 8
def maxPatternLength : Nat := 512
def maxRegexMatches : Nat := 64

inductive ExactVerificationErrorCode where
  | forgedHandle
  | scopeMismatch
  | ownerGenerationMismatch
  | sourceNotLive
  | residencyMismatch
  | revisionMismatch
  | currentByteSubstitution
  | rangeInvalid
  | lengthMismatch
  | digestMismatch
  | coordinateMapMissing
  | coordinateMapCorrupt
  | precisionUnsupported
  | revokedMidRead
  | probeAbsent
  | tokenizerFallbackRequired
  | regexInvalid
  | regexUnbounded
deriving DecidableEq

def ExactVerificationErrorCode.name : ExactVerificationErrorCode → Text
  | .forgedHandle => text "EXACT_FORGED_HANDLE"
  | .scopeMismatch => text "EXACT_SCOPE_MISMATCH"
  | .ownerGenerationMismatch => text "EXACT_OWNER_GENERATION_MISMATCH"
  | .sourceNotLive => text "EXACT_SOURCE_NOT_LIVE"
  | .residencyMismatch => text "EXACT_RESIDENCY_MISMATCH"
  | .revisionMismatch => text "EXACT_REVISION_MISMATCH"
  | .currentByteSubstitution => text "EXACT_CURRENT_BYTE_SUBSTITUTION"
  | .rangeInvalid => text "EXACT_RANGE_INVALID"
  | .lengthMismatch => text "EXACT_LENGTH_MISMATCH"
  | .digestMismatch => text "EXACT_DIGEST_MISMATCH"
  | .coordinateMapMissing => text "EXACT_COORDINATE_MAP_MISSING"
  | .coordinateMapCorrupt => text "EXACT_COORDINATE_MAP_CORRUPT"
  | .precisionUnsupported => text "EXACT_PRECISION_UNSUPPORTED"
  | .revokedMidRead => text "EXACT_REVOKED_MID_READ"
  | .probeAbsent => text "EXACT_PROBE_ABSENT"
  | .tokenizerFallbackRequired => text "EXACT_TOKENIZER_FALLBACK_REQUIRED"
  | .regexInvalid => text "EXACT_REGEX_INVALID"
  | .regexUnbounded => text "EXACT_REGEX_UNBOUNDED"

structure ExactVerificationError where
  code : ExactVerificationErrorCode
  message : Text

abbrev Verifying := Except ExactVerificationError

def failExact {α : Type} (code : ExactVerificationErrorCode) (message : Text) : Verifying α := throw ⟨code, message⟩

structure VersionedRef where
  id : Text
  revision : Int

structure ByteRange where
  start : Int
  stop : Int

inductive EvidenceAnchor where
  | normalizedByteRange (start stop : Int)
  | normalizedLineRange (startLine endLine : Int)
  | pageRegion (page : Int) (bbox : List ℚ)
  | tableCell (tableId : Text) (row column : Int)
  | codeRange (commitSha path : Text) (startLine endLine : Int)

inductive EvidenceHandleTerminalState where
  | live | stale | coldRestorable | redacted | retentionBlocked | brokenIntegrity
deriving DecidableEq

structure EvidenceHandle where
  handleRef : VersionedRef
  sourceNamespaceId : Text
  sourceOwnerGeneration : Text
  sourceRevisionRef : Text
  scopeSnapshotRef : VersionedRef
  anchor : EvidenceAnchor
  excerptSha256 : Text
  excerptByteLength : Int
  coordinateMapRef : Option Text
  objectResidencyKeyDigest : Text
  terminalState : EvidenceHandleTerminalState

inductive PurgeState where
  | live | quarantined | purgeRequested | redacted | retentionBlocked
deriving DecidableEq

structure PinnedSourceAuthority where
  sourceRevisionRef : Text
  sourceNamespaceId : Text
  sourceOwnerGeneration : Text
  contentSha256 : Text
  objectResidencyKeyDigest : Text
  purgeState : PurgeState

structure PinnedExcerptMaterialization where
  exactExcerpt : Text
  excerptSha256 : Text
  excerptByteLength : Int
  sourceObjectSize : Int
  sourceObjectSha256 : Text

structure AdmittedCoordinateMap where
  mapRef : Text
  entries : Text → Option ByteRange

structure ReviewedProjectionTable where
  tableRef : Text
  reviewerRef : Text
  tokenByteRanges : List (Text × List ByteRange)

structure ReusableVerificationReceipt where
  handleId : Text
  handleRevision : Int
  excerptSha256 : Text
  scopeSnapshotDigest : Text
  receiptDigest : Text

structure BoundedRegexProbe where
  pattern : Text
  flags : Option Text

structure PinnedScope extends ScopeSnapshot where
  sourceOwnerGenerations : Text → Option Text

/-- `handle` is what the strict schema makes of the handle, nothing where it rejects it. -/
structure VerifyPinnedExactInput where
  handle : Option EvidenceHandle
  scope : PinnedScope
  source : PinnedSourceAuthority
  materialized : PinnedExcerptMaterialization
  pinnedObjectBytes : Option Bytes
  coordinateMap : Option AdmittedCoordinateMap
  regexProbes : List BoundedRegexProbe
  tokenizer : Option Text
  reviewedProjectionTable : Option ReviewedProjectionTable
  priorReceipts : List ReusableVerificationReceipt
  revokedMidRead : Bool

structure ExactProbeMatch where
  probe : Text
  byteOffsets : List Nat

structure BoundedRegexMatch where
  pattern : Text
  byteOffsets : List Nat

structure ExactVerificationReceipt where
  handleId : Text
  handleRevision : Int
  anchorByteRange : ByteRange
  probeMatches : List ExactProbeMatch
  regexMatches : List BoundedRegexMatch
  reusedReceiptDigest : Option Text
  tokenizerFallbackTableRef : Option Text
  scopeSnapshotDigest : Text
  sourceRevisionRef : Text

/-- What comes with the platform: the digest, the text of a number, and regular expressions, as the places of the
    matches of a pattern that are not empty, if it compiles. -/
structure EvidenceTools where
  sha256Hex : Bytes → Text
  numberText : ℚ → Text
  compile : (pattern flags : Text) → Option (Text → List Nat)

section
variable (tools : EvidenceTools)

def requireByteRange (start stop objectSize : Int) : Verifying ByteRange := do
  if ¬isSafeInteger start ∨ ¬isSafeInteger stop ∨ start < 0 ∨ stop ≤ start then
    failExact .rangeInvalid (text "normalized byte range is invalid")
  if stop - start > maxExcerptBytes then
    failExact .rangeInvalid (text "evidence excerpt exceeds the hard byte limit")
  if stop > objectSize then
    failExact .rangeInvalid (text "evidence anchor exceeds the admitted source object")
  return ⟨start, stop⟩

def scanLines (startLine endLine objectSize : Int) : Bytes → Int → Int → Option Int → Verifying ByteRange
  | [], index, line, start =>
    match start with
    | none => failExact .rangeInvalid (text "requested lines do not exist in the admitted source object")
    | some start =>
      if line ≠ endLine then
        failExact .rangeInvalid (text "requested lines do not exist in the admitted source object")
      else requireByteRange start index objectSize
  | byte :: rest, index, line, start => do
    let stop := index + 1
    if start.any fun start => stop - start > maxExcerptBytes then
      failExact .rangeInvalid (text "requested evidence lines exceed the hard excerpt byte limit")
    if byte ≠ 10 then scanLines startLine endLine objectSize rest stop line start
    else match (if line = endLine then start else none) with
      | some start => requireByteRange start stop objectSize
      | none =>
        scanLines startLine endLine objectSize rest stop (line + 1) (if line + 1 = startLine then some stop else start)

def locateLineRange (bytes : Bytes) (startLine endLine objectSize : Int) : Verifying ByteRange := do
  if ¬isSafeInteger startLine ∨ ¬isSafeInteger endLine ∨ startLine < 1 ∨ endLine < startLine then
    failExact .rangeInvalid (text "normalized line range is invalid")
  if bytes.length > maxScanBytes then
    failExact .rangeInvalid (text "pinned window exceeds the hard line-scan bound")
  scanLines startLine endLine objectSize bytes 0 1 (if startLine = 1 then some 0 else none)

def coordinateKeyFor : EvidenceAnchor → Option Text
  | .tableCell tableId row column =>
    some (text "table:" ++ tableId ++ text ":" ++ Text.integer row ++ text ":" ++ Text.integer column)
  | .pageRegion page bbox =>
    some (text "page:" ++ Text.integer page ++ text ":" ++ ((bbox.map tools.numberText).intersperse [44]).flatten)
  | .codeRange commitSha path startLine endLine =>
    some (text "code:" ++ commitSha ++ text ":" ++ path ++ text ":" ++ Text.integer startLine ++ text ":" ++
      Text.integer endLine)
  | _ => none

def resolveAnchorToRange (anchor : EvidenceAnchor) (coordinateMap : Option AdmittedCoordinateMap) (objectSize : Int)
    (pinnedBytes : Option Bytes) : Verifying ByteRange :=
  match anchor with
  | .normalizedByteRange start stop => requireByteRange start stop objectSize
  | .normalizedLineRange startLine endLine =>
    match pinnedBytes with
    | none => failExact .rangeInvalid (text "line anchors require the bounded pinned byte window for re-slicing")
    | some bytes => locateLineRange bytes startLine endLine objectSize
  | anchor =>
    match coordinateKeyFor tools anchor with
    | none => failExact .precisionUnsupported (text "unknown anchor precision")
    | some key =>
      match coordinateMap with
      | none => failExact .coordinateMapMissing (text "coordinate anchor requires its admitted map")
      | some map =>
        if map.mapRef.length = 0 then
          failExact .coordinateMapCorrupt (text "admitted coordinate map reference is invalid")
        else match map.entries key with
          | none => failExact .coordinateMapCorrupt (text "admitted coordinate map has no entry for this anchor")
          | some entry => requireByteRange entry.start entry.stop objectSize

end

section

/-- `excerpt.indexOf(probe, from)` -/
def indexOfFrom (excerpt probe : Text) (start : Nat) : Option Nat :=
  (Occurrences.find probe (excerpt.drop start)).map (· + start)

/-- The loop over the occurrences of a probe. Each turn moves on by a probe that is not empty, so as many turns as the
    excerpt has units, and one more, come to its end. -/
def probeOffsets (excerpt probe : Text) : (turns start : Nat) → List Nat → Verifying (List Nat)
  | 0, _, offsets => return offsets
  | turns + 1, start, offsets =>
    match indexOfFrom excerpt probe start with
    | none => return offsets
    | some found => do
      let offsets := offsets ++ [Text.utf8Bytes (excerpt.take found)]
      if offsets.length > maxRegexMatches then
        failExact .rangeInvalid (text "exact probe matches exceed their bound")
      probeOffsets excerpt probe turns (found + probe.length) offsets

def verifyExactProbe (excerpt probe : Text) : Verifying ExactProbeMatch := do
  if probe.length = 0 then failExact .probeAbsent (text "empty probes never match pinned evidence")
  if Text.utf8Bytes probe > maxExactProbeBytes then
    failExact .rangeInvalid (text "a single exact probe exceeds its byte bound")
  let offsets ← probeOffsets excerpt probe (excerpt.length + 1) 0 []
  if offsets.length = 0 then failExact .probeAbsent (text "exact probe is absent from pinned bytes")
  return ⟨probe, offsets⟩

def verifyExactProbes (excerpt : Text) (probes : List Text) : Verifying (List ExactProbeMatch) := do
  if probes.length > maxExactProbes then failExact .rangeInvalid (text "exact probe set exceeds its bound")
  probes.mapM (verifyExactProbe excerpt)

variable (tools : EvidenceTools)

def verifyRegexProbe (excerpt : Text) (probe : BoundedRegexProbe) : Verifying BoundedRegexMatch := do
  if probe.pattern.length = 0 ∨ probe.pattern.length > maxPatternLength then
    failExact .regexInvalid (text "regex pattern length is outside its bound")
  if probe.flags.any fun flags => flags ≠ [] ∧ flags ≠ text "i" then
    failExact .regexInvalid (text "regex probe carries unsupported flags")
  match tools.compile probe.pattern (text "gu" ++ probe.flags.getD []) with
  | none => failExact .regexInvalid (text "regex pattern does not compile")
  | some expression =>
    let offsets := (expression excerpt).map fun index => Text.utf8Bytes (excerpt.take index)
    if offsets.length > maxRegexMatches then
      failExact .regexUnbounded (text "regex matches exceed the bounded scan limit")
    return ⟨probe.pattern, offsets⟩

def verifyRegexProbes (excerpt : Text) (probes : List BoundedRegexProbe) : Verifying (List BoundedRegexMatch) := do
  if probes.length > maxRegexPatterns then failExact .regexUnbounded (text "regex probe set exceeds its bound")
  probes.mapM (verifyRegexProbe tools excerpt)

/-- `SUPPORTED_TOKENIZERS` -/
def supportedTokenizers : List Text := [text "unicode-code-point-v1", text "utf8-byte-v1"]

def requireTokenizer (tokenizer : Option Text) (table : Option ReviewedProjectionTable) (excerptByteLength : Int) :
    Verifying (Option Text) :=
  match tokenizer with
  | none => return none
  | some id =>
    if id ∈ supportedTokenizers then return none
    else match table with
      | none =>
        failExact .tokenizerFallbackRequired (text "unsupported tokenizer requires its reviewed projection table")
      | some table => do
        if table.tableRef.length = 0 ∨ table.reviewerRef.length = 0 then
          failExact .tokenizerFallbackRequired (text "reviewed projection table is not attributable")
        if (table.tokenByteRanges.flatMap Prod.snd).any fun range =>
            ¬isSafeInteger range.start ∨ ¬isSafeInteger range.stop ∨ range.start < 0 ∨ range.stop ≤ range.start ∨
              range.stop > excerptByteLength then
          failExact .tokenizerFallbackRequired (text "reviewed projection table entry is out of bounds")
        return some table.tableRef

end

section
variable (tools : EvidenceTools)

/-- The message of the error of `validateEvidenceResolution` on what a verification observes, if it has one. -/
def validateEvidenceResolution (handle : EvidenceHandle) (input : VerifyPinnedExactInput) : Option Text :=
  if handle.terminalState ≠ .live ∨ input.source.purgeState ≠ .live then
    some (text "evidence is not currently authorized and live")
  else if handle.sourceOwnerGeneration ≠ input.source.sourceOwnerGeneration then
    some (text "evidence owner generation is stale")
  else if handle.scopeSnapshotRef.id ≠ input.scope.snapshotId ∨ handle.scopeSnapshotRef.revision ≠ input.scope.revision then
    some (text "evidence handle is not bound to the exact frozen scope membership")
  else if handle.sourceRevisionRef ≠ input.source.sourceRevisionRef then
    some (text "evidence handle points to another source revision")
  else if handle.objectResidencyKeyDigest ≠ input.source.objectResidencyKeyDigest then
    some (text "evidence residency authority changed")
  else if input.source.contentSha256.length ≠ 64 then some (text "source revision digest is malformed")
  else if handle.excerptSha256 ≠ input.materialized.excerptSha256 ∨
      handle.excerptByteLength ≠ input.materialized.excerptByteLength then
    some (text "exact excerpt digest or byte length mismatch")
  else
    let native : Bool := match handle.anchor with
      | .pageRegion .. | .tableCell .. => true
      | _ => false
    if native ∧ handle.coordinateMapRef = none then some (text "native page/table precision requires a coordinate map")
    else none

def checkAuthority (handle : EvidenceHandle) (input : VerifyPinnedExactInput) : Verifying Unit := do
  if handle.terminalState ≠ .live ∨ input.revokedMidRead then
    failExact .revokedMidRead (text "evidence handle is revoked or terminal; no bytes are returned")
  if handle.scopeSnapshotRef.id ≠ input.scope.snapshotId ∨ handle.scopeSnapshotRef.revision ≠ input.scope.revision then
    failExact .scopeMismatch (text "evidence handle is bound to another ScopeSnapshot")
  if handle.sourceRevisionRef ∉ input.scope.memberSourceRevisionRefs then
    failExact .scopeMismatch (text "SourceRevision is outside the frozen ScopeSnapshot")
  if input.scope.sourceOwnerGenerations handle.sourceRevisionRef ≠ some input.source.sourceOwnerGeneration then
    failExact .ownerGenerationMismatch (text "ScopeSnapshot owner generation is stale")
  if handle.sourceNamespaceId ≠ input.source.sourceNamespaceId ∨
      handle.sourceOwnerGeneration ≠ input.source.sourceOwnerGeneration ∨
      handle.objectResidencyKeyDigest ≠ input.source.objectResidencyKeyDigest then
    failExact .ownerGenerationMismatch (text "evidence source authority changed under the pinned handle")
  if input.source.purgeState ≠ .live then
    failExact .sourceNotLive (text "SourceRevision is not live under the pinned handle")
  if handle.sourceRevisionRef ≠ input.source.sourceRevisionRef then
    failExact .revisionMismatch (text "admitted revision moved under the pinned handle")

def checkExcerpt (handle : EvidenceHandle) (input : VerifyPinnedExactInput) : Verifying Unit := do
  let materialized := input.materialized
  if materialized.sourceObjectSha256 ≠ input.source.contentSha256 then
    failExact .currentByteSubstitution (text "materialized bytes are not the admitted revision")
  if ¬isSha256 materialized.excerptSha256 ∨ ¬isSha256 materialized.sourceObjectSha256 then
    failExact .digestMismatch (text "materialized digests are malformed")
  if ¬isSafeInteger materialized.excerptByteLength ∨ materialized.excerptByteLength < 1 ∨
      materialized.excerptByteLength > maxExcerptBytes ∨ ¬isSafeInteger materialized.sourceObjectSize ∨
      materialized.sourceObjectSize < 1 then
    failExact .lengthMismatch (text "materialized lengths are outside their bounds")
  let bytes := Text.encode materialized.exactExcerpt
  if (bytes.length : Int) ≠ materialized.excerptByteLength then
    failExact .lengthMismatch (text "excerpt text is not the declared UTF-8 byte length")
  let excerptDigest := tools.sha256Hex bytes
  if excerptDigest ≠ materialized.excerptSha256 ∨ excerptDigest ≠ handle.excerptSha256 then
    failExact .digestMismatch (text "pinned excerpt digest differs from the admitted handle")
  if materialized.excerptByteLength ≠ handle.excerptByteLength then
    failExact .lengthMismatch (text "pinned excerpt length differs from the admitted handle")

def checkWindow (input : VerifyPinnedExactInput) (range : ByteRange) : Verifying Unit :=
  match input.pinnedObjectBytes with
  | none => return ()
  | some bytes => do
    if bytes.length > maxScanBytes then
      failExact .rangeInvalid (text "pinned byte window exceeds the hard scan bound")
    let window := (bytes.take range.stop.toNat).drop range.start.toNat
    if (window.length : Int) ≠ input.materialized.excerptByteLength then
      failExact .currentByteSubstitution (text "pinned window does not reproduce the admitted excerpt")
    match Utf8.decode window with
    | none => failExact .rangeInvalid (text "pinned window cuts through UTF-8 boundaries")
    | some chars =>
      if chars.flatMap Text.units ≠ input.materialized.exactExcerpt then
        failExact .currentByteSubstitution (text "pinned window bytes changed under the admitted handle")

def checkPinned (input : VerifyPinnedExactInput) : Verifying (EvidenceHandle × ByteRange) :=
  match input.handle with
  | none => failExact .forgedHandle (text "evidence handle fails strict contract validation")
  | some handle => do
    checkAuthority handle input
    checkExcerpt tools handle input
    let range ← resolveAnchorToRange tools handle.anchor input.coordinateMap input.materialized.sourceObjectSize
      input.pinnedObjectBytes
    checkWindow input range
    return (handle, range)

def verifyPinnedExactEvidence (input : VerifyPinnedExactInput) (exactProbes : List Text) :
    Verifying ExactVerificationReceipt := do
  let (handle, range) ← checkPinned tools input
  let probeMatches ← verifyExactProbes input.materialized.exactExcerpt exactProbes
  let regexMatches ← verifyRegexProbes tools input.materialized.exactExcerpt input.regexProbes
  let fallbackTableRef ← requireTokenizer input.tokenizer input.reviewedProjectionTable input.materialized.excerptByteLength
  match validateEvidenceResolution handle input with
  | some message => failExact .digestMismatch (text "domain recheck failed: " ++ message)
  | none =>
    let reused := input.priorReceipts.find? fun receipt =>
      receipt.handleId = handle.handleRef.id ∧ receipt.handleRevision = handle.handleRef.revision ∧
        receipt.excerptSha256 = handle.excerptSha256 ∧ receipt.scopeSnapshotDigest = input.scope.digest
    return {
      handleId := handle.handleRef.id
      handleRevision := handle.handleRef.revision
      anchorByteRange := range
      probeMatches := probeMatches
      regexMatches := regexMatches
      reusedReceiptDigest := reused.map (·.receiptDigest)
      tokenizerFallbackTableRef := fallbackTableRef
      scopeSnapshotDigest := input.scope.digest
      sourceRevisionRef := input.source.sourceRevisionRef }

def exactVerifier : Verifier VerifyPinnedExactInput := fun input probes =>
  match verifyPinnedExactEvidence tools input probes with
  | .ok receipt => .ok (receipt.probeMatches.map (·.byteOffsets))
  | .error error => .error (.verification error.code.name)

end

end Retrieval
