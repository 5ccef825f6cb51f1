import Eliot.Text.Encoding
import Eliot.Text.Utf8

namespace Retrieval
open Text (jsonString jsonArray decimal isSafeInteger isSha256)

structure ScopeSnapshot where
  snapshotId : Text
  revision : Int
  digest : Text
  memberSourceRevisionRefs : List Text
deriving DecidableEq

structure ExactScanShard where
  shardId : Text
  sourceRevisionRefs : List Text
  sectionObjectRefs : List Text
  targetUncompressedBytes : Int
  hardUncompressedBytes : Int
  maxSections : Nat
deriving DecidableEq

structure ExactScanPlan where
  planId : Text
  scopeSnapshot : ScopeSnapshot
  probes : List Text
  shards : List ExactScanShard
  coverageDenominatorRef : Text
  outputManifestRef : Text
deriving DecidableEq

structure ExhaustiveSectionDescriptor where
  sectionRef : Text
  sourceRevisionRef : Text
  itemKey : Text
  contentSha256 : Text
  projectionGeneration : Text
  normalizedStartByte : Int
  normalizedEndByte : Int
  uncompressedBytes : Int

/-- `EXACT_SCAN_LIMITS` -/
def targetBytes : Int := 2 * 1024 * 1024
def hardBytes : Int := 8 * 1024 * 1024
def maxShardSections : Nat := 128

/-- `EXHAUSTIVE_PLAN_CAP` -/
def maxProbes : Nat := 64
def maxProbeBytes : Nat := 8 * 1024
def maxPlanSections : Nat := 4096

inductive ExhaustivePlanErrorCode where
  | scopeInvalid
  | emptyScope
  | probesInvalid
  | sectionInvalid
  | sectionOutOfScope
  | sectionOversized
  | sectionDuplicate
  | scopeMemberUncovered
  | planTooLarge
deriving DecidableEq

inductive ExhaustiveExecuteErrorCode where
  | shardInvalid
  | probesInvalid
deriving DecidableEq

inductive ExhaustiveMergeErrorCode where
  | planInvalid
  | unknownShard
  | duplicateShard

structure ExhaustiveError (Code : Type) where
  code : Code
  message : Text
deriving DecidableEq

abbrev Planning := Except (ExhaustiveError ExhaustivePlanErrorCode)
abbrev Executing := Except (ExhaustiveError ExhaustiveExecuteErrorCode)
abbrev Merging := Except (ExhaustiveError ExhaustiveMergeErrorCode)

/-- `failPlan`, `failExecute` and `failMerge` -/
def failWith {Code α : Type} (code : Code) (message : Text) : Except (ExhaustiveError Code) α :=
  throw ⟨code, message⟩

def checkProbesWith {Code : Type} (code : Code) (probes : List Text) :
    Except (ExhaustiveError Code) (List Text) := do
  if probes.length < 1 ∨ probes.length > maxProbes then
    failWith code (text "exhaustive scan requires 1..64 exact probes")
  probes.forM fun probe => do
    if probe.length = 0 then failWith code (text "empty probes never match pinned evidence")
    if Text.utf8Bytes probe > maxProbeBytes then
      failWith code (text "a single exact probe exceeds its byte bound")
  return probes

def checkProbes : List Text → Planning (List Text) := checkProbesWith .probesInvalid

def checkExecuteProbes : List Text → Executing (List Text) := checkProbesWith .probesInvalid

def pointCode : Text → Nat
  | [high, low] => 0x10000 + (high - 0xd800) * 0x400 + (low - 0xdc00)
  | [unit] => if Text.isSurrogate unit then 0xfffd else unit
  | _ => 0xfffd

/-- `new TextEncoder().encode(value)` -/
def utf8 (value : Text) : List Nat :=
  (Text.codePoints value).flatMap fun point => Utf8.encodeChar (Char.ofNat (pointCode point))

def padStart (width unit : Nat) (value : Text) : Text :=
  List.replicate (width - value.length) unit ++ value

def hex32 (value : Nat) : Text :=
  ((List.range 8).map fun place => Text.hexDigit (value / 16 ^ place % 16)).reverse

def identityHex (value : Text) : Text :=
  hex32 ((utf8 value).foldl (fun hash byte => (hash ^^^ byte) * 0x01000193 % 2 ^ 32) 0x811c9dc5)

def inventoryIdentity (sections : List ExhaustiveSectionDescriptor) : Text :=
  jsonArray (sections.map fun descriptor => jsonArray
    [jsonString descriptor.sectionRef, jsonString descriptor.sourceRevisionRef, jsonString descriptor.itemKey,
      jsonString descriptor.contentSha256, jsonString descriptor.projectionGeneration,
      Text.integer descriptor.normalizedStartByte, Text.integer descriptor.normalizedEndByte,
      Text.integer descriptor.uncompressedBytes])

def checkScope (scope : ScopeSnapshot) : Planning ScopeSnapshot := do
  if scope.snapshotId.length = 0 ∨ ¬isSafeInteger scope.revision ∨ scope.revision < 1 ∨
      scope.digest.length = 0 then
    failWith .scopeInvalid (text "exhaustive scan requires a frozen ScopeSnapshot")
  if scope.memberSourceRevisionRefs.length = 0 then
    failWith .emptyScope (text "an empty frozen scope has no exhaustive denominator")
  return scope

def checkSections (members : List Text) :
    List Text → List ExhaustiveSectionDescriptor → Planning Unit
  | _, [] => return ()
  | seen, descriptor :: rest => do
    if descriptor.sectionRef.length = 0 ∨ descriptor.sourceRevisionRef.length = 0 ∨
        descriptor.itemKey.length = 0 ∨ ¬isSha256 descriptor.contentSha256 ∨
        descriptor.projectionGeneration.length = 0 ∨
        ¬isSafeInteger descriptor.normalizedStartByte ∨ descriptor.normalizedStartByte < 0 ∨
        ¬isSafeInteger descriptor.normalizedEndByte ∨
        descriptor.normalizedEndByte ≤ descriptor.normalizedStartByte ∨
        ¬isSafeInteger descriptor.uncompressedBytes ∨ descriptor.uncompressedBytes < 1 then
      failWith .sectionInvalid (text "section inventory carries an invalid descriptor")
    if descriptor.normalizedEndByte - descriptor.normalizedStartByte ≠ descriptor.uncompressedBytes then
      failWith .sectionInvalid (text "section range does not match its inventoried byte count")
    if descriptor.sourceRevisionRef ∉ members then
      failWith .sectionOutOfScope
        (text "section " ++ descriptor.sectionRef ++ text " is outside the frozen scope")
    if descriptor.sectionRef ∈ seen then
      failWith .sectionDuplicate
        (text "section " ++ descriptor.sectionRef ++ text " is inventoried twice")
    if descriptor.uncompressedBytes > hardBytes then
      failWith .sectionOversized
        (text "section " ++ descriptor.sectionRef ++ text " exceeds the hard shard byte bound")
    checkSections members (descriptor.sectionRef :: seen) rest

def checkMembers (members : List Text) (sections : List ExhaustiveSectionDescriptor) : Planning Unit :=
  members.forM fun member => do
    if ¬sections.any fun descriptor => descriptor.sourceRevisionRef = member then
      failWith .scopeMemberUncovered
        (text "scope member " ++ member ++ text " has no inventoried sections")

structure Packing where
  shards : List ExactScanShard
  currentRefs : List Text
  currentRevisions : List Text
  currentBytes : Int

def shardIdFor (planId : Text) (index : Nat) : Text :=
  text "exhaustive-shard-" ++ planId ++ text ":" ++ padStart 4 48 (decimal index)

def closeShard (planId : Text) (packing : Packing) : Packing :=
  if packing.currentRefs.length = 0 then packing
  else {
    shards := packing.shards ++ [{
      shardId := shardIdFor planId packing.shards.length
      sourceRevisionRefs := packing.currentRevisions
      sectionObjectRefs := packing.currentRefs
      targetUncompressedBytes := targetBytes
      hardUncompressedBytes := hardBytes
      maxSections := maxShardSections }]
    currentRefs := []
    currentRevisions := []
    currentBytes := 0 }

def overflows (packing : Packing) (descriptor : ExhaustiveSectionDescriptor) : Bool :=
  let hardOverflow : Bool := packing.currentBytes + descriptor.uncompressedBytes > hardBytes
  let countOverflow : Bool := packing.currentRefs.length + 1 > maxShardSections
  let targetOverflow : Bool := packing.currentRefs.length > 0 &&
    packing.currentBytes + descriptor.uncompressedBytes > targetBytes
  packing.currentRefs.length > 0 && (hardOverflow || countOverflow || targetOverflow)

def addSection (planId : Text) (packing : Packing) (descriptor : ExhaustiveSectionDescriptor) : Packing :=
  let packing := if overflows packing descriptor then closeShard planId packing else packing
  { shards := packing.shards
    currentRefs := packing.currentRefs ++ [descriptor.sectionRef]
    currentRevisions :=
      if descriptor.sourceRevisionRef ∈ packing.currentRevisions then packing.currentRevisions
      else packing.currentRevisions ++ [descriptor.sourceRevisionRef]
    currentBytes := packing.currentBytes + descriptor.uncompressedBytes }

def packSections (planId : Text) (sections : List ExhaustiveSectionDescriptor) : List ExactScanShard :=
  (closeShard planId (sections.foldl (addSection planId) ⟨[], [], [], 0⟩)).shards

structure PlanExhaustiveScanInput where
  scope : ScopeSnapshot
  probes : List Text
  sections : List ExhaustiveSectionDescriptor
  planId : Option Text

def planIdFor (input : PlanExhaustiveScanInput) : Text :=
  match input.planId.filter (·.length > 0) with
  | some planId => planId
  | none =>
    text "exhaustive-plan-" ++ input.scope.snapshotId ++ text "-r" ++ Text.integer input.scope.revision ++
      text "-" ++ identityHex (input.scope.digest ++ text "|" ++ (input.probes.intersperse [0]).flatten ++
        text "|" ++ inventoryIdentity input.sections)

def planExhaustiveScan (input : PlanExhaustiveScanInput) : Planning ExactScanPlan := do
  let scope ← checkScope input.scope
  let probes ← checkProbes input.probes
  if input.sections.length = 0 then
    failWith .emptyScope
      (text "an inventoried scope with no sections has no exhaustive denominator")
  if input.sections.length > maxPlanSections then
    failWith .planTooLarge (text "exhaustive section inventory exceeds its bound")
  let members := scope.memberSourceRevisionRefs.reverse.dedup.reverse
  checkSections members [] input.sections
  checkMembers members input.sections
  let planId := planIdFor input
  if planId.length > 256 ∨ planId.any fun unit => unit ≤ 0x20 ∨ unit = 0x7f then
    failWith .scopeInvalid (text "exhaustive plan identity is invalid")
  return {
    planId := planId
    scopeSnapshot := scope
    probes := probes
    shards := packSections planId input.sections
    coverageDenominatorRef := text "coverage-denominator:" ++ scope.snapshotId ++ text ":r" ++
      Text.integer scope.revision ++ text ":" ++ scope.digest.take 16
    outputManifestRef := text "exhaustive-manifest:" ++ planId }

section

structure Thrown where
  isAbortError : Bool
  /-- its `code`, where that is a string -/
  code : Option Text
  /-- the name of an `Error` -/
  name : Option Text

inductive VerifyFailure where
  /-- an `ExactVerificationError` -/
  | verification (code : Text)
  | thrown (error : Thrown)

inductive ExhaustiveSectionStatus where
  | matched
  | noMatch
  | failedClosed
deriving DecidableEq

structure ExhaustiveSectionOutcome where
  sectionRef : Text
  status : ExhaustiveSectionStatus
  matchCount : Nat
  failureCode : Option Text
deriving DecidableEq

inductive Disposition where
  | settled (partialResultRef : Text)
  | unsettled (reasonCode : Text)
deriving DecidableEq

structure ExhaustiveShardOutcome where
  shardId : Text
  disposition : Disposition
  scannedSections : Nat
  matchCount : Nat
  sectionOutcomes : List ExhaustiveSectionOutcome
deriving DecidableEq

def ExhaustiveShardOutcome.isSettled (outcome : ExhaustiveShardOutcome) : Bool :=
  match outcome.disposition with
  | .settled _ => true
  | .unsettled _ => false

/-- What happens at one section of a shard: whether the signal is aborted before it and when it goes
    wrong, and what the reader returns. -/
structure Moment (Input : Type) where
  aborted : Bool
  read : Except Thrown Input
  abortedAfter : Bool

abbrev Verifier (Input : Type) := Input → List Text → Except VerifyFailure (List (List Nat))

def unsettledReason (error : Thrown) (aborted : Bool) : Text :=
  if aborted ∨ error.isAbortError then text "CANCELLED"
  else match error.code.filter fun code => 0 < code.length ∧ code.length ≤ 128 with
    | some code => code
    | none =>
      match error.name.filter fun name => 0 < name.length ∧ name.length ≤ 128 with
      | some name => name
      | none => text "READ_UNCERTAIN"

variable {Input : Type} (verify : Verifier Input) (probes : List Text) (shardId : Text)
  (moment : Nat → Moment Input)

def unsettled (reason : Text) (found : Nat) (outcomes : List ExhaustiveSectionOutcome) :
    ExhaustiveShardOutcome :=
  ⟨shardId, .unsettled reason, outcomes.length, found, outcomes⟩

def scanSections : List Text → Nat → List ExhaustiveSectionOutcome → ExhaustiveShardOutcome
  | [], found, outcomes =>
    ⟨shardId, .settled (text "exhaustive-partial:" ++ shardId), outcomes.length, found, outcomes⟩
  | sectionRef :: rest, found, outcomes =>
    let now := moment outcomes.length
    if now.aborted then unsettled shardId (text "CANCELLED") found outcomes
    else match now.read with
      | .error error => unsettled shardId (unsettledReason error now.abortedAfter) found outcomes
      | .ok sectionInput =>
        match verify sectionInput probes with
        | .ok probeMatches =>
          let sectionMatches := (probeMatches.map List.length).sum
          scanSections rest (found + sectionMatches)
            (outcomes ++ [⟨sectionRef, .matched, sectionMatches, none⟩])
        | .error (.verification code) =>
          if code = text "EXACT_PROBE_ABSENT" then
            scanSections rest found (outcomes ++ [⟨sectionRef, .noMatch, 0, none⟩])
          else scanSections rest found (outcomes ++ [⟨sectionRef, .failedClosed, 0, some code⟩])
        | .error (.thrown error) =>
          unsettled shardId (unsettledReason error now.abortedAfter) found outcomes

def executeExhaustiveShard (shard : ExactScanShard) : Executing ExhaustiveShardOutcome := do
  if shard.shardId.length = 0 ∨ shard.sectionObjectRefs.length = 0 then
    failWith .shardInvalid (text "exhaustive execution requires a planned non-empty shard")
  let probes ← checkExecuteProbes probes
  return scanSections verify probes shard.shardId moment shard.sectionObjectRefs 0 []

end

inductive ExhaustiveCoverageClaim where
  | complete
  | sampled
  | none
deriving DecidableEq

structure ExhaustiveMergeResult where
  coverageClaim : ExhaustiveCoverageClaim
  coverageDenominatorRef : Text
  denominatorShards : Nat
  settledShards : Nat
  unsettledShardIds : List Text
  totalScannedSections : Nat
  totalMatches : Nat
  resultArtifactRef : Text
  coverageReceiptRef : Text

def fileOutcomes (denominator : List Text) :
    List ExhaustiveShardOutcome → List ExhaustiveShardOutcome → Merging (List ExhaustiveShardOutcome)
  | byShard, [] => return byShard
  | byShard, outcome :: rest => do
    if outcome.shardId ∉ denominator then
      failWith .unknownShard (text "merge outcome is outside the planned denominator")
    if byShard.any fun other => other.shardId = outcome.shardId then
      failWith .duplicateShard (text "duplicate merge outcome for " ++ outcome.shardId)
    fileOutcomes denominator (byShard ++ [outcome]) rest

structure Tally where
  unsettledIds : List Text
  settled : Nat
  scanned : Nat
  matchCount : Nat

def tallyShard (byShard : List ExhaustiveShardOutcome) (tally : Tally) (shardId : Text) : Tally :=
  match byShard.find? fun outcome => outcome.shardId = shardId with
  | none => { tally with unsettledIds := tally.unsettledIds ++ [shardId] }
  | some outcome =>
    if outcome.isSettled then
      { tally with
        settled := tally.settled + 1
        scanned := tally.scanned + outcome.scannedSections
        matchCount := tally.matchCount + outcome.matchCount }
    else { tally with unsettledIds := tally.unsettledIds ++ [shardId] }

def mergeExhaustiveShards (plan : ExactScanPlan) (outcomes : List ExhaustiveShardOutcome) :
    Merging ExhaustiveMergeResult := do
  if plan.planId.length = 0 ∨ plan.shards.length = 0 ∨ plan.coverageDenominatorRef.length = 0 then
    failWith .planInvalid (text "merge requires a planned denominator")
  let denominatorIds := plan.shards.map (·.shardId)
  if denominatorIds.dedup.length ≠ denominatorIds.length then
    failWith .planInvalid (text "planned denominator carries duplicate shards")
  let byShard ← fileOutcomes denominatorIds [] outcomes
  let tally := denominatorIds.foldl (tallyShard byShard) ⟨[], 0, 0, 0⟩
  return {
    coverageClaim := if tally.settled = denominatorIds.length then .complete
      else if tally.settled > 0 then .sampled else .none
    coverageDenominatorRef := plan.coverageDenominatorRef
    denominatorShards := denominatorIds.length
    settledShards := tally.settled
    unsettledShardIds := tally.unsettledIds
    totalScannedSections := tally.scanned
    totalMatches := tally.matchCount
    resultArtifactRef := text "exhaustive-result:" ++ plan.planId
    coverageReceiptRef := text "coverage-receipt:" ++ plan.planId }

end Retrieval
