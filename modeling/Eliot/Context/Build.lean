import Eliot.Context.History

namespace Context
open Text Citations

inductive ScopeMode where
  | projectDefault
  | explicit
  | empty

structure ContextInput (World : Type) extends HistoryInput World, Caller where
  projectId : Text
  scopeMode : Option ScopeMode
  sourceIds : Option (List Text)
  model : CatalogModel

inductive ContextMode where
  | whole
  | claims
  | none

structure ContextResult where
  mode : ContextMode
  revisionIds : List Text
  sources : List LabelSource
  messages : List ContextMessage
  estimatedInputTokens : Int
  historyNotice : Option Text

section
variable {World : Type}

structure Candidate where
  index : Nat
  compactTokens : Int
  fullTokens : Option Int
  saving : Int

def sortCandidates (candidates : List Candidate) : List Candidate :=
  candidates.mergeSort fun first second =>
    second.saving < first.saving || (first.saving == second.saving && first.index ≤ second.index)

def candidatesOf (frozen : List Frozen) (wholeParts : List (Option SourceText))
    (compactParts : List (Option ClaimContextPart)) : List Candidate :=
  sortCandidates ((compactParts.zipIdx).filterMap fun (part, index) =>
    part.map fun part =>
      let compactTokens : Int := estimateTokens part.sectionText + estimateTokens part.orientation
      let fullTokens : Option Int :=
        match wholeParts[index]?.join with
        | some loaded => some (estimateTokens loaded.sectionText)
        | none => frozen[index]?.bind fun entry => entry.readableSize.map fun size =>
            -((-size) / 3) + estimateTokens (sourceHeader (aliasOf index) entry.title)
      ⟨index, compactTokens, fullTokens, fullTokens.elim 0 (· - compactTokens)⟩)

def compress (cap : ℚ) : List Candidate → (projectedTokens : Int) → List Nat → List Nat
  | [], _, compressed => compressed
  | candidate :: rest, projectedTokens, compressed =>
    if projectedTokens ≤ cap then compressed
    else if candidate.saving ≤ 0 then compress cap rest projectedTokens compressed
    else
      compress cap rest
        (projectedTokens - candidate.saving +
          if compressed = [] then (estimateTokens claimsOrientationHeader : Int) else 0)
        (compressed ++ [candidate.index])

structure Packing (World : Type) where
  plan : HistoryPlan World
  wholeParts : List (Option SourceText)
  compressed : List Nat
  historyBlocked : Bool

structure MixedInput (World : Type) where
  env : Env World
  rounds : Nat
  frozen : List Frozen
  frozenSet : List Text
  compactParts : List (Option ClaimContextPart)
  systemTokens : Nat
  cap : ℚ
  caller : Caller

def assembleParts (mixed : MixedInput World) (compressed : List Nat) :
    List (Frozen × Nat) → List (Option SourceText) →
    Assembling World (List (SourceText ⊕ ClaimContextPart) × List (Option SourceText))
  | [], wholeParts => return ([], wholeParts)
  | (entry, index) :: rest, wholeParts => do
    let compact := if index ∈ compressed then mixed.compactParts[index]?.join else none
    if index ∈ compressed ∧ compact.isNone then
      throw (.internal "A compact context source disappeared during assembly.")
    match compact, wholeParts[index]?.join with
    | some compact, _ =>
      let (parts, wholeParts) ← assembleParts mixed compressed rest wholeParts
      return (.inr compact :: parts, wholeParts)
    | none, some whole =>
      let (parts, wholeParts) ← assembleParts mixed compressed rest wholeParts
      return (.inl whole :: parts, wholeParts)
    | none, none =>
      let whole ← mixed.env.loadSourceText entry index
      let (parts, wholeParts) ←
        assembleParts mixed compressed rest (wholeParts.set index (some whole))
      return (.inl whole :: parts, wholeParts)

def orientationOf : SourceText ⊕ ClaimContextPart → Option Text
  | .inl _ => none
  | .inr compact => some compact.orientation

def joinOrientations (orientations : List Text) : Assembling World Text :=
  if orientations = [] then return []
  else do
    let joined ← joinContext orientations [10, 10]
    joinContext [claimsOrientationHeader, joined] []

def mixedEvidence (sourcesText claimOrientation : Text) : List ContextMessage :=
  [.plain .system systemPrompt, .plain .user sourcesText] ++
    if claimOrientation = [] then [] else [.plain .user claimOrientation]

def assemble (mixed : MixedInput World) (packing : Packing World) :
    Assembling World (Packing World × Option ContextResult) := do
  let (parts, wholeParts) ←
    assembleParts mixed packing.compressed mixed.frozen.zipIdx packing.wholeParts
  let packing := { packing with wholeParts }
  let sections := parts.map (Sum.elim (·.sectionText) (·.sectionText))
  let sources := parts.map (Sum.elim (·.source) (·.source))
  let orientations := parts.filterMap orientationOf
  let sourcesText ← joinSourceSections sections
  let claimOrientation ← joinOrientations orientations
  let evidence := mixedEvidence sourcesText claimOrientation
  let historyBudget := mixed.cap - requestTokens evidence mixed.caller
  let (plan, selected) ←
    selectHistory mixed.rounds packing.plan mixed.frozenSet historyBudget sources
  let packing := { packing with plan }
  match fitHistory selected evidence mixed.caller mixed.cap with
  | none => return ({ packing with historyBlocked := 0 ≤ historyBudget }, none)
  | some history =>
    let messages := evidence ++ history.messages
    if mixed.cap < requestTokens messages mixed.caller then return (packing, none)
    return (packing, some
      { mode := if packing.compressed = [] then .whole else .claims
        revisionIds := mixed.frozen.map (·.revisionId)
        sources, messages
        estimatedInputTokens := mixed.systemTokens + estimateTokens sourcesText +
          (if claimOrientation = [] then 0 else estimateTokens claimOrientation) + history.tokens
        historyNotice := history.historyNotice })

def compressMore (mixed : MixedInput World) (candidates : List Candidate) :
    (rounds : Nat) → Packing World → Assembling World (Packing World × Option ContextResult)
  | 0, packing => return (packing, none)
  | rounds + 1, packing => do
    if candidates.length ≤ packing.compressed.length then return (packing, none)
    let remaining := sortCandidates
      ((candidates.filter (·.index ∉ packing.compressed)).map fun candidate =>
        { candidate with
          saving := (match packing.wholeParts[candidate.index]?.join with
            | some loaded => (estimateTokens loaded.sectionText : Int)
            | none => candidate.fullTokens.getD 0) - candidate.compactTokens })
    match remaining.head? with
    | none => return (packing, none)
    | some next =>
      if next.saving ≤ 0 then return (packing, none)
      let (packing, result) ←
        assemble mixed { packing with compressed := packing.compressed ++ [next.index] }
      match result with
      | some result => return (packing, some result)
      | none => compressMore mixed candidates rounds packing

/-- What an assembly of whole sources is projected to cost, loaded or not. It routes only; the
    messages themselves still pass the exact limit. -/
def projectTokens (rounds : Nat) (frozen : List Frozen) (historyPlan : HistoryPlan World)
    (systemTokens callerTokens : Nat) (wholePrefitTokens : Int)
    (preloadedWhole : Option (List SourceText)) :
    Assembling World (HistoryPlan World × Int) :=
  match preloadedWhole with
  | some whole => do
    let (plan, newest) ← newestHistoryTokens rounds historyPlan
    return (plan, ((systemTokens + estimateSourceSections (whole.map (·.sectionText)) +
      callerTokens + newest : Nat) : Int))
  | none =>
    return (historyPlan, wholePrefitTokens + estimateTokens sourcesHeader +
      ((frozen.length - 1) * estimateTokens [10, 10] : Nat) +
      (frozen.zipIdx.map fun (entry, index) =>
        estimateTokens (sourceHeader (aliasOf index) entry.title)).sum)

def assembleUntil (mixed : MixedInput World) (candidates : List Candidate)
    (packing : Packing World) : Assembling World (Packing World × Option ContextResult) := do
  let (packing, result) ← assemble mixed packing
  match result with
  | some result => return (packing, some result)
  | none => compressMore mixed candidates candidates.length packing

def buildMixedContext (env : Env World) (rounds : Nat) (frozen : List Frozen)
    (historyPlan : HistoryPlan World) (frozenSet : List Text) (systemTokens callerTokens : Nat)
    (cap : ℚ) (wholePrefitTokens : Int) (caller : Caller)
    (preloadedWhole : Option (List SourceText)) : Assembling World ContextResult := do
  let compactParts ← frozen.zipIdx.mapM fun (entry, index) => env.loadClaimContextPart entry index
  let wholeParts := preloadedWhole.elim (List.replicate frozen.length none) (·.map some)
  let (plan, projectedTokens) ← projectTokens rounds frozen historyPlan systemTokens callerTokens
    wholePrefitTokens preloadedWhole
  let candidates := candidatesOf frozen wholeParts compactParts
  let mixed : MixedInput World :=
    ⟨env, rounds, frozen, frozenSet, compactParts, systemTokens, cap, caller⟩
  let (packing, result) ← assembleUntil mixed candidates
    ⟨plan, wholeParts, compress cap candidates projectedTokens [], false⟩
  match result with
  | some result => return result
  | none =>
    raise .invalid (if packing.historyBlocked then historyTooLarge
      else if compactParts.any (·.isNone) then needsUnderstanding else narrowScope) 400

end

section
variable {World : Type}

def guideLines (frozen : List Frozen) : List Text :=
  frozen.zipIdx.filterMap fun (entry, index) =>
    let summary := trim (entry.guideSummary.getD [])
    if entry.distillState = some (text "done") ∧ summary ≠ [] then
      some (sourceHeader (aliasOf index) (stripLabels summary))
    else none

def guideOrientation (evidence history : List ContextMessage) (caller : Caller) (cap : ℚ)
    (lines : List Text) : Assembling World (List ContextMessage) := do
  let guideLength := (lines.map (·.length)).sum + (lines.length - 1)
  let guideBytes := 2 * guideLength + 2 * (guideHeader.length + guideLength)
  let assembly ← get
  if lines = [] ∨ fits assembly guideBytes = false then return []
  let joined ← joinContext lines [10]
  let guideText ← joinContext [guideHeader, joined] []
  let orientation := ContextMessage.plain .user guideText
  if requestTokens (evidence ++ orientation :: history) caller ≤ cap then return [orientation]
  return []

def knownBytes (frozen : List Frozen) : Nat :=
  frozen.foldl (fun known entry =>
    match entry.readableSize with
    | some size =>
      if 0 ≤ size ∧ size ≤ maxSafeInteger then min maxSafeInteger (known + size.toNat) else known
    | none => known) 0

def baseMessagesOf (frozen : List Frozen) : List ContextMessage :=
  .plain .system systemPrompt ::
    if frozen = [] then [.plain .system noneScopePolicy] else []

def liftLimit (limit : Except LibraryError ℚ) : Assembling World ℚ :=
  match limit with
  | .ok cap => return cap
  | .error error => throw (.library error)

def freeze (env : Env World) (input : ContextInput World) : Assembling World (List Frozen) :=
  match input.scopeMode with
  | some .empty => return []
  | some .explicit => freezeExplicit env input.projectId (input.sourceIds.getD [])
  | some .projectDefault => freezeProjectDefault env input.projectId
  | none => raise .invalid "Choose sources before asking." 400

def buildContext (env : Env World) (rounds : Nat) (input : ContextInput World) :
    Assembling World ContextResult := do
  let caller := input.toCaller
  reserve (2 * ((caller.question.getD []).length + (caller.instructions.getD []).length))
  (input.history.getD []).forM fun turn =>
    reserve (128 + (turn.citations.getD []).length * 256)
  refuse (input.projectId = [] ∨ 128 < utf8Bytes input.projectId)
    .invalid "Choose a project before asking." 400
  let contextTokens := input.model.contextTokens.getD 0
  let outputReserve := input.model.modelOutputReserve
  refuse (isSafeInteger contextTokens = false ∨ contextTokens ≤ 0 ∨
      isSafeInteger outputReserve = false ∨ outputReserve ≤ 0)
    .invalid "The model configuration is missing. Try again." 400
  let cap ← liftLimit input.model.modelInputLimit
  ensureProject env input.projectId
  let frozen ← freeze env input
  let systemTokens := estimateTokens systemPrompt
  let scopePolicyTokens := if frozen = [] then estimateTokens noneScopePolicy else 0
  let callerTokens := estimateTokens (caller.question.getD []) +
    estimateTokens (caller.instructions.getD [])
  let baseMessages := baseMessagesOf frozen
  refuse (cap < requestTokens baseMessages caller) .invalid narrowScope 400
  let frozenSet := (frozen.map (·.revisionId)).eraseDups
  let (historyPlan, newest) ←
    newestHistoryTokens rounds (planHistory input.toHistoryInput frozenSet)
  let wholePrefitTokens := (knownBytes frozen + 2) / 3 + systemTokens + newest + callerTokens
  if frozen = [] then
    let (_, selected) ←
      selectHistory rounds historyPlan frozenSet (cap - requestTokens baseMessages caller) []
    match fitHistory selected baseMessages caller cap with
    | none => raise .invalid historyTooLarge 400
    | some history =>
      let messages := baseMessages ++ history.messages
      refuse (cap < requestTokens messages caller) .invalid narrowScope 400
      return ⟨.none, [], [], messages, systemTokens + scopePolicyTokens + history.tokens,
        history.historyNotice⟩
  else if wholePrefitTokens ≤ cap then
    let wholeParts ← frozen.zipIdx.mapM fun (entry, index) => env.loadSourceText entry index
    let sourcesText ← joinSourceSections (wholeParts.map (·.sectionText))
    let sources := wholeParts.map (·.source)
    let evidence : List ContextMessage := [.plain .system systemPrompt, .plain .user sourcesText]
    let (historyPlan, selected) ←
      selectHistory rounds historyPlan frozenSet (cap - requestTokens evidence caller) sources
    match fitHistory selected evidence caller cap with
    | none =>
      buildMixedContext env rounds frozen historyPlan frozenSet systemTokens callerTokens cap
        wholePrefitTokens caller (some wholeParts)
    | some historyFinal =>
      let orientation ←
        guideOrientation evidence historyFinal.messages caller cap (guideLines frozen)
      return ⟨.whole, frozen.map (·.revisionId), sources,
        evidence ++ orientation ++ historyFinal.messages,
        systemTokens + estimateTokens sourcesText + historyFinal.tokens +
          (orientation.map fun message => estimateTokens message.content).sum,
        historyFinal.historyNotice⟩
  else
    buildMixedContext env rounds frozen historyPlan frozenSet systemTokens callerTokens cap
      wholePrefitTokens caller none

end
end Context
