import Eliot.Context.Assembly

namespace Context
open Text Citations

def replaceAll (regex : Regex Nat) (replacement : Text → Text) (content : Text) : Text :=
  let replaced := (regex.matchAll content).foldl
    (fun (state : Text × Nat) found =>
      (state.1 ++ slice content state.2 found.start ++ replacement found.token, found.stop))
    ([], 0)
  replaced.1 ++ content.drop replaced.2

/-- `/\[S\d+:\d+\]/g` -/
def compactLabel : Regex Nat := .all [unit 91, unit 83, digits, unit colon, digits, unit 93]

/-- `/\[R[0-9a-fA-F-]{8,36}:\d+\]/g` -/
def revisionLabel : Regex Nat :=
  let part : Regex Nat := .one fun code => isHexDigit code || code == 45
  .all [unit 91, unit 82, part.times 8, part.upTo 28, unit colon, digits, unit 93]

/-- `/\[S\d+\]/g` -/
def sourceLabel : Regex Nat := .all [unit 91, unit 83, digits, unit 93]

def stripLabels (content : Text) : Text :=
  replaceAll sourceLabel (fun _ => [])
    (replaceAll revisionLabel (fun _ => []) (replaceAll compactLabel (fun _ => []) content))

/-- `sourceId|revisionId|block|start|end` -/
def retainedKey (citation : Citation) : Text :=
  citation.sourceId ++ 124 :: citation.revisionId ++ 124 :: decimal citation.block ++
    124 :: decimal citation.start ++ 124 :: decimal citation.stop

def retainAssistantLabels (content : Text) (stored : Option (List Citation))
    (sources : List LabelSource) : Text :=
  let stored := stored.getD []
  if stored = [] ∨ sources = [] then stripLabels content
  else
    let kept := stored.map retainedKey
    replaceAll label (fun token =>
      match (resolveCitations token sources).citations.head? with
      | none => []
      | some hit =>
        if retainedKey hit ∉ kept then []
        else
          match sources.find? fun source =>
              source.sourceId = hit.sourceId ∧ source.revisionId = hit.revisionId with
          | none => []
          | some source => bracketed (source.aliasName ++ colon :: decimal hit.block)) content

def isScopePrefix (prior : Option (List Text)) (orderedFrozen : List Text) : Bool :=
  prior.any (·.isPrefixOf orderedFrozen)

section

structure ContextHistoryTurn extends RequestMessage where
  turnId : Option Text
  revisionIds : Option (List Text)
  citations : Option (List Citation)
  isPartial : Bool

structure HistoryExchange where
  user : ContextHistoryTurn
  assistant : Option ContextHistoryTurn

structure HistoryCandidate (World : Type) where
  tokens : Nat
  bytes : World → Nat
  isPartial : Bool
  load : Assembling World HistoryExchange

inductive HistoryStep (World : Type) where
  | finish
  | ignored
  | omitted
  | limited
  | candidate (candidate : HistoryCandidate World)

inductive HistoryItem (World : Type) where
  | exchange (exchange : HistoryExchange)
  | candidate (candidate : HistoryCandidate World)

structure HistoryPlan (World : Type) where
  exchanges : List (HistoryItem World)
  omitted : Bool
  reader : Option (Assembling World (HistoryStep World))
  done : Bool
  limited : Bool

def pairTurns (frozen : List Text) : List ContextHistoryTurn → List HistoryExchange × Bool
  | [] => ([], false)
  | tail :: user :: rest =>
    if tail.role ≠ .assistant then
      let (exchanges, omitted) := pairTurns frozen (user :: rest)
      if tail.role = .user then (⟨tail, none⟩ :: exchanges, omitted) else (exchanges, true)
    else if user.role ≠ .user then
      ((pairTurns frozen (user :: rest)).1, true)
    else if (tail.revisionIds.getD []).any (· ∉ frozen) then
      ((pairTurns frozen rest).1, true)
    else
      let (exchanges, omitted) := pairTurns frozen rest
      (⟨user, some tail⟩ :: exchanges, omitted)
  | [tail] => if tail.role = .user then ([⟨tail, none⟩], false) else ([], true)

variable {World : Type}

structure HistoryInput (World : Type) where
  history : Option (List ContextHistoryTurn)
  earlierHistoryExists : Bool
  historyReader : Option (List Text → Assembling World (HistoryStep World))

def planHistory (input : HistoryInput World) (frozen : List Text) : HistoryPlan World :=
  let paired := pairTurns frozen (input.history.getD []).reverse
  { exchanges := paired.1.map .exchange
    omitted := input.earlierHistoryExists || paired.2
    reader := input.historyReader.map (· frozen)
    done := input.historyReader.isNone
    limited := false }

def HistoryPlan.read (plan : HistoryPlan World) : HistoryStep World → HistoryPlan World
  | .finish => { plan with done := true }
  | .ignored => plan
  | .omitted => { plan with omitted := true }
  | .limited => { plan with done := true, limited := true, omitted := true }
  | .candidate candidate => { plan with exchanges := plan.exchanges ++ [.candidate candidate] }

def historyAt (index : Nat) : (rounds : Nat) → HistoryPlan World →
    Assembling World (HistoryPlan World × Option (HistoryItem World))
  | rounds, plan =>
    if plan.exchanges.length ≤ index ∧ plan.done = false then
      match rounds, plan.reader with
      | 0, _ => throw .unfinished
      | rounds + 1, none => historyAt index rounds { plan with done := true }
      | rounds + 1, some next => do
        let step ← next
        historyAt index rounds (plan.read step)
    else return (plan, plan.exchanges[index]?)

def newestHistoryTokens (rounds : Nat) (plan : HistoryPlan World) :
    Assembling World (HistoryPlan World × Nat) := do
  let (plan, latest) ← historyAt 0 rounds plan
  let notice (unfinished : Bool) := if unfinished then estimateTokens partialHistoryNotice else 0
  match latest with
  | none =>
    refuse plan.limited
      .invalid "Conversation history exceeds the safe read budget. Start a new chat." 400
    return (plan, 0)
  | some (.candidate candidate) => return (plan, candidate.tokens + notice candidate.isPartial)
  | some (.exchange latest) =>
    return (plan, estimateHistoryMessage latest.user.toRequestMessage +
      (latest.assistant.elim 0 fun turn => estimateHistoryMessage turn.toRequestMessage) +
      notice (latest.assistant.any (·.isPartial)))

end

section
variable {World : Type}

structure Selection where
  messages : List ContextMessage
  used : Nat
  tokens : Nat
  omitted : Bool
  latestUnfit : Bool

def normalize (orderedFrozen : List Text) (sources : List LabelSource)
    (exchange : HistoryExchange) : Option (List ContextMessage) :=
  let userContent := trim (stripLabels exchange.user.content)
  if userContent = [] then none
  else
    match exchange.assistant with
    | none => some [.plain .user userContent]
    | some assistant =>
      let content := trim (if isScopePrefix exchange.user.revisionIds orderedFrozen then
        retainAssistantLabels assistant.content assistant.citations sources
        else stripLabels assistant.content)
      if content = [] then none
      else
        some [.plain .user userContent,
          ⟨⟨.assistant, content⟩, assistant.turnId, assistant.isPartial⟩]

/-- Picks the newest exchanges that fit a budget, from the place `index` on. -/
def selectHistoryFrom (frozen : List Text) (budget : ℚ) (sources : List LabelSource)
    (rounds : Nat) : (left : Nat) → (index : Nat) → HistoryPlan World → Selection →
    Assembling World (HistoryPlan World × Selection)
  | 0, _, _, _ => throw .unfinished
  | left + 1, index, plan, picked => do
    let (plan, item) ← historyAt index rounds plan
    let picked := { picked with omitted := picked.omitted || plan.omitted }
    let stop : Selection :=
      { picked with omitted := true, latestUnfit := picked.messages.isEmpty }
    match item with
    | none => return (plan, { picked with latestUnfit := plan.limited && picked.messages.isEmpty })
    | some item =>
      let assembly ← get
      let heavy := match item with
        | .candidate candidate => !fits assembly (candidate.bytes assembly.world)
        | .exchange _ => false
      if heavy then return (plan, stop)
      let exchange ← match item with
        | .candidate candidate => candidate.load
        | .exchange exchange => pure exchange
      -- Only normalized messages decide token fit; raw sizes bound allocation, not retention.
      let bytes := 4 * (exchange.user.content.length +
        exchange.assistant.elim 0 (·.content.length))
      let assembly ← get
      if fits assembly bytes = false then return (plan, stop)
      reserve bytes
      match normalize frozen sources exchange with
      | none =>
        selectHistoryFrom frozen budget sources rounds left (index + 1) plan
          { picked with omitted := true }
      | some messages =>
        let serializedTokens :=
          (messages.map fun message => estimateHistoryMessage message.toRequestMessage).sum
        if budget < (picked.used + serializedTokens : Nat) then return (plan, stop)
        selectHistoryFrom frozen budget sources rounds left (index + 1) plan
          { picked with
            used := picked.used + serializedTokens
            tokens := picked.tokens + (messages.map fun message => estimateTokens message.content).sum
            messages := messages ++ picked.messages }

def selectHistory (rounds : Nat) (plan : HistoryPlan World) (frozen : List Text) (budget : ℚ)
    (sources : List LabelSource) : Assembling World (HistoryPlan World × Selection) :=
  selectHistoryFrom frozen budget sources rounds rounds 0 plan ⟨[], 0, 0, plan.omitted, false⟩

end

def latestExchangeStart (messages : List ContextMessage) : Nat :=
  messages.length - (if messages.getLast?.any (·.role = .assistant) then 2 else 1)

def notices (omitted unfinished : Bool) : List ContextMessage :=
  (if omitted then [ContextMessage.plain .system historyNotice] else []) ++
    if unfinished then [ContextMessage.plain .system partialHistoryNotice] else []

structure FittedHistory where
  messages : List ContextMessage
  tokens : Int
  historyNotice : Option Text

structure Remainder where
  start : Nat
  cost : Int
  tokens : Int
  partials : Int

def Remainder.drop (remainder : Remainder) (message : ContextMessage) : Remainder where
  start := remainder.start + 1
  cost := remainder.cost - estimateHistoryMessage message.toRequestMessage
  tokens := remainder.tokens - estimateTokens message.content
  partials := if message.isPartial then remainder.partials - 1 else remainder.partials

def dropExchanges (latest : Nat) (budget : Bool → ℚ) (messages : List ContextMessage) :
    (rounds : Nat) → Remainder → Remainder
  | 0, remainder => remainder
  | rounds + 1, remainder =>
    if remainder.start < latest ∧ budget (0 < remainder.partials) < remainder.cost then
      let oldest := if messages[remainder.start + 1]?.any (·.role = .assistant) then 2 else 1
      dropExchanges latest budget messages rounds
        (((messages.drop remainder.start).take oldest).foldl Remainder.drop remainder)
    else remainder

def fitHistory (history : Selection) (evidence : List ContextMessage) (caller : Caller)
    (cap : ℚ) : Option FittedHistory :=
  if history.latestUnfit then none
  else
    let finish (omitted : Bool) (remainder : Remainder) : FittedHistory :=
      let notice := notices omitted (0 < remainder.partials)
      ⟨notice ++ history.messages.drop remainder.start,
        remainder.tokens + (notice.map fun message => estimateTokens message.content).sum,
        if omitted then some historyNotice else none⟩
    let all : Remainder :=
      { start := 0
        cost := (history.messages.map fun message =>
          estimateHistoryMessage message.toRequestMessage).sum
        tokens := history.tokens
        partials := (history.messages.filter (·.isPartial)).length }
    let whole := finish history.omitted all
    if requestTokens (evidence ++ whole.messages) caller ≤ cap then some whole
    else
      let budget (unfinished : Bool) : ℚ :=
        cap - requestTokens (evidence ++ notices true unfinished) caller
      let remainder := dropExchanges (latestExchangeStart history.messages) budget
        history.messages history.messages.length all
      let result := finish true remainder
      if requestTokens (evidence ++ result.messages) caller ≤ cap then some result else none

theorem fitHistory_fits {history : Selection} {evidence : List ContextMessage} {caller : Caller}
    {cap : ℚ} {fitted : FittedHistory}
    (fits : fitHistory history evidence caller cap = some fitted) :
    requestTokens (evidence ++ fitted.messages) caller ≤ cap := by
  unfold fitHistory at fits
  split at fits
  · cases fits
  · simp only at fits
    split at fits
    · rename_i within
      cases fits
      exact within
    · split at fits
      · rename_i within
        cases fits
        exact within
      · cases fits

end Context
