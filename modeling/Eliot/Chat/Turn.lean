import Eliot.Citations.Resolve
import Eliot.Relational.Table

namespace Chat
open Citations (Citation LabelSource)
open Relational

inductive ScopeMode where
  | projectDefault
  | explicit
  | empty
deriving DecidableEq

inductive ContextMode where
  | none
  | whole
  | claims
deriving DecidableEq

inductive TurnState where
  | started
  | completed
  | partially
  | failed
  | cancelled
deriving DecidableEq

inductive TokenLimitKind where
  | published
  | unknown
  | legacy
deriving DecidableEq

structure RunTurnInput where
  projectId : Text
  chatId : Text
  turnId : Text
  question : Text
  scopeMode : ScopeMode
  sourceIds : Option (List Text)
  model : Option Text
deriving DecidableEq

structure Usage where
  inputTokens : Option Nat
  cachedTokens : Option Nat
  outputTokens : Option Nat
deriving DecidableEq

namespace Usage

def unknown : Usage := ⟨none, none, none⟩
def zero : Usage := ⟨some 0, some 0, some 0⟩

/-- `??=` on each count. -/
def orElse (usage other : Usage) : Usage where
  inputTokens := usage.inputTokens.or other.inputTokens
  cachedTokens := usage.cachedTokens.or other.cachedTokens
  outputTokens := usage.outputTokens.or other.outputTokens

def Keeps (before after : Usage) : Prop :=
  (before.inputTokens.isSome → after.inputTokens.isSome) ∧
    (before.cachedTokens.isSome → after.cachedTokens.isSome) ∧
    (before.outputTokens.isSome → after.outputTokens.isSome)

@[simp] theorem Keeps.refl (usage : Usage) : usage.Keeps usage := ⟨id, id, id⟩

theorem Keeps.trans {first second third : Usage} (before : first.Keeps second)
    (after : second.Keeps third) : first.Keeps third :=
  ⟨after.1 ∘ before.1, after.2.1 ∘ before.2.1, after.2.2 ∘ before.2.2⟩

@[simp] theorem Keeps.unknown (usage : Usage) : Usage.unknown.Keeps usage := by
  simp [Usage.Keeps, Usage.unknown]

@[simp] theorem Keeps.zero (usage : Usage) : usage.Keeps Usage.zero := by
  simp [Usage.Keeps, Usage.zero]

@[simp] theorem orElse_unknown (usage : Usage) : usage.orElse unknown = usage := by
  simp [orElse, unknown]

end Usage

structure TurnView where
  turnId : Text
  question : Text
  input : Option RunTurnInput
  answer : Text
  state : TurnState
  model : Text
  scopeMode : ScopeMode
  contextMode : Option ContextMode
  revisionIds : List Text
  sourceIds : List Text
  citations : List Citation
  invalidLabels : Nat
  invalidLabelExamples : Option (List Text)
  usage : Usage
  tokenLimit : Option Nat
  tokenLimitKind : Option TokenLimitKind
  firstTokenMs : Option Nat
  totalMs : Option Nat
  error : Option Text
  settlementPending : Bool
  settlementError : Option Text

/-- The columns of a `chat_turn` row that settlement writes or compares. The frozen scope
    stands for its JSON text, which only `JSON.stringify` of a list of strings produces. -/
structure D1TurnProjection where
  model : Text
  scopeMode : ScopeMode
  scopeJson : List Text
  contextMode : ContextMode
  state : TurnState
  usage : Usage
  tokenLimit : Option Nat
  tokenLimitKind : Option TokenLimitKind
  citations : Nat
  invalidLabels : Nat
  firstTokenMs : Option Nat
  totalMs : Option Nat
  error : Option Text
deriving DecidableEq

def turnProjection (turn : TurnView) : D1TurnProjection where
  model := turn.model
  scopeMode := turn.scopeMode
  scopeJson := turn.revisionIds
  contextMode := turn.contextMode.getD .none
  state := turn.state
  usage := turn.usage
  tokenLimit := turn.tokenLimit
  tokenLimitKind := turn.tokenLimitKind
  citations := turn.citations.length
  invalidLabels := turn.invalidLabels
  firstTokenMs := turn.firstTokenMs
  totalMs := turn.totalMs
  error := turn.error

structure StoredInput where
  projectId : Text
  chatId : Text
  hasModel : Bool
  hasSourceIds : Bool

structure Payload where
  turn : TurnView
  input : Option StoredInput

def storedPayload (turn : TurnView) : Payload where
  turn := { turn with input := none }
  input := turn.input.map fun input =>
    ⟨input.projectId, input.chatId, input.model.isSome, input.sourceIds.isSome⟩

def parseStoredTurn (payload : Payload) : TurnView :=
  { payload.turn with
    input := payload.input.map fun input =>
      { projectId := input.projectId
        chatId := input.chatId
        turnId := payload.turn.turnId
        question := payload.turn.question
        scopeMode := payload.turn.scopeMode
        sourceIds := if input.hasSourceIds then some payload.turn.sourceIds else none
        model := if input.hasModel then some payload.turn.model else none } }

theorem parse_stored (turn : TurnView) :
    ∃ input, parseStoredTurn (storedPayload turn) = { turn with input } ∧
      (input.isSome ↔ turn.input.isSome) := by
  exact ⟨_, rfl, by simp [storedPayload]⟩

def sameTurnRequest (a b : RunTurnInput) : Bool :=
  a.projectId = b.projectId && a.chatId = b.chatId && a.turnId = b.turnId &&
    a.question = b.question && a.scopeMode = b.scopeMode && a.model = b.model &&
    a.sourceIds.getD [] = b.sourceIds.getD []

def TurnState.terminal (state : TurnState) : Bool := state != .started

/-- A row of the owning object's table `turns`. -/
structure TurnRow where
  id : Text
  payload : Payload
  createdAt : Nat

abbrev Turns := Table TurnRow Text (·.id)

/-- A row of the D1 table `chat_turn` under the identity of one chat. -/
structure ChatTurnRow where
  turnId : Text
  receipt : D1TurnProjection

abbrev Ledger := Table ChatTurnRow Text (·.turnId)

end Chat
