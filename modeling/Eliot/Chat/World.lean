import Eliot.Async.Interleaving
import Eliot.Chat.Turn

namespace Chat
open Citations (LabelSource)
open Relational Async

structure ChatState where
  active : Option Text
  queued : Option RunTurnInput
  stopRequested : Bool

structure Settlement where
  turn : TurnView
  row : Option ChatTurnRow

structure History where
  dispatched : List Text
  accepted : List RunTurnInput
  removed : List Text
  settled : List Settlement
  /-- Turns whose final write threw while their stored row was not pending. -/
  lost : List Text
  /-- Waiting questions that an emptied slot took along unsaved. -/
  released : List RunTurnInput
  /-- Requests taken for a repeat of the active turn although they ask something else. -/
  mismatched : List RunTurnInput

def History.empty : History := ⟨[], [], [], [], [], [], []⟩

/-- The owning object: its persisted state and turns, its memory, the D1 rows of its chat,
    and a history. Abort controllers and run tasks are known by their number. -/
structure World where
  agent : ChatState
  turns : Turns
  started : Bool
  current : Option Nat
  controller : Option Nat
  controllers : Nat
  aborted : List Nat
  ledger : Ledger
  history : History

inductive Reply where
  | delivered
  | refused
  | lost

/-- A library error with its message, or any other error with the report of it that
    `modelFailure` makes. -/
inductive Failure where
  | library (message : Text)
  | other (report : Text)

/-- The route of a model and what `modelTokenLimit` gives for it, unless it throws. -/
structure ModelSpec where
  route : Text
  tokenLimit : Except Failure (Option Nat)

structure ContextResult where
  revisionIds : List Text
  mode : ContextMode
  sources : List LabelSource

inductive Finish where
  | stop
  | other (detail : Text)

/-- What may run while a run waits for its stream: the checkpoint timer, or `onError`, with
    whether the prompt never left. -/
inductive Callback where
  | timer
  | onError (report : Text) (undispatched : Bool)

/-- What the loop over a text stream meets: a chunk, with whether its checkpoint is due, a
    callback, or the failure of the stream. -/
inductive StreamEvent where
  | chunk (text : Text) (due : Bool) (elapsed : Nat)
  | callback (callback : Callback)
  | broken (failure : Failure)

structure ModelStream where
  events : List StreamEvent
  totalUsage : Except Failure Usage
  text : Except Failure Text
  /-- Callbacks between the complete text and the finish reason. -/
  late : List Callback
  finishReason : Except Failure Finish

structure Choice where
  /-- The storage write of this step throws. -/
  fails : Bool := false
  reply : Reply := .delivered
  now : Nat := 0
  chatProject : Option Text := none
  settings : Option Text := none
  model : Except Failure ModelSpec := .error (.other [])
  context : Except Failure ContextResult := .error (.other [])
  prepared : Except Failure Unit := .ok ()
  stream : ModelStream := ⟨[], .error (.other []), .error (.other []), [], .error (.other [])⟩

inductive Job where
  | onStart
  | submitTurn (input : RunTurnInput) (wait : Bool)
  | stopTurn (projectId turnId : Text)
  | getTurnPage (projectId : Text)
  | getStoredTurn (projectId turnId : Text)
  | runTurn (input : RunTurnInput)
  | advanceQueue (finishedTurnId : Text)
deriving DecidableEq

abbrev Agent := Program World Choice Job Failure

def storageFailure : Failure := .other (text "Model stream failed.")

def store (change : Choice → World → World) : Agent Unit :=
  .act fun choice world =>
    if choice.fails then (.error storageFailure, world) else (.ok (), change choice world)

def d1 {α : Type} (statement : Choice → World → Except Failure α × World) : Agent α :=
  .request fun choice world =>
    match choice.reply with
    | .delivered => statement choice world
    | .refused => (.error storageFailure, world)
    | .lost => (.error storageFailure, (statement choice world).2)

def World.turn (world : World) (id : Text) : Option TurnView :=
  (world.turns.find id).map fun row => parseStoredTurn row.payload

def World.row (world : World) (turnId : Text) : Option ChatTurnRow := world.ledger.find turnId

def World.write (world : World) (now : Nat) (turn : TurnView) : World :=
  { world with
    turns := world.turns.upsert ⟨turn.turnId, storedPayload turn, now⟩ fun row =>
      { row with payload := storedPayload turn } }

def readTurn (id : Text) : Agent (Option TurnView) := .look (·.turn id)

def writeTurn (turn : TurnView) : Agent Unit := store fun choice world => world.write choice.now turn

def changeState (state : ChatState) : Agent Unit := store fun _ world => { world with agent := state }

def TurnRow.before (first second : TurnRow) : Bool :=
  first.createdAt < second.createdAt ||
    first.createdAt == second.createdAt && decide (first.id ≤ second.id)

def World.pending (world : World) : List Text :=
  ((world.turns.rows.filter (·.payload.turn.settlementPending)).mergeSort TurnRow.before).map (·.id)

def note (change : History → History) : Agent Unit :=
  .assign fun world => { world with history := change world.history }

def settlementRow (turnId : Text) : Agent (Option ChatTurnRow) :=
  d1 fun _ world => (.ok (world.row turnId), world)

def notFound : Failure := .library (text "Chat not found in this project.")

def ensureProject (projectId : Text) : Agent Unit :=
  d1 fun choice world =>
    (if choice.chatProject = some projectId then .ok () else .error notFound, world)

end Chat
