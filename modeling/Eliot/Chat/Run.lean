import Eliot.Chat.Queue

namespace Chat
open Citations (LabelSource resolveCitations)
open Async

/-- The variables of a run that its `try` block changes and its later code reads, thrown
    errors or not. -/
structure Draft where
  turn : TurnView
  dispatched : Bool
  usage : Option Usage
  selectedModel : Option ModelSpec
  labelSources : List LabelSource
  sourceMode : ContextMode
  streamError : Text
  checkpointFailed : Bool
  controller : Nat

def Drafting (α : Type) : Type 1 := Draft → Agent (Except Failure α × Draft)

namespace Drafting

variable {α β : Type}

def bind (first : Drafting α) (rest : α → Drafting β) : Drafting β := fun draft =>
  (first draft).bind fun
    | (.ok value, draft) => rest value draft
    | (.error failure, draft) => .done (.ok (.error failure, draft))

instance : Monad Drafting where
  pure value := fun draft => .done (.ok (.ok value, draft))
  bind := bind

@[simp] theorem bind_eq (first : Drafting α) (rest : α → Drafting β) :
    first >>= rest = first.bind rest := rfl

def lift (program : Agent α) : Drafting α := fun draft =>
  program.attempt.bind fun result => .done (.ok (result, draft))

def throw (failure : Failure) : Drafting α := fun draft => .done (.ok (.error failure, draft))

def get : Drafting Draft := fun draft => .done (.ok (.ok draft, draft))

def modify (change : Draft → Draft) : Drafting Unit := fun draft =>
  .done (.ok (.ok (), change draft))

def modifyTurn (change : TurnView → TurnView) : Drafting Unit :=
  modify fun draft => { draft with turn := change draft.turn }

end Drafting

def ask {α : Type} (answer : Choice → Except Failure α) : Agent α :=
  .request fun choice world => (answer choice, world)

def conflict : Failure :=
  .library (text "This answer cannot start right now. Retry starts a new turn; it will not continue automatically.")

/-- Claims one uncompleted and unreserved `chat_turn` row. -/
def admitTurn (turnId : Text) (model : ModelSpec) : Agent (Option Nat) := do
  match model.tokenLimit with
  | .error failure => .throw failure
  | .ok bound =>
    let changes ← d1 fun _ world => world.updateRow turnId
      (fun row => row.state == .started && row.tokenLimitKind.isNone && row.tokenLimit.isNone)
      fun row => { row with
        tokenLimit := bound
        tokenLimitKind := some (if bound.isNone then .unknown else .published) }
    if changes = 0 then .throw conflict else return bound

def abortReason : Failure := .other (text "Model stream failed.")

def World.signalAborted (world : World) (controller : Nat) : Bool := world.aborted.contains controller

def abort (controller : Nat) : Agent Unit :=
  .assign fun world => { world with aborted := controller :: world.aborted }

def throwIfAborted : Drafting Unit := do
  let draft ← Drafting.get
  if (← .lift (.look (·.signalAborted draft.controller))) then .throw abortReason

def checkpointed (draft : Draft) : TurnView :=
  let resolved := resolveCitations draft.turn.answer draft.labelSources
  { draft.turn with
    answer := resolved.text
    citations := resolved.citations
    invalidLabels := resolved.invalidLabels
    invalidLabelExamples := resolved.invalidLabelExamples.or draft.turn.invalidLabelExamples }

def checkpoint : Drafting Unit := do
  let draft ← Drafting.get
  if (← .lift (.look (·.signalAborted draft.controller))) then
    return ()
  else
    match (← .lift (writeTurn (checkpointed draft)).attempt) with
    | .ok () => return ()
    | .error _ =>
      .modify fun draft => { draft with checkpointFailed := true }
      .lift (abort draft.controller)

def onCallback : Callback → Drafting Unit
  | .timer => checkpoint
  | .onError report undispatched =>
    .modify fun draft =>
      { draft with
        dispatched := draft.dispatched && !undispatched
        streamError := report }

def onStreamEvent : StreamEvent → Drafting Unit
  | .chunk chunk due elapsed => do
    if chunk.isEmpty then
      return ()
    else
      .modifyTurn fun turn => { turn with answer := turn.answer ++ chunk }
      let turn := (← Drafting.get).turn
      let firstText := turn.firstTokenMs.isNone && !(Text.trim turn.answer).isEmpty
      .modifyTurn fun turn => if firstText then { turn with firstTokenMs := some elapsed } else turn
      if firstText || due then checkpoint
      else return ()
  | .callback callback => onCallback callback
  | .broken failure => .throw failure

def readStream : List StreamEvent → Drafting Unit
  | [] => .lift .pause
  | event :: events => do
    .lift .pause
    onStreamEvent event
    readStream events

def streamText : Drafting ModelStream := do
  .modify fun draft => { draft with dispatched := true }
  let turnId := (← Drafting.get).turn.turnId
  .lift (.act fun choice world =>
    (.ok choice.stream, { world with
      history := { world.history with dispatched := turnId :: world.history.dispatched } }))

def finished (turn : TurnView) (finish : Finish) (streamError : Text) : TurnView :=
  let turn := match finish with
    | .stop =>
      if streamError.isEmpty then { turn with state := .completed }
      else { turn with state := .partially, error := some streamError }
    | .other detail =>
      { turn with
        state := .partially
        error := some (if streamError.isEmpty then
          text "The model stopped before a normal completion (" ++ detail ++ text ")."
          else streamError) }
  if (Text.trim turn.answer).isEmpty then
    { turn with
      state := .failed
      error := some (if streamError.isEmpty then
        text "The model returned no answer text (finish: " ++
          (match finish with | .stop => text "stop" | .other detail => detail) ++ text ")."
        else streamError) }
  else turn

def admitRun (input : RunTurnInput) : Drafting Unit := do
  let settings ← .lift (d1 fun choice world =>
    ((match choice.settings with
      | some model => .ok model
      | none => .error (.library (text "Project or model settings not found."))), world))
  .modifyTurn fun turn => { turn with model := input.model.getD settings }
  let model ← .lift (ask (·.model))
  .modify fun draft => { draft with selectedModel := some model }
  .modifyTurn fun turn => { turn with settlementPending := true }
  -- An `INSERT` can commit even when its acknowledgement is lost.
  .lift (writeTurn (← Drafting.get).turn)
  let turn := (← Drafting.get).turn
  .lift (d1 fun _ world => world.insertRow turn)
  let bound ← .lift (admitTurn turn.turnId model)
  .modifyTurn fun turn =>
    { turn with
      tokenLimit := bound
      tokenLimitKind := some (if bound.isNone then .unknown else .published) }
  .lift (writeTurn (← Drafting.get).turn)

def freezeContext (input : RunTurnInput) : Drafting Unit := do
  .lift (ensureProject input.projectId)
  .lift requireRecoveredHandoff
  .lift recoverFinishedTurn
  .lift .pause
  let context ← .lift (ask (·.context))
  .modify fun draft =>
    { draft with
      turn := { draft.turn with
        revisionIds := context.revisionIds
        contextMode := some context.mode
        sourceIds := context.sources.map (·.sourceId) }
      labelSources := context.sources
      sourceMode := context.mode }
  .lift (ask (·.prepared))
  .lift (writeTurn (← Drafting.get).turn)
  let turn := (← Drafting.get).turn
  let _ ← .lift (d1 fun _ world => world.updateRow turn.turnId (·.state == .started)
    fun row => { row with scopeJson := turn.revisionIds, contextMode := context.mode })

def streamAnswer : Drafting Unit := do
  throwIfAborted
  let stream ← streamText
  readStream stream.events
  let usage ← .lift (ask fun _ => stream.totalUsage)
  .modify fun draft => { draft with usage := some usage }
  let answer ← .lift (ask fun _ => stream.text)
  .modifyTurn fun turn => { turn with answer }
  readStream (stream.late.map .callback)
  let finish ← .lift (ask fun _ => stream.finishReason)
  throwIfAborted
  .modify fun draft => { draft with turn := finished draft.turn finish draft.streamError }
  -- An empty completion is logged with its awaited response, which changes nothing.
  if (Text.trim (← Drafting.get).turn.answer).isEmpty then .lift .pause
  else return ()

/-- The `try` block of a run. -/
def tryRun (input : RunTurnInput) : Drafting Unit := do
  admitRun input
  freezeContext input
  streamAnswer

/-- The `catch` block of a run. -/
def catchRun (ownerStop : Bool) (failure : Failure) (draft : Draft) : TurnView :=
  let interrupted (otherwise : TurnState) : TurnState :=
    if draft.turn.answer.isEmpty then otherwise else .partially
  if ownerStop then
    { draft.turn with
      state := interrupted .cancelled
      error := some (text "Stopped. A new Send starts a new turn.") }
  else
    { draft.turn with
      state := interrupted .failed
      error := some (if !draft.streamError.isEmpty then draft.streamError else
        match failure with
        | .library message => message
        | .other report =>
          if draft.selectedModel.isSome then report
          else text "The answer could not be completed.") }

/-- The turn as the `try` block or its `catch` leaves it. -/
def caught (ownerStop : Bool) (draft : Draft) : Except Failure Unit → TurnView
  | .ok () => draft.turn
  | .error failure => catchRun ownerStop failure draft

def afterCheckpoints (draft : Draft) : TurnView :=
  if draft.checkpointFailed then
    { draft.turn with
      state := if draft.turn.answer.isEmpty then .failed else .partially
      error := some (text "The answer stopped because its progress could not be saved. A new Send starts a new turn; no retry was started.") }
  else draft.turn

def graded (draft : Draft) (turn : TurnView) : TurnView :=
  let resolved := resolveCitations turn.answer draft.labelSources
  let turn := { turn with
    answer := resolved.text
    citations := resolved.citations
    invalidLabels := resolved.invalidLabels
    invalidLabelExamples := resolved.invalidLabelExamples }
  let turn := if turn.state = .completed && 0 < turn.invalidLabels then
      { turn with
        state := .partially
        error := some (text "The model finished, but some source references could not be verified. Rejected references: " ++
          (turn.invalidLabelExamples.map fun samples => List.intercalate (text ", ") samples).getD
            (Text.decimal turn.invalidLabels) ++
          text ". Review the answer against its sources.") }
    else turn
  if turn.state = .completed && turn.citations.isEmpty && draft.sourceMode != .none &&
      !(Text.trim turn.answer).isEmpty then
    { turn with
      state := .partially
      error := some (text "No source citations were resolved. This answer is incomplete.") }
  else turn

def turnUsageProjection (dispatched : Bool) (usage : Option Usage) (turn : TurnView) : TurnView :=
  let turn := { turn with usage := usage.getD turn.usage }
  if dispatched then turn else { turn with tokenLimit := some 0, usage := .zero }

def readPassages : Nat → Agent Unit
  | 0 => return ()
  | count + 1 => do
    .pause
    readPassages count

/-- The final write. When it throws although the stored row is not pending, the result is
    lost: nothing that is stored tells a later recovery of it. -/
def writeResult (turn : TurnView) : Agent Unit :=
  .act fun choice world =>
    if choice.fails then
      (.error storageFailure,
        if (world.turn turn.turnId).any (·.settlementPending) then world
        else { world with
          history := { world.history with lost := turn.turnId :: world.history.lost } })
    else (.ok (), world.write choice.now turn)

def startedTurn (input : RunTurnInput) : TurnView where
  turnId := input.turnId
  question := input.question
  input := none
  answer := []
  state := .started
  model := input.model.getD []
  scopeMode := input.scopeMode
  contextMode := none
  revisionIds := []
  sourceIds := input.sourceIds.getD []
  citations := []
  invalidLabels := 0
  invalidLabelExamples := none
  usage := .unknown
  tokenLimit := none
  tokenLimitKind := none
  firstTokenMs := none
  totalMs := none
  error := none
  settlementPending := false
  settlementError := none

/-- `new AbortController()`, already aborted when a stop was requested before. -/
def newController : Agent Nat := do
  let world ← .look (fun world : World => world)
  .assign fun world : World =>
    { world with controller := some world.controllers, controllers := world.controllers + 1 }
  if world.agent.stopRequested then abort world.controllers
  return world.controllers

def rejectRun (input : RunTurnInput) (failure : Failure) : Agent TurnView := do
  let state ← .look (·.agent)
  match state.queued.filter fun queued =>
      state.active == some input.turnId && sameTurnRequest queued input with
  | none => .throw failure
  | some queued =>
    let turn ← preserveUndispatched queued UNDISPATCHED_INVALID
    changeState { state with queued := none }
    return turn

/-- `UPDATE chat SET updated_at`, in a table that nothing here reads. -/
def touchChat : Agent Unit := d1 fun _ world => (.ok (), world)

def beginTurn (input : RunTurnInput) : Agent Unit := do
  writeTurn (startedTurn input)
  let state ← .look (·.agent)
  if state.queued.any (·.turnId == input.turnId) then changeState { state with queued := none }
  else return ()

/-- The result of a run once its `try` block is over, in the form in which it is saved. -/
def concludeTurn (draft : Draft) (outcome : Except Failure Unit) : Agent TurnView := do
  let world ← .look (fun world : World => world)
  let ownerStop := world.signalAborted draft.controller && world.agent.stopRequested
  let turn := caught ownerStop draft outcome
  let turn := graded draft (afterCheckpoints { draft with turn })
  readPassages (if draft.sourceMode != .none && !(Text.trim turn.answer).isEmpty then
    turn.citations.length else 0)
  let totalMs ← .act fun choice (world : World) => (.ok choice.now, world)
  return { turnUsageProjection draft.dispatched draft.usage turn with totalMs := some totalMs }

def answerTurn (input : RunTurnInput) : Agent TurnView := do
  beginTurn input
  let controller ← newController
  let (outcome, draft) ← tryRun input
    { turn := startedTurn input, dispatched := false, usage := none, selectedModel := none,
      labelSources := [], sourceMode := .none, streamError := [], checkpointFailed := false,
      controller }
  let turn ← concludeTurn draft outcome
  writeResult turn
  let settled ← settleTurn turn
  .pause
  touchChat
  return settled

def runTurn (input : RunTurnInput) : Agent TurnView := do
  match (← (ensureProject input.projectId).attempt) with
  | .error failure => rejectRun input failure
  | .ok () =>
    if (← .look (·.agent.active)) = some input.turnId then answerTurn input
    else .throw (.library (text "Turn was not admitted by this chat."))

end Chat
