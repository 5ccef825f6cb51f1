import Eliot.Chat.Run

namespace Chat
open Relational Async

def interruptActive : Agent Unit := do
  let world ← .look (fun world : World => world)
  match world.agent.active.bind world.turn with
  | some turn =>
    if turn.state = .started then writeTurn { interrupted turn with settlementPending := true }
    else if turn.input.isNone then writeTurn { turn with settlementPending := true }
    else return ()
  | none => return ()

def resetSlot (queued : Option RunTurnInput) : Agent Unit := do
  let world ← .look (fun world : World => world)
  let active := world.agent.active.filter fun id => (world.turn id).any (·.settlementPending)
  if world.agent.active.isSome || queued.isSome then changeState ⟨active, none, false⟩

/-- The part of `onStart` before its only `await`. -/
def restore : Agent Unit := do
  let queued ← .look (·.agent.queued)
  match queued with
  | some queued =>
    let _ ← preserveUndispatched queued UNDISPATCHED_RESTART
  | none => pure ()
  interruptActive
  resetSlot queued

def onStart : Agent Unit := do
  restore
  .assign fun world : World => { world with started := true }
  recoverFinishedTurn

inductive SubmitResult where
  | stored (turn : TurnView)
  | accepted (turnId : Text) (queued : Bool)
  /-- The promise of the run task: the caller waits for its turn. -/
  | follow (task : Nat)
  | busy (message : Text)

def answerRunning : Text := text "Another answer is running. Wait or stop it first."
def questionSaving : Text :=
  text "The current question is still being saved. Wait before sending another question."
def alreadyQueued : Text := text "One question is already queued."

def accept (input : RunTurnInput) (result : SubmitResult) : Agent SubmitResult := do
  note fun history => { history with accepted := input :: history.accepted }
  return result

def repeatActive (input : RunTurnInput) (result : SubmitResult) : Agent SubmitResult := do
  let queued ← .look (·.agent.queued)
  if !queued.any (·.question == input.question) then
    note fun history => { history with mismatched := input :: history.mismatched }
  accept input result

/-- The part of `submitTurn` after its last `await`. -/
def admitQuestion (input : RunTurnInput) (wait : Bool) : Agent SubmitResult := do
  let world ← .look (fun world : World => world)
  match world.turn input.turnId with
  | some prior =>
    match world.current with
    | some task =>
      if wait && world.agent.active == some input.turnId then return .follow task
      else return .stored prior
    | none => return .stored prior
  | none =>
    match world.agent.active with
    | some active =>
      if active = input.turnId then
        match world.current with
        | some task => repeatActive input (if wait then .follow task else .accepted input.turnId false)
        | none => repeatActive input (.accepted input.turnId false)
      else
        match world.current, (world.turn active).bind (·.settlementError) with
        | none, some message => return .busy message
        | _, _ =>
          if wait then return .busy answerRunning
          else
            match world.agent.queued with
            | some queued =>
              if queued.turnId = active then return .busy questionSaving
              else if queued.turnId ≠ input.turnId then return .busy alreadyQueued
              else if !sameTurnRequest queued input then
                .throw (.library (text "This turn ID is already queued with different input."))
              else accept input (.accepted input.turnId true)
            | none =>
              changeState { world.agent with queued := some input }
              accept input (.accepted input.turnId true)
    | none =>
      let task ← startRun input
      accept input (if wait then .follow task else .accepted input.turnId false)

def submitTurn (input : RunTurnInput) (wait : Bool) (name : Text) : Agent SubmitResult := do
  ensureProject input.projectId
  if input.chatId ≠ name then .throw (.library (text "Chat identity mismatch."))
  else
    requireRecoveredHandoff
    recoverFinishedTurn
    .pause
    admitQuestion input wait

def removeQueued (turnId : Text) : Agent Unit := do
  let state ← .look (·.agent)
  if state.queued.any (·.turnId == turnId) && state.active != some turnId then
    store fun _ world =>
      { world with
        agent := { state with queued := none }
        history := { world.history with removed := turnId :: world.history.removed } }

def requestStop (turnId : Text) : Agent Unit := do
  let state ← .look (·.agent)
  if state.active = some turnId then
    changeState { state with stopRequested := true }
    match (← .look (·.controller)) with
    | some controller => abort controller
    | none => return ()

def stopTurn (projectId turnId : Text) : Agent Unit := do
  ensureProject projectId
  requireRecoveredHandoff
  recoverFinishedTurn
  .pause
  removeQueued turnId
  requestStop turnId

def getTurnPage (projectId : Text) : Agent Unit := do
  ensureProject projectId
  requireRecoveredHandoff
  recoverFinishedTurn

def getStoredTurn (projectId turnId : Text) : Agent TurnView := do
  ensureProject projectId
  recoverFinishedTurn
  .pause
  match (← readTurn turnId) with
  | some turn =>
    if (turn.state = .completed ∨ turn.state = .partially) ∧ !(Text.trim turn.answer).isEmpty then
      return turn
    else .throw (.library (text "This answer is not ready to save."))
  | none => .throw (.library (text "This answer is not ready to save."))

/-- What a call runs. A run task is followed by the callback of its `finally`. -/
def body (name : Text) : Job → Agent Unit
  | .onStart => onStart
  | .submitTurn input wait => do
    let _ ← submitTurn input wait name
  | .stopTurn projectId turnId => stopTurn projectId turnId
  | .getTurnPage projectId => getTurnPage projectId
  | .getStoredTurn projectId turnId => do
    let _ ← getStoredTurn projectId turnId
  | .runTurn input => do
    let _ ← (runTurn input).attempt
    .continueAs (.advanceQueue input.turnId)
    .pause
    advanceQueue input.turnId
  | .advanceQueue finishedTurnId => advanceQueue finishedTurnId

def admits (world : World) : Job → Bool
  | .onStart => !world.started
  | .submitTurn _ _ | .stopTurn _ _ | .getTurnPage _ | .getStoredTurn _ _ => world.started
  | .runTurn _ | .advanceQueue _ => false

def World.restarted (world : World) : World :=
  { world with
    started := false
    current := none
    controller := none }

def object (name : Text) : System World Choice Job Failure where
  body := body name
  admits := admits
  restart := some World.restarted

def World.new : World where
  agent := emptyState
  turns := .empty
  started := false
  current := none
  controller := none
  controllers := 0
  aborted := []
  ledger := .empty
  history := .empty

end Chat
