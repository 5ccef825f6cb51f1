import Eliot.Chat.Settlement

namespace Chat
open Async

def UNDISPATCHED_RESTART : Text :=
  text "This accepted question was not sent to the model because the conversation restarted. Send it again as a new question to retry."

def UNDISPATCHED_UNSAVED : Text :=
  text "This accepted question was not sent to the model because it could not be saved before starting. Send it again as a new question to retry."

def UNDISPATCHED_WAITING : Text :=
  text "This queued question was not sent to the model because the previous answer could not finish saving. Send it again as a new question to retry."

def UNDISPATCHED_INVALID : Text :=
  text "This accepted question was not sent to the model because its conversation could not be validated. Reopen the conversation before sending a new question."

def INTERRUPTED : Text :=
  text "The stream was interrupted. Retry starts a new turn; it will not continue automatically."

def emptyState : ChatState := ⟨none, none, false⟩

def ChatState.selfHandoff (state : ChatState) : Bool :=
  state.queued.any fun queued => state.active == some queued.turnId

def undispatchedTurn (input : RunTurnInput) (error : Text) : TurnView where
  turnId := input.turnId
  question := input.question
  input := some input
  answer := []
  state := .failed
  model := input.model.getD []
  scopeMode := input.scopeMode
  contextMode := some .none
  revisionIds := []
  sourceIds := input.sourceIds.getD []
  citations := []
  invalidLabels := 0
  invalidLabelExamples := none
  usage := .zero
  tokenLimit := some 0
  tokenLimitKind := none
  firstTokenMs := none
  totalMs := none
  error := some error
  settlementPending := false
  settlementError := none

def handoff (state : ChatState) (input : RunTurnInput) (prior : TurnView) : Bool :=
  state.active == some input.turnId && state.queued.any (·.turnId == input.turnId) &&
    prior.state == .started && prior.answer.isEmpty && prior.tokenLimit.isNone &&
    prior.revisionIds.isEmpty

def preserveUndispatched (input : RunTurnInput) (error : Text) : Agent TurnView := do
  let world ← .look id
  match (world.turn input.turnId).filter fun prior => !handoff world.agent input prior with
  | some prior => return prior
  | none =>
    let turn := undispatchedTurn input error
    writeTurn turn
    return turn

def recoverStoppedHandoff : Agent Bool := do
  let world ← .look id
  match world.agent.queued with
  | none => return true
  | some queued =>
    if world.current.isSome || world.agent.active != some queued.turnId then
      return true
    else
      let outcome ← Program.attempt do
        let turn ← preserveUndispatched queued UNDISPATCHED_UNSAVED
        if turn.state = .started then
          return false
        else
          changeState emptyState
          return true
      match outcome with
      | .ok recovered => return recovered
      | .error _ => return false

def requireRecoveredHandoff : Agent Unit := do
  if (← recoverStoppedHandoff) then return ()
  else .throw (.library (text "The accepted question could not be saved yet. Reopen this conversation to try the storage operation again."))

def preserveWaitingQuestion : Agent Unit := do
  let state ← .look (·.agent)
  match state.queued with
  | none => return ()
  | some queued =>
    if state.active = some queued.turnId then
      return ()
    else
      let _ ← preserveUndispatched queued UNDISPATCHED_WAITING
      changeState { state with queued := none }

def interrupted (turn : TurnView) : TurnView :=
  { turn with
    state := if turn.answer.isEmpty then .failed else .partially
    error := some INTERRUPTED }

def settleAll : List Text → Agent Unit
  | [] => return ()
  | id :: ids => do
    let world ← .look (fun world : World => world)
    if world.current.isSome && world.agent.active == some id then
      settleAll ids
    else
      match (world.turn id).filter (·.settlementPending) with
      | none => settleAll ids
      | some turn =>
        let turn ← if turn.state = .started then do
            writeTurn (interrupted turn)
            pure (interrupted turn)
          else pure turn
        let _ ← settleTurn turn
        .pause
        settleAll ids

def World.unsaved (world : World) : List RunTurnInput :=
  world.agent.queued.toList.filter fun queued => (world.turn queued.turnId).isNone

def releaseSlot : Agent Unit :=
  store fun _ world =>
    { world with
      agent := emptyState
      history := { world.history with released := world.unsaved ++ world.history.released } }

def preserveBehindFinished : Agent Unit := do
  let world ← .look (fun world : World => world)
  let settling (turn : TurnView) : Bool := turn.state != .started || turn.settlementPending
  if world.current.isNone && !world.agent.selfHandoff &&
      (world.agent.active.bind world.turn).any settling then
    preserveWaitingQuestion

def settlePending (active : Option Text) : Agent Unit := do
  let world ← .look (fun world : World => world)
  let own := active.toList.filter fun id => (world.turn id).any (·.settlementPending)
  settleAll ((own ++ world.pending.take 8).eraseDups.take 8)

def releaseFinished (active : Option Text) : Agent Unit := do
  let world ← .look (fun world : World => world)
  let settled (turn : TurnView) : Bool := turn.state != .started && !turn.settlementPending
  if active.isSome && world.agent.active == active && world.current.isNone &&
      !world.agent.selfHandoff && (active.bind world.turn).any settled then
    releaseSlot

def exposePending : Agent Unit := do
  let world ← .look (fun world : World => world)
  match world.pending.head? with
  | none => return ()
  | some pending =>
    if world.current.isNone && world.agent.active.isNone then
      preserveWaitingQuestion
      changeState ⟨some pending, none, false⟩

def recoverFinishedTurn : Agent Unit := do
  let active ← .look (·.agent.active)
  preserveBehindFinished
  settlePending active
  releaseFinished active
  exposePending

/-- Claims the slot for a question before its run reaches its first `await`. -/
def startRun (input : RunTurnInput) : Agent Nat := do
  changeState ⟨some input.turnId, some input, false⟩
  let task ← .start (.runTurn input)
  .assign fun world : World => { world with current := some task }
  return task

def advanceQueue (finishedTurnId : Text) : Agent Unit := do
  let state ← .look (·.agent)
  if state.active ≠ some finishedTurnId then
    return ()
  else
    .assign fun world : World => { world with current := none, controller := none }
    -- A failed self-handoff only finishes storage. It is never dispatched again.
    if state.queued.any (·.turnId == finishedTurnId) then
      let _ ← recoverStoppedHandoff
    else if ((← readTurn finishedTurnId).any (·.settlementPending)) then
      let _ ← preserveWaitingQuestion.attempt
    else
      match state.queued with
      | none => changeState emptyState
      | some queued =>
        let _ ← startRun queued

end Chat
