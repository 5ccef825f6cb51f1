import Eliot.Chat.World

namespace Chat
open Relational Async

/-- `chat_turn_terminal_immutable` and `chat_turn_admission_immutable`. -/
def ledgerAborts (old new : D1TurnProjection) : Bool :=
  old.state.terminal ||
    (new.tokenLimitKind != old.tokenLimitKind &&
      (old.tokenLimitKind.isSome || new.state != .started || old.tokenLimit.isSome)) ||
    ((old.tokenLimitKind.isSome || old.tokenLimit.isSome) && new.tokenLimit != old.tokenLimit &&
      !(new.state != .started && new.tokenLimit == some 0 && new.usage == .zero &&
        new.firstTokenMs == none))

/-- An `UPDATE` of one `chat_turn` row, with the number of rows it changed. -/
def World.updateRow (world : World) (turnId : Text) (test : D1TurnProjection → Bool)
    (change : D1TurnProjection → D1TurnProjection) : Except Failure Nat × World :=
  let chosen (row : ChatTurnRow) : Bool := row.turnId == turnId && test row.receipt
  if world.ledger.rows.any fun row => chosen row && ledgerAborts row.receipt (change row.receipt) then
    (.error storageFailure, world)
  else
    (.ok (world.ledger.count chosen),
      { world with
        ledger := world.ledger.update chosen fun row => { row with receipt := change row.receipt } })

/-- `INSERT INTO chat_turn`, as a run sends it before admission. -/
def World.insertRow (world : World) (turn : TurnView) : Except Failure Unit × World :=
  let receipt : D1TurnProjection :=
    { model := turn.model
      scopeMode := turn.scopeMode
      scopeJson := []
      contextMode := .none
      state := .started
      usage := .unknown
      tokenLimit := none
      tokenLimitKind := none
      citations := 0
      invalidLabels := 0
      firstTokenMs := none
      totalMs := none
      error := none }
  match world.ledger.insert ⟨turn.turnId, receipt⟩ with
  | some ledger => (.ok (), { world with ledger })
  | none => (.error storageFailure, world)

def SETTLEMENT_PENDING : Text :=
  text "This answer is saved, but its usage could not be confirmed. Reopen this conversation to try saving usage again; the answer will not be sent again."

def SETTLEMENT_MISMATCH : Text :=
  text "This answer's stored usage does not match its recorded result. Both records were preserved; no answer was sent again. The records need review."

def recoverKnown (turn : TurnView) (row : D1TurnProjection) : TurnView :=
  let turn := { turn with
    model := if turn.model.isEmpty then row.model else turn.model
    tokenLimit := turn.tokenLimit.or row.tokenLimit
    tokenLimitKind := turn.tokenLimitKind.or row.tokenLimitKind
    usage := turn.usage.orElse row.usage }
  if turn.revisionIds.isEmpty && !row.scopeJson.isEmpty then
    { turn with revisionIds := row.scopeJson, contextMode := some row.contextMode }
  else turn

def mismatched (turn : TurnView) (row : D1TurnProjection) : Bool :=
  row.model != turn.model || row.scopeMode != turn.scopeMode ||
    row.tokenLimitKind != turn.tokenLimitKind

/-- The conditional `UPDATE` that gives an uncompleted row its terminal state. -/
def World.terminalise (world : World) (turn : TurnView) : Except Failure Nat × World :=
  let p := turnProjection turn
  world.updateRow turn.turnId
    (fun row => row.state == .started && row.model == p.model && row.scopeMode == p.scopeMode)
    fun row => { p with
      model := row.model, scopeMode := row.scopeMode, tokenLimitKind := row.tokenLimitKind }

def terminalise (turn : TurnView) : Agent Nat := d1 fun _ world => world.terminalise turn

/-- The checkpoint before the `INSERT`, which cannot have dispatched. -/
def unadmitted (turn : TurnView) : Bool :=
  turn.tokenLimitKind.isNone && turn.tokenLimit.isNone && turn.usage == .unknown &&
    turn.answer.isEmpty && turn.firstTokenMs.isNone && turn.revisionIds.isEmpty

def noAdmission (turn : TurnView) : Bool :=
  turn.tokenLimitKind.isNone && turn.tokenLimit == some 0 && turn.usage == .zero

def confirmed (turn : TurnView) : Option ChatTurnRow → Bool
  | some row => row.receipt == turnProjection turn
  | none => noAdmission turn

def reconcile (turn : TurnView) (row : ChatTurnRow) : Agent (TurnView × Option ChatTurnRow × Text) := do
  let turn := recoverKnown turn row.receipt
  if mismatched turn row.receipt then
    return (turn, some row, SETTLEMENT_MISMATCH)
  else
    writeTurn turn
    -- The update may have committed. One read-back below decides; it is never repeated here.
    let _ ← (terminalise turn).attempt
    let row ← settlementRow turn.turnId
    return (turn, row, SETTLEMENT_PENDING)

def provenUnsent (turn : TurnView) (row : Option ChatTurnRow) : TurnView :=
  if row.isNone && unadmitted turn then { turn with tokenLimit := some 0, usage := .zero } else turn

def TurnView.cleared (turn : TurnView) : TurnView :=
  { turn with settlementPending := false, settlementError := none }

def clear (turn : TurnView) (row : Option ChatTurnRow) (failure : Text) :
    Agent (TurnView ⊕ Text) := do
  if confirmed turn row then
    store fun choice world =>
      { world.write choice.now turn.cleared with
        history := { world.history with settled := ⟨turn.cleared, row⟩ :: world.history.settled } }
    return .inl turn.cleared
  else if row.any (·.receipt.state.terminal) then return .inr SETTLEMENT_MISMATCH
  else return .inr failure

def confirm (turn : TurnView) : Agent (TurnView ⊕ Text) := do
  let row ← settlementRow turn.turnId
  let (turn, row, failure) ← match row with
    | some row =>
      if row.receipt.state = .started then reconcile turn row
      else pure (turn, some row, SETTLEMENT_PENDING)
    | none => pure (turn, none, SETTLEMENT_PENDING)
  clear (provenUnsent turn row) row failure

def leavePending (turn : TurnView) (failure : Text) : Agent TurnView := do
  match (← readTurn turn.turnId) with
  | none => return turn
  | some latest =>
    if latest.settlementPending then
      let latest := { latest with settlementError := some failure }
      writeTurn latest
      return latest
    else return latest

def settleTurn (turn : TurnView) : Agent TurnView := do
  if !turn.settlementPending || turn.state = .started then
    return turn
  else
    match (← (confirm turn).attempt) with
    | .ok (.inl settled) => return settled
    | .ok (.inr failure) => leavePending turn failure
    | .error _ => leavePending turn SETTLEMENT_PENDING

end Chat
