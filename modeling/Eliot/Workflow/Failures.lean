import Eliot.Async.Service
import Eliot.Workflow.FailureProtocol

namespace Workflow
open Async Json
open Text (prose utf8Bytes)

section
variable (numbers : Numbers)

inductive Failure where
  /-- a `WorkflowCheckpointError` -/
  | checkpoint (code : WorkflowFailureCode)
  /-- a value that a schema refuses -/
  | schema
  | database

def outcomeFromLegacy (failure : WorkflowFailure) : WorkflowFailureOutcome where
  toWorkflowFailureFields := failure.toWorkflowFailureFields
  dispatchState := .outcomeUnknown
  referencesIntact := .unknown
  recoveryAction := if failure.retryable then .readback else .reconcile
  certain _ := ⟨rfl, by split <;> decide⟩

def normalizeOutcome : WorkflowFailureCompatible → WorkflowFailureOutcome
  | .outcome outcome => outcome
  | .failure failure => outcomeFromLegacy failure

def WorkflowFailureCompatible.fields : WorkflowFailureCompatible → WorkflowFailureFields
  | .outcome value => value.toWorkflowFailureFields
  | .failure value => value.toWorkflowFailureFields

def workflowFailureCause (fields : WorkflowFailureFields) : WorkflowFailure where
  code := fields.code
  phase := fields.phase
  stage := fields.stage
  retryable := fields.retryable && fields.phase = .preparation && fields.code = .workflowStorageUnavailable
  staged := fields.staged
  safe retryable := by simpa using (Bool.and_eq_true_iff.mp retryable).imp (And.right ∘ Bool.and_eq_true_iff.mp) id

def decodeWorkflowFailure : Option Text → Except Failure (Option WorkflowFailureCompatible)
  | none => .ok none
  | some value =>
    if 1024 < utf8Bytes value then .error (.checkpoint .workflowOutputCorrupt)
    else match (parse numbers value).bind workflowFailureCompatibleSchema with
      | some failure => .ok (some failure)
      | none => .error (.checkpoint .workflowOutputCorrupt)

def sameCause (left right : WorkflowFailureFields) : Bool :=
  (workflowFailureCause left).json numbers = (workflowFailureCause right).json numbers

def WorkflowFailureHistory.last (history : WorkflowFailureHistory) : Option WorkflowFailureOutcome :=
  history.consequences.getLast?.or history.firstCause

def legacyConsequences : Option WorkflowFailureOutcome → Option WorkflowFailureOutcome → List WorkflowFailureOutcome
  | some first, some latest => if first.json numbers ≠ latest.json numbers then [latest] else []
  | _, _ => []

theorem legacyConsequences_length (first latest : Option WorkflowFailureOutcome) :
    (legacyConsequences numbers first latest).length ≤ 1 := by
  unfold legacyConsequences
  split
  · split
    · exact Nat.le_refl _
    · exact Nat.zero_le _
  · exact Nat.zero_le _

def legacyHistory (first latest : Option WorkflowFailureCompatible) : WorkflowFailureHistory where
  firstCause := first.map normalizeOutcome
  consequences := legacyConsequences numbers (first.map normalizeOutcome) (latest.map normalizeOutcome)
  bounded := Nat.le_trans (legacyConsequences_length numbers _ _) (by decide)
  rooted := by
    intro none
    rw [none, legacyConsequences]
    intro first latest same
    cases same

def projects : Option WorkflowFailureCompatible → Option WorkflowFailureOutcome → Bool
  | none, none => true
  | some stored, some outcome => sameCause numbers stored.fields outcome.toWorkflowFailureFields
  | _, _ => false

def decodeWorkflowFailureHistory (value : Option Text) (first latest : Option WorkflowFailureCompatible) :
    Except Failure WorkflowFailureHistory :=
  match value with
  | none => .ok (legacyHistory numbers first latest)
  | some value =>
    if 24 * 1024 < utf8Bytes value then .error (.checkpoint .workflowOutputCorrupt)
    else match (parse numbers value).bind workflowFailureHistorySchema with
      | none => .error (.checkpoint .workflowOutputCorrupt)
      | some history =>
        if projects numbers first history.firstCause && projects numbers latest history.last then .ok history
        else .error (.checkpoint .workflowOutputCorrupt)

end

structure WorkflowPrincipal where
  principalRef : Text
  credentialGeneration : Text
  deploymentGeneration : Text
deriving DecidableEq

inductive WorkflowRunState where
  | active | cancelled | engineCompleted
deriving DecidableEq

structure FailureColumns where
  firstFailureJson : Option Text
  latestFailureJson : Option Text
  failureHistoryJson : Option Text
deriving DecidableEq

structure WorkflowRun extends FailureColumns where
  operationId : Text
  principal : WorkflowPrincipal
  state : WorkflowRunState
  nextStageIndex : Nat

/-- An attempt at a stage of the run; `stage` is the one that its request names. -/
structure WorkflowAttempt where
  stageIndex : Nat
  stage : Option Text
  firstFailureJson : Option Text

section
variable (numbers : Numbers)

/-- A value as `json_extract` gives it; a missing one is `NULL` as well. -/
def extracted : Data numbers.Number → Option Text
  | .null => none
  | .boolean value => some (if value then [49] else [48])
  | .text value => some value
  | data => some (stringify numbers data)

def extract (name : Text) : Data numbers.Number → Option Text
  | .object members => (members.lookup name).bind (extracted numbers)
  | _ => none

variable {numbers} in
def fieldsShape (names : List Text) (count : Nat) (members : List (Text × Data numbers.Number)) : Bool :=
  match (members.lookup (prose "code" rfl)).bind workflowFailureCodes.read,
    (members.lookup (prose "phase" rfl)).bind workflowFailurePhases.read,
    (members.lookup (prose "retryable" rfl)).bind readBoolean with
  | some _, some phase, some _ =>
    (if phase = .preparation then (members.lookup (prose "stage" rfl)).isNone
      else ((members.lookup (prose "stage" rfl)).bind researchWorkflowStages.read).isSome) &&
    members.all (fun member => names.contains member.1) &&
    members.length = (if phase = .preparation then count else count + 1)
  | _, _, _ => false

/-- `research_workflow_first_failure_json_shape` and `research_workflow_latest_failure_json_shape` -/
def failureShape (text : Text) : Bool :=
  match parse numbers text with
  | some (.object members) =>
    utf8Bytes text ≤ 1024 &&
    fieldsShape [prose "code" rfl, prose "phase" rfl, prose "stage" rfl, prose "retryable" rfl] 3 members &&
    (extract numbers (prose "retryable" rfl) (.object members) = some [48] ||
      extract numbers (prose "phase" rfl) (.object members) = some (prose "PREPARATION" rfl) &&
        extract numbers (prose "code" rfl) (.object members) = some (prose "WORKFLOW_STORAGE_UNAVAILABLE" rfl))
  | _ => false

variable {numbers} in
def outcomeShape : Data numbers.Number → Bool
  | .object members =>
    ((members.lookup (prose "protocol" rfl)).bind (literal outcomeProtocol)).isSome &&
    fieldsShape outcomeNames 7 members &&
    match (members.lookup (prose "dispatch_state" rfl)).bind workflowFailureDispatchStates.read,
      (members.lookup (prose "references_intact" rfl)).bind workflowFailureReferences.read,
      (members.lookup (prose "recovery_action" rfl)).bind workflowFailureRecoveryActions.read with
    | some dispatchState, some referencesIntact, some recoveryAction =>
      dispatchState ≠ .outcomeUnknown || referencesIntact = .unknown && recoveryAction ≠ .none
    | _, _, _ => false
  | _ => false

def historyParts (text : Text) : Option (Data numbers.Number × List (Data numbers.Number)) :=
  match parse numbers text with
  | some (.object members) =>
    match members.lookup (prose "first_cause" rfl), members.lookup (prose "consequences" rfl) with
    | some cause, some (.array consequences) => some (cause, consequences)
    | _, _ => none
  | _ => none

/-- `research_workflow_failure_history_shape` -/
def historyShape (text : Text) : Bool :=
  match parse numbers text with
  | some (.object members) =>
    utf8Bytes text ≤ 24576 &&
    ((members.lookup (prose "protocol" rfl)).bind (literal historyProtocol)).isSome &&
    members.length = 3 &&
    members.all (fun member => [prose "protocol" rfl, prose "first_cause" rfl, prose "consequences" rfl].contains
      member.1) &&
    match historyParts numbers text with
    | some (.null, consequences) => consequences.length = 0
    | some (.object cause, consequences) =>
      consequences.length ≤ 16 && (.object cause :: consequences).all outcomeShape
    | _ => false
  | _ => false

def aligned (stored : Text) (value : Text → Option Text) : Bool :=
  let field name := (parse numbers stored).bind (extract numbers name)
  field (prose "code" rfl) = value (prose "code" rfl) &&
  field (prose "phase" rfl) = value (prose "phase" rfl) &&
  field (prose "stage" rfl) = value (prose "stage" rfl) &&
  field (prose "retryable" rfl) = some (
    if value (prose "retryable" rfl) = some [49] ∧ value (prose "phase" rfl) = some (prose "PREPARATION" rfl) ∧
      value (prose "code" rfl) = some (prose "WORKFLOW_STORAGE_UNAVAILABLE" rfl) then [49] else [48])

/-- `research_workflow_failure_history_alignment`, which takes from the first cause what the last
    consequence does not have. -/
def historyAlignment (first latest : Option Text) (history : Text) : Bool :=
  match historyParts numbers history with
  | some (.null, _) => first.isNone && latest.isNone
  | some (.object cause, consequences) =>
    match first, latest with
    | some first, some latest =>
      aligned numbers first (fun name => extract numbers name (.object cause)) &&
      aligned numbers latest fun name =>
        (consequences.getLast?.bind (extract numbers name)).or (extract numbers name (.object cause))
    | _, _ => false
  | _ => true

/-- `research_workflow_failure_history_append_only` -/
def historyAppendOnly (old new : Text) : Bool :=
  match parse numbers old, parse numbers new, historyParts numbers old, historyParts numbers new with
  | some before, some after, some (cause, consequences), some (cause', consequences') =>
    stringify numbers after = stringify numbers before ||
    extracted numbers cause' = extracted numbers cause && consequences'.length = consequences.length + 1 &&
    match after with
    | .object members =>
      stringify numbers (.object (members.map fun member =>
        if member.1 = prose "consequences" rfl then (member.1, .array consequences'.dropLast) else member)) =
          stringify numbers before
    | _ => false
  | _, _, _, _ => false

/-- `research_workflow_run_transition` -/
def runTransition (checkpointed : Bool) (old new : WorkflowRun) : Bool :=
  new.operationId = old.operationId && new.principal = old.principal && old.state = .active &&
  ((new.state = .cancelled && new.nextStageIndex = old.nextStageIndex ||
      new.nextStageIndex = old.nextStageIndex + 1 && checkpointed &&
        new.state = if new.nextStageIndex = 18 then .engineCompleted else .active) &&
      new.firstFailureJson = old.firstFailureJson && new.latestFailureJson = old.latestFailureJson ||
    new.state = old.state && new.nextStageIndex = old.nextStageIndex &&
      new.firstFailureJson.isSome && new.latestFailureJson.isSome &&
      (old.firstFailureJson.isNone || new.firstFailureJson = old.firstFailureJson))

def failureTriggers (old new : WorkflowRun) : Bool :=
  runTransition false old new &&
  new.firstFailureJson.all (failureShape numbers) && new.latestFailureJson.all (failureShape numbers) &&
  new.failureHistoryJson.all (historyShape numbers) &&
  new.failureHistoryJson.all (historyAlignment numbers new.firstFailureJson new.latestFailureJson) &&
  old.failureHistoryJson.all (fun before => new.failureHistoryJson.any (historyAppendOnly numbers before)) &&
  -- `research_workflow_first_failure_immutable`
  (old.firstFailureJson.isNone || new.firstFailureJson = old.firstFailureJson)

end

section

structure FailureUpdate where
  operationId : Text
  principal : WorkflowPrincipal
  columns : FailureColumns
  stageIndex : Int
  expected : FailureColumns

structure AttemptUpdate where
  operationId : Text
  principal : WorkflowPrincipal
  text : Text
  stageIndex : Int

structure Database where
  run : WorkflowRun
  attempts : List WorkflowAttempt
  sent : List FailureUpdate
  returned : List WorkflowFailureOutcome

/-- How a request fares: whether it is executed when it is sent, whether its reply arrives, and whether the
    stage at hand has its checkpoint. -/
structure Choice where
  executed : Bool
  answered : Bool
  checkpointed : Bool

variable (numbers : Numbers)

def FailureUpdate.selects (update : FailureUpdate) (run : WorkflowRun) : Bool :=
  run.operationId = update.operationId && run.principal = update.principal && run.state = .active &&
  (update.stageIndex = -1 || update.stageIndex ≤ run.nextStageIndex) && run.toFailureColumns = update.expected

def FailureUpdate.execute (update : FailureUpdate) (run : WorkflowRun) : Option WorkflowRun :=
  if update.selects run then
    let new := { run with toFailureColumns := update.columns }
    if failureTriggers numbers run new then some new else none
  else some run

def attemptShape (attempt : WorkflowAttempt) (text : Text) : Bool :=
  let field name := (parse numbers text).bind (extract numbers name)
  failureShape numbers text &&
  (field (prose "phase" rfl) = some (prose "STAGE" rfl) || field (prose "phase" rfl) = some (prose "RECOVERY" rfl)) &&
  field (prose "stage" rfl) = attempt.stage

def AttemptUpdate.execute (update : AttemptUpdate) (db : Database) : Option Database :=
  let found := db.run.operationId = update.operationId ∧ db.run.principal = update.principal ∧
    db.run.state = .active ∧ update.stageIndex ≤ db.run.nextStageIndex
  let text (attempt : WorkflowAttempt) := attempt.firstFailureJson.getD update.text
  if found then
    if (db.attempts.filter (·.stageIndex = update.stageIndex)).all fun attempt => attemptShape numbers attempt (text attempt) then
      some { db with attempts := db.attempts.map fun attempt =>
        if attempt.stageIndex = update.stageIndex then { attempt with firstFailureJson := some (text attempt) }
        else attempt }
    else none
  else some db

abbrev Calls := Program Database Choice Empty Failure

def storageUnavailable : Failure := .checkpoint .workflowStorageUnavailable

def settled (choice : Choice) (db : Database) : Option Database → Except Failure Unit × Database
  | some after => (if choice.answered then .ok () else .error .database, after)
  | none => (.error .database, db)

def sendFailure (update : FailureUpdate) : Calls Unit :=
  Program.request fun choice db =>
    let db := { db with sent := db.sent ++ [update] }
    if choice.executed then
      settled choice db ((update.execute numbers db.run).map fun run => { db with run })
    else (.error .database, db)

def sendAttempt (update : AttemptUpdate) : Calls Unit :=
  Program.request fun choice db =>
    if choice.executed then settled choice db (update.execute numbers db) else (.error .database, db)

def readback (operationId : Text) (principal : WorkflowPrincipal) : Calls (Option WorkflowRun) :=
  Program.request fun choice db =>
    if choice.answered then
      (.ok (if db.run.operationId = operationId ∧ db.run.principal = principal then some db.run else none), db)
    else (.error storageUnavailable, db)

end

section
variable (numbers : Numbers)

def WorkflowFailureHistory.outcomes (history : WorkflowFailureHistory) : List WorkflowFailureOutcome :=
  history.firstCause.toList ++ history.consequences

def hasOutcome (history : WorkflowFailureHistory) (outcome : WorkflowFailureOutcome) : Bool :=
  history.outcomes.any fun item => item.json numbers = outcome.json numbers

def WorkflowFailureHistory.append (history : WorkflowFailureHistory) (outcome : WorkflowFailureOutcome) :
    Option WorkflowFailureHistory :=
  match history with
  | ⟨none, _, _, _⟩ => some ⟨some outcome, [], by decide, nofun⟩
  | ⟨some cause, consequences, _, _⟩ =>
    if room : consequences.length < 16 then
      some ⟨some cause, consequences ++ [outcome], by rw [List.length_append]; exact room, nofun⟩
    else none

def decodeColumns (columns : FailureColumns) : Except Failure WorkflowFailureHistory := do
  let first ← decodeWorkflowFailure numbers columns.firstFailureJson
  let latest ← decodeWorkflowFailure numbers columns.latestFailureJson
  decodeWorkflowFailureHistory numbers columns.failureHistoryJson first latest

def readHistory (operationId : Text) (principal : WorkflowPrincipal) :
    Calls (WorkflowRun × WorkflowFailureHistory) := do
  match ← readback operationId principal with
  | none => Program.throw storageUnavailable
  | some run =>
    if run.operationId ≠ operationId ∨ run.principal ≠ principal then Program.throw storageUnavailable
    else
      let history ← (.done (decodeColumns numbers run.toFailureColumns) : Calls WorkflowFailureHistory)
      return (run, history)

def stageIndex (failure : WorkflowFailure) : Int :=
  match failure.stage with
  | none => -1
  | some stage => researchWorkflowStages.members.idxOf stage

def recordOnce (operationId : Text) (principal : WorkflowPrincipal) (outcome : WorkflowFailureOutcome) :
    Calls Bool := do
  let failure := workflowFailureCause outcome.toWorkflowFailureFields
  let (current, history) ← readHistory numbers operationId principal
  if hasOutcome numbers history outcome then return true
  else match history.append outcome with
    | none => Program.throw storageUnavailable
    | some next =>
      match next.last with
      | none => Program.throw (.checkpoint .workflowOutputCorrupt)
      | some latest =>
        let columns : FailureColumns := {
          firstFailureJson := some (current.firstFailureJson.getD (failure.json numbers))
          latestFailureJson := some ((workflowFailureCause latest.toWorkflowFailureFields).json numbers)
          failureHistoryJson := some (next.json numbers) }
        let _ ← (sendFailure numbers
          ⟨operationId, principal, columns, stageIndex failure, current.toFailureColumns⟩).attempt
        let (_, stored) ← readHistory numbers operationId principal
        if hasOutcome numbers stored outcome then
          if failure.stage.isSome then
            let _ ← (sendAttempt numbers ⟨operationId, principal, failure.json numbers, stageIndex failure⟩).attempt
            return true
          else return true
        else return false

def recordRounds (operationId : Text) (principal : WorkflowPrincipal) (outcome : WorkflowFailureOutcome) :
    Nat → Calls Unit
  | 0 => Program.throw storageUnavailable
  | rounds + 1 => do
    if ← recordOnce numbers operationId principal outcome then return ()
    else recordRounds operationId principal outcome rounds

variable {numbers} in
def outcomeOf (value : Data numbers.Number) : Option WorkflowFailureOutcome :=
  (workflowFailureCompatibleSchema value).map normalizeOutcome

def recordWorkflowFailure (operationId : Text) (principal : WorkflowPrincipal) (value : Data numbers.Number) :
    Calls Unit :=
  match outcomeOf value with
  | none => Program.throw .schema
  | some outcome => recordRounds numbers operationId principal outcome 3

/-- A call, the others that act on the run, and an update that was sent and is executed later, once more or
    for the first time. -/
inductive Request (numbers : Numbers) where
  | record (operationId : Text) (principal : WorkflowPrincipal) (value : Data numbers.Number)
  | advance
  | cancel
  | deliver (index : Nat)
  | attempts (rows : List WorkflowAttempt)

def moved (checkpointed : Bool) (db : Database) (run : WorkflowRun) : Database :=
  if runTransition checkpointed db.run run then { db with run } else db

def service : Service Database Choice (Request numbers) Failure where
  serve _ request :=
    match request with
    | .record operationId principal value => do
      recordWorkflowFailure numbers operationId principal value
      Program.assign fun db => { db with returned := db.returned ++ (outcomeOf value).toList }
    | .advance => Program.act fun choice db =>
      (.ok (), moved choice.checkpointed db { db.run with
        nextStageIndex := db.run.nextStageIndex + 1
        state := if db.run.nextStageIndex + 1 = 18 then .engineCompleted else .active })
    | .cancel => Program.act fun choice db => (.ok (), moved choice.checkpointed db { db.run with state := .cancelled })
    | .deliver index => Program.assign fun db =>
      match db.sent[index]?.bind fun update => update.execute numbers db.run with
      | some run => { db with run }
      | none => db
    | .attempts rows => Program.assign fun db => { db with attempts := rows }
  admits _ _ := true

end

end Workflow
