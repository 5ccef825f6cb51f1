import Eliot.Async.Interference
import Eliot.Workflow.Failures

namespace Workflow
open Async Json List Pact
open Text (utf8Bytes)

variable {outcome : WorkflowFailureOutcome}

section
variable {numbers : Numbers}

theorem workflowFailureCause_failure (failure : WorkflowFailure) :
    workflowFailureCause failure.toWorkflowFailureFields = failure := by
  obtain ⟨⟨code, phase, stage, retryable, staged⟩, safe⟩ := failure
  cases retryable with
  | false => rfl
  | true =>
    obtain ⟨rfl, rfl⟩ := safe rfl
    rfl

theorem decodeWorkflowFailure_json (failure : WorkflowFailure) :
    decodeWorkflowFailure numbers (some (failure.json numbers)) = .ok (some (.failure failure)) := by
  have short := @WorkflowFailure.length_le numbers failure
  have bytes := utf8Bytes_le (failure.json numbers)
  have read : (parse numbers (failure.json numbers)).bind workflowFailureCompatibleSchema = some (.failure failure) := by
    rw [WorkflowFailure.json, parse_stringify failure.regular]
    exact workflowFailureCompatibleSchema_data (.failure failure)
  rw [decodeWorkflowFailure, if_neg (by omega), read]

theorem decodeWorkflowFailure_none {value : Option Text} (decoded : decodeWorkflowFailure numbers value = .ok none) :
    value = none := by
  cases value with
  | none => rfl
  | some value =>
    unfold decodeWorkflowFailure at decoded
    dsimp only at decoded
    split at decoded
    · cases decoded
    · split at decoded <;> cases decoded

def projection (outcome : WorkflowFailureOutcome) : WorkflowFailureCompatible :=
  .failure (workflowFailureCause outcome.toWorkflowFailureFields)

theorem projects_projection (outcome : Option WorkflowFailureOutcome) :
    projects numbers (outcome.map projection) outcome = true := by
  cases outcome with
  | none => rfl
  | some outcome =>
    have same := workflowFailureCause_failure (workflowFailureCause outcome.toWorkflowFailureFields)
    exact decide_eq_true (congrArg (WorkflowFailure.json numbers) same)

theorem decodeHistory_json (history : WorkflowFailureHistory) :
    decodeWorkflowFailureHistory numbers (some (history.json numbers)) (history.firstCause.map projection)
      (history.last.map projection) = .ok history := by
  have short := @WorkflowFailureHistory.length_le numbers history
  have bytes := utf8Bytes_le (history.json numbers)
  have read : (parse numbers (history.json numbers)).bind workflowFailureHistorySchema = some history := by
    rw [WorkflowFailureHistory.json, parse_stringify history.regular]
    exact workflowFailureHistorySchema_data history
  rw [decodeWorkflowFailureHistory, if_neg (by omega), read]
  simp only [projects_projection, Bool.and_self, if_true]

theorem hasOutcome_iff {history : WorkflowFailureHistory} :
    hasOutcome numbers history outcome = true ↔ outcome ∈ history.outcomes := by
  rw [hasOutcome, any_eq_true]
  constructor
  · rintro ⟨item, listed, same⟩
    exact WorkflowFailureOutcome.json_injective (of_decide_eq_true same) ▸ listed
  · intro listed
    exact ⟨outcome, listed, decide_eq_true rfl⟩

theorem firstCause_outcomes (history : WorkflowFailureHistory) : history.firstCause = history.outcomes.head? := by
  obtain ⟨firstCause, consequences, bounded, rooted⟩ := history
  cases firstCause with
  | none => simp [WorkflowFailureHistory.outcomes, rooted rfl]
  | some cause => rfl

theorem last_outcomes (history : WorkflowFailureHistory) : history.last = history.outcomes.getLast? := by
  obtain ⟨firstCause, consequences, bounded, rooted⟩ := history
  cases firstCause with
  | none => simp [WorkflowFailureHistory.outcomes, WorkflowFailureHistory.last, rooted rfl]
  | some cause => simp [WorkflowFailureHistory.outcomes, WorkflowFailureHistory.last, getLast?_cons]

theorem append_outcomes {history next : WorkflowFailureHistory}
    (room : history.append outcome = some next) : next.outcomes = history.outcomes ++ [outcome] := by
  obtain ⟨firstCause, consequences, bounded, rooted⟩ := history
  cases firstCause with
  | none =>
    cases room
    simp [WorkflowFailureHistory.outcomes, rooted rfl]
  | some cause =>
    simp only [WorkflowFailureHistory.append] at room
    split at room
    · cases room
      rfl
    · cases room

end

section
variable {numbers : Numbers}

/-- What the columns of a run tell of a history; the latest failure is as it was at first, or its text is that of
    the projection. -/
structure Kept (numbers : Numbers) (origin : Option Text) (columns : FailureColumns)
    (history : WorkflowFailureHistory) : Prop where
  decoded : decodeColumns numbers columns = .ok history
  distinct : history.outcomes.Nodup
  first : decodeWorkflowFailure numbers columns.firstFailureJson = .ok (history.firstCause.map projection)
  latest : decodeWorkflowFailure numbers columns.latestFailureJson = .ok (history.last.map projection)
  text : columns.latestFailureJson = origin ∨ columns.latestFailureJson = history.last.map fun outcome =>
    (workflowFailureCause outcome.toWorkflowFailureFields).json numbers

theorem decodeColumns_of {columns : FailureColumns} {history : WorkflowFailureHistory}
    (first : decodeWorkflowFailure numbers columns.firstFailureJson = .ok (history.firstCause.map projection))
    (latest : decodeWorkflowFailure numbers columns.latestFailureJson = .ok (history.last.map projection))
    (stored : columns.failureHistoryJson = some (history.json numbers)) :
    decodeColumns numbers columns = .ok history := by
  simp only [decodeColumns, first, latest, stored, bind, Except.bind]
  exact decodeHistory_json history

def appended (numbers : Numbers) (columns : FailureColumns) (next : WorkflowFailureHistory)
    (outcome latest : WorkflowFailureOutcome) : FailureColumns where
  firstFailureJson :=
    some (columns.firstFailureJson.getD ((workflowFailureCause outcome.toWorkflowFailureFields).json numbers))
  latestFailureJson := some ((workflowFailureCause latest.toWorkflowFailureFields).json numbers)
  failureHistoryJson := some (next.json numbers)

theorem Kept.append {origin : Option Text} {columns : FailureColumns} {history next : WorkflowFailureHistory}
    {outcome latest : WorkflowFailureOutcome} (kept : Kept numbers origin columns history)
    (fresh : outcome ∉ history.outcomes) (room : history.append outcome = some next) (last : next.last = some latest) :
    Kept numbers origin (appended numbers columns next outcome latest) next := by
  have outcomes := append_outcomes room
  have newest : latest = outcome := by
    rw [last_outcomes, outcomes, getLast?_concat] at last
    exact (Option.some.inj last).symm
  have first : decodeWorkflowFailure numbers (appended numbers columns next outcome latest).firstFailureJson =
      .ok (next.firstCause.map projection) := by
    have before := kept.first
    rw [firstCause_outcomes] at before
    rw [firstCause_outcomes, outcomes]
    cases listed : history.outcomes with
    | nil =>
      rw [listed] at before
      rw [appended, decodeWorkflowFailure_none before]
      exact decodeWorkflowFailure_json _
    | cons cause rest =>
      rw [listed] at before
      cases stored : columns.firstFailureJson with
      | none =>
        rw [stored] at before
        cases before
      | some text =>
        rw [stored] at before
        rw [appended, stored]
        exact before
  have later : decodeWorkflowFailure numbers (appended numbers columns next outcome latest).latestFailureJson =
      .ok (next.last.map projection) := by
    rw [last]
    exact decodeWorkflowFailure_json _
  refine ⟨decodeColumns_of first later rfl, ?_, first, later, .inr ?_⟩
  · rw [outcomes, nodup_append]
    refine ⟨kept.distinct, nodup_singleton _, fun item listed other single same => ?_⟩
    rw [← mem_singleton.mp single, ← same] at fresh
    exact fresh listed
  · rw [last]
    rfl

structure Legacy (numbers : Numbers) (columns : FailureColumns) : Prop where
  history : columns.failureHistoryJson = none
  failures : columns.firstFailureJson = none ∧ columns.latestFailureJson = none ∨ ∃ first latest,
    decodeWorkflowFailure numbers columns.firstFailureJson = .ok (some (.failure first)) ∧
    decodeWorkflowFailure numbers columns.latestFailureJson = .ok (some (.failure latest))

theorem legacyHistory_outcomes (first latest : WorkflowFailure) :
    (legacyHistory numbers (some (.failure first)) (some (.failure latest))).outcomes =
      if outcomeFromLegacy first = outcomeFromLegacy latest then [outcomeFromLegacy first]
      else [outcomeFromLegacy first, outcomeFromLegacy latest] := by
  by_cases same : outcomeFromLegacy first = outcomeFromLegacy latest
  · have json := congrArg (WorkflowFailureOutcome.json numbers) same
    have nothing : legacyConsequences numbers (some (outcomeFromLegacy first)) (some (outcomeFromLegacy latest)) = [] :=
      if_neg (not_not.mpr json)
    rw [if_pos same]
    exact congrArg (outcomeFromLegacy first :: ·) nothing
  · have json : (outcomeFromLegacy first).json numbers ≠ (outcomeFromLegacy latest).json numbers :=
      fun equal => same (WorkflowFailureOutcome.json_injective equal)
    have consequence : legacyConsequences numbers (some (outcomeFromLegacy first)) (some (outcomeFromLegacy latest)) =
        [outcomeFromLegacy latest] := if_pos json
    rw [if_neg same]
    exact congrArg (outcomeFromLegacy first :: ·) consequence

theorem Legacy.kept {columns : FailureColumns} (legacy : Legacy numbers columns) :
    ∃ history, Kept numbers columns.latestFailureJson columns history := by
  obtain ⟨none, failures⟩ := legacy
  rcases failures with ⟨first, latest⟩ | ⟨first, latest, firstDecoded, latestDecoded⟩
  · refine ⟨legacyHistory numbers Option.none Option.none, ?_, nodup_nil, ?_, ?_, .inl rfl⟩
    · rw [decodeColumns, first, latest, none]
      rfl
    · rw [first]
      rfl
    · rw [latest]
      rfl
  · have decoded : decodeColumns numbers columns =
        .ok (legacyHistory numbers (some (.failure first)) (some (.failure latest))) := by
      simp only [decodeColumns, firstDecoded, latestDecoded, none, bind, Except.bind]
      rfl
    have projected : ∀ failure, projection (outcomeFromLegacy failure) = .failure failure := fun failure =>
      congrArg WorkflowFailureCompatible.failure (workflowFailureCause_failure failure)
    have outcomes := @legacyHistory_outcomes numbers first latest
    generalize legacyHistory numbers (some (.failure first)) (some (.failure latest)) = history at decoded outcomes
    have last : history.last = some (outcomeFromLegacy latest) := by
      rw [last_outcomes, outcomes]
      split
      · rename_i same
        exact congrArg some same
      · rfl
    have cause : history.firstCause = some (outcomeFromLegacy first) := by
      rw [firstCause_outcomes, outcomes]
      split <;> rfl
    refine ⟨history, decoded, ?_, ?_, ?_, .inl rfl⟩
    · rw [outcomes]
      split
      · exact nodup_singleton _
      · rename_i different
        exact nodup_cons.mpr ⟨by simpa using different, nodup_singleton _⟩
    · rw [firstDecoded, cause, Option.map_some, projected]
    · rw [latestDecoded, last, Option.map_some, projected]

end

section
variable {numbers : Numbers} {origin : Option Text} {number : Nat} {before after : Database}

def Retained (numbers : Numbers) (outcome : WorkflowFailureOutcome) (db : Database) : Prop :=
  ∃ history, decodeColumns numbers db.run.toFailureColumns = .ok history ∧ outcome ∈ history.outcomes

def Extends (numbers : Numbers) (origin : Option Text) (update : FailureUpdate) : Prop :=
  ∃ history next outcome, Kept numbers origin update.expected history ∧ Kept numbers origin update.columns next ∧
    next.outcomes = history.outcomes ++ [outcome]

structure Safe (numbers : Numbers) (origin : Option Text) (db : Database) : Prop where
  kept : ∃ history, Kept numbers origin db.run.toFailureColumns history
  sent : ∀ update ∈ db.sent, Extends numbers origin update
  returned : ∀ outcome ∈ db.returned, Retained numbers outcome db

structure Grows (numbers : Numbers) (before after : Database) : Prop where
  history : ∀ history, decodeColumns numbers before.run.toFailureColumns = .ok history →
    ∃ next, decodeColumns numbers after.run.toFailureColumns = .ok next ∧ history.outcomes <+: next.outcomes
  returned : before.returned <+: after.returned

def failurePact (numbers : Numbers) (origin : Option Text) : Pact Database where
  inv := Safe numbers origin
  evolve := Grows numbers
  rely _ _ _ := True
  fresh _ _ := True

theorem Retained.grows (retained : Retained numbers outcome before)
    (grows : Grows numbers before after) : Retained numbers outcome after := by
  obtain ⟨history, decoded, listed⟩ := retained
  obtain ⟨next, decoded, start⟩ := grows.history history decoded
  exact ⟨next, decoded, start.subset listed⟩

theorem Grows.refl (db : Database) : Grows numbers db db :=
  ⟨fun history decoded => ⟨history, decoded, prefix_refl _⟩, prefix_refl _⟩

theorem Grows.trans {middle : Database} (first : Grows numbers before middle) (second : Grows numbers middle after) :
    Grows numbers before after := by
  refine ⟨fun history decoded => ?_, first.returned.trans second.returned⟩
  obtain ⟨next, decoded, start⟩ := first.history history decoded
  obtain ⟨last, decoded, further⟩ := second.history next decoded
  exact ⟨last, decoded, start.trans further⟩

theorem failurePact_lawful : (failurePact numbers origin).Lawful where
  evolve_refl := Grows.refl
  evolve_trans := Grows.trans
  rely_refl _ _ := trivial
  rely_trans _ _ := trivial
  fresh_stable _ _ _ _ := trivial
  stays _ := trivial

theorem fair_same (safe : Safe numbers origin before)
    (columns : after.run.toFailureColumns = before.run.toFailureColumns) (returned : after.returned = before.returned)
    (sent : ∀ update ∈ after.sent, Extends numbers origin update) :
    (failurePact numbers origin).Fair number before after := by
  have grows : Grows numbers before after := by
    refine ⟨fun history decoded => ⟨history, ?_, prefix_refl _⟩, returned ▸ prefix_refl _⟩
    rw [columns]
    exact decoded
  refine ⟨⟨?_, sent, fun outcome listed => ?_⟩, grows, fun _ _ => trivial, trivial⟩
  · rw [columns]
    exact safe.kept
  · rw [returned] at listed
    exact (safe.returned outcome listed).grows grows

theorem execute_cases {update : FailureUpdate} {run new : WorkflowRun} (done : update.execute numbers run = some new) :
    new = run ∨ run.toFailureColumns = update.expected ∧ new = { run with toFailureColumns := update.columns } := by
  unfold FailureUpdate.execute at done
  split at done
  · rename_i selected
    simp only [FailureUpdate.selects, Bool.and_eq_true, decide_eq_true_eq] at selected
    dsimp only at done
    split at done
    · exact .inr ⟨selected.2, (Option.some.inj done).symm⟩
    · cases done
  · exact .inl (Option.some.inj done).symm

theorem execute_fair {update : FailureUpdate} {run : WorkflowRun} (safe : Safe numbers origin before)
    (extended : Extends numbers origin update) (done : update.execute numbers before.run = some run) :
    (failurePact numbers origin).Fair number before { before with run } := by
  rcases execute_cases done with rfl | ⟨expected, rfl⟩
  · exact fair_same safe rfl rfl safe.sent
  · obtain ⟨history, next, outcome, old, new, outcomes⟩ := extended
    have grows : Grows numbers before { before with run := { before.run with toFailureColumns := update.columns } } := by
      refine ⟨fun found decoded => ⟨next, new.decoded, ?_⟩, prefix_refl _⟩
      have same : found = history := by
        rw [expected, old.decoded] at decoded
        exact (Except.ok.inj decoded).symm
      rw [outcomes, same]
      exact prefix_append _ _
    exact ⟨⟨⟨next, new⟩, safe.sent, fun outcome listed => (safe.returned outcome listed).grows grows⟩, grows,
      fun _ _ => trivial, trivial⟩

def Seen (numbers : Numbers) (origin : Option Text) (run : WorkflowRun) (history : WorkflowFailureHistory)
    (db : Database) : Prop :=
  Kept numbers origin run.toFailureColumns history ∧ ∀ outcome ∈ history.outcomes, Retained numbers outcome db

theorem readHistory_does (operationId : Text) (principal : WorkflowPrincipal) :
    (failurePact numbers origin).Does number (fun _ => True) (readHistory numbers operationId principal)
      (Given fun read db => Seen numbers origin read.1 read.2 db) := by
  have read : (failurePact numbers origin).Does number (fun _ => True) (readback operationId principal)
      (Given fun found db => ∀ run, found = some run →
        ∃ history, Seen numbers origin run history db) := by
    refine Does.request (fun _ _ _ _ => trivial) fun db safe _ choice => ?_
    have stays := @fair_same numbers origin number db db safe rfl rfl safe.sent
    cases choice.answered with
    | false => exact ⟨stays, trivial⟩
    | true =>
      refine ⟨stays, fun run found => ?_⟩
      obtain ⟨history, kept⟩ := safe.kept
      have same : run = db.run := by
        split at found
        · exact (Option.some.inj found).symm
        · cases found
      rw [same]
      exact ⟨history, kept, fun outcome listed => ⟨history, kept.decoded, listed⟩⟩
  refine Does.then _ read fun found => ?_
  cases found with
  | none => exact Does.throws
  | some run =>
    dsimp only
    split
    · exact Does.throws
    · cases decoded : decodeColumns numbers run.toFailureColumns with
      | error failure => exact Does.throws
      | ok history =>
        refine Does.returns fun db _ seen => ?_
        obtain ⟨found, kept, retained⟩ := seen run rfl
        have same : found = history := by
          rw [kept.decoded] at decoded
          exact Except.ok.inj decoded
        exact same ▸ ⟨kept, retained⟩

theorem settled_state (choice : Choice) (db : Database) (result : Option Database) :
    (settled choice db result).2 = result.getD db := by
  cases result <;> rfl

theorem sendFailure_does {update : FailureUpdate} {pre : Database → Prop}
    (stable : (failurePact numbers origin).Stable number pre) (extended : Extends numbers origin update) :
    (failurePact numbers origin).Does number pre (sendFailure numbers update) fun _ _ => True := by
  refine Does.request stable fun db safe _ choice => ⟨?_, trivial⟩
  have sent : ∀ other ∈ db.sent ++ [update], Extends numbers origin other := by
    intro other listed
    rcases mem_append.mp listed with listed | listed
    · exact safe.sent other listed
    · rw [mem_singleton.mp listed]
      exact extended
  have recorded : (failurePact numbers origin).Fair number db { db with sent := db.sent ++ [update] } :=
    fair_same safe rfl rfl sent
  dsimp only
  cases choice.executed with
  | false => exact recorded
  | true =>
    rw [if_pos rfl, settled_state]
    cases done : update.execute numbers db.run with
    | none => exact recorded
    | some run =>
      have executed := @execute_fair numbers origin number { db with sent := db.sent ++ [update] } update run
        recorded.inv extended done
      exact ⟨executed.inv, Grows.trans recorded.evolve executed.evolve, fun _ _ => trivial, trivial⟩

theorem attempt_cases {update : AttemptUpdate} (done : update.execute numbers before = some after) :
    ∃ attempts, after = { before with attempts } := by
  unfold AttemptUpdate.execute at done
  dsimp only at done
  split at done
  · split at done
    · exact ⟨_, (Option.some.inj done).symm⟩
    · cases done
  · exact ⟨before.attempts, (Option.some.inj done).symm⟩

theorem sendAttempt_does {update : AttemptUpdate} :
    (failurePact numbers origin).Does number (Retained numbers outcome) (sendAttempt numbers update)
      fun _ => Retained numbers outcome := by
  refine Does.request (fun _ _ sees retained => retained.grows sees.1) fun db safe retained choice => ?_
  have fair : (failurePact numbers origin).Fair number db
      ((if choice.executed then settled choice db (update.execute numbers db) else (.error .database, db)) :
        Except Failure Unit × Database).2 := by
    split
    · rw [settled_state]
      cases done : update.execute numbers db with
      | none => exact fair_same safe rfl rfl safe.sent
      | some after =>
        obtain ⟨attempts, rfl⟩ := attempt_cases done
        exact fair_same safe rfl rfl safe.sent
    · exact fair_same safe rfl rfl safe.sent
  exact ⟨fair, retained.grows fair.evolve⟩

theorem recordOnce_does (operationId : Text) (principal : WorkflowPrincipal) (outcome : WorkflowFailureOutcome) :
    (failurePact numbers origin).Does number (fun _ => True) (recordOnce numbers operationId principal outcome)
      (Given fun retained db => retained = true → Retained numbers outcome db) := by
  have present {run : WorkflowRun} {history : WorkflowFailureHistory} {db : Database}
      (seen : Seen numbers origin run history db) (listed : hasOutcome numbers history outcome = true) :
      Retained numbers outcome db := seen.2 outcome (hasOutcome_iff.mp listed)
  refine Does.then _ (readHistory_does operationId principal) fun read => ?_
  obtain ⟨current, history⟩ := read
  dsimp only
  split
  · rename_i listed
    exact Does.returns fun db _ seen _ => present seen listed
  · rename_i fresh
    split
    · exact Does.throws
    · rename_i next room
      split
      · exact Does.throws
      · rename_i latest last
        refine Does.weaken (Does.fact fun kept => ?_) fun _ _ seen => seen
        have new := kept.append (fun listed => fresh (hasOutcome_iff.mpr listed)) room last
        refine Does.then (fun _ _ => True) (Does.attempt (Does.weaken (sendFailure_does
          (fun _ _ _ _ => trivial) ⟨history, next, outcome, kept, new, append_outcomes room⟩)
            fun _ _ _ => trivial)) fun _ => ?_
        refine Does.then _ (readHistory_does operationId principal) fun read => ?_
        obtain ⟨run, stored⟩ := read
        dsimp only
        split
        · rename_i listed
          split
          · refine Does.then (fun _ => Retained numbers outcome) (Does.attempt (Does.weaken
              sendAttempt_does fun _ _ seen => present seen listed)) fun _ => ?_
            exact Does.returns fun _ _ retained _ => retained
          · exact Does.returns fun _ _ seen _ => present seen listed
        · exact Does.returns fun _ _ _ never => nomatch never

theorem recordRounds_does (operationId : Text) (principal : WorkflowPrincipal) (outcome : WorkflowFailureOutcome)
    (rounds : Nat) : (failurePact numbers origin).Does number (fun _ => True)
      (recordRounds numbers operationId principal outcome rounds) (Given fun _ => Retained numbers outcome) := by
  induction rounds with
  | zero => exact Does.throws
  | succ rounds ih =>
    refine Does.then _ (recordOnce_does operationId principal outcome) fun retained => ?_
    cases retained with
    | true => exact Does.returns fun _ _ known => known rfl
    | false => exact Does.weaken ih fun _ _ _ => trivial

theorem recordWorkflowFailure_does (operationId : Text) (principal : WorkflowPrincipal)
    (value : Data numbers.Number) : (failurePact numbers origin).Does number (fun _ => True)
      (recordWorkflowFailure numbers operationId principal value)
      (Given fun _ db => ∀ outcome ∈ outcomeOf value, Retained numbers outcome db) := by
  unfold recordWorkflowFailure
  cases outcomeOf value with
  | none => exact Does.throws
  | some outcome =>
    refine (recordRounds_does operationId principal outcome 3).loosen fun _ db retained other same => ?_
    rw [← Option.some.inj same]
    exact retained

theorem moved_fair {checkpointed : Bool} {run : WorkflowRun} (safe : Safe numbers origin before)
    (columns : run.toFailureColumns = before.run.toFailureColumns) :
    (failurePact numbers origin).Fair number before (moved checkpointed before run) := by
  unfold moved
  split
  · exact fair_same safe columns rfl safe.sent
  · exact fair_same safe rfl rfl safe.sent

theorem serve_does (request : Request numbers) : (failurePact numbers origin).Does number (fun _ => True)
    ((service numbers).serve number request) (Given fun _ _ => True) := by
  have free : (failurePact numbers origin).Stable number fun _ => True := fun _ _ _ _ => trivial
  cases request with
  | record operationId principal value =>
    refine Does.then _ (recordWorkflowFailure_does operationId principal value) fun _ => ?_
    refine Does.act (fun _ _ sees retained outcome same => (retained outcome same).grows sees.1)
      fun db safe retained _ => ⟨?_, trivial⟩
    have grows : Grows numbers db { db with returned := db.returned ++ (outcomeOf value).toList } :=
      ⟨fun history decoded => ⟨history, decoded, prefix_refl _⟩, prefix_append _ _⟩
    refine ⟨⟨safe.kept, safe.sent, fun outcome listed => ?_⟩, grows, fun _ _ => trivial, trivial⟩
    rcases mem_append.mp listed with listed | listed
    · exact (safe.returned outcome listed).grows grows
    · exact (retained outcome (Option.mem_toList.mp listed)).grows grows
  | advance => exact Does.act free fun db safe _ choice => ⟨moved_fair safe rfl, trivial⟩
  | cancel => exact Does.act free fun db safe _ choice => ⟨moved_fair safe rfl, trivial⟩
  | deliver index =>
    refine Does.act free fun db safe _ choice => ⟨?_, trivial⟩
    dsimp only
    split
    · rename_i run found
      obtain ⟨update, sent, done⟩ := Option.bind_eq_some_iff.mp found
      exact execute_fair safe (safe.sent update (mem_of_getElem? sent)) done
    · exact fair_same safe rfl rfl safe.sent
  | attempts rows => exact Does.act free fun db safe _ choice =>
      ⟨fair_same safe rfl rfl safe.sent, trivial⟩

end

section
variable {numbers : Numbers}

structure Fresh (numbers : Numbers) (db : Database) : Prop where
  legacy : Legacy numbers db.run.toFailureColumns
  sent : db.sent = []
  returned : db.returned = []

theorem Fresh.safe {db : Database} (fresh : Fresh numbers db) : Safe numbers db.run.latestFailureJson db := by
  refine ⟨fresh.legacy.kept, ?_, ?_⟩
  · rw [fresh.sent]
    exact fun _ none => nomatch none
  · rw [fresh.returned]
    exact fun _ none => nomatch none

theorem run_safe {origin : Option Text} {labels : List (Service.Label Choice (Request numbers))}
    {before after : Service.Config Database Choice Failure} {requests : List (Request numbers)}
    (sound : (failurePact numbers origin).Sound (fun _ _ _ _ => True) requests before)
    (ran : (service numbers).run before labels = some after) :
    (failurePact numbers origin).Sound (fun _ _ _ _ => True) (requests ++ labels.flatMap Pact.accepted) after ∧
      Grows numbers before.state after.state := by
  refine Pact.run_sound _ failurePact_lawful (fun number request db safe _ _ => ?_) ran sound
  exact Pact.wp_mono safe (serve_does request db safe trivial) fun _ _ _ _ => trivial

/-- What the row of a run tells in any reachable state, and from then on. -/
theorem failure_history_kept {initial : Database} (fresh : Fresh numbers initial)
    {labels : List (Service.Label Choice (Request numbers))} {config : Service.Config Database Choice Failure}
    (ran : (service numbers).run (Service.boot initial) labels = some config) :
    ∃ history, decodeColumns numbers config.state.run.toFailureColumns = .ok history ∧ history.outcomes.Nodup ∧
      decodeWorkflowFailure numbers config.state.run.latestFailureJson = .ok (history.last.map projection) ∧
      (config.state.run.latestFailureJson = initial.run.latestFailureJson ∨ config.state.run.latestFailureJson =
        history.last.map fun outcome => (workflowFailureCause outcome.toWorkflowFailureFields).json numbers) ∧
      (∀ outcome ∈ config.state.returned, outcome ∈ history.outcomes) ∧
      ∀ {others : List (Service.Label Choice (Request numbers))} {after : Service.Config Database Choice Failure},
        (service numbers).run config others = some after →
        ∃ next, decodeColumns numbers after.state.run.toFailureColumns = .ok next ∧
          history.outcomes <+: next.outcomes ∧
          (∀ cause, history.firstCause = some cause → next.firstCause = some cause) ∧
          config.state.returned <+: after.state.returned := by
  have start : (failurePact numbers initial.run.latestFailureJson).Sound (fun _ _ _ _ => True) ([] : List (Request numbers))
      (Service.boot initial : Service.Config Database Choice Failure) :=
    Pact.boot_sound fresh.safe fun _ => trivial
  obtain ⟨sound, -⟩ := run_safe start ran
  have safe : Safe numbers initial.run.latestFailureJson config.state := sound.inv
  obtain ⟨history, kept⟩ := safe.kept
  refine ⟨history, kept.decoded, kept.distinct, kept.latest, kept.text, fun outcome listed => ?_, fun rest => ?_⟩
  · obtain ⟨found, decoded, member⟩ := safe.returned outcome listed
    rw [kept.decoded] at decoded
    exact Except.ok.inj decoded ▸ member
  · obtain ⟨-, grows⟩ := run_safe sound rest
    obtain ⟨next, decoded, ⟨more, same⟩⟩ := grows.history history kept.decoded
    refine ⟨next, decoded, ⟨more, same⟩, fun cause first => ?_, grows.returned⟩
    rw [firstCause_outcomes] at first ⊢
    rw [← same, head?_append, first]
    rfl

def legacyRow : Database :=
  let failure : WorkflowFailure := ⟨⟨.workflowConflict, .preparation, none, false, by decide⟩, by decide⟩
  ⟨⟨⟨some (failure.json integers), some (failure.json integers), none⟩, [111], ⟨[112], [99], [100]⟩, .active, 1⟩,
    [⟨1, some (ResearchWorkflowStage.spelled .orient), none⟩], [], []⟩

def orientOutcome : WorkflowFailureOutcome :=
  ⟨⟨.workflowInputInvalid, .stage, some .orient, false, by decide⟩, .notStarted, .intact, .none, nofun⟩

def lostReply : List (Service.Label Choice (Request integers)) :=
  let answered : Choice := ⟨true, true, true⟩
  [.accept (.record [111] ⟨[112], [99], [100]⟩ orientOutcome.data), .accept .advance, .accept (.deliver 0),
   .act 0 answered, .act 0 ⟨true, false, true⟩, .act 1 answered, .act 2 answered, .act 0 answered, .act 0 answered,
   .act 0 answered]

theorem failure_history_kept_lost_reply : ∃ config history,
    (service integers).run (Service.boot legacyRow) lostReply = some config ∧
      config.state.returned = [orientOutcome] ∧
      decodeColumns integers config.state.run.toFailureColumns = .ok history ∧ orientOutcome ∈ history.outcomes := by
  have fresh : Fresh integers legacyRow :=
    ⟨⟨rfl, .inr ⟨_, _, decodeWorkflowFailure_json _, decodeWorkflowFailure_json _⟩⟩, rfl, rfl⟩
  have told : (((service integers).run (Service.boot legacyRow) lostReply).map fun config => config.state.returned) =
      some [orientOutcome] := by decide +kernel
  obtain ⟨config, ran, returned⟩ := Option.map_eq_some_iff.mp told
  obtain ⟨history, decoded, -, -, -, held, -⟩ := failure_history_kept fresh ran
  exact ⟨config, history, ran, returned, decoded, held _ (returned ▸ mem_singleton_self _)⟩

end

end Workflow
