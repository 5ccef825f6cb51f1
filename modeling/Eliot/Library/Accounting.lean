import Eliot.Library.OcrStates

namespace Library
open Relational Async Table

inductive Counter where
  | input
  | cached
  | output

def Usage.get (usage : Usage) : Counter → Option Nat
  | .input => usage.input
  | .cached => usage.cached
  | .output => usage.output

def OcrRow.usage (row : OcrRow) : Usage := ⟨row.inputTokens, row.cachedTokens, row.outputTokens⟩

def PageMetadata.totals (metadata : PageMetadata) : Usage :=
  ⟨metadata.inputTotal, metadata.cachedTotal, metadata.outputTotal⟩

def History.report (history : History) (dispatch : Dispatch) : Option Usage :=
  (history.reported.find? fun entry => entry.1 = dispatch).map (·.2)

def History.reportedTotal (history : History) (jobId : Uuid) (counter : Counter) : Nat → Option Nat
  | 0 => some 0
  | pages + 1 =>
    total (history.reportedTotal jobId counter pages)
      ((history.report ⟨jobId, pages + 1⟩).bind (·.get counter))

def History.Exact (history : History) (jobId : Uuid) (pages : Nat) (totals : Usage) : Prop :=
  ∀ counter sum, totals.get counter = some sum → history.reportedTotal jobId counter pages = some sum

theorem storedCount_some {sum : Option Nat} {value : Nat} (stored : storedCount sum = some value) :
    sum = some value :=
  (Option.filter_eq_some_iff.mp stored).1

theorem total_some {first second : Option Nat} {sum : Nat} (added : total first second = some sum) :
    ∃ left right, first = some left ∧ second = some right ∧ sum = left + right := by
  cases first <;> cases second <;> simp_all [total, eq_comm]

structure OcrRow.Balanced (row : OcrRow) (history : History) : Prop where
  completed : row.completedPages ≤ row.calls
  calls : row.calls ≤ row.completedPages + 1
  idle : row.state = .preparing → row.calls = 0
  bounded : ∃ each, modelTokenReservation row.modelSnapshot = .ok each ∧
    row.calls * each ≤ row.tokenLimit
  exact : history.Exact row.id row.calls row.usage

structure Accounted (world : World) : Prop where
  balanced : ∀ row ∈ world.db.jobs, row.Balanced world.history
  kept : ∀ object ∈ world.bucket, ∀ {base jobId ordinal}, object.key = .ocrPage base jobId ordinal →
    ∀ {metadata}, object.metadata = some metadata →
      world.history.Exact jobId ordinal metadata.totals
  claimed : ∀ {dispatch number}, (dispatch, number) ∈ world.history.dispatched →
    ∃ row, world.db.jobs.find dispatch.jobId = some row ∧ dispatch.ordinal ≤ row.calls
  single : (world.history.dispatched.map (·.1)).Nodup
  paid : ∀ dispatch ∈ world.history.sent, ∃ number, (dispatch, number) ∈ world.history.dispatched
  once : world.history.sent.Nodup
  answered : ∀ {dispatch usage}, (dispatch, usage) ∈ world.history.reported →
    dispatch ∈ world.history.sent

structure Recorded (before after : World) : Prop where
  reports : ∀ {dispatch usage}, before.history.report dispatch = some usage →
    after.history.report dispatch = some usage
  claims : ∀ {entry}, entry ∈ before.history.dispatched → entry ∈ after.history.dispatched
  jobs : ∀ {id row}, before.db.jobs.find id = some row →
    ∃ later, after.db.jobs.find id = some later ∧ row.calls ≤ later.calls

def Spares (number : Nat) (before after : World) : Prop :=
  ∀ {dispatch}, (dispatch, number) ∈ before.history.dispatched →
    dispatch ∈ after.history.sent → dispatch ∈ before.history.sent

def accounts : Pact World where
  inv := Accounted
  evolve := Recorded
  rely number before after := Recorded before after ∧ Spares number before after
  fresh _ _ := True

theorem Recorded.refl (world : World) : Recorded world world :=
  ⟨id, id, fun found => ⟨_, found, Nat.le_refl _⟩⟩

theorem Recorded.trans {first second third : World} (before : Recorded first second)
    (after : Recorded second third) : Recorded first third where
  reports found := after.reports (before.reports found)
  claims member := after.claims (before.claims member)
  jobs found := by
    obtain ⟨middle, stored, more⟩ := before.jobs found
    obtain ⟨later, last, most⟩ := after.jobs stored
    exact ⟨later, last, more.trans most⟩

theorem accounts_lawful : accounts.Lawful where
  evolve_refl := .refl
  evolve_trans := .trans
  rely_refl _ world := ⟨.refl world, fun _ sent => sent⟩
  rely_trans before after := ⟨before.1.trans after.1,
    fun claimed sent => before.2 claimed (after.2 (before.1.claims claimed) sent)⟩
  fresh_stable _ _ _ _ := trivial
  stays _ := trivial

section
variable {before after : History} {jobId : Uuid}

theorem reportedTotal_kept {counter : Counter} {pages sum : Nat}
    (reports : ∀ {dispatch usage}, before.report dispatch = some usage →
      after.report dispatch = some usage)
    (known : before.reportedTotal jobId counter pages = some sum) :
    after.reportedTotal jobId counter pages = some sum := by
  induction pages generalizing sum with
  | zero => exact known
  | succ pages ih =>
    obtain ⟨left, right, first, second, rfl⟩ := total_some known
    obtain ⟨usage, found, count⟩ := Option.bind_eq_some_iff.mp second
    simp [History.reportedTotal, ih first, reports found, count, total]

theorem History.Exact.mono {pages : Nat} {totals : Usage} (exact' : before.Exact jobId pages totals)
    (reports : ∀ {dispatch usage}, before.report dispatch = some usage →
      after.report dispatch = some usage) : after.Exact jobId pages totals :=
  fun counter sum known => reportedTotal_kept reports (exact' counter sum known)

theorem OcrRow.Balanced.mono {row : OcrRow} (balanced : row.Balanced before)
    (reports : ∀ {dispatch usage}, before.report dispatch = some usage →
      after.report dispatch = some usage) : row.Balanced after :=
  { balanced with exact := balanced.exact.mono reports }

theorem History.Exact.unknown {history : History} {pages : Nat} :
    history.Exact jobId pages ⟨none, none, none⟩ := by
  intro counter sum known
  cases counter <;> cases known

theorem History.Exact.add {history : History} {pages : Nat} {totals usage : Usage}
    (earlier : history.Exact jobId pages totals)
    (reported : history.report ⟨jobId, pages + 1⟩ = some usage) :
    history.Exact jobId (pages + 1) ⟨total totals.input usage.input, total totals.cached usage.cached,
      total totals.output usage.output⟩ := by
  intro counter sum known
  have split : total (totals.get counter) (usage.get counter) = some sum := by
    cases counter <;> exact known
  obtain ⟨left, right, first, second, rfl⟩ := total_some split
  simp [History.reportedTotal, earlier counter left first, reported, second, total]

theorem History.Exact.stored {history : History} {pages : Nat} {totals : Usage}
    (exact' : history.Exact jobId pages totals) : history.Exact jobId pages
      ⟨storedCount totals.input, storedCount totals.cached, storedCount totals.output⟩ := by
  intro counter sum known
  refine exact' counter sum ?_
  cases counter <;> exact storedCount_some known

end

section
variable {world : World}

theorem Accounted.congr {after : World} (accounted : Accounted world)
    (jobs : after.db.jobs = world.db.jobs) (bucket : ∀ object ∈ after.bucket, object.metadata.isSome →
      object ∈ world.bucket)
    (dispatched : after.history.dispatched = world.history.dispatched)
    (sent : after.history.sent = world.history.sent)
    (reported : after.history.reported = world.history.reported) :
    Accounted after ∧ Recorded world after := by
  have reports : after.history.report = world.history.report := by
    funext dispatch
    rw [History.report, History.report, reported]
  have exact' {jobId : Uuid} {pages : Nat} {totals : Usage}
      (known : world.history.Exact jobId pages totals) : after.history.Exact jobId pages totals :=
    known.mono fun found => by rw [reports, found]
  constructor
  · constructor
    · intro row member
      rw [jobs] at member
      exact (accounted.balanced row member).mono fun found => by rw [reports, found]
    · intro object member base jobId ordinal key metadata page
      exact exact' (accounted.kept object (bucket object member (by rw [page]; rfl)) key page)
    · rw [dispatched, jobs]
      exact accounted.claimed
    · rw [dispatched]
      exact accounted.single
    · rw [dispatched, sent]
      exact accounted.paid
    · rw [sent]
      exact accounted.once
    · rw [reported, sent]
      exact accounted.answered
  · refine ⟨fun found => by rw [reports, found], fun member => by rw [dispatched]; exact member, ?_⟩
    intro id row found
    rw [jobs]
    exact ⟨row, found, Nat.le_refl _⟩

theorem Accounted.update (accounted : Accounted world) {test : OcrRow → Bool}
    {change : OcrRow → OcrRow} {keeps : ∀ row, (change row).id = row.id}
    (balanced : ∀ row ∈ world.db.jobs, test row = true → row.Balanced world.history →
      (change row).Balanced world.history)
    (calls : ∀ row, row.calls ≤ (change row).calls) :
    Accounted { world with db := (world.db.updateJobs test change keeps).2 } ∧
      Recorded world { world with db := (world.db.updateJobs test change keeps).2 } := by
  have rows : ∀ {id row}, world.db.jobs.find id = some row → ∃ later,
      (world.db.updateJobs test change keeps).2.jobs.find id = some later ∧ row.calls ≤ later.calls := by
    intro id row found
    refine ⟨if test row then change row else row, ?_, ?_⟩
    · simp [Db.updateJobs, find_update, found]
    · split
      · exact calls row
      · exact Nat.le_refl _
  refine ⟨{ accounted with balanced := ?_, claimed := ?_ }, ⟨id, id, rows⟩⟩
  · intro row member
    have member : row ∈ world.db.jobs.update test change keeps := member
    obtain ⟨old, present, rfl⟩ := mem_update.mp member
    split
    · rename_i hit
      exact balanced old present hit (accounted.balanced old present)
    · exact accounted.balanced old present
  · intro dispatch number member
    obtain ⟨row, found, below⟩ := accounted.claimed member
    obtain ⟨later, stored, more⟩ := rows found
    exact ⟨later, stored, below.trans more⟩

theorem Accounted.restate (accounted : Accounted world) {test : OcrRow → Bool}
    {change : OcrRow → OcrRow} {keeps : ∀ row, (change row).id = row.id}
    (same : ∀ row, (change row).calls = row.calls ∧ (change row).completedPages = row.completedPages ∧
      (change row).modelSnapshot = row.modelSnapshot ∧ (change row).tokenLimit = row.tokenLimit ∧
      (change row).usage = row.usage)
    (started : ∀ row, test row = true → (change row).state = .preparing → row.state = .preparing) :
    Accounted { world with db := (world.db.updateJobs test change keeps).2 } ∧
      Recorded world { world with db := (world.db.updateJobs test change keeps).2 } := by
  apply accounted.update
  · intro row _ hit balanced
    obtain ⟨calls, completed, model, limit, usage⟩ := same row
    constructor
    · rw [calls, completed]
      exact balanced.completed
    · rw [calls, completed]
      exact balanced.calls
    · rw [calls]
      exact fun preparing => balanced.idle (started row hit preparing)
    · rw [model, calls, limit]
      exact balanced.bounded
    · rw [keeps, calls, usage]
      exact balanced.exact
  · exact fun row => (same row).1.ge

theorem Accounted.insert (accounted : Accounted world) {input : NewOcrJob} {base : Base}
    {model : ModelSpec} {each : Nat} (reserved : modelTokenReservation model = .ok each) :
    Accounted { world with db := (world.db.insertJob (input.row base model (input.pageCount * each))).2 } ∧
      Recorded world { world with
        db := (world.db.insertJob (input.row base model (input.pageCount * each))).2 } := by
  unfold Db.insertJob
  split
  · rename_i jobs inserted
    have rows : ∀ {id row}, world.db.jobs.find id = some row → jobs.find id = some row :=
      find_insert_of_find inserted
    refine ⟨{ accounted with balanced := ?_, claimed := ?_ },
      ⟨id, id, fun found => ⟨_, rows found, Nat.le_refl _⟩⟩⟩
    · intro row member
      rcases (mem_insert inserted).mp member with member | rfl
      · exact accounted.balanced row member
      · refine ⟨Nat.le_refl _, Nat.zero_le _, fun _ => rfl, ⟨_, reserved, by simp [NewOcrJob.row]⟩, ?_⟩
        intro counter sum known
        cases counter <;> cases known <;> rfl
    · intro dispatch number member
      obtain ⟨row, found, below⟩ := accounted.claimed member
      exact ⟨row, rows found, below⟩
  · exact ⟨accounted, .refl world⟩

theorem JobWrite.accounted {db : Db} (accounted : Accounted world) (write : JobWrite world.db db) :
    Accounted { world with db } ∧ Recorded world { world with db } := by
  cases write with
  | reserve job now reserved =>
    apply accounted.update
    · intro row _ hit balanced
      have preparing : row.state = .preparing := by simp_all
      have none : row.calls = 0 := balanced.idle preparing
      exact ⟨balanced.completed, balanced.calls, fun _ => none, ⟨_, reserved, by simp [none]⟩,
        balanced.exact⟩
    · exact fun _ => Nat.le_refl _
  | enter id before pages | retain id reason =>
    exact accounted.restate (fun _ => ⟨rfl, rfl, rfl, rfl, rfl⟩) fun _ _ same => same
  | sweep now | failStart id now | cancel id now | begin id now =>
    exact accounted.restate (fun _ => ⟨rfl, rfl, rfl, rfl, rfl⟩) fun _ _ same => by cases same
  | giveUp id now =>
    refine accounted.restate (fun _ => ⟨rfl, rfl, rfl, rfl, rfl⟩) fun row _ same => ?_
    dsimp only at same
    split at same
    · exact same
    · cases same

theorem PlainStep.accounted {tools : Tools} {after : World} (accounted : Accounted world)
    (step : PlainStep tools world after) : (Accounted after ∧ Recorded world after) ∧
      after.history.dispatched = world.history.dispatched ∧ after.history.sent = world.history.sent := by
  have stored {object : Object} {bucket : Bucket} (inserted : world.bucket.insert object = some bucket)
      (plain : object.metadata = none) :
      ∀ other ∈ bucket, other.metadata.isSome → other ∈ world.bucket := by
    intro other member known
    rcases (mem_insert inserted).mp member with present | rfl
    · exact present
    · rw [plain] at known
      cases known
  cases step with
  | ocr write =>
    cases write with
    | stay => exact ⟨⟨accounted, .refl world⟩, rfl, rfl⟩
    | job write => exact ⟨write.accounted accounted, rfl, rfl⟩
    | close id report =>
      have closed : Accounted { world with db := (world.db.closeJob id report).2 } ∧
          Recorded world { world with db := (world.db.closeJob id report).2 } := by
        refine accounted.restate (fun _ => ⟨rfl, rfl, rfl, rfl, rfl⟩) fun row _ same => ?_
        dsimp only at same
        split at same
        · exact same
        · cases outcome : report.state <;> rw [outcome] at same <;> cases same
      split
      · have noted : Accounted { world with
            db := (world.db.closeJob id report).2
            history := { world.history with revived := id :: world.history.revived } } ∧ Recorded _ _ :=
          closed.1.congr rfl (fun _ member _ => member) rfl rfl rfl
        exact ⟨⟨noted.1, closed.2.trans noted.2⟩, rfl, rfl⟩
      · exact ⟨closed, rfl, rfl⟩
    | artifact inserted plain =>
      exact ⟨accounted.congr rfl (stored inserted plain) rfl rfl rfl, rfl, rfl⟩
  | @apply id content job changes db applied =>
    obtain ⟨headed, same⟩ := applyBatch_jobs applied
    have marked : Accounted { world with db := (world.db.updateJob job.id
        (fun row => row.state = .ready && headed) fun row =>
          { row with state := .applied, appliedRevisionId := some id }).2 } ∧ Recorded world { world with
        db := (world.db.updateJob job.id (fun row => row.state = .ready && headed) fun row =>
          { row with state := .applied, appliedRevisionId := some id }).2 } :=
      accounted.restate (fun _ => ⟨rfl, rfl, rfl, rfl, rfl⟩) fun _ _ same => by cases same
    have rest : Accounted { world with db } ∧ Recorded _ { world with db } :=
      marked.1.congr same (fun _ member _ => member) rfl rfl rfl
    exact ⟨⟨rest.1, marked.2.trans rest.2⟩, rfl, rfl⟩
  | insert input base reserved => exact ⟨accounted.insert reserved, rfl, rfl⟩
  | capture step =>
    refine ⟨accounted.congr step.jobs.1 ?_ ?_ ?_ ?_, ?_, ?_⟩
    · cases step with
      | source step =>
        cases step with
        | store inserted plain => exact stored inserted plain
        | stay | result _ | commit _ _ _ _ | attach _ _ => exact fun _ member _ => member
      | overwrite object revisionId key plain =>
        intro other member known
        rcases mem_write.mp member with rfl | ⟨present, _⟩
        · rw [plain] at known
          cases known
        · exact present
      | discard revisionId copy => exact fun other member _ => (mem_without.mp member).1
      | capture _ _ _ _ _ => exact fun _ member _ => member
    all_goals rw [step.jobs.2]
  | noted step =>
    cases step <;> exact ⟨accounted.congr rfl (fun _ member _ => member) rfl rfl rfl, rfl, rfl⟩

theorem PlainStep.fair {tools : Tools} {after : World} (number : Nat) (accounted : Accounted world)
    (step : PlainStep tools world after) : accounts.Fair number world after := by
  obtain ⟨⟨kept, recorded⟩, _, sent⟩ := step.accounted accounted
  exact ⟨kept, recorded, fun _ _ => ⟨recorded, fun _ member => sent ▸ member⟩, trivial⟩

end

end Library
