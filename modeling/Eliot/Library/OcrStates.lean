import Eliot.Library.Statements

namespace Library
open Relational Async Db

def OcrState.terminal : OcrState → Bool
  | .failed | .cancelled | .applied => true
  | _ => false

def Db.Absorbs (before after : Db) : Prop :=
  ∀ id row, before.jobs.find id = some row → row.state.terminal = true →
    ∃ later, after.jobs.find id = some later ∧ later.state = row.state

namespace Db

variable {db : Db}

theorem Absorbs.refl (db : Db) : db.Absorbs db := fun _ row found _ => ⟨row, found, rfl⟩

theorem Absorbs.trans {first second third : Db} (before : first.Absorbs second)
    (after : second.Absorbs third) : first.Absorbs third := by
  intro id row found ended
  obtain ⟨middle, stored, same⟩ := before id row found ended
  obtain ⟨later, last, equal⟩ := after id middle stored (same ▸ ended)
  exact ⟨later, last, equal.trans same⟩

theorem absorbs_jobs {after : Db} (same : after.jobs = db.jobs) : db.Absorbs after := by
  intro id row found _
  exact ⟨row, same ▸ found, rfl⟩

theorem updateJobs_absorbs {test : OcrRow → Bool} {change : OcrRow → OcrRow}
    {keeps : ∀ row, (change row).id = row.id}
    (spares : ∀ row, row.state.terminal = true → test row = true → (change row).state = row.state) :
    db.Absorbs (db.updateJobs test change keeps).2 := by
  intro id row found ended
  refine ⟨if test row then change row else row, ?_, ?_⟩
  · simp [updateJobs, Table.find_update, found]
  · split
    · rename_i hit
      exact spares row ended hit
    · rfl

theorem updateJob_absorbs {id : Uuid} {test : OcrRow → Bool} {change : OcrRow → OcrRow}
    {keeps : ∀ row, (change row).id = row.id}
    (spares : ∀ row, row.state.terminal = true → test row = true → (change row).state = row.state) :
    db.Absorbs (db.updateJob id test change keeps).2 := by
  apply updateJobs_absorbs
  intro row ended hit
  exact spares row ended (Bool.and_eq_true_iff.mp hit).2

theorem closeJob_absorbs (id : Uuid) (report : Report) :
    db.Absorbs (db.closeJob id report).2 ↔ db.revives id report = false := by
  constructor
  · intro absorbs
    by_contra revives
    rw [Bool.not_eq_false, Db.revives, Bool.and_eq_true_iff, Option.any_eq_true] at revives
    obtain ⟨other, row, found, failed⟩ := revives
    have state : row.state = .failed := of_decide_eq_true failed
    have own : row.id = id := (Table.find_some.mp found).2
    obtain ⟨later, stored, same⟩ := absorbs id row found (by rw [state]; rfl)
    simp only [closeJob, updateJob, updateJobs, Table.find_update, found, Option.map_some,
      Option.some.injEq] at stored
    subst stored
    cases outcome : report.state <;> simp_all [closable, OcrOutcome.state]
  · intro spared id' row found ended
    refine ⟨_, by simp only [closeJob, updateJob, updateJobs, Table.find_update, found]; rfl, ?_⟩
    dsimp only
    split
    · rename_i hit
      obtain ⟨own, open'⟩ := Bool.and_eq_true_iff.mp hit
      have own : row.id = id := of_decide_eq_true own
      have same : id' = id := (Table.find_some.mp found).2.symm.trans own
      subst same
      rw [Db.revives, found] at spared
      cases outcome : report.state <;> cases state : row.state <;>
        simp_all [closable, OcrOutcome.state, OcrState.terminal]
    · rfl

end Db

theorem Db.insertJob_absorbs {db : Db} {job : OcrRow} : db.Absorbs (db.insertJob job).2 := by
  unfold Db.insertJob
  split
  · rename_i jobs inserted
    exact fun id row found _ => ⟨row, Table.find_insert_of_find inserted found, rfl⟩
  · exact .refl db

theorem JobWrite.absorbs {db after : Db} (write : JobWrite db after) : db.Absorbs after := by
  cases write with
  | enter id before pages => exact updateJob_absorbs fun _ _ _ => rfl
  | sweep now =>
    apply updateJobs_absorbs
    intro row ended hit
    cases state : row.state <;> simp_all [OcrState.terminal]
  | reserve job now reserved | failStart id now | cancel id now | begin id now | giveUp id now =>
    apply updateJob_absorbs
    intro row ended hit
    cases state : row.state <;> simp_all [OcrState.terminal, closable]
  | retain id reason => exact updateJob_absorbs fun _ _ _ => rfl

variable {before after : World}

theorem OcrWrite.absorbs (write : OcrWrite before after) :
    before.db.Absorbs after.db ↔ after.history.revived = before.history.revived := by
  cases write with
  | stay => exact iff_of_true (.refl _) rfl
  | job write => exact iff_of_true write.absorbs rfl
  | close id report =>
    dsimp only
    rw [closeJob_absorbs]
    cases revives : before.db.revives id report <;> simp
  | artifact stored plain => exact iff_of_true (.refl _) rfl

theorem PageWrite.absorbs {tools : Tools} (write : PageWrite tools before after) :
    before.db.Absorbs after.db ∧ after.history.revived = before.history.revived := by
  cases write with
  | checkpoint id ordinal metadata => exact ⟨updateJob_absorbs fun _ _ _ => rfl, rfl⟩
  | settle id ordinal complete error totals =>
    refine ⟨updateJob_absorbs fun row ended hit => ?_, rfl⟩
    cases state : row.state <;> simp_all [OcrState.terminal]
  | dispatch job ordinal tokenBound now history dispatched same =>
    refine ⟨?_, same.1⟩
    obtain ⟨_, _, rfl⟩ := dispatchPage_some dispatched
    exact updateJobs_absorbs fun _ _ _ => rfl
  | send dispatch usage => exact ⟨.refl _, rfl⟩
  | keep stored => exact ⟨.refl _, rfl⟩

theorem Db.applyBatch_absorbs {tools : Tools} {id : Uuid} {content : Text} {job : OcrRow}
    {db after : Db} {inserted : Nat}
    (applied : applyBatch tools id content job db = some (inserted, after)) : db.Absorbs after := by
  obtain ⟨headed, same⟩ := applyBatch_jobs applied
  have marked : db.Absorbs (db.updateJob job.id (fun row => row.state = .ready && headed)
      fun row => { row with state := .applied, appliedRevisionId := some id }).2 := by
    apply updateJob_absorbs
    intro row ended hit
    cases state : row.state <;> simp_all [OcrState.terminal]
  exact marked.trans (absorbs_jobs same)

theorem ResultWrite.jobs {db after : Db} (write : ResultWrite db after) : after.jobs = db.jobs := by
  cases write <;> rfl

theorem commitBatch_jobs {loaded : LoadedRevision} {stored : Stored} {before : RevisionResult}
    {db after : Db} {changes : Nat}
    (committed : commitBatch loaded stored before db = some (changes, after)) : after.jobs = db.jobs := by
  unfold commitBatch at committed
  dsimp only at committed
  split at committed
  · obtain ⟨⟨advanced, moved⟩, published, last⟩ := Option.bind_eq_some_iff.mp committed
    cases last
    rw [show ((Db.noteConflict moved loaded stored before).2).jobs = moved.jobs from rfl,
      (moveHead_some published).2.2]
    rfl
  · cases committed
    rfl

theorem captureBatch_jobs {projectId : Uuid} {capture : Captured} {revisionNo : Nat} {newSource : Bool}
    {db after : Db} {changes : Nat}
    (captured : captureBatch projectId capture revisionNo newSource db = some (changes, after)) :
    after.jobs = db.jobs := by
  have inserted {db after : Db} {row : Revision} {changes : Nat}
      (inserts : db.insertCaptured row = some (changes, after)) : after.jobs = db.jobs := by
    unfold Db.insertCaptured at inserts
    split at inserts
    · cases inserts
      rfl
    · obtain ⟨grown, stored, same⟩ := Option.map_eq_some_iff.mp inserts
      cases same
      obtain ⟨_, _, revisions, _, rfl⟩ := insertRevision_some stored
      rfl
  unfold captureBatch at captured
  split at captured
  · obtain ⟨owned, first, rest⟩ := Option.bind_eq_some_iff.mp captured
    obtain ⟨⟨count, grown⟩, second, rest⟩ := Option.bind_eq_some_iff.mp rest
    obtain ⟨joined, third, last⟩ := Option.bind_eq_some_iff.mp rest
    cases last
    have own : owned.jobs = db.jobs := by
      unfold Db.insertSource at first
      split at first
      · cases first
        rfl
      · obtain ⟨sources, _, rfl⟩ := Option.map_eq_some_iff.mp first
        rfl
    have joins : after.jobs = grown.jobs := by
      unfold Db.insertMembership at third
      split at third
      · cases third
      · obtain ⟨memberships, _, rfl⟩ := Option.map_eq_some_iff.mp third
        rfl
    rw [joins, inserted second, own]
  · exact inserted captured

theorem SourceStep.jobs (step : SourceStep before after) :
    after.db.jobs = before.db.jobs ∧ after.history = before.history := by
  cases step with
  | result write => exact ⟨write.jobs, rfl⟩
  | commit loaded stored before committed => exact ⟨commitBatch_jobs committed, rfl⟩
  | attach projectId sourceId =>
    refine ⟨?_, rfl⟩
    unfold Db.insertMembership
    split
    · rfl
    · cases before.db.projectSources.insert ⟨projectId, sourceId⟩ <;> rfl
  | stay | store stored plain => exact ⟨rfl, rfl⟩

theorem CaptureStep.jobs (step : CaptureStep before after) :
    after.db.jobs = before.db.jobs ∧ after.history = before.history := by
  cases step with
  | source step => exact step.jobs
  | capture projectId capture revisionNo newSource captured => exact ⟨captureBatch_jobs captured, rfl⟩
  | overwrite object revisionId key plain | discard revisionId copy => exact ⟨rfl, rfl⟩

theorem LibraryStep.absorbs {tools : Tools} (step : LibraryStep tools before after) :
    before.db.Absorbs after.db ↔ after.history.revived = before.history.revived := by
  cases step with
  | plain step =>
    cases step with
    | ocr write => exact write.absorbs
    | apply id content job applied => exact iff_of_true (applyBatch_absorbs applied) rfl
    | insert input base reserved => exact iff_of_true insertJob_absorbs rfl
    | capture step => exact iff_of_true (absorbs_jobs step.jobs.1) (congrArg History.revived step.jobs.2)
    | noted step => cases step <;> exact iff_of_true (.refl _) rfl
  | page write => exact iff_of_true write.absorbs.1 write.absorbs.2

theorem LibraryStep.revived {tools : Tools} (step : LibraryStep tools before after) :
    before.history.revived.length ≤ after.history.revived.length ∧
      (after.history.revived.length = before.history.revived.length →
        after.history.revived = before.history.revived) := by
  cases step with
  | plain step =>
    cases step with
    | ocr write =>
      cases write with
      | close id report =>
        dsimp only
        split <;> simp
      | stay | job _ | artifact _ _ => simp
    | insert _ _ _ | apply id content job applied => simp
    | capture step => simp [step.jobs.2]
    | noted step => cases step <;> simp
  | page write =>
    cases write with
    | dispatch job ordinal tokenBound now history dispatched same => simp [same.1]
    | checkpoint _ _ _ | settle _ _ _ _ _ | send _ _ | keep _ => simp [History.send]

section
variable {tools : Tools} {labels : List (Service.Label Choice Request)}

def Absorbing (tools : Tools) (start : Service.Config World Choice Failure)
    (labels : List (Service.Label Choice Request)) : Prop :=
  ∀ first second rest middle later, labels = first ++ (second ++ rest) →
    (library tools).run start first = some middle → (library tools).run middle second = some later →
    middle.state.db.Absorbs later.state.db

theorem step_absorbs {before after : Service.Config World Choice Failure}
    {label : Service.Label Choice Request} (own : before.Steps (LibraryStep tools))
    (taken : (library tools).step before label = some after) :
    after.Steps (LibraryStep tools) ∧
      (before.state.db.Absorbs after.state.db ↔
        after.state.history.revived = before.state.history.revived) ∧
      before.state.history.revived.length ≤ after.state.history.revived.length ∧
      (after.state.history.revived.length = before.state.history.revived.length →
        after.state.history.revived = before.state.history.revived) := by
  obtain ⟨kept, same | step⟩ := (library tools).step_moves (serve_steps tools) own taken
  · rw [same]
    exact ⟨kept, iff_of_true (.refl _) rfl, Nat.le_refl _, fun _ => rfl⟩
  · exact ⟨kept, step.absorbs, step.revived⟩

theorem run_absorbs {before after : Service.Config World Choice Failure}
    (own : before.Steps (LibraryStep tools)) (ran : (library tools).run before labels = some after) :
    after.Steps (LibraryStep tools) ∧
      before.state.history.revived.length ≤ after.state.history.revived.length ∧
      (after.state.history.revived.length = before.state.history.revived.length →
        before.state.db.Absorbs after.state.db ∧
          after.state.history.revived = before.state.history.revived) := by
  induction labels generalizing before with
  | nil =>
    cases ran
    exact ⟨own, Nat.le_refl _, fun _ => ⟨.refl _, rfl⟩⟩
  | cons label labels ih =>
    obtain ⟨middle, taken, rest⟩ := Option.bind_eq_some_iff.mp ran
    obtain ⟨kept, absorbs, grows, exact'⟩ := step_absorbs own taken
    obtain ⟨last, onward, spared⟩ := ih kept rest
    refine ⟨last, grows.trans onward, fun same => ?_⟩
    have first : middle.state.history.revived.length = before.state.history.revived.length := by omega
    obtain ⟨later, equal⟩ := spared (by omega)
    exact ⟨(absorbs.mpr (exact' first)).trans later, equal.trans (exact' first)⟩

/-- In any run from any stores the jobs that have failed, were cancelled or were applied keep
    their states for ever, exactly if no report of something else than failure closes a job that
    has failed. -/
theorem ocr_terminal_states_absorbing {world : World} {config : Service.Config World Choice Failure}
    (ran : (library tools).run (Service.boot world) labels = some config) :
    Absorbing tools (Service.boot world) labels ↔
      config.state.history.revived = world.history.revived := by
  have own : (Service.boot world : Service.Config World Choice Failure).Steps (LibraryStep tools) :=
    fun program member => absurd member List.not_mem_nil
  constructor
  · intro absorbing
    have each : ∀ first rest middle, labels = first ++ rest →
        (library tools).run (Service.boot world) first = some middle →
        middle.Steps (LibraryStep tools) ∧ middle.state.history.revived = world.history.revived := by
      intro first
      induction first using List.reverseRecOn with
      | nil =>
        intro rest middle _ reached
        cases reached
        exact ⟨own, rfl⟩
      | append_singleton first label ih =>
        intro rest middle whole reached
        obtain ⟨earlier, before, last⟩ := (library tools).run_append.mp reached
        obtain ⟨kept, same⟩ := ih ([label] ++ rest) earlier (by simpa using whole) before
        have absorbs := absorbing first [label] rest earlier middle (by simpa using whole) before last
        obtain ⟨next, taken, stop⟩ := Option.bind_eq_some_iff.mp last
        cases stop
        obtain ⟨kept, exact', _⟩ := step_absorbs kept taken
        exact ⟨kept, (exact'.mp absorbs).trans same⟩
    exact (each labels [] config (by simp) ran).2
  · intro same first second rest middle later whole reached ran'
    rw [whole] at ran
    obtain ⟨other, reached', onward⟩ := (library tools).run_append.mp ran
    cases reached.symm.trans reached'
    obtain ⟨other, ran'', onward⟩ := (library tools).run_append.mp onward
    cases ran'.symm.trans ran''
    obtain ⟨kept, first, _⟩ := run_absorbs own reached
    obtain ⟨kept, second, spared⟩ := run_absorbs kept ran'
    obtain ⟨_, third, _⟩ := run_absorbs kept onward
    have total : config.state.history.revived.length = world.history.revived.length := by rw [same]
    have start : (Service.boot world : Service.Config World Choice Failure).state = world := rfl
    rw [start] at first
    exact (spared (by omega)).1

end

def pdf : List Nat := text "%PDF-1.7\n"

def png : List Nat :=
  [137, 80, 78, 71, 13, 10, 26, 10, 0, 0, 0, 13, 73, 72, 68, 82, 0, 0, 0, 1, 0, 0, 0, 1, 8, 0, 0, 0, 0,
    58, 126, 155, 85]

def deployed : Tools where
  ocrConfigured := true
  sha256
    | .bytes bytes =>
      if bytes = pdf then text "0716f9264c9fe19f5d7455276107f3ddcc1d3497f63d60689a73558ae8a1bf5e"
      else text "b04e0a33d3985a9de120ad367c9e7d312178756a0d0194e87e9a4efe201c8b33"
    | .text content =>
      if content = text "Hello" then
        text "185f8db32271fe25f561a6fc938b2e264306ec304eda518007d1764826381969"
      else text "f7121309721cd6b61d4ec7516cc611fde9c19bf101706cf97f0a7345234f5157"
    | .blocks _ => text "blocks"
    | .report _ => text "report"
  size
    | .bytes bytes => bytes.length
    | .text content => content.length
    | .blocks _ => 2
    | .report _ => 2
  blockCount _ := 1
  readableTextWarning _ := none

def visionModel : ModelSpec := ⟨text "m", 1000, some 100, some 100, some true⟩

def answering (time : Nat) : Choice where
  now := time
  model := .ok visionModel
  generated := .ok ⟨text "Hello", text "stop", ⟨some 5, some 0, some 7⟩⟩

def acts (number steps time : Nat) : List (Service.Label Choice Request) :=
  List.replicate steps (.act number (answering time))

def scanned : Uuid := .drawn 0 1

def scanJob (name : String) : OcrScope := ⟨.given (text "p"), .drawn 0 0, .given (text name)⟩

def prepared (number : Nat) (name : String) (time : Nat) : List (Service.Label Choice Request) :=
  [.accept (.createOcrJob .owner ⟨scanJob name, scanned, text "m", 1, deployed.sha256 (.bytes pdf)⟩)] ++
    acts number 7 time ++ [.accept (.uploadOcrPage .owner (scanJob name) 1 (some png))] ++
    acts (number + 1) 7 time ++ [.accept (.startOcrJob .owner (scanJob name))] ++ acts (number + 2) 9 time

def overdue : List (Service.Label Choice Request) :=
  [.accept (.addSource (.given (text "p")) ⟨.file, pdf, text "a.pdf", text "application/pdf", none, none⟩)] ++
    acts 0 7 0 ++
    [.accept (.commitRevision ⟨scanned, .drawn 0 0, 1, .original scanned none⟩
      ⟨.needsConversion (text "No extractable text was found in this file; the original is kept."),
        none, 1, 10⟩)] ++
    acts 1 3 0 ++ prepared 2 "a" 1000 ++
    [.accept (.ocrStep (.given (text "a")) .begin)] ++ acts 5 3 1000 ++
    [.accept (.ocrStep (.given (text "a")) (.page 1))] ++ acts 6 14 1000 ++
    [.accept (.ocrStep (.given (text "a")) .assemble)] ++ acts 7 7 1000 ++ prepared 8 "b" 151000

def reviving : List (Service.Label Choice Request) :=
  acts 7 1 151000 ++ [.accept (.applyOcrJob .owner (scanJob "a") none)] ++ acts 11 9 152000

def emptyLibrary : Service.Config World Choice Failure := Service.boot (empty [.given (text "p")])

theorem ocr_terminal_states_absorbing_overdue : Absorbing deployed emptyLibrary overdue := by
  have shown : ((library deployed).run emptyLibrary overdue).any
      (fun config => config.state.history.revived.isEmpty) = true := by decide +kernel
  obtain ⟨config, ran, kept⟩ := (Option.any_eq_true _ _).mp shown
  exact (ocr_terminal_states_absorbing ran).mpr (List.isEmpty_iff.mp kept)

/-- A job that failed because its deadline had elapsed is applied in the end. -/
theorem ocr_failed_job_applied : ∃ middle later row last,
    (library deployed).run emptyLibrary overdue = some middle ∧
      (library deployed).run middle reviving = some later ∧
      middle.state.db.jobs.find (.given (text "a")) = some row ∧ row.state = .failed ∧
      row.error = some (text "OCR deadline elapsed; no continuation was started.") ∧
      later.state.db.jobs.find (.given (text "a")) = some last ∧ last.state = .applied := by
  have shown : ((library deployed).run emptyLibrary overdue).any (fun middle =>
      (middle.state.db.jobs.find (.given (text "a"))).any (fun row => row.state = .failed &&
        row.error = some (text "OCR deadline elapsed; no continuation was started.")) &&
      ((library deployed).run middle reviving).any fun later =>
        (later.state.db.jobs.find (.given (text "a"))).any fun row => row.state = .applied) = true := by
    decide +kernel
  obtain ⟨middle, ran, good⟩ := (Option.any_eq_true _ _).mp shown
  rw [Bool.and_eq_true] at good
  obtain ⟨row, found, failed⟩ := (Option.any_eq_true _ _).mp good.1
  obtain ⟨later, onward, good⟩ := (Option.any_eq_true _ _).mp good.2
  obtain ⟨last, stored, applied⟩ := (Option.any_eq_true _ _).mp good
  rw [Bool.and_eq_true] at failed
  exact ⟨middle, later, row, last, ran, onward, found, of_decide_eq_true failed.1,
    of_decide_eq_true failed.2, stored, of_decide_eq_true applied⟩

end Library
