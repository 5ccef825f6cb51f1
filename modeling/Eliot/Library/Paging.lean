import Eliot.Library.Accounting
import Eliot.Library.Triples

namespace Library
open Relational Async Pact List Table

variable {tools : Tools} {number : Nat}

def ExactAt (jobId : Uuid) (pages : Nat) (totals : Usage) (world : World) : Prop :=
  world.history.Exact jobId pages totals

def Claims (number : Nat) (dispatch : Dispatch) (world : World) : Prop :=
  (dispatch, number) ∈ world.history.dispatched ∧ dispatch ∉ world.history.sent

theorem exactAt_stable {jobId : Uuid} {pages : Nat} {totals : Usage} :
    accounts.Stable number (ExactAt jobId pages totals) :=
  fun _ _ sees known => known.mono sees.1.reports

theorem claims_stable {dispatch : Dispatch} : accounts.Stable number (Claims number dispatch) :=
  fun _ _ sees known => ⟨sees.1.claims known.1, fun sent => known.2 (sees.2.2 known.1 sent)⟩

theorem fair_update {world : World} {test : OcrRow → Bool} {change : OcrRow → OcrRow}
    {keeps : ∀ row, (change row).id = row.id} (accounted : Accounted world)
    (balanced : ∀ row ∈ world.db.jobs, test row = true → row.Balanced world.history →
      (change row).Balanced world.history)
    (calls : ∀ row, row.calls ≤ (change row).calls) :
    accounts.Fair number world { world with db := (world.db.updateJobs test change keeps).2 } := by
  obtain ⟨kept, recorded⟩ := accounted.update balanced calls
  exact ⟨kept, recorded, fun _ _ => ⟨recorded, fun _ sent => sent⟩, trivial⟩

variable {ordinal : Nat} {id : Uuid}

theorem checkpointPageUsage_does {metadata : PageMetadata} :
    accounts.Does number (ExactAt id ordinal metadata.totals) (checkpointPageUsage id ordinal metadata)
      (Given fun _ => ExactAt id ordinal metadata.totals) := by
  unfold checkpointPageUsage
  apply Does.then fun _ => ExactAt id ordinal metadata.totals
  · apply does_execute accounts_lawful exactAt_stable
    intro world accounted known
    refine ⟨fair_update accounted ?_ fun _ => Nat.le_refl _, known⟩
    intro row _ hit balanced
    obtain ⟨own, calls, _⟩ : row.id = id ∧ row.calls = ordinal ∧ row.completedPages + 1 = ordinal := by
      simpa using hit
    refine ⟨balanced.completed, balanced.calls, balanced.idle, balanced.bounded, ?_⟩
    show world.history.Exact row.id row.calls _
    rw [own, calls]
    exact known.stored
  · exact fun _ => Does.returns fun _ _ known => known

variable {job : OcrRow}

theorem settlePage_does {object : Object} :
    accounts.Does number (fun world => ∀ metadata, object.metadata = some metadata →
      ExactAt job.id ordinal metadata.totals world) (settlePage tools job ordinal object)
      (Given fun _ _ => True) := by
  unfold settlePage
  split
  · exact does_fail
  split
  · exact Does.throws
  apply Does.then fun _ _ => True
  · apply does_execute accounts_lawful
    · intro before after _ _ sees known metadata page
      exact (known metadata page).mono sees.1.reports
    intro world accounted known
    refine ⟨fair_update accounted ?_ fun _ => Nat.le_refl _, trivial⟩
    intro row _ hit balanced
    obtain ⟨own, ⟨calls, completed⟩, settled⟩ : row.id = job.id ∧
        (row.calls = ordinal ∧ row.completedPages + 1 = ordinal) ∧
        ((row.state = .running ∨ row.state = .cancelled) ∨ row.state = .failed) := by
      simpa using hit
    refine ⟨?_, ?_, ?_, balanced.bounded, ?_⟩
    · dsimp only
      split <;> omega
    · exact balanced.calls.trans (Nat.add_le_add_right (Nat.le_add_right _ _) 1)
    · dsimp only
      intro idle
      split at idle
      · cases idle
      · rw [idle] at settled
        simp at settled
    · show world.history.Exact row.id row.calls _
      rw [own, calls]
      cases page : object.metadata with
      | none => exact .unknown
      | some metadata => exact (known metadata page).stored
  · intro _
    split
    · exact Does.throws
    · exact Does.returns fun _ _ _ => trivial

theorem putPage_does {base jobId : Uuid} {body : Body} {metadata : PageMetadata}
    {totals : Usage} (same : metadata.totals = totals) :
    accounts.Does number (ExactAt jobId ordinal totals)
      (putOcrArtifact tools (.ocrPage base jobId ordinal) body (some metadata)).attempt
      fun _ => ExactAt jobId ordinal totals := by
  subst same
  have steps : (putOcrArtifact tools (.ocrPage base jobId ordinal) body (some metadata)).Steps
      fun before after => after = before ∨ ∃ etag bucket, before.bucket.insert
        ⟨.ocrPage base jobId ordinal, body, tools.size body, some (tools.sha256 body), some metadata,
          etag⟩ = some bucket ∧ after = { before with bucket } :=
    steps_putOcrArtifact (fun _ => .inl rfl) fun _ etag bucket stored => .inr ⟨etag, bucket, stored, rfl⟩
  apply Does.attempt
  apply Does.keeps steps exactAt_stable
  rintro world after accounted known (rfl | ⟨etag, bucket, stored, rfl⟩)
  · exact ⟨fair_refl accounts_lawful accounted, known⟩
  have recorded : Recorded world { world with bucket } := ⟨id, id, fun found => ⟨_, found, Nat.le_refl _⟩⟩
  refine ⟨⟨{ accounted with kept := ?_ }, recorded, fun _ _ => ⟨recorded, fun _ sent => sent⟩, trivial⟩, known⟩
  intro object member base jobId other key metadata page
  rcases (mem_insert stored).mp member with present | rfl
  · exact accounted.kept object present key page
  · cases key
    cases page
    exact known

theorem keepPage_does {ordinal tokenBound started : Nat}
    {generated : Generated} (own : job.id = id) :
    accounts.Does number (ExactAt id ordinal ⟨total job.inputTokens generated.usage.input,
        total job.cachedTokens generated.usage.cached, total job.outputTokens generated.usage.output⟩)
      (keepPage tools id job ordinal tokenBound started generated) (Given fun _ _ => True) := by
  subst own
  unfold keepPage
  apply Does.then fun _ => ExactAt job.id ordinal ⟨total job.inputTokens generated.usage.input,
    total job.cachedTokens generated.usage.cached, total job.outputTokens generated.usage.output⟩
  · exact does_now accounts_lawful exactAt_stable
  intro finished
  dsimp only
  refine Does.bind (putPage_does rfl) ?_ fun _ _ _ _ => trivial
  rintro (failure | _)
  · apply Does.then fun _ _ => True
    · apply Does.consequence checkpointPageUsage_does
      · exact fun _ _ known => known
      · rintro (_ | _) _ _ _ <;> exact trivial
    · intro _
      split
      · exact Does.throws
      · exact does_fail
  · apply Does.then fun _ _ => True
    · apply Does.consequence checkpointPageUsage_does
      · exact fun _ _ known => known
      · rintro (_ | _) _ _ _ <;> exact trivial
    intro _
    apply Does.then fun (object : Option Object) world => ∀ stored, object = some stored →
      ∀ metadata, stored.metadata = some metadata → ExactAt job.id ordinal metadata.totals world
    · apply does_get accounts_lawful stable_true
      intro world accounted _ stored found metadata page
      obtain ⟨member, key⟩ := find_some.mp found
      exact accounted.kept stored member key page
    · rintro (_ | object)
      · exact does_fail
      · apply Does.then fun _ _ => True
        · exact settlePage_does.weaken fun _ _ known => known object rfl
        · exact fun _ => Does.returns fun _ _ _ => trivial

theorem report_send {history : History} {dispatch : Dispatch} {usage : Option Usage}
    (unanswered : ∀ usage, (dispatch, usage) ∉ history.reported) {other : Dispatch} {found : Usage}
    (reported : history.report other = some found) :
    (history.send dispatch usage).report other = some found := by
  obtain ⟨entry, first, rfl⟩ := Option.map_eq_some_iff.mp reported
  have own : entry.1 = other := by simpa using find?_some first
  have fresh : dispatch ≠ other := by
    rintro rfl
    exact unanswered entry.2 (own ▸ mem_of_find?_eq_some first)
  cases usage <;> simp [History.report, History.send, fresh, first]

theorem fair_send {world : World} {dispatch : Dispatch} {usage : Option Usage}
    (accounted : Accounted world) (claims : Claims number dispatch world) :
    accounts.Fair number world { world with history := world.history.send dispatch usage } := by
  obtain ⟨claimed, unsent⟩ := claims
  have reports : ∀ {other found}, world.history.report other = some found →
      (world.history.send dispatch usage).report other = some found :=
    report_send fun usage answered => unsent (accounted.answered answered)
  have recorded : Recorded world { world with history := world.history.send dispatch usage } :=
    ⟨reports, id, fun found => ⟨_, found, Nat.le_refl _⟩⟩
  refine ⟨?_, recorded, fun other different => ⟨recorded, ?_⟩, trivial⟩
  · constructor
    · intro row member
      exact (accounted.balanced row member).mono reports
    · intro object member base jobId ordinal key metadata page
      exact (accounted.kept object member key page).mono reports
    · exact accounted.claimed
    · exact accounted.single
    · intro other sent
      rcases mem_cons.mp sent with rfl | sent
      · exact ⟨number, claimed⟩
      · exact accounted.paid other sent
    · exact nodup_cons.mpr ⟨unsent, accounted.once⟩
    · intro other found reported
      rcases mem_append.mp reported with new | old
      · have same : other = dispatch := by
          cases usage <;> simp_all
        exact mem_cons.mpr (.inl same)
      · exact mem_cons_of_mem _ (accounted.answered old)
  · intro another mine sent
    rcases mem_cons.mp sent with rfl | sent
    · have same := inj_on_of_nodup_map accounted.single mine claimed rfl
      exact absurd (congrArg Prod.snd same) different
    · exact sent

def OcrRow.totals (job : OcrRow) (usage : Usage) : Usage :=
  ⟨total job.inputTokens usage.input, total job.cachedTokens usage.cached,
    total job.outputTokens usage.output⟩

theorem generateText_does :
    accounts.Does number (fun world => Claims number ⟨id, job.calls + 1⟩ world ∧
        ExactAt id job.calls job.usage world) (generateText ⟨id, job.calls + 1⟩)
      (Given fun generated => ExactAt id (job.calls + 1) (job.totals generated.usage)) := by
  apply Does.request (stable_and claims_stable exactAt_stable)
  rintro world accounted ⟨claims, known⟩ choice
  cases answer : choice.generated with
  | error report => exact ⟨fair_send accounted claims, trivial⟩
  | ok generated =>
    refine ⟨fair_send accounted claims, ?_⟩
    have earlier : (world.history.send ⟨id, job.calls + 1⟩ (some ⟨count generated.usage.input,
        count generated.usage.cached, count generated.usage.output⟩)).Exact id job.calls job.usage :=
      known.mono (report_send fun usage answered => claims.2 (accounted.answered answered))
    apply earlier.add
    simp [History.report, History.send]

theorem dispatchPage_does {ordinal tokenBound started : Nat} {known : World → Prop}
    (reserved : modelTokenReservation job.modelSnapshot = .ok tokenBound)
    (stable : accounts.Stable number known)
    (kept : ∀ world db history, known world → history.reported = world.history.reported →
      known { world with db, history }) :
    accounts.Does number known (dispatchPage number job ordinal tokenBound started)
      (Given fun changes world => known world ∧ (changes ≠ 0 → Claims number ⟨job.id, ordinal⟩ world)) := by
  apply does_call accounts_lawful stable
  intro world accounted holds choice changes after done
  obtain ⟨⟨_, db⟩, dispatches, same⟩ := Option.map_eq_some_iff.mp done
  cases same
  obtain ⟨_, rfl, rfl⟩ := Db.dispatchPage_some dispatches
  have test {row : OcrRow} (hit : mayDispatch world.db job ordinal tokenBound started row = true) :
      row.id = job.id ∧ row.state = .running ∧ row.calls + 1 = ordinal ∧
        row.completedPages + 1 = ordinal ∧ (row.calls + 1) * tokenBound ≤ row.tokenLimit ∧
        row.modelSnapshot = job.modelSnapshot := by
    simp only [mayDispatch, Bool.and_eq_true, decide_eq_true_eq] at hit
    tauto
  obtain ⟨balanced, recorded⟩ : Accounted { world with db := (world.db.updateJobs
      (mayDispatch world.db job ordinal tokenBound started) OcrRow.dispatched).2 } ∧
      Recorded world { world with db := (world.db.updateJobs
        (mayDispatch world.db job ordinal tokenBound started) OcrRow.dispatched).2 } := by
    apply accounted.update
    · intro row _ hit balanced
      obtain ⟨_, running, calls, completed, bounded, model⟩ := test hit
      refine ⟨?_, ?_, ?_, ⟨tokenBound, ?_, bounded⟩, .unknown⟩
      · exact balanced.completed.trans (Nat.le_succ _)
      · show row.calls + 1 ≤ row.completedPages + 1
        omega
      · intro idle
        rw [show row.state = .preparing from idle] at running
        cases running
      · show modelTokenReservation row.modelSnapshot = _
        rw [model, reserved]
    · exact fun row => Nat.le_succ _
  by_cases none : world.db.jobs.count (mayDispatch world.db job ordinal tokenBound started) = 0
  · simp only [none, if_true]
    exact ⟨⟨balanced, recorded, fun _ _ => ⟨recorded, fun _ sent => sent⟩, trivial⟩, kept _ _ _ holds rfl,
      fun changed => absurd rfl changed⟩
  simp only [none, if_false]
  obtain ⟨row, member, hit⟩ := count_pos.mp (Nat.pos_of_ne_zero none)
  obtain ⟨own, _, calls, _⟩ := test hit
  have found : world.db.jobs.find job.id = some row := find_some.mpr ⟨member, own⟩
  have unclaimed : ∀ other, (⟨job.id, ordinal⟩, other) ∉ world.history.dispatched := by
    intro other claimed
    obtain ⟨present, stored, below⟩ := accounted.claimed claimed
    obtain rfl : row = present := Option.some.inj (found.symm.trans stored)
    dsimp only at below
    omega
  have more : Recorded world { world with
      db := (world.db.updateJobs (mayDispatch world.db job ordinal tokenBound started)
        OcrRow.dispatched).2
      history := { world.history with
        dispatched := (⟨job.id, ordinal⟩, number) :: world.history.dispatched } } :=
    ⟨recorded.reports, fun claimed => mem_cons_of_mem _ claimed, recorded.jobs⟩
  refine ⟨⟨?_, more, fun _ _ => ⟨more, fun _ sent => sent⟩, trivial⟩, kept _ _ _ holds rfl, fun _ =>
    ⟨mem_cons_self .., fun sent => ?_⟩⟩
  · refine ⟨fun row member => (balanced.balanced row member).mono id,
      fun object member _ _ _ key _ page => (balanced.kept object member key page).mono id, ?_, ?_, ?_,
      balanced.once, balanced.answered⟩
    · intro dispatch other claimed
      rcases mem_cons.mp claimed with new | old
      · obtain ⟨rfl, rfl⟩ := Prod.mk.injEq _ _ _ _ ▸ new
        refine ⟨row.dispatched, ?_, calls.ge⟩
        refine (Db.find_updateJobs job.id).trans ?_
        rw [found]
        simp [hit]
      · exact balanced.claimed old
    · refine nodup_cons.mpr ⟨fun claimed => ?_, accounted.single⟩
      obtain ⟨⟨_, other⟩, member, rfl⟩ := mem_map.mp claimed
      exact unclaimed other member
    · intro dispatch sent
      obtain ⟨other, claimed⟩ := accounted.paid dispatch sent
      exact ⟨other, mem_cons_of_mem _ claimed⟩
  · obtain ⟨other, claimed⟩ := accounted.paid _ sent
    exact unclaimed other claimed

theorem loadOcrRow_does : accounts.Does number (fun _ => True) (loadOcrRow id)
    (Given fun job world => job.id = id ∧ ExactAt id job.calls job.usage world) := by
  unfold loadOcrRow
  apply Does.then fun (found : Option OcrRow) world => ∀ job, found = some job →
    job.id = id ∧ ExactAt id job.calls job.usage world
  · apply does_query accounts_lawful stable_true
    intro world accounted _ job found
    obtain ⟨member, own⟩ := find_some.mp found
    exact ⟨own, own ▸ (accounted.balanced job member).exact⟩
  · rintro (_ | job)
    · exact does_fail
    · exact Does.returns fun _ _ known => known job rfl

theorem frozenModel_ok {model : ModelSpec} (frozen : frozenModel job = .ok model) :
    model = job.modelSnapshot := by
  unfold frozenModel at frozen
  split at frozen
  · cases frozen
  · cases reserved : modelTokenReservation job.modelSnapshot with
    | error failure => simp [reserved, bind, Except.bind] at frozen
    | ok bound =>
      simp only [reserved, bind, Except.bind] at frozen
      split at frozen
      · cases frozen
      · cases frozen
        rfl

theorem runPage_does :
    accounts.Does number (fun _ => True) (runPage tools number id ordinal) (Given fun _ _ => True) := by
  unfold runPage
  apply Does.then _ loadOcrRow_does
  intro job
  apply Does.fact
  rintro rfl
  split
  · exact Does.returns fun _ _ _ => trivial
  apply Does.then fun (object : Option Object) world => ExactAt job.id job.calls job.usage world ∧
    ∀ stored, object = some stored → ∀ metadata, stored.metadata = some metadata →
      ExactAt job.id ordinal metadata.totals world
  · apply does_get accounts_lawful exactAt_stable
    intro world accounted known
    refine ⟨known, fun stored found metadata page => ?_⟩
    obtain ⟨member, key⟩ := find_some.mp found
    exact accounted.kept stored member key page
  rintro (_ | saved)
  · dsimp only
    split
    · exact does_fail
    rename_i fit
    obtain ⟨next, rest⟩ : job.calls + 1 = ordinal ∧ job.completedPages + 1 = ordinal := by
      simp_all
    subst next
    suffices claims : accounts.Does number (ExactAt job.id job.calls job.usage) _ (Given fun _ _ => True) from
      claims.weaken fun _ _ known => known.1
    apply Does.then _ (does_now accounts_lawful exactAt_stable)
    intro time
    split
    · exact does_fail
    apply Does.then fun _ => ExactAt job.id job.calls job.usage
    · exact does_get accounts_lawful exactAt_stable fun _ _ known => known
    intro image
    split
    · split
      · exact does_fail
      split
      · exact does_fail
      apply does_ofExcept
      intro model frozen
      obtain rfl := frozenModel_ok frozen
      apply does_ofExcept
      intro tokenBound reserved
      apply Does.then _ (does_ask accounts_lawful exactAt_stable)
      intro _
      apply Does.then _ (does_now accounts_lawful exactAt_stable)
      intro started
      split
      · exact does_fail
      apply Does.then _ (dispatchPage_does reserved exactAt_stable fun _ _ _ known reported => ?_)
      · intro changes
        split
        · exact does_fail
        rename_i changed
        apply Does.then fun _ world => Claims number ⟨job.id, job.calls + 1⟩ world ∧
          ExactAt job.id job.calls job.usage world
        · exact (does_now accounts_lawful (stable_and claims_stable exactAt_stable)).weaken
            fun _ _ known => ⟨known.2 changed, known.1⟩
        intro time
        split
        · exact does_fail
        apply Does.then _ generateText_does
        intro generated
        exact keepPage_does rfl
      · exact known.mono fun found => by rwa [History.report, reported]
    · exact does_fail
  · dsimp only
    split
    · exact does_fail
    · apply Does.then fun _ _ => True
      · exact settlePage_does.weaken fun _ _ known => known.2 saved rfl
      · exact fun _ => Does.returns fun _ _ _ => trivial

theorem page_does :
    accounts.Does number (fun _ => True) (runStep tools number id (.page ordinal)) fun _ _ => True := by
  unfold runStep retainStepFailure
  have pages : accounts.Does number (fun _ => True)
      (Program.attempt do
        let _ ← runPage tools number id ordinal
        return ()) fun _ _ => True := by
    apply Does.attempt
    apply runPage_does.bind (fun _ => ?_) fun _ _ _ _ => trivial
    exact fun _ _ _ => trivial
  apply pages.bind
  · rintro (failure | _) world _ _
    · refine wp_steps (?_ : Program.Steps (PlainStep tools) _) (fun _ _ => PlainStep.fair number) world
      apply ((steps_job fun db => .retain id _).mono fun _ _ => PlainStep.ocr).attempt.bind
      exact fun _ => trivial
    · exact trivial
  · exact fun _ _ _ _ => trivial

theorem serve_accounts {request : Request} {world : World} (inv : Accounted world) :
    accounts.wp number (serve tools number request) (fun _ _ => True) world := by
  cases runs : request.runsPage with
  | false => exact wp_steps (serve_plain tools number runs) (fun _ _ => PlainStep.fair number) world
  | true =>
    unfold Request.runsPage at runs
    split at runs
    · exact page_does world inv trivial
    · cases runs

theorem empty_accounted (projects : List Uuid) : Accounted (empty projects) where
  balanced _ member := absurd member not_mem_nil
  kept _ member := absurd member not_mem_nil
  claimed member := absurd member not_mem_nil
  single := nodup_nil
  paid _ member := absurd member not_mem_nil
  once := nodup_nil
  answered member := absurd member not_mem_nil

/-- The accounts of every job, whatever the requests and the workflow steps and whatever fails. -/
theorem ocr_accounts {projects : List Uuid} {labels : List (Service.Label Choice Request)}
    {config : Service.Config World Choice Failure}
    (ran : (library tools).run (Service.boot (empty projects)) labels = some config) :
    (∀ row ∈ config.state.db.jobs,
      row.completedPages ≤ row.calls ∧ row.calls ≤ row.completedPages + 1 ∧
        (∃ bound, modelTokenReservation row.modelSnapshot = .ok bound ∧
          row.calls * bound ≤ row.tokenLimit) ∧
        (∀ sum, row.inputTokens = some sum →
          config.state.history.reportedTotal row.id .input row.calls = some sum) ∧
        (∀ sum, row.outputTokens = some sum →
          config.state.history.reportedTotal row.id .output row.calls = some sum)) ∧
      config.state.history.sent.Nodup ∧
      ∀ dispatch ∈ config.state.history.sent, ∃ row,
        config.state.db.jobs.find dispatch.jobId = some row ∧ dispatch.ordinal ≤ row.calls := by
  let grant : Nat → Request → World → World → Prop := fun _ _ => accounts.guarantee
  have correct : ∀ number request world, accounts.inv world → accounts.fresh number world →
      admits world request = true → (accounts.granting (grant number request)).wp number
        (serve tools number request) (fun _ _ => True) world :=
    fun _ _ _ inv _ _ => serve_accounts inv
  obtain ⟨sound, _⟩ := run_sound grant accounts_lawful correct ran
    (boot_sound (empty_accounted projects) fun _ => trivial)
  have accounted : Accounted config.state := sound.inv
  refine ⟨fun row member => ?_, accounted.once, fun dispatch sent => ?_⟩
  · obtain ⟨completed, calls, _, bounded, known⟩ := accounted.balanced row member
    exact ⟨completed, calls, bounded, known .input, known .output⟩
  · obtain ⟨other, claimed⟩ := accounted.paid dispatch sent
    exact accounted.claimed claimed

/-- A page was paid for, and its job failed before it was applied. -/
theorem ocr_accounts_overdue : ∃ config row,
    (library deployed).run emptyLibrary overdue = some config ∧
      config.state.db.jobs.find (.given (text "a")) = some row ∧ row.inputTokens = some 5 ∧
      config.state.history.reportedTotal row.id .input row.calls = some 5 ∧
      config.state.history.sent.Nodup := by
  have shown : ((library deployed).run emptyLibrary overdue).any (fun config =>
      (config.state.db.jobs.find (.given (text "a"))).any (·.inputTokens = some 5)) = true := by
    decide +kernel
  obtain ⟨config, ran, good⟩ := (Option.any_eq_true _ _).mp shown
  obtain ⟨row, found, known⟩ := (Option.any_eq_true _ _).mp good
  obtain ⟨accounts, once, _⟩ := ocr_accounts ran
  have known : row.inputTokens = some 5 := of_decide_eq_true known
  exact ⟨config, row, ran, found, known,
    (accounts row (find_some.mp found).1).2.2.2.1 5 known, once⟩

end Library
