import Eliot.Library.Custody
import Eliot.Library.Triples

namespace Library
open Relational Async Pact Table Does

variable {tools : Tools} {number : Nat} {guarantee : World → World → Prop}

theorem Db.Quiet.appliesNone {before after : Db} (quiet : before.Quiet after) :
    before.AppliesNone after := by
  intro jobId later found applied
  obtain ⟨row, stored, same⟩ := Db.map_some (quiet.jobs _).symm found
  simp only [OcrRow.profile, Prod.mk.injEq, decide_eq_decide] at same
  exact ⟨row, stored, same.2.2.mpr applied⟩

variable {jobId : Uuid}

section
variable {db after : Db} {id : Uuid} {content : Text} {job : OcrRow} {inserted : Nat}

theorem Db.applicable_some {row : OcrRow} {base : Revision}
    (fits : db.applicable jobId = some (row, base)) :
    ∃ source, db.jobs.find jobId = some row ∧ db.sources.find row.sourceId = some source ∧
      db.revisions.find row.baseRevisionId = some base ∧ row.state = .ready ∧
      source.currentRevisionId = row.baseCurrentRevisionId ∧ source.state ≠ .deleted ∧
      base.deletedAt = none ∧ (∀ other ∈ db.live row.sourceId, other.revisionNo ≤ base.revisionNo) := by
  obtain ⟨job, found, rest⟩ := Option.bind_eq_some_iff.mp fits
  obtain ⟨source, owner, rest⟩ := Option.bind_eq_some_iff.mp rest
  obtain ⟨old, present, rest⟩ := Option.bind_eq_some_iff.mp rest
  simp only [Option.ite_none_right_eq_some, Option.some.injEq, Prod.mk.injEq] at rest
  obtain ⟨checked, rfl, rfl⟩ := rest
  have own : source.id = job.sourceId := (find_some.mp owner).2
  simp only [Bool.and_eq_true, decide_eq_true_eq, Option.isNone_iff_eq_none, List.all_eq_true,
    own] at checked
  obtain ⟨⟨⟨⟨⟨ready, head⟩, state⟩, deleted⟩, newest⟩, _⟩ := checked
  exact ⟨source, found, owner, present, ready, head, state, deleted, newest⟩

theorem applyBatch_unchanged (whole : db.Whole) (unused : db.revisions.find id = none)
    (applied : applyBatch tools id content job db = some (0, after)) : after = db := by
  obtain ⟨grown, moved, changes, reviews, heads, rfl⟩ := applyBatch_some applied
  rcases Db.insertReviewed_some reviews with ⟨_, _, rfl⟩ | ⟨_, _, _, _, none, _⟩
  · have unmoved : moved = grown := by
      obtain ⟨_, _, rfl⟩ := Db.moveHead_some heads
      rw [update_none fun source _ => by simp [unused]]
    subst unmoved
    have unheaded : (moved.sources.find job.sourceId).any (·.currentRevisionId = some id) = false := by
      by_contra headed
      obtain ⟨source, found, head⟩ := (Option.any_eq_true _ _).mp (by simpa using headed)
      obtain ⟨row, present⟩ := whole.headed found (of_decide_eq_true head)
      rw [unused] at present
      cases present
    have unmarked : (moved.markApplied id job).2 = moved :=
      Db.updateJobs_none fun row _ => by simp [unheaded]
    rw [unmarked]
    have fresh : (moved.jobs.find job.id).any (·.appliedRevisionId = some id) = false := by
      by_contra marked
      obtain ⟨row, found, mark⟩ := (Option.any_eq_true _ _).mp (by simpa using marked)
      obtain ⟨other, present⟩ := whole.marked found (of_decide_eq_true mark)
      rw [unused] at present
      cases present
    exact Db.markStale_none fun page _ => by simp [fresh]
  · cases none

theorem applyBatch_applies {current : OcrRow} (found : db.jobs.find job.id = some current)
    (basis : current.basis = job.basis) (inserts : inserted ≠ 0)
    (applied : applyBatch tools id content job db = some (inserted, after)) :
    db.Applies job.id id after := by
  obtain ⟨grown, moved, changes, reviews, heads, rfl⟩ := applyBatch_some applied
  rcases Db.insertReviewed_some reviews with ⟨_, rfl, _⟩ | ⟨row, base, last, fits, _, _, stored⟩
  · exact absurd rfl inserts
  obtain ⟨source, own, owner, present, ready, head, state, deleted, newest⟩ := Db.applicable_some fits
  obtain rfl : current = row := Option.some.inj (found.symm.trans own)
  simp only [OcrRow.basis, Prod.mk.injEq] at basis
  obtain ⟨_, sourceId, baseId, currentId⟩ := basis
  obtain ⟨_, _, revisions, grows, rfl⟩ := Db.insertRevision_some stored
  have reviewedRow : revisions.find id = some (reviewed tools id current.sourceId content job base (last + 1)) := by
    rw [find_insert grows]
    exact if_pos rfl
  have sameId : current.id = job.id := (find_some.mp found).2
  have heading : moved = { db with
      revisions
      sources := db.sources.update (fun source => source.id = current.sourceId) fun source =>
        { source with currentRevisionId := some id } } := by
    obtain ⟨_, _, rfl⟩ := Db.moveHead_some heads
    congr 1
    apply update_congr
    intro other member
    by_cases same : other.id = current.sourceId
    · obtain rfl : other = source := by
        have other' : db.sources.find current.sourceId = some other := find_some.mpr ⟨member, same⟩
        exact Option.some.inj (other'.symm.trans owner)
      simp [same, sourceId, reviewedRow, head, currentId]
    · simp [same, ← sourceId]
  have headed : (moved.sources.find job.sourceId).any (·.currentRevisionId = some id) = true := by
    rw [heading, ← sourceId]
    simp [find_update, owner, (find_some.mp owner).2]
  have marking : (moved.markApplied id job).2 = { moved with
      jobs := db.jobs.update (fun row => row.id = current.id) fun row =>
        { row with state := .applied, appliedRevisionId := some id } } := by
    have same : moved.jobs = db.jobs := by rw [heading]
    unfold Db.markApplied Db.updateJob Db.updateJobs
    dsimp only
    congr 1
    rw [same]
    apply update_congr
    intro other member
    by_cases same : other.id = current.id
    · obtain rfl : other = current :=
        eq_of_key member (find_some.mp found).1 same
      simp [sameId, ready, headed]
    · simp [same, ← sameId]
  refine ⟨current, source, base, _, revisions, found, ready, owner, state, head, present, deleted, newest,
    ?_, ?_, ?_, ?_, ?_, grows, ?_⟩
  · rfl
  · rfl
  · rfl
  · rfl
  · dsimp only [reviewed]
    split <;> rfl
  · rw [marking]
    have mark : (db.jobs.update (fun row => row.id = current.id) fun row =>
        { row with state := .applied, appliedRevisionId := some id }).find job.id =
        some { current with state := .applied, appliedRevisionId := some id } := by
      simp [find_update, found]
    simp only [Db.staleAfter, mark, Option.any_some, decide_true, Bool.and_true]
    rw [heading, ← currentId, ← baseId]
    rfl

theorem Db.Applies.revisions (applies : db.Applies jobId id after) :
    ∃ base revision, (∃ other, db.revisions.find other = some base) ∧ revision.original = base.original ∧
      db.revisions.find id = none ∧
      ∀ other, after.revisions.find other = if other = id then some revision else db.revisions.find other := by
  obtain ⟨job, source, base, revision, revisions, _, _, _, _, _, present, _, _, rfl, _, original, _, _,
    grows, rfl⟩ := applies
  refine ⟨base, revision, ⟨_, present⟩, original, (insert_some grows).1, fun other => ?_⟩
  show revisions.find other = _
  rw [find_insert grows]
  simp only [eq_comm]

theorem Db.Applies.persists (applies : db.Applies jobId id after) : db.Persists after := by
  obtain ⟨job, source, base, revision, revisions, found, ready, _, _, _, _, _, _, rfl, _, _, _, _, grows,
    rfl⟩ := applies
  constructor
  · rfl
  · intro other old stored
    refine ⟨_, find_update_of_find stored, ?_⟩
    split <;> rfl
  · exact fun stored => ⟨_, find_insert_of_find grows stored, rfl⟩
  · exact id
  · intro other old stored
    refine ⟨_, find_update_of_find stored, ?_⟩
    split
    · rename_i same
      obtain rfl : job = old := eq_of_key (find_some.mp found).1 (find_some.mp stored).1
        (of_decide_eq_true same).symm
      refine ⟨rfl, fun applied => ?_⟩
      rw [applied.1] at ready
      cases ready
    · exact ⟨rfl, fun applied => applied⟩

theorem Db.Applies.whole (whole : db.Whole) (applies : db.Applies jobId id after) :
    after.Whole := by
  have persists := applies.persists
  obtain ⟨job, source, base, revision, revisions, found, ready, owner, state, head, present, deleted, _,
    rfl, own, original, live, _, grows, rfl⟩ := applies
  have rows : ∀ {other row}, revisions.find other = some row →
      row = revision ∨ db.revisions.find other = some row := by
    intro other row stored
    rw [find_insert grows] at stored
    split at stored
    · exact .inl (Option.some.inj stored).symm
    · exact .inr stored
  have fresh : revisions.find revision.id = some revision := by
    rw [find_insert grows]
    exact if_pos rfl
  have keeps : ∀ {other row}, db.revisions.find other = some row → revisions.find other = some row :=
    find_insert_of_find grows
  have source' : ∀ {other row}, (db.afterApplying revisions job revision.id).sources.find other = some row →
      ∃ old, db.sources.find other = some old ∧ old.state = row.state ∧
        (row.currentRevisionId = some revision.id ∨ row.currentRevisionId = old.currentRevisionId) := by
    intro other row stored
    simp only [Db.afterApplying, find_update, Option.map_eq_some_iff] at stored
    obtain ⟨old, stored, rfl⟩ := stored
    refine ⟨old, stored, ?_⟩
    split
    · exact ⟨rfl, .inl rfl⟩
    · exact ⟨rfl, .inr rfl⟩
  constructor
  · intro other row stored
    obtain ⟨older, stored⟩ : ∃ older, db.sources.find row.sourceId = some older := by
      rcases rows stored with rfl | stored
      · exact ⟨source, own ▸ owner⟩
      · exact whole.owned stored
    obtain ⟨later, last, _⟩ := persists.sources stored
    exact ⟨later, last⟩
  · intro other row revisionId stored heading
    obtain ⟨old, stored, _, new | same⟩ := source' stored
    · rw [new] at heading
      cases heading
      exact ⟨revision, fresh⟩
    · obtain ⟨row, exists'⟩ := whole.headed stored (same ▸ heading)
      exact ⟨row, keeps exists'⟩
  · intro other row stored
    simp only [Db.afterApplying, find_update, Option.map_eq_some_iff] at stored
    obtain ⟨old, stored, rfl⟩ := stored
    obtain ⟨base, exists', same⟩ := whole.based stored
    refine ⟨base, keeps ?_, ?_⟩
    · rw [← exists']
      split <;> rfl
    · rw [same]
      split <;> rfl
  · intro other row revisionId stored mark
    simp only [Db.afterApplying, find_update, Option.map_eq_some_iff] at stored
    obtain ⟨old, stored, rfl⟩ := stored
    split at mark
    · cases mark
      exact ⟨revision, fresh⟩
    · obtain ⟨row, exists'⟩ := whole.marked stored mark
      exact ⟨row, keeps exists'⟩
  · have present' : ∀ {row}, (db.afterApplying revisions job revision.id).Present row → db.Present row := by
      rintro row ⟨kept, source, owns, live⟩
      obtain ⟨old, stored, same, _⟩ := source' owns
      exact ⟨kept, old, stored, same ▸ live⟩
    have ofBase : base.sourceId = revision.sourceId := by
      obtain ⟨same, stored, equal⟩ := whole.based found
      obtain rfl : base = same := Option.some.inj (present.symm.trans stored)
      rw [equal, own]
    have based : db.Present base := ⟨deleted, source, by rw [ofBase, own, owner], state⟩
    intro left right first second one two here there same
    rcases rows one with rfl | old
    · rcases rows two with rfl | older
      · rfl
      · exact ofBase.symm.trans (whole.distinct present older based (present' there) (original ▸ same))
    · rcases rows two with rfl | older
      · exact (whole.distinct old present (present' here) based (original ▸ same)).trans ofBase
      · exact whole.distinct old older (present' here) (present' there) same

end

section
variable {before after : World}

theorem Db.Applies.fair {db : Db} (kept : Custody tools before)
    (applies : before.db.Applies jobId (.drawn number 0) db)
    (granted : guarantee before { before with db }) :
    (custody tools guarantee).Fair number before { before with db } where
  inv := by
    refine Custody.told kept (Db.Applies.whole kept.whole applies) applies.persists ?_ rfl rfl
    obtain ⟨base, revision, ⟨other, present⟩, original, _, rows⟩ := applies.revisions
    intro id row found
    rw [rows] at found
    split at found
    · cases found
      rw [original]
      exact kept.kept present
    · exact kept.kept found
  evolve := applies.persists
  others other apart := by
    obtain ⟨base, revision, ⟨baseId, present⟩, original, _, rows⟩ := applies.revisions
    refine ⟨fun {id row} found own => ?_, fun {id row} found own => ?_, fun _ found => found⟩
    · rw [rows] at found
      split at found
      · rename_i same
        subst same
        exact absurd (of_decide_eq_true own).symm apart
      · exact ⟨row, found⟩
    · rw [rows] at found
      split at found
      · cases found
        exact ⟨baseId, base, present, congrArg Original.key original.symm⟩
      · exact ⟨id, row, found, rfl⟩
  granted := granted

def Adds (before after : World) : Prop :=
  after = before ∨ ∃ object bucket, before.bucket.insert object = some bucket ∧
    after = { before with bucket }

theorem Adds.fair (kept : Custody tools before) (adds : Adds before after)
    (granted : guarantee before after) : (custody tools guarantee).Fair number before after := by
  rcases adds with rfl | ⟨object, bucket, stored, rfl⟩
  · exact kept.quiet (.refl _) id rfl rfl granted
  · exact kept.quiet (.refl _) (fun found => find_insert_of_find stored found) rfl rfl granted

theorem Adds.db (adds : Adds before after) : after.db = before.db := by
  rcases adds with rfl | ⟨_, _, _, rfl⟩ <;> rfl

theorem does_adds {α : Type} {program : Task α} (known : Db → Prop) (steps : program.Steps Adds)
    (stable : (custody tools guarantee).Stable number fun world => known world.db)
    (granted : ∀ before after, after.db = before.db → guarantee before after) :
    (custody tools guarantee).Does number (fun world => known world.db) program
      (Given fun _ world => known world.db) := by
  have keeps : (custody tools guarantee).Does number (fun world => known world.db) program
      fun _ world => known world.db := by
    apply keeps steps stable
    intro before after kept holds adds
    exact ⟨adds.fair kept (granted _ _ adds.db), adds.db ▸ holds⟩
  apply keeps.consequence fun _ _ holds => holds
  rintro (failure | value) world _ holds
  · exact trivial
  · exact holds

theorem steps_putAdds {key : Key} {body : Body} {metadata : Option PageMetadata} :
    (putOcrArtifact tools key body metadata).Steps Adds :=
  steps_putOcrArtifact (fun _ => .inl rfl) fun _ _ bucket stored => .inr ⟨_, bucket, stored, rfl⟩

def Loaded (job : OcrRow) (db : Db) : Prop :=
  ∃ row, db.jobs.find job.id = some row ∧ row.basis = job.basis ∧
    ∀ {revisionId}, job.AppliedAs revisionId → row.AppliedAs revisionId

theorem loaded_stable {job : OcrRow} :
    (custody tools guarantee).Stable number fun world => Loaded job world.db := by
  rintro before after _ _ ⟨persists, _⟩ ⟨row, found, basis, applied⟩
  obtain ⟨later, stored, same, still⟩ := persists.jobs found
  exact ⟨later, stored, same.trans basis, fun known => still (applied known)⟩

theorem unused_stable : (custody tools guarantee).Stable number fun world => Unused number world.db :=
  fun _ _ sees unused => unused.leaves sees.2

end

section
variable {actor : Actor} {scope : OcrScope} {reviewedText : Option Text}

abbrev applying (tools : Tools) (number : Nat) (request : Request) : Pact World :=
  custody tools fun before after => request.Effect number before.db after.db

theorem applying_lawful {request : Request} : (applying tools number request).Lawful := by
  apply custody_lawful
  intro world
  cases request with
  | applyOcrJob actor scope reviewedText => exact .inl rfl
  | _ => exact (Db.Quiet.refl world.db).appliesNone

theorem loadJob_does {id : Uuid} (known : Db → Prop) (lawful : (custody tools guarantee).Lawful)
    (stable : (custody tools guarantee).Stable number fun world => known world.db) :
    (custody tools guarantee).Does number (fun world => known world.db) (loadOcrRow id)
      (Given fun job world => job.id = id ∧ Loaded job world.db ∧ known world.db) := by
  unfold loadOcrRow
  apply Does.then fun (found : Option OcrRow) world => known world.db ∧
    ∀ job, found = some job → job.id = id ∧ Loaded job world.db
  · apply does_query lawful stable
    intro world _ holds
    refine ⟨holds, fun job found => ?_⟩
    have own : job.id = id := (find_some.mp found).2
    exact ⟨own, job, own ▸ found, rfl, fun applied => applied⟩
  · rintro (_ | job)
    · exact does_fail
    · exact returns fun _ _ holds => ⟨(holds.2 job rfl).1, (holds.2 job rfl).2, holds.1⟩

theorem scopedJob_does (known : Db → Prop) (lawful : (custody tools guarantee).Lawful)
    (stable : (custody tools guarantee).Stable number fun world => known world.db)
    (granted : ∀ before after, after.db = before.db → guarantee before after) :
    (custody tools guarantee).Does number (fun world => known world.db) (scopedJob actor scope)
      (Given fun job world => job.id = scope.jobId ∧ Loaded job world.db ∧ known world.db) := by
  unfold scopedJob
  apply Does.then fun _ world => known world.db
  · exact does_adds known (sourceBase_steps fun _ => .inl rfl) stable granted
  intro _
  apply Does.then _ (loadJob_does known lawful stable)
  intro job
  split
  · exact does_fail
  · exact returns fun _ _ holds => holds

def Db.AppliedAs (db : Db) (jobId revisionId : Uuid) : Prop :=
  ∃ row, db.jobs.find jobId = some row ∧ row.AppliedAs revisionId

theorem appliedAs_stable {jobId revisionId : Uuid} :
    (custody tools guarantee).Stable number fun world => world.db.AppliedAs jobId revisionId := by
  rintro before after _ _ ⟨persists, _⟩ ⟨row, found, applied⟩
  obtain ⟨later, stored, _, still⟩ := persists.jobs found
  exact ⟨later, stored, still applied⟩

theorem Loaded.appliedAs {job : OcrRow} {db : Db} {revisionId : Uuid} (loaded : Loaded job db)
    (state : job.state = .applied) (applied : job.appliedRevisionId = some revisionId) :
    db.AppliedAs job.id revisionId := by
  obtain ⟨row, found, _, still⟩ := loaded
  exact ⟨row, found, still ⟨state, applied⟩⟩

theorem Db.Applies.appliedAs {before after : Db} {jobId id : Uuid} (applies : before.Applies jobId id after) :
    after.AppliedAs jobId id := by
  obtain ⟨job, source, base, revision, revisions, found, _, _, _, _, _, _, _, rfl, _, _, _, _, _, rfl⟩ :=
    applies
  refine ⟨_, find_update_of_find found, ?_⟩
  simp [OcrRow.AppliedAs]

theorem applyBatch_does {content : Text} {job : OcrRow} (own : job.id = scope.jobId) :
    let request := Request.applyOcrJob actor scope reviewedText
    (applying tools number request).Does number
      (fun world => Loaded job world.db ∧ Unused number world.db)
      (d1 (applyBatch tools (.drawn number 0) content job))
      (Given fun inserted world => Loaded job world.db ∧
        (inserted ≠ 0 → world.db.AppliedAs scope.jobId (.drawn number 0))) := by
  apply does_d1 applying_lawful
  · exact stable_and loaded_stable unused_stable
  rintro world kept ⟨loaded, unused⟩ inserted db ran
  have fresh : world.db.revisions.find (.drawn number 0) = none := by
    cases found : world.db.revisions.find (.drawn number 0) with
    | none => rfl
    | some row => simpa [Uuid.drawnBy] using unused.revisions found
  by_cases none : inserted = 0
  · subst none
    obtain rfl := applyBatch_unchanged kept.whole fresh ran
    exact ⟨kept.quiet (.refl _) id rfl rfl (.inl rfl), loaded, fun changed => absurd rfl changed⟩
  · obtain ⟨row, found, basis, applied⟩ := loaded
    have applies : world.db.Applies scope.jobId (.drawn number 0) db :=
      own ▸ applyBatch_applies found basis none ran
    obtain ⟨later, stored, same, still⟩ := applies.persists.jobs found
    exact ⟨applies.fair kept (.inr applies), ⟨later, stored, same.trans basis,
      fun known => still (applied known)⟩, fun _ => applies.appliedAs⟩

theorem applyOcrJob_does :
    (applying tools number (.applyOcrJob actor scope reviewedText)).Does number
      (fun world => Unused number world.db) (applyOcrJob tools number actor scope reviewedText)
      (Given fun revisionId world => world.db.AppliedAs scope.jobId revisionId) := by
  have unchanged : ∀ before after : World, after.db = before.db →
      (Request.applyOcrJob actor scope reviewedText).Effect number before.db after.db :=
    fun _ _ same => .inl same
  unfold applyOcrJob
  apply Does.then _ (scopedJob_does (Unused number) applying_lawful unused_stable unchanged)
  intro job
  apply fact
  intro own
  split
  · rename_i state applied
    apply returns
    rintro world _ ⟨loaded, _⟩
    exact own ▸ loaded.appliedAs state applied
  · have stable : (applying tools number (.applyOcrJob actor scope reviewedText)).Stable number
        fun world => Loaded job world.db ∧ Unused number world.db :=
      stable_and loaded_stable unused_stable
    let known (db : Db) : Prop := Loaded job db ∧ Unused number db
    apply Does.then _ (does_adds known (reviewedContent_steps fun _ => .inl rfl) stable unchanged)
    intro content
    split
    · exact does_fail
    apply Does.then _ (does_adds known steps_putAdds stable unchanged)
    intro _
    apply Does.then _ (does_adds known steps_putAdds stable unchanged)
    intro _
    apply Does.then _ (applyBatch_does own)
    intro inserted
    split
    · rename_i changed
      exact returns fun _ _ known => known.2 changed
    apply Does.then _ ((loadJob_does (fun _ => True) applying_lawful stable_true).weaken fun _ _ _ => trivial)
    intro current
    apply fact
    intro same
    split
    · rename_i state applied
      exact returns fun world _ loaded => own ▸ same ▸ loaded.1.appliedAs state applied
    · exact does_fail
  · exact does_fail

theorem serve_apply :
    (applying tools number (.applyOcrJob actor scope reviewedText)).Does number
      (fun world => Unused number world.db) (serve tools number (.applyOcrJob actor scope reviewedText))
      fun _ _ => True := by
  apply applyOcrJob_does.bind
  · intro revisionId
    apply does_note appliedAs_stable
    intro world kept applied
    refine ⟨{ kept with applied := ?_ }, .refl _, fun other _ => Leaves.same rfl rfl, .inl rfl⟩
    intro jobId other member
    rcases List.mem_cons.mp member with new | old
    · cases new
      exact applied
    · exact kept.applied old
  · exact fun _ _ _ _ => trivial

def Db.Owns (db : Db) (revisionId sourceId : Uuid) : Prop :=
  ∃ row, db.revisions.find revisionId = some row ∧ row.sourceId = sourceId

theorem Db.Owns.persists {before after : Db} {revisionId sourceId : Uuid}
    (owns : before.Owns revisionId sourceId) (persists : before.Persists after) :
    after.Owns revisionId sourceId := by
  obtain ⟨row, found, own⟩ := owns
  obtain ⟨later, stored, same⟩ := persists.revisions found
  exact ⟨later, stored, (congrArg Prod.fst same).trans own⟩

theorem insertJob_fair {before : World} {input : NewOcrJob} {base : Base} {model : ModelSpec}
    {bound : Nat} (kept : Custody tools before)
    (based : before.db.Owns base.revision.id input.scope.sourceId)
    (granted : ∀ after : Db, before.db.AppliesNone after → guarantee before { before with db := after }) :
    (custody tools guarantee).Fair number before { before with
      db := (before.db.insertJob (input.row base model bound)).2 } := by
  unfold Db.insertJob
  split
  · rename_i jobs inserted
    have rows : ∀ {id row}, jobs.find id = some row →
        row = input.row base model bound ∨ before.db.jobs.find id = some row := by
      intro id row found
      rw [find_insert inserted] at found
      split at found
      · exact .inl (Option.some.inj found).symm
      · exact .inr found
    have whole : Db.Whole { before.db with jobs } := by
      refine { kept.whole with based := ?_, marked := ?_ }
      · intro id job found
        rcases rows found with rfl | found
        · exact based
        · exact kept.whole.based found
      · intro id job revisionId found mark
        rcases rows found with rfl | found
        · cases mark
        · exact kept.whole.marked found mark
    have persists : before.db.Persists { before.db with jobs } :=
      { Db.Persists.refl before.db with
        jobs := fun found => ⟨_, find_insert_of_find inserted found, rfl, fun known => known⟩ }
    refine ⟨kept.told whole persists kept.kept rfl rfl, persists, fun other _ => Leaves.same rfl rfl,
      granted _ ?_⟩
    intro jobId later found applied
    rcases rows found with rfl | found
    · cases applied
    · exact ⟨later, found, applied⟩
  · exact kept.quiet (.refl _) id rfl rfl (granted _ (Db.Quiet.refl _).appliesNone)

theorem latestRevision_some {db : Db} {sourceId : Uuid} {row : Revision}
    (latest : db.latestRevision sourceId = some row) :
    db.revisions.find row.id = some row ∧ row.sourceId = sourceId := by
  have live : row ∈ db.live sourceId := List.mem_of_find?_eq_some latest
  simp only [Db.live, List.mem_filter, Bool.and_eq_true, decide_eq_true_eq] at live
  exact ⟨find_some.mpr ⟨live.1, rfl⟩, live.2.1⟩

theorem Db.base_some {db : Db} {projectId sourceId : Uuid} {base : Base}
    (found : db.base projectId sourceId = some base) :
    db.latestRevision sourceId = some base.revision := by
  unfold Db.base at found
  split at found
  · cases found
  obtain ⟨source, _, rest⟩ := Option.bind_eq_some_iff.mp found
  dsimp only at rest
  split at rest
  · cases rest
  obtain ⟨revision, latest, same⟩ := Option.bind_eq_some_iff.mp rest
  cases same
  exact latest

theorem createOcrJob_does {input : NewOcrJob} :
    (applying tools number (.createOcrJob actor input)).Does number (fun _ => True)
      (createOcrJob tools actor input) fun _ _ => True := by
  let pact := applying tools number (.createOcrJob actor input)
  let based (base : Base) (world : World) : Prop :=
    world.db.Owns base.revision.id input.scope.sourceId
  have stable {base : Base} : pact.Stable number (based base) :=
    fun _ _ sees owns => owns.persists sees.1
  have bases : pact.Does number (fun _ => True)
      (sourceBase actor input.scope.projectId input.scope.sourceId) (Given based) := by
    unfold sourceBase
    split
    · exact throws
    apply Does.then fun (found : Option Base) world => ∀ base, found = some base → based base world
    · apply does_query applying_lawful stable_true
      intro world _ _ base found
      obtain ⟨present, own⟩ := latestRevision_some (Db.base_some found)
      exact ⟨base.revision, present, own⟩
    · rintro (_ | base)
      · exact does_fail
      · exact returns fun _ _ known => known base rfl
  apply bases.bind
  · intro base
    have steps : (createOcrJobOn tools actor input base).Steps fun before after =>
        after = before ∨ ∃ model bound, after = { before with
          db := (before.db.insertJob (input.row base model bound)).2 } :=
      createOcrJobOn_steps (fun _ => .inl rfl) fun _ _ _ _ => .inr ⟨_, _, rfl⟩
    apply (keeps steps stable _).consequence (fun _ _ known => known) fun _ _ _ _ => trivial
    rintro before after kept known (rfl | ⟨model, bound, rfl⟩)
    · exact ⟨kept.quiet (.refl _) id rfl rfl (Db.Quiet.refl _).appliesNone, known⟩
    · have fair : pact.Fair number before { before with
          db := (before.db.insertJob (input.row base model bound)).2 } :=
        insertJob_fair kept known fun _ none => none
      exact ⟨fair, Db.Owns.persists known fair.evolve⟩
  · exact fun _ _ _ _ => trivial

end

end Library
