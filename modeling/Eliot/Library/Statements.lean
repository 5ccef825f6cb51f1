import Eliot.Library.Writes

namespace Library
open Relational Async

theorem Db.find_updateJobs {db : Db} {test : OcrRow → Bool} {change : OcrRow → OcrRow}
    {keeps : ∀ row, (change row).id = row.id} (id : Uuid) :
    (db.updateJobs test change keeps).2.jobs.find id =
      (db.jobs.find id).map fun row => if test row then change row else row := by
  rw [Db.updateJobs, Table.find_update]

theorem Db.updateJobs_none {db : Db} {test : OcrRow → Bool} {change : OcrRow → OcrRow}
    {keeps : ∀ row, (change row).id = row.id} (none : ∀ row ∈ db.jobs, test row = false) :
    (db.updateJobs test change keeps).2 = db := by
  rw [Db.updateJobs, Table.update_none none]

theorem Db.markStale_none {db : Db} {test : Page → Bool} (none : ∀ page ∈ db.pages, test page = false) :
    db.markStale test = db := by
  rw [Db.markStale, Table.update_none none]

variable {db after : Db}

theorem Db.moveHead_some {sourceId revisionId : Uuid} {test : Source → Bool}
    {changes : Nat} (moved : db.moveHead sourceId revisionId test = some (changes, after)) :
    let changed (row : Source) : Bool := row.id = sourceId && test row
    (db.sources.rows.any changed = true → db.mayHead sourceId revisionId = true) ∧
      changes = db.sources.count changed ∧
      after = { db with sources := db.sources.update changed fun row =>
        { row with currentRevisionId := some revisionId } } := by
  simp only [Db.moveHead, Option.ite_none_left_eq_some, Option.some.injEq, Prod.mk.injEq] at moved
  obtain ⟨allowed, rfl, rfl⟩ := moved
  refine ⟨fun any => ?_, rfl, rfl⟩
  simpa [any] using allowed

theorem Db.insertRevision_some {row : Revision}
    (inserted : db.insertRevision row = some after) :
    (db.sources.find row.sourceId).isSome ∧
      (∀ other ∈ db.revisions, other.sourceId = row.sourceId → other.revisionNo ≠ row.revisionNo) ∧
      ∃ revisions, db.revisions.insert row = some revisions ∧ after = { db with revisions } := by
  simp only [Db.insertRevision] at inserted
  split at inserted
  · cases inserted
  · rename_i owned
    split at inserted
    · cases inserted
    · rename_i numbered
      obtain ⟨revisions, stored, rfl⟩ := Option.map_eq_some_iff.mp inserted
      refine ⟨by simpa [← Option.ne_none_iff_isSome] using owned, ?_, revisions, stored, rfl⟩
      intro other member same equal
      exact numbered (List.any_eq_true.mpr ⟨other, member, by simp [same, equal]⟩)

theorem applyBatch_some {tools : Tools} {id : Uuid} {content : Text} {job : OcrRow}
    {inserted : Nat} (applied : applyBatch tools id content job db = some (inserted, after)) :
    ∃ grown moved changes, db.insertReviewed tools id content job = some (inserted, grown) ∧
      grown.moveReviewedHead id job = some (changes, moved) ∧
      after = (moved.markApplied id job).2.staleAfter id job := by
  obtain ⟨⟨count, grown⟩, first, rest⟩ := Option.bind_eq_some_iff.mp applied
  obtain ⟨⟨changes, moved⟩, second, last⟩ := Option.bind_eq_some_iff.mp rest
  cases last
  exact ⟨grown, moved, changes, first, second, rfl⟩

theorem Db.insertReviewed_some {tools : Tools} {id : Uuid} {content : Text} {job : OcrRow}
    {inserted : Nat}
    (reviews : db.insertReviewed tools id content job = some (inserted, after)) :
    (db.applicable job.id = none ∧ inserted = 0 ∧ after = db) ∨
      ∃ row base last, db.applicable job.id = some (row, base) ∧ inserted = 1 ∧
        db.lastRevisionNo row.sourceId = some last ∧
        db.insertRevision (reviewed tools id row.sourceId content job base (last + 1)) = some after := by
  unfold insertReviewed at reviews
  split at reviews
  · rename_i inapplicable
    cases reviews
    exact .inl ⟨inapplicable, rfl, rfl⟩
  · rename_i row base applicable
    obtain ⟨last, numbered, rest⟩ := Option.bind_eq_some_iff.mp reviews
    obtain ⟨grown, stored, same⟩ := Option.bind_eq_some_iff.mp rest
    cases same
    exact .inr ⟨row, base, last, applicable, rfl, numbered, stored⟩

theorem applyBatch_jobs {tools : Tools} {id : Uuid} {content : Text} {job : OcrRow}
    {inserted : Nat} (applied : applyBatch tools id content job db = some (inserted, after)) :
    ∃ headed : Bool, after.jobs = (db.updateJob job.id (fun row => row.state = .ready && headed)
      fun row => { row with state := .applied, appliedRevisionId := some id }).2.jobs := by
  obtain ⟨grown, moved, changes, reviews, heads, rfl⟩ := applyBatch_some applied
  have same : moved.jobs = db.jobs := by
    rw [(Db.moveHead_some heads).2.2]
    rcases Db.insertReviewed_some reviews with ⟨_, _, rfl⟩ | ⟨row, base, last, _, _, _, stored⟩
    · rfl
    · obtain ⟨_, _, revisions, _, rfl⟩ := Db.insertRevision_some stored
      rfl
  refine ⟨(moved.sources.find job.sourceId).any (·.currentRevisionId = some id), ?_⟩
  simp only [Db.staleAfter, Db.markStale, Db.markApplied, Db.updateJob, Db.updateJobs, same]

def OcrRow.dispatched (row : OcrRow) : OcrRow :=
  { row with calls := row.calls + 1, inputTokens := none, cachedTokens := none, outputTokens := none }

theorem Db.dispatchPage_some {job : OcrRow} {ordinal tokenBound now changes : Nat}
    (dispatches : db.dispatchPage job ordinal tokenBound now = some (changes, after)) :
    (∀ row ∈ db.jobs, mayDispatch db job ordinal tokenBound now row = true → row.calls < row.pageCount) ∧
      changes = db.jobs.count (mayDispatch db job ordinal tokenBound now) ∧
      after = (db.updateJobs (mayDispatch db job ordinal tokenBound now) OcrRow.dispatched).2 := by
  simp only [dispatchPage, Option.ite_none_left_eq_some, Option.some.injEq] at dispatches
  obtain ⟨checked, same⟩ := dispatches
  refine ⟨fun row member hit => ?_, (congrArg Prod.fst same).symm, (congrArg Prod.snd same).symm⟩
  by_contra passed
  exact checked (List.any_eq_true.mpr ⟨row, member, by simp [hit, Nat.le_of_not_lt passed]⟩)

end Library
