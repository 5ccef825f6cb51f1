import Eliot.Library.OcrStates

namespace Library
open Relational Async Db Table

def Revision.identity (row : Revision) : Uuid × Nat × Original × Option Nat :=
  (row.sourceId, row.revisionNo, row.original, row.deletedAt)

def OcrRow.basis (row : OcrRow) : Uuid × Uuid × Uuid × Option Uuid :=
  (row.projectId, row.sourceId, row.baseRevisionId, row.baseCurrentRevisionId)

def OcrRow.profile (row : OcrRow) : (Uuid × Uuid × Uuid × Option Uuid) × Option Uuid × Bool :=
  (row.basis, row.appliedRevisionId, row.state = .applied)

def OcrRow.AppliedAs (row : OcrRow) (revisionId : Uuid) : Prop :=
  row.state = .applied ∧ row.appliedRevisionId = some revisionId

namespace Db

def Present (db : Db) (row : Revision) : Prop :=
  row.deletedAt = none ∧ ∃ source, db.sources.find row.sourceId = some source ∧ source.state ≠ .deleted

structure Whole (db : Db) : Prop where
  owned : ∀ {id row}, db.revisions.find id = some row → ∃ source, db.sources.find row.sourceId = some source
  headed : ∀ {id source revisionId}, db.sources.find id = some source →
    source.currentRevisionId = some revisionId → ∃ row, db.revisions.find revisionId = some row
  based : ∀ {id job}, db.jobs.find id = some job →
    ∃ base, db.revisions.find job.baseRevisionId = some base ∧ base.sourceId = job.sourceId
  marked : ∀ {id job revisionId}, db.jobs.find id = some job → job.appliedRevisionId = some revisionId →
    ∃ row, db.revisions.find revisionId = some row
  distinct : ∀ {left right first second}, db.revisions.find left = some first →
    db.revisions.find right = some second → db.Present first → db.Present second →
    first.original.sha256 = second.original.sha256 → first.sourceId = second.sourceId

structure Persists (before after : Db) : Prop where
  projects : after.projects = before.projects
  sources : ∀ {id source}, before.sources.find id = some source →
    ∃ later, after.sources.find id = some later ∧ later.state = source.state
  revisions : ∀ {id row}, before.revisions.find id = some row →
    ∃ later, after.revisions.find id = some later ∧ later.identity = row.identity
  attached : ∀ {projectId sourceId}, before.attached projectId sourceId = true →
    after.attached projectId sourceId = true
  jobs : ∀ {id row}, before.jobs.find id = some row → ∃ later, after.jobs.find id = some later ∧
    later.basis = row.basis ∧ ∀ {revisionId}, row.AppliedAs revisionId → later.AppliedAs revisionId

structure Quiet (before after : Db) : Prop where
  projects : after.projects = before.projects
  sources : ∀ id, (after.sources.find id).map (·.state) = (before.sources.find id).map (·.state)
  heads : ∀ {id source revisionId}, after.sources.find id = some source →
    source.currentRevisionId = some revisionId →
    (∃ old, before.sources.find id = some old ∧ old.currentRevisionId = some revisionId) ∨
      ∃ row, before.revisions.find revisionId = some row
  revisions : ∀ id, (after.revisions.find id).map (·.identity) = (before.revisions.find id).map (·.identity)
  attached : ∀ {projectId sourceId}, before.attached projectId sourceId = true →
    after.attached projectId sourceId = true
  jobs : ∀ id, (after.jobs.find id).map (·.profile) = (before.jobs.find id).map (·.profile)

variable {first second third before after db : Db}

theorem Persists.refl (db : Db) : db.Persists db :=
  ⟨rfl, fun found => ⟨_, found, rfl⟩, fun found => ⟨_, found, rfl⟩, id,
    fun found => ⟨_, found, rfl, id⟩⟩

theorem Persists.trans (left : first.Persists second) (right : second.Persists third) :
    first.Persists third where
  projects := right.projects.trans left.projects
  sources found := by
    obtain ⟨middle, stored, same⟩ := left.sources found
    obtain ⟨later, last, equal⟩ := right.sources stored
    exact ⟨later, last, equal.trans same⟩
  revisions found := by
    obtain ⟨middle, stored, same⟩ := left.revisions found
    obtain ⟨later, last, equal⟩ := right.revisions stored
    exact ⟨later, last, equal.trans same⟩
  attached known := right.attached (left.attached known)
  jobs found := by
    obtain ⟨middle, stored, same, applied⟩ := left.jobs found
    obtain ⟨later, last, equal, still⟩ := right.jobs stored
    exact ⟨later, last, equal.trans same, fun known => still (applied known)⟩

theorem Quiet.refl (db : Db) : db.Quiet db :=
  ⟨rfl, fun _ => rfl, fun found head => .inl ⟨_, found, head⟩, fun _ => rfl, id, fun _ => rfl⟩

theorem map_some {α β : Type} {first second : Option α} {read : α → β}
    (same : second.map read = first.map read) {value : α} (found : first = some value) :
    ∃ later, second = some later ∧ read later = read value := by
  rw [found, Option.map_some] at same
  exact Option.map_eq_some_iff.mp same

theorem Quiet.trans (left : first.Quiet second) (right : second.Quiet third) : first.Quiet third where
  projects := right.projects.trans left.projects
  sources id := (right.sources id).trans (left.sources id)
  heads found head := by
    rcases right.heads found head with ⟨old, stored, same⟩ | ⟨row, stored⟩
    · exact left.heads stored same
    · obtain ⟨old, present, _⟩ := map_some (left.revisions _).symm stored
      exact .inr ⟨old, present⟩
  revisions id := (right.revisions id).trans (left.revisions id)
  attached known := right.attached (left.attached known)
  jobs id := (right.jobs id).trans (left.jobs id)

theorem Quiet.persists (quiet : before.Quiet after) : before.Persists after where
  projects := quiet.projects
  sources found := map_some (quiet.sources _) found
  revisions found := map_some (quiet.revisions _) found
  attached := quiet.attached
  jobs found := by
    obtain ⟨later, stored, same⟩ := map_some (quiet.jobs _) found
    simp only [OcrRow.profile, Prod.mk.injEq, decide_eq_decide] at same
    obtain ⟨basis, applied, state⟩ := same
    exact ⟨later, stored, basis, fun known => ⟨state.mpr known.1, applied.trans known.2⟩⟩

theorem Quiet.present (quiet : before.Quiet after) {row old : Revision}
    (same : old.identity = row.identity) (present : after.Present row) : before.Present old := by
  simp only [Revision.identity, Prod.mk.injEq] at same
  obtain ⟨source, _, _, deleted⟩ := same
  obtain ⟨kept, owner, found, state⟩ := present
  obtain ⟨earlier, stored, equal⟩ := map_some (quiet.sources _).symm found
  exact ⟨deleted.trans kept, earlier, by rw [source, stored], fun gone => state (equal ▸ gone)⟩

theorem Quiet.whole (quiet : before.Quiet after) (whole : before.Whole) : after.Whole where
  owned {_ row} found := by
    obtain ⟨old, stored, same⟩ := map_some (quiet.revisions _).symm found
    obtain ⟨source, owner⟩ := whole.owned stored
    obtain ⟨later, last, _⟩ := map_some (quiet.sources _) owner
    have own : old.sourceId = row.sourceId := congrArg Prod.fst same
    exact ⟨later, own ▸ last⟩
  headed found head := by
    rcases quiet.heads found head with ⟨old, stored, same⟩ | ⟨row, stored⟩
    · obtain ⟨row, present⟩ := whole.headed stored same
      obtain ⟨later, last, _⟩ := map_some (quiet.revisions _) present
      exact ⟨later, last⟩
    · obtain ⟨later, last, _⟩ := map_some (quiet.revisions _) stored
      exact ⟨later, last⟩
  based found := by
    obtain ⟨old, stored, same⟩ := map_some (quiet.jobs _).symm found
    obtain ⟨base, present, source⟩ := whole.based stored
    obtain ⟨later, last, equal⟩ := map_some (quiet.revisions _) present
    simp only [OcrRow.profile, OcrRow.basis, Prod.mk.injEq] at same
    refine ⟨later, ?_, (congrArg Prod.fst equal).trans (source.trans same.1.2.1)⟩
    rw [← same.1.2.2.1, last]
  marked found mark := by
    obtain ⟨old, stored, same⟩ := map_some (quiet.jobs _).symm found
    simp only [OcrRow.profile, Prod.mk.injEq] at same
    obtain ⟨row, present⟩ := whole.marked stored (same.2.1.trans mark)
    obtain ⟨later, last, _⟩ := map_some (quiet.revisions _) present
    exact ⟨later, last⟩
  distinct left right one two equal := by
    obtain ⟨first, stored, same⟩ := map_some (quiet.revisions _).symm left
    obtain ⟨second, present, also⟩ := map_some (quiet.revisions _).symm right
    have apart := whole.distinct stored present (quiet.present same one) (quiet.present also two)
    simp only [Revision.identity, Prod.mk.injEq] at same also
    rw [same.1, also.1, same.2.2.1, also.2.2.1] at apart
    exact apart equal

theorem updateJobs_quiet {test : OcrRow → Bool} {change : OcrRow → OcrRow}
    {keeps : ∀ row, (change row).id = row.id}
    (same : ∀ row, test row = true → (change row).profile = row.profile) :
    db.Quiet (db.updateJobs test change keeps).2 := by
  refine { Quiet.refl db with jobs := fun id => ?_ }
  rw [find_updateJobs, Option.map_map]
  congr 1
  funext row
  by_cases hit : test row = true
  · simp [hit, same row hit]
  · simp [hit]

theorem updateJob_quiet {id : Uuid} {test : OcrRow → Bool} {change : OcrRow → OcrRow}
    {keeps : ∀ row, (change row).id = row.id}
    (same : ∀ row, test row = true → (change row).profile = row.profile) :
    db.Quiet (db.updateJob id test change keeps).2 :=
  updateJobs_quiet fun row hit => same row (Bool.and_eq_true_iff.mp hit).2

theorem updateRevisions_quiet {test : Revision → Bool} {change : RevisionResult → RevisionResult} :
    db.Quiet (db.updateRevisions test change).2 := by
  refine { Quiet.refl db with heads := ?_, revisions := fun id => ?_ }
  · exact fun found head => .inl ⟨_, found, head⟩
  · simp only [updateRevisions, find_update, Option.map_map]
    congr 1
    funext row
    by_cases hit : test row = true <;> simp [hit, Revision.identity]

theorem markStale_quiet {test : Page → Bool} : db.Quiet (db.markStale test) := { Quiet.refl db with }

theorem moveHead_quiet {sourceId revisionId : Uuid} {test : Source → Bool} {changes : Nat} {after : Db}
    (moved : db.moveHead sourceId revisionId test = some (changes, after)) : db.Quiet after := by
  obtain ⟨allowed, _, rfl⟩ := moveHead_some moved
  refine { Quiet.refl db with sources := fun id => ?_, heads := ?_ }
  · simp only [find_update, Option.map_map]
    congr 1
    funext row
    dsimp only [Function.comp_apply]
    split <;> rfl
  · intro id source other found head
    simp only [find_update, Option.map_eq_some_iff] at found
    obtain ⟨old, stored, rfl⟩ := found
    split at head
    · rename_i hit
      cases head
      have any : db.sources.rows.any (fun row => row.id = sourceId && test row) = true :=
        List.any_eq_true.mpr ⟨old, (find_some.mp stored).1, hit⟩
      obtain ⟨row, present, _⟩ := (Option.any_eq_true _ _).mp (allowed any)
      exact .inr ⟨row, present⟩
    · exact .inl ⟨old, stored, head⟩

theorem insertMembership_quiet {projectId sourceId : Uuid} {after : Db}
    (inserted : db.insertMembership projectId sourceId = some after) : db.Quiet after := by
  simp only [insertMembership, Option.ite_none_left_eq_some] at inserted
  obtain ⟨_, grown⟩ := inserted
  obtain ⟨memberships, stored, rfl⟩ := Option.map_eq_some_iff.mp grown
  refine { Quiet.refl db with attached := fun known => ?_ }
  obtain ⟨row, found⟩ := Option.isSome_iff_exists.mp known
  exact Option.isSome_iff_exists.mpr ⟨row, find_insert_of_find stored found⟩

end Db

theorem ResultWrite.quiet {db after : Db} (write : ResultWrite db after) : db.Quiet after := by
  cases write <;> exact updateRevisions_quiet

theorem commitBatch_quiet {loaded : LoadedRevision} {stored : Stored} {before : RevisionResult}
    {db after : Db} {changes : Nat}
    (committed : commitBatch loaded stored before db = some (changes, after)) : db.Quiet after := by
  unfold commitBatch at committed
  dsimp only at committed
  split at committed
  · obtain ⟨⟨advanced, moved⟩, published, last⟩ := Option.bind_eq_some_iff.mp committed
    cases last
    have written : db.Quiet (db.writeResult loaded stored).2 := updateRevisions_quiet
    have staled : db.Quiet ((db.writeResult loaded stored).2.staleOld loaded stored before) :=
      written.trans markStale_quiet
    exact (staled.trans (moveHead_quiet published)).trans updateRevisions_quiet
  · cases committed
    exact updateRevisions_quiet

theorem JobWrite.quiet {db after : Db} (write : JobWrite db after) : db.Quiet after := by
  cases write with
  | sweep now =>
    apply updateJobs_quiet
    intro row hit
    cases state : row.state <;> simp_all [OcrRow.profile, OcrRow.basis]
  | enter id before pages | retain id reason | reserve job now reserved | failStart id now | cancel id now
  | begin id now =>
    apply updateJob_quiet
    intro row hit
    cases state : row.state <;> simp_all [OcrRow.profile, OcrRow.basis]
  | giveUp id now =>
    apply updateJob_quiet
    intro row hit
    cases state : row.state <;> simp_all [OcrRow.profile, OcrRow.basis, closable]

theorem Db.closeJob_quiet {db : Db} {id : Uuid} {report : Report} : db.Quiet (db.closeJob id report).2 := by
  apply updateJob_quiet
  intro row hit
  cases outcome : report.state <;> cases state : row.state <;>
    simp_all [OcrRow.profile, OcrRow.basis, closable, OcrOutcome.state]

variable {before after : World}

theorem SourceStep.quiet (step : SourceStep before after) :
    before.db.Quiet after.db := by
  cases step with
  | stay | store _ _ => exact .refl _
  | result write => exact write.quiet
  | commit loaded stored before committed => exact commitBatch_quiet committed
  | attach projectId sourceId =>
    cases inserted : before.db.insertMembership projectId sourceId with
    | none => exact .refl _
    | some db => exact insertMembership_quiet inserted

theorem OcrWrite.quiet (write : OcrWrite before after) :
    before.db.Quiet after.db := by
  cases write with
  | stay | artifact _ _ => exact .refl _
  | job write => exact write.quiet
  | close id report => exact closeJob_quiet

theorem PageWrite.quiet {tools : Tools} (write : PageWrite tools before after) :
    before.db.Quiet after.db := by
  cases write with
  | send _ _ | keep _ => exact .refl _
  | checkpoint id ordinal metadata => exact updateJob_quiet fun _ _ => rfl
  | settle id ordinal complete error totals =>
    apply updateJob_quiet
    intro row hit
    cases state : row.state <;> cases complete <;> simp_all [OcrRow.profile, OcrRow.basis]
  | dispatch job ordinal tokenBound now history dispatched same =>
    obtain ⟨_, _, rfl⟩ := dispatchPage_some dispatched
    exact updateJobs_quiet fun _ _ => rfl

theorem headed_id (id : Uuid) (source : Source) : { source with currentRevisionId := some id }.id = source.id := rfl

theorem applied_id (id : Uuid) (row : OcrRow) :
    { row with state := .applied, appliedRevisionId := some id }.id = row.id := rfl

theorem stale_id (page : Page) : { page with freshness := .stale }.id = page.id := rfl

def Db.afterApplying (db : Db) (revisions : Table Revision Uuid (·.id)) (job : OcrRow) (id : Uuid) : Db :=
  { db with
    revisions
    sources := db.sources.update (·.id = job.sourceId)
      (fun source => { source with currentRevisionId := some id }) (headed_id id)
    jobs := db.jobs.update (·.id = job.id)
      (fun row => { row with state := .applied, appliedRevisionId := some id }) (applied_id id)
    pages := db.pages.update (db.builtOn (job.baseCurrentRevisionId.getD job.baseRevisionId))
      (fun page => { page with freshness := .stale }) stale_id }

def Db.Applies (before : Db) (jobId id : Uuid) (after : Db) : Prop :=
  ∃ job source base revision revisions,
    before.jobs.find jobId = some job ∧ job.state = .ready ∧
      before.sources.find job.sourceId = some source ∧ source.state ≠ .deleted ∧
      source.currentRevisionId = job.baseCurrentRevisionId ∧
      before.revisions.find job.baseRevisionId = some base ∧ base.deletedAt = none ∧
      (∀ row ∈ before.live job.sourceId, row.revisionNo ≤ base.revisionNo) ∧
      revision.id = id ∧ revision.sourceId = job.sourceId ∧ revision.original = base.original ∧
      revision.deletedAt = none ∧ revision.result.readableState.isReadable = true ∧
      before.revisions.insert revision = some revisions ∧
      after = before.afterApplying revisions job id

def Db.AppliesNone (before after : Db) : Prop :=
  ∀ {jobId later}, after.jobs.find jobId = some later → later.state = .applied →
    ∃ row, before.jobs.find jobId = some row ∧ row.state = .applied

def Request.Effect (number : Nat) (before after : Db) : Request → Prop
  | .applyOcrJob _ scope _ => after = before ∨ before.Applies scope.jobId (.drawn number 0) after
  | _ => before.AppliesNone after

section
variable (tools : Tools)

def Original.Describes (original : Original) (object : Object) : Prop :=
  ∃ bytes, object.body = .bytes bytes ∧ object.size = bytes.length ∧
    original.sha256 = tools.sha256 (.bytes bytes) ∧ original.size = bytes.length

def NewSource.Kept (input : NewSource) (receipt : Receipt) (db : Db) : Prop :=
  (∀ id, input.sourceId = some id → receipt.sourceId = id) ∧
    (∀ id, input.revisionId = some id → receipt.revisionId = id) ∧
    ∃ row, db.revisions.find receipt.revisionId = some row ∧ row.sourceId = receipt.sourceId ∧
      row.original.sha256 = tools.sha256 (.bytes input.bytes) ∧
      row.original.size = input.bytes.length ∧ row.original.filename = input.filename ∧
      row.original.mime = input.mimeType ∧ row.deletedAt = none

structure NewSource.Repeats (input : NewSource) (projectId : Uuid) (began : Db) (row : Revision)
    (source : Source) : Prop where
  revision : input.revisionId = some row.id
  found : began.captured row.id = some (row, source)
  owner : input.sourceId = some row.sourceId
  kind : input.kind = .file
  bytes : input.bytes ≠ [] ∧ input.bytes.length ≤ maxSourceBytes
  project : projectId ∈ began.projects
  attached : began.attached projectId row.sourceId = true
  same : row.original.sha256 = tools.sha256 (.bytes input.bytes) ∧
    row.original.size = input.bytes.length ∧ row.original.filename = input.filename ∧
    row.original.mime = input.mimeType
  live : row.deletedAt = none ∧ source.state ≠ .deleted
  copy : hasCopyKey row.id row.original.key = true

structure Custody (world : World) : Prop where
  whole : world.db.Whole
  kept : ∀ {id row}, world.db.revisions.find id = some row →
    ∃ object, world.bucket.find row.original.key = some object ∧ row.original.Describes tools object
  applied : ∀ {jobId revisionId}, (jobId, revisionId) ∈ world.history.applied →
    ∃ row, world.db.jobs.find jobId = some row ∧ row.AppliedAs revisionId
  captured : ∀ {entry receipt}, entry ∈ world.history.captured → entry.result = .ok receipt →
    entry.input.Kept tools receipt world.db
  repeated : ∀ {entry row source}, entry ∈ world.history.captured →
    entry.input.Repeats tools entry.projectId entry.began row source →
    entry.result = .ok ⟨row.sourceId, row.id⟩ ∨ entry.result = .error .other
  began : ∀ {entry}, entry ∈ world.history.captured → entry.began.Persists world.db

structure Leaves (number : Nat) (before after : World) : Prop where
  revisions : ∀ {id row}, after.db.revisions.find id = some row → id.drawnBy number = true →
    ∃ old, before.db.revisions.find id = some old
  originals : ∀ {id row}, after.db.revisions.find id = some row →
    row.original.key.drawnBy number = true →
    ∃ other old, before.db.revisions.find other = some old ∧ old.original.key = row.original.key
  objects : ∀ {key object}, key.drawnBy number = true → before.bucket.find key = some object →
    after.bucket.find key = some object

structure Unused (number : Nat) (db : Db) : Prop where
  revisions : ∀ {id row}, db.revisions.find id = some row → id.drawnBy number = false
  originals : ∀ {id row}, db.revisions.find id = some row → row.original.key.drawnBy number = false

def custody (guarantee : World → World → Prop) : Pact World where
  inv := Custody tools
  evolve before after := before.db.Persists after.db
  rely := Leaves
  fresh number world := Unused number world.db
  guarantee

end

section
variable {tools : Tools} {number : Nat} {guarantee : World → World → Prop}

theorem Leaves.same (revisions : after.db.revisions = before.db.revisions)
    (bucket : after.bucket = before.bucket) : Leaves number before after := by
  refine ⟨fun found _ => ?_, fun found _ => ?_, fun _ found => ?_⟩
  · exact ⟨_, revisions ▸ found⟩
  · exact ⟨_, _, revisions ▸ found, rfl⟩
  · rw [bucket, found]

theorem Leaves.refl (world : World) : Leaves number world world := .same rfl rfl

theorem Leaves.trans {first second third : World} (before : Leaves number first second)
    (after : Leaves number second third) : Leaves number first third where
  revisions found own := by
    obtain ⟨old, stored⟩ := after.revisions found own
    exact before.revisions stored own
  originals found own := by
    obtain ⟨id, old, stored, same⟩ := after.originals found own
    obtain ⟨other, older, last, equal⟩ := before.originals stored (same ▸ own)
    exact ⟨other, older, last, equal.trans same⟩
  objects own found := after.objects own (before.objects own found)

theorem Unused.leaves (unused : Unused number before.db)
    (leaves : Leaves number before after) : Unused number after.db where
  revisions {id row} found := by
    by_contra own
    obtain ⟨old, stored⟩ := leaves.revisions found (by simpa using own)
    exact own (unused.revisions stored)
  originals {id row} found := by
    by_contra own
    obtain ⟨other, old, stored, same⟩ := leaves.originals found (by simpa using own)
    exact own (same ▸ unused.originals stored)

theorem custody_lawful (stays : ∀ world, guarantee world world) : (custody tools guarantee).Lawful where
  evolve_refl world := .refl world.db
  evolve_trans := .trans
  rely_refl _ := .refl
  rely_trans := .trans
  fresh_stable _ _ leaves unused := unused.leaves leaves
  stays := stays

theorem NewSource.Kept.persists {input : NewSource} {receipt : Receipt} {before after : Db}
    (kept : input.Kept tools receipt before) (persists : before.Persists after) :
    input.Kept tools receipt after := by
  obtain ⟨source, revision, row, found, rest⟩ := kept
  obtain ⟨later, stored, same⟩ := persists.revisions found
  simp only [Revision.identity, Prod.mk.injEq] at same
  obtain ⟨own, _, original, deleted⟩ := same
  refine ⟨source, revision, later, stored, ?_⟩
  rw [own, original, deleted]
  exact rest

theorem Custody.told (custody : Custody tools before) (whole : after.db.Whole)
    (persists : before.db.Persists after.db)
    (kept : ∀ {id row}, after.db.revisions.find id = some row →
      ∃ object, after.bucket.find row.original.key = some object ∧ row.original.Describes tools object)
    (applied : after.history.applied = before.history.applied)
    (captured : after.history.captured = before.history.captured) : Custody tools after where
  whole := whole
  kept := kept
  applied member := by
    rw [applied] at member
    obtain ⟨row, found, known⟩ := custody.applied member
    obtain ⟨later, stored, _, still⟩ := persists.jobs found
    exact ⟨later, stored, still known⟩
  captured member told := by
    rw [captured] at member
    exact (custody.captured member told).persists persists
  repeated member := custody.repeated (captured ▸ member)
  began member := (custody.began (captured ▸ member)).trans persists

theorem Custody.quiet (kept : Custody tools before)
    (quiet : before.db.Quiet after.db)
    (bucket : ∀ {key object}, before.bucket.find key = some object → after.bucket.find key = some object)
    (applied : after.history.applied = before.history.applied)
    (captured : after.history.captured = before.history.captured) (granted : guarantee before after) :
    (custody tools guarantee).Fair number before after where
  inv := by
    apply kept.told (quiet.whole kept.whole) quiet.persists _ applied captured
    intro id row found
    obtain ⟨old, stored, same⟩ := map_some (quiet.revisions _).symm found
    obtain ⟨object, present, describes⟩ := kept.kept stored
    simp only [Revision.identity, Prod.mk.injEq] at same
    rw [← same.2.2.1]
    exact ⟨object, bucket present, describes⟩
  evolve := quiet.persists
  others other _ := by
    refine ⟨fun found _ => ?_, fun found _ => ?_, fun _ => bucket⟩
    · obtain ⟨old, stored, _⟩ := map_some (quiet.revisions _).symm found
      exact ⟨old, stored⟩
    · obtain ⟨old, stored, same⟩ := map_some (quiet.revisions _).symm found
      simp only [Revision.identity, Prod.mk.injEq] at same
      exact ⟨_, old, stored, congrArg Original.key same.2.2.1⟩
  granted := granted

theorem SourceStep.fair (kept : Custody tools before)
    (step : SourceStep before after) (granted : guarantee before after) :
    (custody tools guarantee).Fair number before after := by
  refine kept.quiet step.quiet ?_ ?_ ?_ granted
  · intro key object found
    cases step with
    | store stored plain => exact find_insert_of_find stored found
    | _ => exact found
  all_goals cases step <;> rfl

theorem OcrWrite.fair (kept : Custody tools before)
    (write : OcrWrite before after) (granted : guarantee before after) :
    (custody tools guarantee).Fair number before after := by
  refine kept.quiet write.quiet ?_ ?_ ?_ granted
  · intro key object found
    cases write with
    | artifact stored plain => exact find_insert_of_find stored found
    | _ => exact found
  all_goals
    cases write with
    | close id report =>
      dsimp only
      split <;> rfl
    | _ => rfl

theorem PageWrite.fair (kept : Custody tools before)
    (write : PageWrite tools before after) (granted : guarantee before after) :
    (custody tools guarantee).Fair number before after := by
  refine kept.quiet write.quiet ?_ ?_ ?_ granted
  · intro key object found
    cases write with
    | keep stored => exact find_insert_of_find stored found
    | _ => exact found
  · cases write with
    | dispatch job ordinal tokenBound now history dispatched same => exact same.2.1
    | _ => rfl
  · cases write with
    | dispatch job ordinal tokenBound now history dispatched same => exact same.2.2
    | _ => rfl

end

end Library
