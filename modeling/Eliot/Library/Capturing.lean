import Eliot.Library.Applying

namespace Library
open Relational Async Pact List Table Does

variable {tools : Tools} {number : Nat}

section
variable {db after : Db}

structure Db.Admits (before after : Db) : Prop where
  whole : after.Whole
  persists : before.Persists after
  jobs : after.jobs = before.jobs
  revisions : after.revisions = before.revisions

theorem insertSource_admits {sourceId : Uuid} {hash : Text} (whole : db.Whole)
    (inserted : db.insertSource sourceId hash = some after) : db.Admits after := by
  unfold Db.insertSource at inserted
  split at inserted
  · cases inserted
    exact ⟨whole, .refl db, rfl, rfl⟩
  · obtain ⟨sources, stored, rfl⟩ := Option.map_eq_some_iff.mp inserted
    have keeps : ∀ {id source}, db.sources.find id = some source → sources.find id = some source :=
      find_insert_of_find stored
    refine ⟨⟨?_, ?_, whole.based, whole.marked, ?_⟩, { Db.Persists.refl db with
      sources := fun found => ⟨_, keeps found, rfl⟩ }, rfl, rfl⟩
    · intro id row found
      obtain ⟨source, owner⟩ := whole.owned found
      exact ⟨source, keeps owner⟩
    · intro id source revisionId found head
      have found : sources.find id = some source := found
      rw [find_insert stored] at found
      split at found
      · cases found
        cases head
      · exact whole.headed found head
    · intro left right first second one two here there same
      have present : ∀ {id row}, db.revisions.find id = some row →
          Db.Present { db with sources } row → db.Present row := by
        rintro id row found ⟨kept, source, owns, live⟩
        obtain ⟨owner, known⟩ := whole.owned found
        obtain rfl : owner = source := Option.some.inj ((keeps known).symm.trans owns)
        exact ⟨kept, owner, known, live⟩
      exact whole.distinct one two (present one here) (present two there) same

theorem duplicate_false {hash : Text} {other : Uuid → Bool} (single : db.duplicate hash other = false)
    {id : Uuid} {row : Revision} {source : Source} (found : db.revisions.find id = some row)
    (bytes : row.original.sha256 = hash) (live : row.deletedAt = none)
    (owner : db.sources.find row.sourceId = some source) (state : source.state ≠ .deleted) :
    other source.id = false := by
  by_contra passes
  have any : db.duplicate hash other = true := by
    refine any_eq_true.mpr ⟨row, (find_some.mp found).1, ?_⟩
    simp_all
  rw [single] at any
  cases any

theorem insertCaptured_admits {row : Revision} {inserted : Nat} (whole : db.Whole)
    (captured : db.insertCaptured row = some (inserted, after)) :
    after.Whole ∧ db.Persists after ∧ after.jobs = db.jobs ∧
      (inserted = 0 ∧ after.revisions = db.revisions ∨
        inserted = 1 ∧ db.revisions.insert row = some after.revisions) := by
  unfold Db.insertCaptured at captured
  split at captured
  · cases captured
    exact ⟨whole, .refl db, rfl, .inl ⟨rfl, rfl⟩⟩
  rename_i single
  obtain ⟨grown, stored, same⟩ := Option.map_eq_some_iff.mp captured
  cases same
  obtain ⟨owned, _, revisions, grows, rfl⟩ := Db.insertRevision_some stored
  have keeps : ∀ {id old}, db.revisions.find id = some old → revisions.find id = some old :=
    find_insert_of_find grows
  have rows : ∀ {id found}, revisions.find id = some found →
      found = row ∨ db.revisions.find id = some found := by
    intro id found stored
    rw [find_insert grows] at stored
    split at stored
    · exact .inl (Option.some.inj stored).symm
    · exact .inr stored
  have alone : ∀ {id other}, db.revisions.find id = some other → db.Present other →
      db.Present row → other.original.sha256 = row.original.sha256 → other.sourceId = row.sourceId := by
    rintro id other found ⟨live, source, owner, state⟩ _ bytes
    have same := duplicate_false (by simpa using single) found bytes live owner state
    have own : source.id = other.sourceId := (find_some.mp owner).2
    simpa [own] using same
  refine ⟨⟨?_, ?_, ?_, ?_, ?_⟩, { Db.Persists.refl db with
    revisions := fun found => ⟨_, keeps found, rfl⟩ }, rfl, .inr ⟨rfl, grows⟩⟩
  · intro id found stored
    rcases rows stored with rfl | stored
    · exact Option.isSome_iff_exists.mp owned
    · exact whole.owned stored
  · intro id source revisionId found head
    obtain ⟨old, stored⟩ := whole.headed found head
    exact ⟨old, keeps stored⟩
  · intro id job found
    obtain ⟨base, stored, same⟩ := whole.based found
    exact ⟨base, keeps stored, same⟩
  · intro id job revisionId found mark
    obtain ⟨old, stored⟩ := whole.marked found mark
    exact ⟨old, keeps stored⟩
  · intro left right first second one two here there same
    rcases rows one with rfl | old
    · rcases rows two with rfl | older
      · rfl
      · exact (alone older there here same.symm).symm
    · rcases rows two with rfl | older
      · exact alone old here there same
      · exact whole.distinct old older here there same

theorem insertMembership_admits {projectId sourceId : Uuid} (whole : db.Whole)
    (inserted : db.insertMembership projectId sourceId = some after) : db.Admits after := by
  have quiet := Db.insertMembership_quiet inserted
  simp only [Db.insertMembership, Option.ite_none_left_eq_some] at inserted
  obtain ⟨memberships, _, rfl⟩ := Option.map_eq_some_iff.mp inserted.2
  exact ⟨quiet.whole whole, quiet.persists, rfl, rfl⟩

theorem captureBatch_admits {projectId : Uuid} {capture : Captured} {revisionNo inserted : Nat}
    {newSource : Bool} (whole : db.Whole)
    (captured : captureBatch projectId capture revisionNo newSource db = some (inserted, after)) :
    after.Whole ∧ db.Persists after ∧ after.jobs = db.jobs ∧
      (inserted = 0 ∧ after.revisions = db.revisions ∨
        inserted = 1 ∧ db.revisions.insert (capture.row revisionNo) = some after.revisions) := by
  unfold captureBatch at captured
  split at captured
  · obtain ⟨owned, first, rest⟩ := Option.bind_eq_some_iff.mp captured
    obtain ⟨⟨count, grown⟩, second, rest⟩ := Option.bind_eq_some_iff.mp rest
    obtain ⟨joined, third, last⟩ := Option.bind_eq_some_iff.mp rest
    cases last
    have own := insertSource_admits whole first
    obtain ⟨whole, persists, jobs, revisions⟩ := insertCaptured_admits own.whole second
    have joins := insertMembership_admits whole third
    refine ⟨joins.whole, (own.persists.trans persists).trans joins.persists, ?_, ?_⟩
    · rw [joins.jobs, jobs, own.jobs]
    · rw [joins.revisions, ← own.revisions]
      exact revisions
  · exact insertCaptured_admits whole captured

end

section
variable {guarantee : World → World → Prop} {projectId : Uuid} {input : NewSource} {before : World}

theorem Key.drawnBy_unique {key : Key} {other : Nat} (one : key.drawnBy number = true)
    (two : key.drawnBy other = true) : number = other := by
  have unique {id : Uuid} (one : id.drawnBy number = true) (two : id.drawnBy other = true) :
      number = other := by
    cases id <;> simp_all [Uuid.drawnBy]
  cases key with
  | original revisionId copy => cases copy <;> exact unique one two
  | _ => cases one

theorem captureKey_drawn : (input.capture tools number).original.key.drawnBy number = true := by
  cases chosen : input.revisionId <;> simp [NewSource.capture, chosen, Key.drawnBy, Uuid.drawnBy]

def NewSource.Told (input : NewSource) (db : Db) : Prop :=
  ∀ {id request}, input.revisionId = some id → id.drawnBy request = true →
    ∃ row, db.revisions.find id = some row

def Deposited (tools : Tools) (capture : Captured) (world : World) : Prop :=
  ∃ object, world.bucket.find capture.original.key = some object ∧
    capture.original.Describes tools object

theorem captureBatch_fair {revisionNo inserted : Nat} {newSource : Bool} {db : Db}
    (kept : Custody tools before) (told : input.Told before.db)
    (stored : Deposited tools (input.capture tools number) before)
    (captured : captureBatch projectId (input.capture tools number) revisionNo newSource before.db =
      some (inserted, db)) (granted : before.db.AppliesNone db → guarantee before { before with db }) :
    (custody tools guarantee).Fair number before { before with db } := by
  obtain ⟨whole, persists, jobs, revisions⟩ := captureBatch_admits kept.whole captured
  have quiet : before.db.AppliesNone db := fun found applied => ⟨_, jobs ▸ found, applied⟩
  rcases revisions with ⟨_, same⟩ | ⟨_, grows⟩
  · refine ⟨kept.told whole persists (fun found => kept.kept (same ▸ found)) rfl rfl, persists, ?_,
      granted quiet⟩
    exact fun other _ => Leaves.same same rfl
  have rows : ∀ {id found}, db.revisions.find id = some found →
      (found = (input.capture tools number).row revisionNo ∧ id = found.id) ∨
        before.db.revisions.find id = some found := by
    intro id found stored
    rw [find_insert grows] at stored
    split at stored
    · rename_i own
      cases stored
      exact .inl ⟨rfl, own.symm⟩
    · exact .inr stored
  refine ⟨kept.told whole persists ?_ rfl rfl, persists, fun other apart => ⟨?_, ?_, ?_⟩, granted quiet⟩
  · intro id row found
    rcases rows found with ⟨rfl, _⟩ | found
    · exact stored
    · exact kept.kept found
  · intro id row found own
    rcases rows found with ⟨rfl, rfl⟩ | found
    · exfalso
      cases chosen : input.revisionId with
      | none =>
        simp only [Captured.row, NewSource.capture, chosen, Option.getD_none, Uuid.drawnBy,
          decide_eq_true_eq] at own
        exact apart own.symm
      | some revisionId =>
        have same : ((input.capture tools number).row revisionNo).id = revisionId := by
          simp [Captured.row, NewSource.capture, chosen]
        obtain ⟨row, present⟩ := told chosen (same ▸ own)
        have fresh := (insert_some grows).1
        rw [same, present] at fresh
        cases fresh
    · exact ⟨row, found⟩
  · intro id row found own
    rcases rows found with ⟨rfl, _⟩ | found
    · exact absurd (Key.drawnBy_unique captureKey_drawn own).symm apart
    · exact ⟨id, row, found, rfl⟩
  · exact fun _ found => found

theorem fair_own {bucket : Bucket} (mine : Key) (kept : Custody tools before)
    (unused : Unused number before.db) (own : mine.drawnBy number = true)
    (same : ∀ key, key ≠ mine → bucket.find key = before.bucket.find key)
    (granted : guarantee before { before with bucket }) :
    (custody tools guarantee).Fair number before { before with bucket } := by
  refine ⟨kept.told kept.whole (.refl _) ?_ rfl rfl, .refl _, fun other apart => ?_, granted⟩
  · intro id row found
    rw [same _ fun equal => ?_]
    · exact kept.kept found
    · have unowned := unused.originals found
      rw [equal, own] at unowned
      cases unowned
  · refine ⟨fun found _ => ⟨_, found⟩, fun found _ => ⟨_, _, found, rfl⟩, fun theirs found => ?_⟩
    rw [same _ fun equal => ?_]
    · exact found
    · subst equal
      exact apart (Key.drawnBy_unique own theirs).symm

end

section
variable {projectId : Uuid} {input : NewSource}

abbrev capturing (tools : Tools) (number : Nat) (projectId : Uuid) (input : NewSource) : Pact World :=
  applying tools number (.addSource projectId input)

def NewSource.receipt (input : NewSource) (tools : Tools) (number : Nat) : Receipt :=
  ⟨(input.capture tools number).sourceId, (input.capture tools number).revisionId⟩

def Captured.Holds (capture : Captured) (db : Db) : Prop :=
  ∃ row, db.revisions.find capture.revisionId = some row ∧ row.sourceId = capture.sourceId ∧
    row.original = capture.original ∧ row.deletedAt = none

theorem receipt_given (tools : Tools) (number : Nat) (input : NewSource) :
    (∀ id, input.sourceId = some id → (input.receipt tools number).sourceId = id) ∧
      ∀ id, input.revisionId = some id → (input.receipt tools number).revisionId = id := by
  constructor <;> intro id chosen <;> simp [NewSource.receipt, NewSource.capture, chosen]

theorem Captured.Holds.kept {db : Db} (holds : (input.capture tools number).Holds db) :
    input.Kept tools (input.receipt tools number) db := by
  obtain ⟨row, found, own, original, live⟩ := holds
  refine ⟨(receipt_given tools number input).1, (receipt_given tools number input).2, row, found, own, ?_⟩
  rw [original]
  exact ⟨rfl, rfl, rfl, rfl, live⟩

theorem matches_kept {db : Db} {row : Revision} {source : Source}
    (found : db.captured (input.capture tools number).revisionId = some (row, source))
    (matched : (input.capture tools number).matches row source = true) :
    input.Kept tools (input.receipt tools number) db := by
  obtain ⟨old, stored, rest⟩ := Option.bind_eq_some_iff.mp found
  obtain ⟨owner, _, same⟩ := Option.bind_eq_some_iff.mp rest
  cases same
  simp only [Captured.matches, Bool.and_eq_true, decide_eq_true_eq, Option.isNone_iff_eq_none] at matched
  obtain ⟨⟨⟨⟨⟨⟨⟨own, sha⟩, size⟩, name⟩, mime⟩, live⟩, _⟩, _⟩ := matched
  exact ⟨(receipt_given tools number input).1, (receipt_given tools number input).2, row, stored, own, sha,
    size, name, mime, live⟩

section
variable {pact : Pact World} {guarantee : World → World → Prop}

theorem kept_stable {receipt : Receipt} :
    (custody tools guarantee).Stable number fun world => input.Kept tools receipt world.db :=
  fun _ _ sees kept => kept.persists sees.1

theorem told_stable : (custody tools guarantee).Stable number fun world => input.Told world.db := by
  intro before after _ _ sees told id request chosen drawn
  obtain ⟨row, found⟩ := told chosen drawn
  obtain ⟨later, stored, _⟩ := sees.1.revisions found
  exact ⟨later, stored⟩

theorem holds_stable {capture : Captured} :
    (custody tools guarantee).Stable number fun world => capture.Holds world.db := by
  rintro before after _ _ sees ⟨row, found, own, original, live⟩
  obtain ⟨later, stored, same⟩ := sees.1.revisions found
  simp only [Revision.identity, Prod.mk.injEq] at same
  exact ⟨later, stored, same.1.trans own, same.2.2.1.trans original, same.2.2.2.trans live⟩

theorem deposited_stable : (custody tools guarantee).Stable number
    fun world => Deposited tools (input.capture tools number) world := by
  rintro before after _ _ sees ⟨object, found, describes⟩
  exact ⟨object, sees.2.objects captureKey_drawn found, describes⟩

end

theorem capturing_same (before after : World) (same : after.db = before.db) :
    before.db.AppliesNone after.db := by
  rw [same]
  exact (Db.Quiet.refl _).appliesNone

theorem discardOriginal_does {known : Db → Prop}
    (stable : (capturing tools number projectId input).Stable number fun world => known world.db) :
    (capturing tools number projectId input).Does number
      (fun world => Unused number world.db ∧ known world.db)
      (discardOriginal (input.capture tools number)) (Given fun _ world => known world.db) := by
  have deletes : (capturing tools number projectId input).Does number
      (fun world => Unused number world.db ∧ known world.db)
      (delete (input.capture tools number).original.key).attempt fun _ world => known world.db := by
    apply attempt
    apply does_reply applying_lawful (stable_and unused_stable stable)
    · exact fun _ _ holds => holds.2
    · rintro world kept ⟨unused, holds⟩ choice value after done
      cases done
      refine ⟨fair_own (input.capture tools number).original.key kept unused captureKey_drawn
        (fun key other => ?_) (capturing_same _ _ rfl), holds, holds⟩
      rw [find_without, if_neg other]
  exact deletes.bind (fun _ => returns fun _ _ holds => holds) fun _ _ _ _ => trivial

theorem putOriginal_does : (capturing tools number projectId input).Does number
    (fun world => Unused number world.db ∧ input.Told world.db)
    (putOriginal (input.capture tools number) input.bytes input.revisionId.isSome)
    (Given fun stored world => (Unused number world.db ∧ input.Told world.db) ∧
      (stored = true → Deposited tools (input.capture tools number) world)) := by
  have stable : (capturing tools number projectId input).Stable number
      fun world => Unused number world.db ∧ input.Told world.db := stable_and unused_stable told_stable
  have describes (etag : Text) : (input.capture tools number).original.Describes tools
      ⟨(input.capture tools number).original.key, .bytes input.bytes, input.bytes.length, none, none,
        etag⟩ := ⟨input.bytes, rfl, rfl, rfl, rfl⟩
  unfold putOriginal
  split
  · apply Does.then fun (object : Option Object) world => (Unused number world.db ∧ input.Told world.db) ∧
      (object.isSome = true → Deposited tools (input.capture tools number) world)
    · apply does_call applying_lawful stable
      rintro world kept holds choice value after done
      cases inserted : world.bucket.insert ⟨(input.capture tools number).original.key, .bytes input.bytes,
          input.bytes.length, none, none, choice.etag⟩ with
      | none =>
        simp only [inserted, Option.some.injEq, Prod.mk.injEq] at done
        obtain ⟨rfl, rfl⟩ := done
        exact ⟨kept.quiet (.refl _) id rfl rfl (capturing_same _ _ rfl), holds, fun some => nomatch some⟩
      | some bucket =>
        simp only [inserted, Option.some.injEq, Prod.mk.injEq] at done
        obtain ⟨rfl, rfl⟩ := done
        refine ⟨kept.quiet (.refl _) (fun found => find_insert_of_find inserted found) rfl rfl
          (capturing_same _ _ rfl), holds, fun _ => ⟨_, ?_, describes choice.etag⟩⟩
        rw [find_insert inserted]
        exact if_pos rfl
    · exact fun object => returns fun _ _ holds => holds
  · apply Does.then fun (_ : Object) world => (Unused number world.db ∧ input.Told world.db) ∧
      Deposited tools (input.capture tools number) world
    · apply does_call applying_lawful stable
      rintro world kept holds choice value after done
      cases done
      refine ⟨fair_own (input.capture tools number).original.key kept holds.1 captureKey_drawn
        (fun key other => ?_) (capturing_same _ _ rfl), holds, _, ?_, describes choice.etag⟩
      · rw [find_write, if_neg other]
      · rw [find_write]
        exact if_pos rfl
    · exact fun _ => returns fun _ _ holds => ⟨holds.1, fun _ => holds.2⟩

def Settled (tools : Tools) (number : Nat) (input : NewSource) (found : Option (Revision × Source))
    (db : Db) : Prop :=
  (found = none → Unused number db) ∧ ∀ row source, found = some (row, source) →
    (input.revisionId = none → input.Kept tools (input.receipt tools number) db) ∧
      (row.original.key ≠ (input.capture tools number).original.key → Unused number db) ∧
      ((input.capture tools number).matches row source = true →
        input.Kept tools (input.receipt tools number) db)

theorem captured_settles {world : World} (kept : Custody tools world)
    (either : (input.capture tools number).Holds world.db ∨ Unused number world.db) :
    Settled tools number input (world.db.captured (input.capture tools number).revisionId) world.db := by
  constructor
  · intro absent
    rcases either with ⟨row, found, _⟩ | unused
    · obtain ⟨source, owner⟩ := kept.whole.owned found
      simp [Db.captured, found, owner] at absent
    · exact unused
  · intro row source found
    obtain ⟨old, stored, rest⟩ := Option.bind_eq_some_iff.mp found
    obtain ⟨owner, _, same⟩ := Option.bind_eq_some_iff.mp rest
    cases same
    refine ⟨fun drawn => ?_, fun apart => ?_, matches_kept found⟩
    · rcases either with holds | unused
      · exact holds.kept
      · have mine := unused.revisions stored
        simp [NewSource.capture, drawn, Uuid.drawnBy] at mine
    · rcases either with ⟨mine, here, _, original, _⟩ | unused
      · obtain rfl : mine = row := Option.some.inj (here.symm.trans stored)
        exact absurd (congrArg Original.key original) apart
      · exact unused

theorem settleCapture_does {failure : Failure} : (capturing tools number projectId input).Does number
    (fun world => (input.capture tools number).Holds world.db ∨ Unused number world.db)
    (settleCapture (input.capture tools number) input failure)
    (Given fun _ world => input.Kept tools (input.receipt tools number) world.db) := by
  have either : (capturing tools number projectId input).Stable number
      fun world => (input.capture tools number).Holds world.db ∨ Unused number world.db := by
    rintro before after one two sees (holds | unused)
    · exact .inl (holds_stable one two sees holds)
    · exact .inr (unused_stable one two sees unused)
  unfold settleCapture
  apply Does.then fun found world => Settled tools number input found world.db
  · exact does_query applying_lawful either fun world kept => captured_settles kept
  rintro (_ | ⟨row, source⟩)
  · apply Does.then fun _ _ => True
    · exact (@discardOriginal_does _ _ _ _ (fun _ => True) stable_true).weaken
        fun _ _ settled => ⟨settled.1 rfl, trivial⟩
    intro _
    apply Does.then fun _ _ => True
    · exact does_query applying_lawful stable_true fun _ _ _ => trivial
    intro raced
    split
    · exact does_fail
    split
    · exact does_fail
    · exact throws
  · let keeps (db : Db) : Prop := (input.capture tools number).matches row source = true →
      input.Kept tools (input.receipt tools number) db
    have stable : (capturing tools number projectId input).Stable number fun world => keeps world.db :=
      fun one two sees kept agrees => kept_stable one two sees (kept agrees)
    have answers : ∀ same : Bool, (capturing tools number projectId input).Does number
        (fun world => keeps world.db)
        (if !(input.capture tools number).matches row source then collision else return same)
        (Given fun _ world => input.Kept tools (input.receipt tools number) world.db) := by
      intro same
      split
      · exact does_fail
      · rename_i agrees
        exact returns fun _ _ kept => kept (by simpa using agrees)
    dsimp only
    split
    · rename_i drawn
      exact returns fun _ _ settled => (settled.2 row source rfl).1 (by simpa using drawn)
    split
    · rename_i apart
      apply Does.then fun _ world => keeps world.db
      · exact (discardOriginal_does stable).weaken fun _ _ settled =>
          ⟨(settled.2 row source rfl).2.1 apart, (settled.2 row source rfl).2.2⟩
      · exact fun _ => answers _
    · exact (answers _).weaken fun _ _ settled => (settled.2 row source rfl).2.2

theorem commitCapture_does {revisionNo : Nat} : (capturing tools number projectId input).Does number
    (fun world => (Unused number world.db ∧ input.Told world.db) ∧
      Deposited tools (input.capture tools number) world)
    (commitCapture projectId (input.capture tools number) input revisionNo)
    (Given fun _ world => input.Kept tools (input.receipt tools number) world.db) := by
  have batch : (capturing tools number projectId input).Does number
      (fun world => (Unused number world.db ∧ input.Told world.db) ∧
        Deposited tools (input.capture tools number) world)
      (d1 (captureBatch projectId (input.capture tools number) revisionNo input.sourceId.isNone)).attempt
      fun result world =>
        ((input.capture tools number).Holds world.db ∨ Unused number world.db) ∧
          ∀ inserted, result = .ok (.ok inserted) → inserted ≠ 0 →
            (input.capture tools number).Holds world.db := by
    apply attempt
    apply does_reply applying_lawful (stable_and (stable_and unused_stable told_stable) deposited_stable)
    · exact fun _ _ holds => ⟨.inr holds.1.1, fun _ same => nomatch same⟩
    rintro world kept ⟨⟨unused, told⟩, deposited⟩ choice inserted after done
    obtain ⟨⟨_, db⟩, ran, same⟩ := Option.map_eq_some_iff.mp done
    cases same
    have fair : (capturing tools number projectId input).Fair number world { world with db } :=
      captureBatch_fair kept told deposited ran fun none => none
    obtain ⟨_, _, _, ⟨rfl, same⟩ | ⟨rfl, grows⟩⟩ := captureBatch_admits kept.whole ran
    · have still : Unused number db :=
        ⟨fun found => unused.revisions (same ▸ found), fun found => unused.originals (same ▸ found)⟩
      exact ⟨fair, ⟨.inr still, fun _ zero changed => by cases zero; exact absurd rfl changed⟩,
        .inr still, fun _ same => nomatch same⟩
    · have holds : (input.capture tools number).Holds db :=
        ⟨_, (find_insert grows _).trans (if_pos rfl), rfl, rfl, rfl⟩
      exact ⟨fair, ⟨.inl holds, fun _ _ _ => holds⟩, .inl holds, fun _ same => nomatch same⟩
  apply batch.bind
  · rintro (failure | inserted)
    · exact settleCapture_does.weaken fun _ _ known => known.1
    · dsimp only
      split
      · rename_i changed
        exact returns fun _ _ known => (known.2 inserted rfl changed).kept
      · exact settleCapture_does.weaken fun _ _ known => known.1
  · exact fun _ _ _ _ => trivial

theorem addSource_does : (capturing tools number projectId input).Does number
    (fun world => Unused number world.db ∧ input.Told world.db) (addSource tools number projectId input)
    (Given fun receipt world => input.Kept tools receipt world.db) := by
  have stable : (capturing tools number projectId input).Stable number
      fun world => Unused number world.db ∧ input.Told world.db := stable_and unused_stable told_stable
  let known (db : Db) : Prop := Unused number db ∧ input.Told db
  unfold addSource
  apply Does.then _ (does_adds known (getProject_steps fun _ => .inl rfl) stable capturing_same)
  intro _
  split
  · exact does_fail
  split
  · exact does_fail
  apply Does.then _ (does_adds known (nextRevisionNo_steps fun _ => .inl rfl) stable capturing_same)
  intro revisionNo
  apply Does.then fun prior world => (Unused number world.db ∧ input.Told world.db) ∧
    (prior = true → input.Kept tools (input.receipt tools number) world.db)
  · cases chosen : input.revisionId with
    | none => exact returns fun _ _ holds => ⟨holds, fun prior => nomatch prior⟩
    | some revisionId =>
      apply Does.then fun (found : Option (Revision × Source)) world => known world.db ∧
        ∀ row source, found = some (row, source) →
          (input.capture tools number).matches row source = true →
            input.Kept tools (input.receipt tools number) world.db
      · exact does_query applying_lawful stable fun world _ holds =>
          ⟨holds, fun row source found agrees => matches_kept found agrees⟩
      rintro (_ | ⟨row, source⟩)
      · exact returns fun _ _ holds => ⟨holds.1, fun prior => nomatch prior⟩
      · dsimp only
        split
        · rename_i agrees
          exact returns fun _ _ holds => ⟨holds.1, fun _ => holds.2 row source rfl agrees⟩
        · exact does_fail
  intro prior
  split
  · rename_i prior
    exact returns fun _ _ holds => holds.2 prior
  apply Does.then fun _ world => known world.db
  · exact (does_query applying_lawful stable fun _ _ holds => holds).weaken fun _ _ holds => holds.1
  intro duplicate
  split
  · exact does_fail
  apply Does.then _ putOriginal_does
  intro stored
  split
  · exact does_fail
  rename_i put
  apply Does.then _ (commitCapture_does.weaken fun _ _ holds => ⟨holds.1, holds.2 (by simpa using put)⟩)
  intro committed
  split
  · have starts : (capturing tools number projectId input).Does number
        (fun world => input.Kept tools (input.receipt tools number) world.db)
        (startIngest (input.capture tools number).revisionId)
        fun _ world => input.Kept tools (input.receipt tools number) world.db := by
      apply keeps startIngest_steps kept_stable
      intro before after kept holds step
      have fair : (capturing tools number projectId input).Fair number before after :=
        step.fair kept step.quiet.appliesNone
      exact ⟨fair, holds.persists fair.evolve⟩
    exact starts.bind (fun _ => returns fun _ _ holds => holds) fun _ _ _ _ => trivial
  · exact returns fun _ _ holds => holds

end

section
variable {projectId : Uuid} {input : NewSource} {began : Db} {row : Revision} {source : Source}

def Answers {α : Type} (known : α → World → Prop) : Except Failure α → World → Prop
  | .ok value, world => known value world
  | .error failure, _ => failure = .other

theorem answers_then {α β : Type} {program : Task α} {rest : α → Task β} {pact : Pact World}
    {pre : World → Prop} (known : α → World → Prop) {later : β → World → Prop}
    (first : pact.Does number pre program (Answers known))
    (second : ∀ value, pact.Does number (known value) (rest value) (Answers later)) :
    pact.Does number pre (program.bind rest) (Answers later) :=
  first.bind second fun _ _ _ same => same

theorem query_answers {α : Type} {read : Db → α} {known : α → Prop}
    (each : ∀ db, db.Whole → began.Persists db → known (read db)) :
    (capturing tools number projectId input).Does number (fun world => began.Persists world.db)
      (query read) (Answers fun value world => known value ∧ began.Persists world.db) := by
  apply does_reply applying_lawful
  · exact fun _ _ sees since => since.trans sees.1
  · exact fun _ _ _ => rfl
  · intro world kept since choice value after done
    cases done
    exact ⟨fair_refl applying_lawful kept, ⟨each _ kept.whole since, since⟩, rfl⟩

theorem addSource_repeats (repeats : input.Repeats tools projectId began row source) :
    (capturing tools number projectId input).Does number (fun world => began.Persists world.db)
      (addSource tools number projectId input)
      (Answers fun receipt _ => receipt = ⟨row.sourceId, row.id⟩) := by
  obtain ⟨revision, found, owner, kind, ⟨nonempty, small⟩, project, attached, ⟨sha, size, name, mime⟩,
    ⟨live, state⟩, copy⟩ := repeats
  obtain ⟨old, stored, rest⟩ := Option.bind_eq_some_iff.mp found
  obtain ⟨owns, ownerFound, same⟩ := Option.bind_eq_some_iff.mp rest
  cases same
  have captured : ∀ db : Db, began.Persists db → ∃ later owner, db.captured row.id = some (later, owner) ∧
      later.identity = row.identity ∧ owner.state = source.state := by
    intro db since
    obtain ⟨later, present, same⟩ := since.revisions stored
    obtain ⟨owner, known, equal⟩ := since.sources ownerFound
    have own : later.sourceId = row.sourceId := congrArg Prod.fst same
    exact ⟨later, owner, by simp [Db.captured, present, own, known], same, equal⟩
  unfold addSource
  apply answers_then fun _ world => began.Persists world.db
  · unfold getProject
    apply answers_then fun value world => value = true ∧ began.Persists world.db
    · apply query_answers
      intro db _ since
      rw [since.projects]
      simpa using project
    intro value
    apply fact
    rintro rfl
    exact fun _ _ since => since
  intro _
  split
  · rename_i invalid
    simp [revision, owner, kind] at invalid
  split
  · rename_i invalid
    simp only [Bool.or_eq_true, List.isEmpty_iff, decide_eq_true_eq] at invalid
    rcases invalid with empty | large
    · exact absurd empty nonempty
    · omega
  apply answers_then fun _ world => began.Persists world.db
  · rw [owner]
    unfold nextRevisionNo
    apply answers_then fun value world => value ≠ none ∧ began.Persists world.db
    · apply query_answers
      intro db _ since
      obtain ⟨later, present, same⟩ := since.revisions stored
      have own : later.sourceId = row.sourceId := congrArg Prod.fst same
      rw [Db.attachedRevisionNo, if_pos (since.attached attached), Db.lastRevisionNo, ne_eq,
        max?_eq_none_iff, map_eq_nil_iff, filter_eq_nil_iff]
      intro none
      exact none later (find_some.mp present).1 (by simp [own])
    rintro (_ | last)
    · exact fact fun absurd => absurd.elim rfl
    · exact fun _ _ known => known.2
  intro revisionNo
  apply answers_then fun prior world => prior = true ∧ began.Persists world.db
  · rw [revision]
    unfold priorCapture
    apply answers_then fun value world => (∃ later owner, value = some (later, owner) ∧
      (input.capture tools number).matches later owner = true) ∧ began.Persists world.db
    · apply query_answers
      intro db _ since
      obtain ⟨later, owner', present, same, equal⟩ := captured db since
      refine ⟨later, owner', ?_, ?_⟩
      · rw [← present]
        simp [NewSource.capture, revision]
      · simp only [Revision.identity, Prod.mk.injEq] at same
        obtain ⟨own, _, original, deleted⟩ := same
        simp [Captured.matches, NewSource.capture, own, original, deleted, equal, sha, size, name, mime,
          live, state, revision, owner, copy]
    intro value
    apply fact
    rintro ⟨later, owner', rfl, agrees⟩
    dsimp only
    rw [if_pos agrees]
    exact fun _ _ since => ⟨rfl, since⟩
  intro prior
  apply fact
  rintro rfl
  rw [if_pos rfl]
  intro world _ _
  show (⟨_, _⟩ : Receipt) = _
  simp [NewSource.capture, owner, revision]

theorem repeats_unique {other : Revision} {another : Source}
    (first : input.Repeats tools projectId began row source)
    (second : input.Repeats tools projectId began other another) : other = row ∧ another = source := by
  have same : row.id = other.id := Option.some.inj (first.revision.symm.trans second.revision)
  have both := first.found.symm.trans (same ▸ second.found)
  simp only [Option.some.injEq, Prod.mk.injEq] at both
  exact ⟨both.1.symm, both.2.symm⟩

structure Ends (tools : Tools) (projectId : Uuid) (input : NewSource) (began : Db)
    (result : Except Failure Receipt) (world : World) : Prop where
  kept : Given (fun receipt world => input.Kept tools receipt world.db) result world
  repeated : ∀ {row source}, input.Repeats tools projectId began row source →
    result = .ok ⟨row.sourceId, row.id⟩ ∨ result = .error .other
  since : began.Persists world.db

theorem addSource_ends : (capturing tools number projectId input).Does number
    (fun world => (Unused number world.db ∧ input.Told world.db) ∧ began.Persists world.db)
    (addSource tools number projectId input) (Ends tools projectId input began) := by
  intro now inv ⟨known, persists⟩
  have since : (capturing tools number projectId input).evolve { now with db := began } now := persists
  have keeps := addSource_does now inv known
  by_cases repeats : ∃ row source, input.Repeats tools projectId began row source
  · obtain ⟨row, source, repeats⟩ := repeats
    have both := wp_evolves applying_lawful since (wp_and keeps (addSource_repeats repeats now inv persists))
    apply wp_mono inv both
    rintro result later _ ⟨⟨kept, answers⟩, still⟩
    refine ⟨kept, fun {other another} again => ?_, still⟩
    obtain ⟨rfl, rfl⟩ := repeats_unique repeats again
    cases result with
    | ok receipt => exact .inl (congrArg Except.ok answers)
    | error failure => exact .inr (congrArg Except.error answers)
  · apply wp_mono inv (wp_evolves applying_lawful since keeps)
    rintro result later _ ⟨kept, still⟩
    exact ⟨kept, fun again => absurd ⟨_, _, again⟩ repeats, still⟩

theorem serve_addSource : (capturing tools number projectId input).Does number
    (fun world => Unused number world.db ∧ input.Told world.db)
    (serve tools number (.addSource projectId input)) fun _ _ => True := by
  have stable : (capturing tools number projectId input).Stable number
      fun world => Unused number world.db ∧ input.Told world.db := stable_and unused_stable told_stable
  have looks : (capturing tools number projectId input).Does number
      (fun world => Unused number world.db ∧ input.Told world.db)
      (.look fun world => world.db : Task Db)
      (Given fun began world => (Unused number world.db ∧ input.Told world.db) ∧
        began.Persists world.db) :=
    act stable fun world kept holds _ => ⟨fair_refl applying_lawful kept, holds, .refl _⟩
  apply looks.bind
  · intro began
    have adds : (capturing tools number projectId input).Does number
        (fun world => (Unused number world.db ∧ input.Told world.db) ∧ began.Persists world.db)
        (addSource tools number projectId input).attempt (Given (Ends tools projectId input began)) :=
      attempt addSource_ends
    apply adds.bind
    · intro result
      apply does_note
      · rintro before after _ _ sees ⟨kept, repeated, since⟩
        refine ⟨?_, repeated, since.trans sees.1⟩
        cases result with
        | ok receipt => exact NewSource.Kept.persists kept sees.1
        | error failure => exact trivial
      rintro world kept ⟨told, repeated, since⟩
      refine ⟨{ kept with captured := ?_, repeated := ?_, began := ?_ }, .refl _,
        fun other _ => Leaves.same rfl rfl, (Db.Quiet.refl _).appliesNone⟩
      · intro entry receipt member answered
        rcases mem_append.mp member with old | new
        · exact kept.captured old answered
        · rw [mem_singleton.mp new] at answered ⊢
          cases answered
          exact told
      · intro entry row source member again
        rcases mem_append.mp member with old | new
        · exact kept.repeated old again
        · rw [mem_singleton.mp new] at again ⊢
          exact repeated again
      · intro entry member
        rcases mem_append.mp member with old | new
        · exact kept.began old
        · rw [mem_singleton.mp new]
          exact since
    · exact fun _ _ _ _ => trivial
  · exact fun _ _ _ _ => trivial

end

end Library
