import Mathlib.Logic.Relation
import Eliot.Text.Encoding
import Eliot.Wiki.Publication

namespace Wiki
open Async List Call

section

inductive Move : Shelf → Shelf → Prop
  | write (shelf : Shelf) (ref : VersionedRef) (manifest : Text) (page : WikiPageRevision) :
      Move shelf (shelf.write ref manifest page)
  | commit (shelf : Shelf) (head : WikiHeadReadback) (expected : Option Int)
      (current : shelf.revision head.pageRef.id = expected) : Move shelf (shelf.advance head)

def Moves : Shelf → Shelf → Prop := Relation.ReflTransGen Move

structure Later (before after : Shelf) : Prop where
  revisions : ∀ ref manifest page, before.revisions ref manifest = some page →
    after.revisions ref manifest = some page
  history : ∀ head ∈ before.history, head ∈ after.history

def Recorded (shelf : Shelf) : Prop := ∀ id head, shelf.heads id = some head → head ∈ shelf.history

theorem Later.trans {first second third : Shelf} (one : Later first second) (two : Later second third) :
    Later first third := by
  constructor
  · exact fun ref manifest page there => two.revisions _ _ _ (one.revisions ref manifest page there)
  · exact fun head listed => two.history head (one.history head listed)

variable {shelf before after : Shelf}

theorem write_later (ref : VersionedRef) (manifest : Text) (page : WikiPageRevision) :
    Later shelf (shelf.write ref manifest page) := by
  refine ⟨fun key name stored there => ?_, fun _ listed => listed⟩
  unfold Shelf.write
  by_cases fresh : key = ref ∧ name = manifest ∧ shelf.revisions ref manifest = none
  · obtain ⟨rfl, rfl, absent⟩ := fresh
    cases there.symm.trans absent
  · exact (if_neg fresh).trans there

theorem advance_later (head : WikiHeadReadback) : Later shelf (shelf.advance head) :=
  ⟨fun _ _ _ there => there, fun _ listed => mem_append_left _ listed⟩

theorem advance_recorded (recorded : Recorded shelf) (head : WikiHeadReadback) :
    Recorded (shelf.advance head) := by
  intro id other there
  unfold Shelf.advance at there
  by_cases own : id = head.pageRef.id
  · have same : head = other := by simpa [own] using there
    exact same ▸ mem_append_right _ (mem_singleton_self _)
  · exact mem_append_left _ (recorded id other (by simpa [own] using there))

theorem Move.keeps (move : Move before after) (recorded : Recorded before) :
    Later before after ∧ Recorded after ∧ after.own = before.own := by
  cases move with
  | write ref manifest page => exact ⟨write_later _ _ _, recorded, rfl⟩
  | commit head expected current => exact ⟨advance_later _, advance_recorded recorded _, rfl⟩

theorem Moves.keeps (moves : Moves before after) (recorded : Recorded before) :
    Later before after ∧ Recorded after ∧ after.own = before.own := by
  induction moves with
  | refl => exact ⟨⟨fun _ _ _ there => there, fun _ listed => listed⟩, recorded, rfl⟩
  | tail _ move ih =>
    obtain ⟨later, kept, own⟩ := ih
    obtain ⟨further, still, same⟩ := move.keeps kept
    exact ⟨later.trans further, still, same.trans own⟩

def Shelf.unmarked (shelf : Shelf) : Shelf := { shelf with own := none }

theorem Move.unmarked (move : Move before after) : Move before.unmarked after.unmarked := by
  cases move with
  | write ref manifest page => exact .write before.unmarked ref manifest page
  | commit head expected current => exact .commit before.unmarked head expected current

theorem Moves.unmarked (moves : Moves before after) : Moves before.unmarked after.unmarked := by
  induction moves with
  | refl => exact .refl
  | tail _ move ih => exact ih.tail move.unmarked

end

section
variable (tools : Tools)

def Published (shelf : Shelf) (page : WikiPageRevision) : Prop :=
  ∃ manifest stored, ⟨page.pageRef, manifest⟩ ∈ shelf.history ∧
    shelf.revisions page.pageRef manifest = some stored ∧ samePage tools stored page = true

structure Honest (result : Except Failure WikiPageRevision) (final : Shelf) : Prop where
  returned : ∀ page, result = .ok page → Published tools final page
  conflict : ∀ error, result = .error (.publication error) → error.code = .headConflict →
    final.own = none

def Unsurpassed : Purpose → Choice → Shelf → Prop
  | .settled, choice, shelf =>
    ∀ head, shelf.own = some head → choice.fails = true ∨ shelf.heads head.pageRef.id = some head
  | _, _, _ => True

def unsurpassed : Setting Shelf Purpose Choice := ⟨Moves, Unsurpassed⟩

structure Track (start now : Shelf) : Prop where
  recorded : Recorded now
  moves : Moves start.unmarked now.unmarked

def Ended (start : Shelf) (result : Except Failure WikiPageRevision) (final : Shelf) : Prop :=
  Track start final ∧ Honest tools result final

variable {tools} {start now : Shelf}

theorem Track.moved {later : Shelf} (track : Track start now) (moves : Moves now later) :
    Track start later :=
  ⟨(moves.keeps track.recorded).2.1, track.moves.trans moves.unmarked⟩

variable {α : Type}

theorem Ended.failed {error : WikiPublicationError} (track : Track start now)
    (unowned : error.code = .headConflict → now.own = none) :
    Ended tools start (.error (.publication error)) now := by
  refine ⟨track, ⟨(fun page ok => by cases ok), fun other same conflict => ?_⟩⟩
  cases same
  exact unowned conflict

variable {post : Except Failure α → Shelf → Prop}

theorem wp_require {condition : Bool} {code : WikiPublicationErrorCode} {message : String}
    {rest : Unit → Publishing α}
    (failed : post (.error (.publication ⟨code, text message, false⟩)) now)
    (passed : condition = true → (rest ()).wp unsurpassed post now) :
    ((require condition code message).bind rest).wp unsurpassed post now := by
  cases condition with
  | false => exact failed
  | true => exact passed rfl

theorem wp_required {condition : Bool} {code : WikiPublicationErrorCode} {message : String}
    {post : Except Failure Unit → Shelf → Prop}
    (failed : post (.error (.publication ⟨code, text message, false⟩)) now)
    (passed : condition = true → post (.ok ()) now) :
    (require condition code message).wp unsurpassed post now := by
  cases condition with
  | false => exact failed
  | true => exact passed rfl

theorem wp_parseRef {ref : VersionedRef} {label : String} {rest : VersionedRef → Publishing α}
    (failed : ∀ message, post (.error (.publication ⟨.inputInvalid, message, false⟩)) now)
    (passed : tools.refSchema ref = true → (rest ref).wp unsurpassed post now) :
    ((parseRef tools ref label).bind rest).wp unsurpassed post now := by
  unfold parseRef
  cases valid : tools.refSchema ref with
  | false => exact failed _
  | true => exact passed valid

variable {page : WikiPageRevision}

theorem wp_parsePage {rest : WikiPageRevision → Publishing α}
    (failed : ∀ message, post (.error (.publication ⟨.inputInvalid, message, false⟩)) now)
    (passed : (rest page).wp unsurpassed post now) :
    ((parsePage tools page).bind rest).wp unsurpassed post now := by
  unfold parsePage
  cases tools.pageSchema page with
  | false => exact failed _
  | true =>
    cases tools.canonicalPage page with
    | error message => exact failed _
    | ok canonical => exact passed

variable {purpose : Purpose}

theorem wp_ask {action : Choice → Shelf → α × Shelf}
    (answered : ∀ later, Moves now later → ∀ choice, Unsurpassed purpose choice later →
      choice.fails = false → post (.ok (action choice later).1) (action choice later).2)
    (lost : ∀ later, Moves now later → ∀ choice, choice.fails = true →
      post (.error .port) (action choice later).2) :
    (ask purpose action).wp unsurpassed post now := by
  intro later moved choice met
  cases fails : choice.fails with
  | false =>
    have reached := answered later moved choice met fails
    simp only [fails]
    exact reached
  | true =>
    have reached := lost later moved choice fails
    simp only [fails]
    exact reached

theorem wp_settling {action : Choice → Shelf → α × Shelf} {message : String}
    (answered : ∀ later, Moves now later → ∀ choice,
      post (.ok (action choice later).1) (action choice later).2)
    (lost : ∀ later, Moves now later → ∀ choice,
      post (.error (.publication ⟨.settlementUncertain, text message, true⟩)) (action choice later).2) :
    (settling (ask purpose action) message).wp unsurpassed post now := by
  refine wp_bind (wp_attempt (wp_ask (fun later moved choice _ _ => ?_)
    fun later moved choice _ => ?_))
  · exact answered later moved choice
  · exact lost later moved choice

/-- What the head of a page says about a revision; where the call committed it with these bytes, the
    head does not say something else. -/
theorem reconcileHead_wp {manifest : Option Text}
    {post : Except Failure Reconciliation → Shelf → Prop} (track : Track start now)
    (settles : ∀ head, now.own = some head → purpose = .settled ∧ head.pageRef = page.pageRef ∧
      manifest = some head.manifestRef ∧ boundedNonEmpty head.manifestRef = true ∧
      ∃ stored, now.revisions page.pageRef head.manifestRef = some stored ∧
        samePage tools stored page = true)
    (matched : ∀ later, Track start later → Published tools later page → post (.ok .matched) later)
    (different : ∀ later, Track start later → later.own = none → post (.ok .different) later)
    (unsettled : ∀ later outcome, Track start later → outcome = .absent ∨ outcome = .unknown →
      post (.ok outcome) later) :
    (reconcileHead tools purpose page manifest).wp unsurpassed post now := by
  refine wp_bind (wp_attempt (wp_ask (fun middle moved choice met told => ?_)
    fun later moved choice _ => unsettled later _ (track.moved moved) (.inr rfl)))
  have kept := track.moved moved
  obtain ⟨onward, -, same⟩ := moved.keeps track.recorded
  dsimp only
  cases found : middle.heads page.pageRef.id with
  | none => exact unsettled middle _ kept (.inl rfl)
  | some head =>
    have own (committed : WikiHeadReadback) (mine : middle.own = some committed) : committed = head := by
      obtain ⟨rfl, ref, -⟩ := settles committed (same ▸ mine)
      rcases met committed mine with lost | there
      · cases told.symm.trans lost
      · rw [ref, found] at there
        exact (Option.some.inj there).symm
    dsimp only
    split
    · exact unsettled middle _ kept (.inr rfl)
    split
    · rename_i differs
      refine different middle kept ?_
      cases mine : middle.own with
      | none => rfl
      | some committed =>
        obtain ⟨-, ref, named, bounded, -⟩ := settles committed (same ▸ mine)
        obtain rfl := own committed mine
        simp [ref, named, bounded] at differs
    · rename_i agrees
      refine wp_bind (wp_attempt (wp_ask (fun later further choice _ _ => ?_)
        fun later further choice _ => unsettled later _ (kept.moved further) (.inr rfl)))
      have last := kept.moved further
      obtain ⟨beyond, -, still⟩ := further.keeps kept.recorded
      have ref : head.pageRef = page.pageRef := by
        by_contra other
        exact agrees (by simp [other])
      dsimp only
      cases there : later.revisions page.pageRef head.manifestRef with
      | none => exact unsettled later _ last (.inr rfl)
      | some stored =>
        cases equal : samePage tools stored page with
        | true =>
          dsimp only
          rw [equal]
          refine matched later last ⟨head.manifestRef, stored, ?_, there, equal⟩
          rw [← ref]
          exact beyond.history _ (kept.recorded _ _ found)
        | false =>
          dsimp only
          rw [equal]
          refine different later last ?_
          cases mine : later.own with
          | none => rfl
          | some committed =>
            obtain ⟨-, -, -, -, bytes, written, alike⟩ := settles committed (same ▸ still ▸ mine)
            obtain rfl := own committed (still ▸ mine)
            have present := beyond.revisions _ _ _ (onward.revisions _ _ _ written)
            cases there.symm.trans present
            cases equal.symm.trans alike

theorem Ended.returned (track : Track start now)
    (published : Published tools now page) : Ended tools start (.ok page) now := by
  refine ⟨track, ⟨fun other same => ?_, (fun error other => by cases other)⟩⟩
  cases same
  exact published

theorem reconciled_wp {manifest : Option Text}
    {next : Reconciliation → Publishing WikiPageRevision} (track : Track start now)
    (settles : ∀ head, now.own = some head → purpose = .settled ∧ head.pageRef = page.pageRef ∧
      manifest = some head.manifestRef ∧ boundedNonEmpty head.manifestRef = true ∧
      ∃ stored, now.revisions page.pageRef head.manifestRef = some stored ∧
        samePage tools stored page = true)
    (matched : next .matched = .done (.ok page))
    (different : ∃ error, next .different = .done (.error (.publication error)))
    (unsettled : ∀ outcome, outcome = .absent ∨ outcome = .unknown → ∃ message,
      next outcome = .done (.error (.publication ⟨.settlementUncertain, message, true⟩))) :
    ((reconcileHead tools purpose page manifest).bind next).wp unsurpassed (Ended tools start) now := by
  refine wp_bind (reconcileHead_wp track settles (fun later kept published => ?_)
    (fun later kept none => ?_) fun later outcome kept either => ?_)
  · dsimp only
    rw [matched]
    exact .returned kept published
  · obtain ⟨error, ends⟩ := different
    dsimp only
    rw [ends]
    exact .failed kept fun _ => none
  · obtain ⟨message, ends⟩ := unsettled outcome either
    dsimp only
    rw [ends]
    exact .failed kept fun conflict => by cases conflict

theorem Track.committed (track : Track start now) {head : WikiHeadReadback} {expected : Option Int}
    (current : now.revision head.pageRef.id = expected) :
    Track start { now.advance head with own := some head } :=
  ⟨advance_recorded track.recorded head, track.moves.tail (.commit now.unmarked head expected current)⟩

theorem commitHead_wp {page stored : WikiPageRevision} {commit : WikiHeadCommit}
    {post : Except Failure WikiHeadCommitDisposition → Shelf → Prop} (track : Track start now)
    (unowned : now.own = none) (same : commit.page = page)
    (written : now.revisions page.pageRef commit.manifestRef = some stored)
    (replied : ∀ later result, Track start later →
      later.revisions page.pageRef commit.manifestRef = some stored →
      (∀ head, later.own = some head → head = ⟨page.pageRef, commit.manifestRef⟩) →
      (result = .ok .conflict ∨ result = .ok .other → later.own = none) → post result later) :
    (commitHead commit).wp unsurpassed post now := by
  subst same
  have acted (later : Shelf) (moved : Moves now later) (choice : Choice)
      (result : WikiHeadCommitDisposition → Except Failure WikiHeadCommitDisposition)
      (told : ∀ reply, (result reply = .ok .conflict → reply = .conflict) ∧
        (result reply = .ok .other → reply = .other)) :
      let head : WikiHeadReadback := ⟨commit.page.pageRef, commit.manifestRef⟩
      let acted := if choice.applied ∧ later.revision commit.page.pageRef.id = commit.expectedHeadRevision then
          (.committed, { later.advance head with own := some head })
        else (if choice.disposition = .committed then .conflict else choice.disposition, later)
      post (result acted.1) acted.2 := by
    have kept := track.moved moved
    obtain ⟨onward, -, own⟩ := moved.keeps track.recorded
    intro head
    dsimp only
    split
    · rename_i current
      refine replied _ _ (kept.committed current.2) (onward.revisions _ _ _ written)
        (fun other mine => (Option.some.inj mine).symm) fun either => ?_
      rcases either with conflict | other
      · cases (told .committed).1 conflict
      · cases (told .committed).2 other
    · refine replied _ _ kept (onward.revisions _ _ _ written) (fun other mine => ?_) fun _ => own.trans unowned
      cases (own.trans unowned).symm.trans mine
  exact wp_ask (fun later moved choice _ _ => acted later moved choice .ok fun reply =>
      ⟨fun same => Except.ok.inj same, fun same => Except.ok.inj same⟩)
    fun later moved choice _ => acted later moved choice (fun _ => .error .port) fun reply =>
      ⟨(fun same => by cases same), fun same => by cases same⟩

theorem commitPublished_wp {page stored : WikiPageRevision} {commit : WikiHeadCommit}
    (track : Track start now) (unowned : now.own = none) (same : commit.page = page)
    (bounded : boundedNonEmpty commit.manifestRef = true)
    (written : now.revisions page.pageRef commit.manifestRef = some stored)
    (alike : samePage tools stored page = true) :
    (commitPublished tools page commit).wp unsurpassed (Ended tools start) now := by
  refine wp_bind (wp_attempt (commitHead_wp track unowned same written ?_))
  intro later result kept there mine refused
  have settles (head : WikiHeadReadback) (own : later.own = some head) : Purpose.settled = .settled ∧
      head.pageRef = page.pageRef ∧ some commit.manifestRef = some head.manifestRef ∧
      boundedNonEmpty head.manifestRef = true ∧ ∃ stored,
        later.revisions page.pageRef head.manifestRef = some stored ∧ samePage tools stored page = true := by
    obtain rfl := mine head own
    exact ⟨rfl, rfl, rfl, bounded, stored, there, alike⟩
  cases result with
  | error failure =>
    refine reconciled_wp kept settles rfl ⟨_, rfl⟩ fun outcome either => ?_
    rcases either with rfl | rfl <;> exact ⟨_, rfl⟩
  | ok disposition =>
    cases disposition with
    | conflict => exact .failed kept fun _ => refused (.inl rfl)
    | other => exact .failed kept fun conflict => by cases conflict
    | committed =>
      refine reconciled_wp kept settles rfl ⟨_, rfl⟩ fun outcome either => ?_
      rcases either with rfl | rfl <;> exact ⟨_, rfl⟩
    | existing =>
      refine reconciled_wp kept settles rfl ⟨_, rfl⟩ fun outcome either => ?_
      rcases either with rfl | rfl <;> exact ⟨_, rfl⟩

theorem Track.kept {later : Shelf} (track : Track start now) (unowned : now.own = none)
    (moves : Moves now later) : Track start later ∧ later.own = none :=
  ⟨track.moved moves, (moves.keeps track.recorded).2.2.trans unowned⟩

theorem Track.written {later : Shelf} (track : Track start now) (unowned : now.own = none)
    (moved : Moves now later) (written : Option Text) :
    let after := match written with
      | some manifest => later.write page.pageRef manifest page
      | none => later
    Track start after ∧ after.own = none := by
  cases written with
  | none => exact track.kept unowned moved
  | some manifest => exact track.kept unowned (moved.tail (.write later page.pageRef manifest page))

variable {committer : Text} {stored : WikiProposalRecord}

theorem writePublished_wp {expected : Option Int}
    (track : Track start now) (unowned : now.own = none) :
    (writePublished tools stored page expected committer).wp unsurpassed (Ended tools start) now := by
  refine wp_bind (wp_settling (fun first moved choice => ?_) fun first moved choice => ?_)
  · obtain ⟨kept, none⟩ := track.written unowned moved choice.written
    dsimp only
    refine wp_bind (wp_require (Ended.failed kept fun _ => none) fun _ => ?_)
    refine wp_required (Ended.failed kept fun _ => none) fun receipt => ?_
    refine wp_bind (wp_settling (fun second further choice => ?_) fun second further choice => ?_)
    · obtain ⟨last, none⟩ := kept.kept none further
      dsimp only
      refine wp_require (Ended.failed last fun _ => none) fun readback => ?_
      obtain ⟨bytes, there, alike⟩ := (Option.any_eq_true _ _).mp readback
      simp only [Bool.and_eq_true] at receipt
      exact commitPublished_wp last none rfl receipt.1.1.2 there alike
    · obtain ⟨last, none⟩ := kept.kept none further
      exact .failed last fun _ => none
  · obtain ⟨kept, none⟩ := track.written unowned moved choice.written
    exact .failed kept fun _ => none

theorem validatePublication_wp {post : Except Failure Unit → Shelf → Prop} (track : Track start now)
    (unowned : now.own = none)
    (passed : ∀ later, Track start later → later.own = none → post (.ok ()) later)
    (failed : ∀ later error, Track start later → later.own = none →
      post (.error (.publication error)) later) :
    (validatePublication tools).wp unsurpassed post now := by
  have finish (later : Shelf) (kept : Track start later) (none : later.own = none) (condition : Bool) :
      (require condition .publicationIncomplete
        "wiki publication evidence, coverage, or dependency closure is incomplete").wp unsurpassed post
          later := by
    cases condition with
    | false => exact failed later _ kept none
    | true => exact passed later kept none
  refine wp_bind (wp_settling (fun first moved choice => ?_) fun first moved choice => ?_)
  · obtain ⟨kept, none⟩ := track.kept unowned moved
    dsimp only
    split
    · refine wp_bind (wp_settling (fun second further choice => ?_) fun second further choice => ?_)
      · obtain ⟨last, none⟩ := kept.kept none further
        exact finish second last none _
      · obtain ⟨last, none⟩ := kept.kept none further
        exact failed second _ last none
    · exact finish first kept none _
  · obtain ⟨kept, none⟩ := track.kept unowned moved
    exact failed first _ kept none

theorem expectedRevision_wp {value : Int} {rest : Option Int → Publishing α}
    (failed : ∀ error, post (.error (.publication error)) now)
    (passed : ∀ expected, (rest expected).wp unsurpassed post now) :
    ((expectedRevision value).bind rest).wp unsurpassed post now :=
  wp_bind (wp_require (failed _) fun _ => passed _)

theorem publishedRevision_wp {candidate : WikiPageRevision} {expected : Option Int}
    {rest : WikiPageRevision → Publishing α}
    (failed : ∀ error, post (.error (.publication error)) now)
    (passed : ∀ page, (rest page).wp unsurpassed post now) :
    ((publishedRevision tools candidate expected committer).bind rest).wp unsurpassed post now := by
  refine wp_bind (wp_require (failed _) fun _ => wp_require (failed _) fun _ => ?_)
  unfold parsePage
  generalize { candidate with status := _, reviewerRef := _, supersedesRef := _ } = raw
  cases tools.pageSchema raw with
  | false => exact failed _
  | true =>
    cases tools.canonicalPage raw with
    | error message => exact failed _
    | ok canonical => exact passed raw

theorem replayPublished_wp (track : Track start now) (unowned : now.own = none) :
    (replayPublished tools page).wp unsurpassed (Ended tools start) now := by
  refine reconciled_wp track (fun head mine => ?_) rfl ⟨_, rfl⟩ fun outcome either => ?_
  · cases unowned.symm.trans mine
  · rcases either with rfl | rfl <;> exact ⟨_, rfl⟩

theorem publishOver_wp
    {expected current : Option Int} (track : Track start now) (unowned : now.own = none) :
    (publishOver tools stored page expected committer current).wp unsurpassed (Ended tools start) now := by
  refine wp_require (.failed track fun _ => unowned) fun _ => ?_
  refine wp_bind (validatePublication_wp track unowned (fun later clean none => ?_)
    fun later error clean none => .failed clean fun _ => none)
  exact writePublished_wp clean none

theorem publishStored_wp {expectedHeadRevision : Int}
    (track : Track start now) (unowned : now.own = none) :
    (publishStored tools stored expectedHeadRevision committer).wp unsurpassed (Ended tools start) now := by
  refine expectedRevision_wp (fun _ => .failed track fun _ => unowned) fun expected => ?_
  generalize wikiMayBePublished stored.page = allowed
  refine wp_require (.failed track fun _ => unowned) fun _ => ?_
  refine publishedRevision_wp (fun _ => .failed track fun _ => unowned) fun published => ?_
  refine wp_bind (wp_settling (fun later moved choice => ?_) fun later moved choice => ?_)
  · obtain ⟨kept, none⟩ := track.kept unowned moved
    have decided (ref : Option VersionedRef) : (if ref = some published.pageRef then
        replayPublished tools published
      else publishOver tools stored published expected committer (ref.map (·.revision))).wp unsurpassed
        (Ended tools start) later := by
      split
      · exact replayPublished_wp kept none
      · exact publishOver_wp kept none
    dsimp only
    cases later.heads stored.page.pageRef.id with
    | none => exact decided Option.none
    | some head => exact wp_bind (wp_parseRef (fun _ => .failed kept fun _ => none) fun _ => decided _)
  · obtain ⟨kept, none⟩ := track.kept unowned moved
    exact .failed kept fun _ => none

theorem publish_wp {proposalRef : VersionedRef} {expectedHeadRevision : Int}
    (track : Track start now) (unowned : now.own = none) :
    (publish tools proposalRef expectedHeadRevision committer).wp unsurpassed (Ended tools start) now := by
  have failed {later : Shelf} (kept : Track start later) (none : later.own = none)
      (error : WikiPublicationError) : Ended tools start (.error (.publication error)) later :=
    .failed kept fun _ => none
  refine wp_parseRef (fun _ => failed track unowned _) fun _ => ?_
  refine wp_bind (wp_bind (wp_settling (fun later moved choice => ?_) fun later moved choice => ?_))
  · obtain ⟨kept, none⟩ := track.kept unowned moved
    dsimp only
    cases choice.proposal with
    | none => exact failed kept none _
    | some stored =>
      refine wp_parseRef (fun _ => failed kept none _) fun _ => ?_
      refine wp_parsePage (fun _ => failed kept none _) ?_
      refine wp_require (failed kept none _) fun _ => ?_
      exact publishStored_wp kept none
  · obtain ⟨kept, none⟩ := track.kept unowned moved
    exact failed kept none _

def Shelf.empty : Shelf := ⟨fun _ _ => none, fun _ => none, [], none⟩

/-- A publication that is not surpassed before it is read back says what happened, and does nothing but
    the moves that any publication may make. -/
theorem publication_honest (tools : Tools) {start final : Shelf} {proposalRef : VersionedRef}
    {expectedHeadRevision : Int} {committer : Text} {result : Except Failure WikiPageRevision}
    (reached : Moves Shelf.empty start)
    (runs : Call.Runs unsurpassed (publish tools proposalRef expectedHeadRevision committer) start result
      final) : Honest tools result final ∧ Moves start.unmarked final.unmarked := by
  have nothing : Recorded Shelf.empty := fun id head none => by cases none
  obtain ⟨-, recorded, own⟩ := reached.keeps nothing
  obtain ⟨track, honest⟩ := wp_sound runs (publish_wp ⟨recorded, .refl⟩ own)
  exact ⟨honest, track.moves⟩

end

section
open Text (prose jsonString jsonArray)

def jsonObject (fields : List (Text × Text)) : Text :=
  123 :: ((fields.map fun field => jsonString field.1 ++ 58 :: field.2).intersperse [44]).flatten ++ [125]

def refJson (ref : VersionedRef) : Text :=
  jsonObject [(prose "id" rfl, jsonString ref.id), (prose "revision" rfl, Text.integer ref.revision)]

def EvidenceLabel.json : EvidenceLabel → Text
  | .sourceSupported => jsonString (prose "SOURCE_SUPPORTED" rfl)
  | .derivedInference => jsonString (prose "DERIVED_INFERENCE" rfl)
  | .hypothesis => jsonString (prose "HYPOTHESIS" rfl)
  | .contested => jsonString (prose "CONTESTED" rfl)
  | .unresolved => jsonString (prose "UNRESOLVED" rfl)
  | .editorialRecommendation => jsonString (prose "EDITORIAL_RECOMMENDATION" rfl)
  | .redactedDependency => jsonString (prose "REDACTED_DEPENDENCY" rfl)

def PageStatus.json : PageStatus → Text
  | .draft => jsonString (prose "DRAFT" rfl)
  | .published => jsonString (prose "PUBLISHED" rfl)
  | .superseded => jsonString (prose "SUPERSEDED" rfl)
  | .pendingRevalidation => jsonString (prose "PENDING_REVALIDATION" rfl)
  | .redactedDependency => jsonString (prose "REDACTED_DEPENDENCY" rfl)

def pageJson (page : WikiPageRevision) : Text :=
  let list (refs : List Text) : Text := jsonArray (refs.map jsonString)
  jsonObject <| [(prose "body_object_ref" rfl, jsonString page.bodyObjectRef),
    (prose "body_sha256" rfl, jsonString page.bodySha256),
    (prose "counterposition_refs" rfl, list page.counterpositionRefs),
    (prose "coverage_receipt_ref" rfl, refJson page.coverageReceiptRef),
    (prose "created_at" rfl, jsonString page.createdAt),
    (prose "dependency_refs" rfl, list page.dependencyRefs),
    (prose "evidence_map_ref" rfl, jsonString page.evidenceMapRef),
    (prose "generator_generation" rfl, jsonString page.generatorGeneration),
    (prose "limitations" rfl, list page.limitations),
    (prose "page_ref" rfl, refJson page.pageRef),
    (prose "page_type" rfl, jsonString page.pageType),
    (prose "publication_metadata" rfl, page.publicationMetadata)] ++
    page.reviewerRef.toList.map (fun reviewer => (prose "reviewer_ref" rfl, jsonString reviewer)) ++
    [(prose "scope_snapshot_ref" rfl, refJson page.scopeSnapshotRef),
    (prose "statement_labels" rfl,
      jsonObject (page.statementLabels.map fun statement => (statement.1, statement.2.json))),
    (prose "status" rfl, page.status.json)] ++
    page.supersedesRef.toList.map (fun supersedes => (prose "supersedes_ref" rfl, refJson supersedes)) ++
    [(prose "title" rfl, jsonString page.title)]

def sampleTools : Tools where
  refSchema ref := 0 < ref.id.length ∧ ref.id.length ≤ 256 ∧ 0 < ref.revision
  pageSchema page := 0 < page.title.length ∧ Text.isSha256 page.bodySha256
  canonicalPage page := .ok (pageJson page)
  reviewsCoverage := false

def sampleDraft : WikiPageRevision where
  pageRef := ⟨text "page", 1⟩
  pageType := text "concept"
  title := text "Title"
  scopeSnapshotRef := ⟨text "scope", 1⟩
  bodyObjectRef := text "body"
  bodySha256 := List.replicate 64 97
  statementLabels := [(text "claim", .sourceSupported)]
  evidenceMapRef := text "map"
  counterpositionRefs := []
  coverageReceiptRef := ⟨text "coverage", 1⟩
  limitations := []
  dependencyRefs := []
  generatorGeneration := text "generation"
  reviewerRef := none
  status := .draft
  supersedesRef := none
  publicationMetadata := text "\x7b\x7d"
  createdAt := text "2026-09-06T00:00:00.000Z"

def obliging : Choice where
  fails := false
  proposal := some ⟨⟨text "proposal", 1⟩, sampleDraft, .d1LowRiskAdditive⟩
  evidenceComplete := true
  coverageComplete := true
  dependenciesComplete := true
  reviewedCoverage := true
  written := some (text "manifest")
  receipt := ⟨⟨text "page", 1⟩, text "manifest", text "body", List.replicate 64 97⟩
  applied := true
  disposition := .conflict

def nextRevision (shelf : Shelf) : Shelf :=
  let page : WikiPageRevision := { sampleDraft with
    pageRef := ⟨text "page", 2⟩
    status := .published
    reviewerRef := some (text "owner")
    supersedesRef := some ⟨text "page", 1⟩ }
  if shelf.revision (text "page") = some 1 then
    (shelf.write page.pageRef (text "next") page).advance ⟨page.pageRef, text "next"⟩
  else shelf

theorem nextRevision_moves (shelf : Shelf) : Moves shelf (nextRevision shelf) := by
  unfold nextRevision
  dsimp only
  split
  · rename_i current
    exact (Relation.ReflTransGen.single (.write shelf _ _ _)).tail (.commit _ _ (some 1) current)
  · exact .refl

/-- Alone, a publication returns its revision, which is the head. -/
theorem sample_published : ∃ page final, page.pageRef = ⟨text "page", 1⟩ ∧
    Published sampleTools final page := by
  let there : Purpose → Choice → Shelf → Bool := fun _ _ shelf =>
    shelf.own.all fun head => shelf.heads head.pageRef.id = some head
  have met (label : Purpose) (choice : Choice) (shelf : Shelf) (kept : there label choice shelf = true) :
      unsurpassed.allowed label choice shelf := by
    cases label with
    | settled =>
      intro head mine
      simp only [there, mine, Option.all_some, decide_eq_true_eq] at kept
      exact .inr kept
    | _ => trivial
  have played : ((publish sampleTools ⟨text "proposal", 1⟩ 0 (text "owner")).play there
      (List.replicate 8 obliging) Shelf.empty).map (fun run => run.1.toOption.map (·.pageRef)) =
        some (some ⟨text "page", 1⟩) := by
    decide +kernel
  obtain ⟨⟨result, final⟩, play, returned⟩ := Option.map_eq_some_iff.mp played
  cases result with
  | error error => cases returned
  | ok page =>
    have runs := play_runs (fun _ => Relation.ReflTransGen.refl) met play
    exact ⟨page, final, Option.some.inj returned,
      (publication_honest sampleTools .refl runs).1.returned page rfl⟩

/-- A publication whose revision became the head, and was followed by the next before it was read back,
    is told that there was a conflict. -/
theorem surpassed_conflicts : ¬∀ (tools : Tools) (start final : Shelf) (proposalRef : VersionedRef)
    (expectedHeadRevision : Int) (committer : Text) (result : Except Failure WikiPageRevision),
      Moves Shelf.empty start → Call.Runs ⟨Moves, fun _ _ _ => True⟩
        (publish tools proposalRef expectedHeadRevision committer) start result final →
          Honest tools result final := by
  intro claim
  have played : ((publish sampleTools ⟨text "proposal", 1⟩ 0 (text "owner")).enact (fun _ _ _ => true)
      (List.replicate 6 (id, obliging) ++ [(nextRevision, obliging)]) Shelf.empty).map (fun run =>
        (run.1, run.2.own.isSome)) = some (.error (.publication
          ⟨.headConflict, text "wiki head readback belongs to another revision", false⟩), true) := by
    decide +kernel
  obtain ⟨⟨result, final⟩, play, same⟩ := Option.map_eq_some_iff.mp played
  obtain ⟨rfl, committed⟩ := Prod.mk.inj same
  have moves : ∀ step ∈ List.replicate 6 (id, obliging) ++ [(nextRevision, obliging)],
      ∀ shelf, Moves shelf (step.1 shelf) := by
    intro step listed shelf
    rcases mem_append.mp listed with idle | last
    · rw [eq_of_mem_replicate idle]
      exact .refl
    · rw [mem_singleton.mp last]
      exact nextRevision_moves shelf
  have runs : Call.Runs ⟨Moves, fun _ _ _ => True⟩ _ _ _ _ :=
    enact_runs moves (fun _ _ _ _ => trivial) play
  have own := (claim sampleTools _ final _ _ _ _ .refl runs).conflict _ rfl rfl
  dsimp only at committed
  rw [own] at committed
  cases committed

end
end Wiki
