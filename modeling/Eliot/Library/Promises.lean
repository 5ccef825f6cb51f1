import Eliot.Library.Capturing

namespace Library
open Relational Async Pact List Table

variable {tools : Tools} {number : Nat}

theorem Db.Quiet.effect {before after : Db} {request : Request} (quiet : before.Quiet after)
    (other : request.inserts = false) : request.Effect number before after := by
  cases request with
  | applyOcrJob actor scope reviewedText => cases other
  | _ => exact quiet.appliesNone

theorem serve_keeps {request : Request} {world : World} (kept : Custody tools world)
    (unused : Unused number world.db) (admitted : admits world request = true) :
    (applying tools number request).wp number (serve tools number request) (fun _ _ => True) world := by
  cases inserts : request.inserts with
  | false =>
    cases paged : request.runsPage with
    | false =>
      refine wp_steps (serve_quiet tools number paged inserts) (fun before after kept step => ?_) world
      cases step with
      | ocr write => exact write.fair kept (write.quiet.effect inserts)
      | source step => exact step.fair kept (step.quiet.effect inserts)
    | true =>
      refine wp_steps (serve_page tools number paged) (fun before after kept step => ?_) world
      cases step with
      | ocr write => exact write.fair kept (write.quiet.effect inserts)
      | page write => exact write.fair kept (write.quiet.effect inserts)
  | true =>
    cases request with
    | addSource projectId input =>
      refine serve_addSource world kept ⟨unused, ?_⟩
      intro id request chosen drawn
      simp only [admits, chosen, Option.all_some] at admitted
      cases id with
      | drawn other place => exact Option.isSome_iff_exists.mp admitted
      | given name => cases drawn
    | createOcrJob actor input =>
      refine wp_bind (wp_mono kept (createOcrJob_does world kept trivial) fun result _ _ _ => ?_)
      cases result <;> exact trivial
    | applyOcrJob actor scope reviewedText => exact serve_apply world kept unused
    | _ => cases inserts

theorem empty_custody (projects : List Uuid) : Custody tools (empty projects) where
  whole := by constructor <;> exact fun found => (not_find_empty found).elim
  kept found := (not_find_empty found).elim
  applied member := absurd member not_mem_nil
  captured member := absurd member not_mem_nil
  repeated member := absurd member not_mem_nil
  began member := absurd member not_mem_nil

theorem empty_unused (projects : List Uuid) : Unused number (empty projects).db :=
  ⟨fun found => (not_find_empty found).elim, fun found => (not_find_empty found).elim⟩

section
variable {projects : List Uuid} {labels : List (Service.Label Choice Request)}
  {config : Service.Config World Choice Failure}

def grant (number : Nat) (request : Request) (before after : World) : Prop :=
  request.Effect number before.db after.db

theorem run_keeps {requests : List Request} {before : Service.Config World Choice Failure}
    (ran : (library tools).run before labels = some config)
    (sound : (custody tools fun _ _ => True).Sound grant requests before) :
    (custody tools fun _ _ => True).Sound grant (requests ++ labels.flatMap accepted) config ∧
      before.state.db.Persists config.state.db := by
  have correct : ∀ number request world, Custody tools world → Unused number world.db →
      (library tools).admits world request = true →
      ((custody tools fun _ _ => True).granting (grant number request)).wp number
        ((library tools).serve number request) (fun _ _ => True) world :=
    fun _ _ _ kept unused admitted => serve_keeps kept unused admitted
  have lawful : (custody tools fun _ _ => True).Lawful := custody_lawful fun _ => trivial
  exact run_sound grant lawful correct ran sound

theorem boot_keeps (ran : (library tools).run (Service.boot (empty projects)) labels = some config) :
    (custody tools fun _ _ => True).Sound grant (labels.flatMap accepted) config := by
  have start : (custody tools fun _ _ => True).Sound grant [] (Service.boot (empty projects) :
      Service.Config World Choice Failure) :=
    boot_sound (empty_custody projects) fun _ => empty_unused projects
  simpa using (run_keeps ran start).1

/-- No original is captured for two sources, each stays where its revision says, and a revision
    that a caller chose stands for one capture, however often it is asked for. -/
theorem sources_captured_once
    (ran : (library tools).run (Service.boot (empty projects)) labels = some config) :
    (∀ first ∈ config.state.db.revisions, ∀ second ∈ config.state.db.revisions,
      config.state.db.Present first → config.state.db.Present second →
      first.original.sha256 = second.original.sha256 → first.sourceId = second.sourceId) ∧
    (∀ row ∈ config.state.db.revisions, ∃ object ∈ config.state.bucket,
      object.key = row.original.key ∧ row.original.Describes tools object) ∧
    (∀ first ∈ config.state.history.captured, ∀ second ∈ config.state.history.captured,
      ∀ one two, first.result = .ok one → second.result = .ok two → one.revisionId = two.revisionId →
        one = two ∧ first.input.filename = second.input.filename ∧
          first.input.mimeType = second.input.mimeType ∧
          tools.sha256 (.bytes first.input.bytes) = tools.sha256 (.bytes second.input.bytes) ∧
          ((Function.Injective fun bytes => tools.sha256 (.bytes bytes)) →
            first.input.bytes = second.input.bytes)) ∧
    (∀ entry ∈ config.state.history.captured, ∀ row source,
      entry.input.Repeats tools entry.projectId entry.began row source →
        entry.result = .ok ⟨row.sourceId, row.id⟩ ∨ entry.result = .error .other) ∧
    ∀ entry ∈ config.state.history.captured, ∀ row source,
      entry.input.revisionId = some row.id → entry.began.captured row.id = some (row, source) →
      row.original.sha256 ≠ tools.sha256 (.bytes entry.input.bytes) ∨
        row.original.size ≠ entry.input.bytes.length →
      ∀ receipt, entry.result ≠ .ok receipt := by
  have kept : Custody tools config.state := (boot_keeps ran).inv
  have find {row : Revision} (member : row ∈ config.state.db.revisions) :
      config.state.db.revisions.find row.id = some row := find_some.mpr ⟨member, rfl⟩
  refine ⟨?_, ?_, ?_, ?_, ?_⟩
  · exact fun first one second two here there same => kept.whole.distinct (find one) (find two) here there same
  · intro row member
    obtain ⟨object, stored, describes⟩ := kept.kept (find member)
    exact ⟨object, (find_some.mp stored).1, (find_some.mp stored).2, describes⟩
  · intro first one second two left right told also same
    obtain ⟨_, _, row, found, own, sha, _, name, mime, _⟩ := kept.captured one told
    obtain ⟨_, _, other, stored, owns, digest, _, names, mimes, _⟩ := kept.captured two also
    rw [same, stored] at found
    cases found
    refine ⟨?_, name.symm.trans names, mime.symm.trans mimes, sha.symm.trans digest,
      fun injective => injective (sha.symm.trans digest)⟩
    cases left
    cases right
    cases same
    rw [own] at owns
    cases owns
    rfl
  · exact fun entry member row source again => kept.repeated member again
  · intro entry member row source chosen found differs receipt told
    obtain ⟨_, named, later, stored, _, sha, size, _⟩ := kept.captured member told
    obtain ⟨old, present, rest⟩ := Option.bind_eq_some_iff.mp found
    obtain ⟨_, _, same⟩ := Option.bind_eq_some_iff.mp rest
    cases same
    obtain ⟨last, here, identity⟩ := (kept.began member).revisions present
    rw [named _ chosen, here] at stored
    cases stored
    simp only [Revision.identity, Prod.mk.injEq] at identity
    rw [identity.2.2.1] at sha size
    exact differs.elim (fun apart => apart sha) fun apart => apart size

def replaced : List (Service.Label Choice Request) :=
  let input : NewSource :=
    ⟨.file, png, text "b.png", text "image/png", some (.drawn 0 0), some (.given (text "r"))⟩
  [.accept (.addSource (.given (text "p")) ⟨.file, pdf, text "a.pdf", text "application/pdf", none, none⟩)] ++
    acts 0 7 0 ++ [.accept (.addSource (.given (text "p")) input)] ++ acts 1 6 0 ++
    [.act 1 { reply := .lost }] ++ acts 1 3 0 ++
    [.accept (.addSource (.given (text "p")) input)] ++ acts 2 5 0

theorem sources_captured_once_replaced : ∃ config first second receipt,
    (library deployed).run emptyLibrary replaced = some config ∧
      config.state.history.captured[1]? = some first ∧ config.state.history.captured[2]? = some second ∧
      receipt.revisionId = .given (text "r") ∧ first.result = .ok receipt ∧
      second.result = .ok receipt := by
  let receives (entry : Capture) : Bool :=
    match entry.result with
    | .ok receipt => receipt.revisionId = .given (text "r")
    | .error _ => false
  have shown : ((library deployed).run emptyLibrary replaced).any (fun config =>
      config.state.history.captured[1]?.any receives &&
        config.state.history.captured[2]?.any receives) = true := by decide +kernel
  have told {entry : Capture} (receives' : receives entry = true) :
      ∃ receipt, receipt.revisionId = .given (text "r") ∧ entry.result = .ok receipt := by
    cases answer : entry.result with
    | ok receipt => exact ⟨receipt, by simpa [receives, answer] using receives', rfl⟩
    | error failure => simp [receives, answer] at receives'
  obtain ⟨config, ran, both⟩ := (Option.any_eq_true _ _).mp shown
  rw [Bool.and_eq_true] at both
  obtain ⟨first, one, here⟩ := (Option.any_eq_true _ _).mp both.1
  obtain ⟨second, two, there⟩ := (Option.any_eq_true _ _).mp both.2
  obtain ⟨receipt, revision, answered⟩ := told here
  obtain ⟨other, again, repeated⟩ := told there
  obtain ⟨_, _, single, _⟩ := sources_captured_once ran
  have same := (single first (mem_of_getElem? one) second (mem_of_getElem? two) receipt other
    answered repeated (revision.trans again.symm)).1
  exact ⟨config, first, second, receipt, ran, one, two, revision, answered, same ▸ repeated⟩

end

end Library
