import Eliot.Blocks.Coverage
import Eliot.Collections.Fallible
import Eliot.Collections.Pagination
import Eliot.Tools.Search

namespace Tools
open Text Context List Fallible Pagination
open Pagination (Ascending Page Answer Ending follow listed)

section
variable {Hit : Type} {name : Hit → Text} {all hits : List Hit} {place rows tokens : Nat}

def cursorAt (name : Hit → Text) (all : List Hit) : Nat → Option Text
  | 0 => none
  | place + 1 => all[place]?.map name

def hitsText (heading empty : Text) (row : Hit → Text) (shown : List Hit) (next : Option Text) : Text :=
  heading ++ (if shown = [] then empty else joinLines (shown.map row)) ++ cursorLine next

theorem hits_behind (ascending : Ascending name all) {hit : Hit} (found : all[place]? = some hit) :
    all.filter (fun other => name hit < name other) = all.drop (place + 1) := by
  rw [← ascending.filter_after found]
  refine filter_congr ?_
  intro other _
  exact decide_eq_decide.mpr Iff.rfl

theorem listing_hits {heading empty first body : Text} {row : Hit → Text} {below : Nat → Text}
    (listed : listing heading empty ((hits.take maxRows).map row) below first tokens = .page rows body) :
    rows ≤ hits.length ∧ rows ≤ maxRows ∧ (rows = 0 → hits = []) ∧
      body = heading ++ (if hits.take rows = [] then empty else joinLines ((hits.take rows).map row)) ++ below rows := by
  unfold listing at listed
  cases found : listingOf heading empty ((hits.take maxRows).map row) below tokens
      ((hits.take maxRows).map row).length with
  | none =>
    rw [found] at listed
    cases listed
  | some reply =>
    obtain ⟨shown, text, rfl, few, -, shape⟩ := listingOf_page found
    rw [found] at listed
    cases listed
    rw [length_map, length_take, Nat.le_min] at few
    refine ⟨few.2, few.1, ?_, ?_⟩
    · intro none
      rcases shape with ⟨-, empty, -⟩ | ⟨positive, -⟩
      · simpa [maxRows] using empty
      · omega
    · rcases shape with ⟨rfl, empty, same⟩ | ⟨positive, same⟩
      · rw [same, take_zero]
        rfl
      · have filled : hits.take rows ≠ [] := by
          have size : (hits.take rows).length = rows := by
            rw [length_take]
            omega
          intro none
          rw [none, length_nil] at size
          omega
        rw [same, if_neg filled, ← map_take, take_take, Nat.min_eq_left few.1]

theorem cursorBelow_some (positive : 0 < rows) (more : rows < hits.length) :
    cursorBelow name hits rows = (hits[rows - 1]?).map name := if_pos ⟨positive, more⟩

theorem cursorBelow_none (last : rows = 0 ∨ hits.length ≤ rows) : cursorBelow name hits rows = none :=
  if_neg (by omega)

theorem page_from {body : Text} (within : place ≤ all.length) (front : hits <+: all.drop place)
    (enough : hits = all.drop place ∨ maxRows < hits.length) (few : rows ≤ hits.length) (most : rows ≤ maxRows)
    (nothing : rows = 0 → hits = []) :
    Page.From all (cursorAt name all) place ⟨hits.take rows, body, cursorBelow name hits rows⟩ := by
  have size : (hits.take rows).length = rows := by
    rw [length_take]
    omega
  have length := front.length_le
  rw [length_drop] at length
  refine ⟨( take_prefix rows hits).trans front, ?_, ?_⟩
  · intro last
    dsimp only at last ⊢
    rw [size]
    have ended : rows = hits.length := by
      by_cases none : rows = 0
      · rw [none, nothing none, length_nil]
      · by_contra short
        rw [cursorBelow_some (by omega) (by omega), Option.map_eq_none_iff, getElem?_eq_none_iff] at last
        omega
    rcases enough with same | beyond
    · rw [ended, same, length_drop]
      omega
    · omega
  · intro more
    dsimp only at more ⊢
    rw [size]
    have inside : 0 < rows ∧ rows < hits.length := by
      by_contra outside
      exact more (cursorBelow_none (by omega))
    refine ⟨?_, inside.1, by omega⟩
    obtain ⟨rest, same⟩ := front
    have item : hits[rows - 1]? = all[place + (rows - 1)]? := by
      rw [← getElem?_drop, ← same, getElem?_append_left (by omega)]
    obtain ⟨before, rfl⟩ : ∃ before, rows = before + 1 := ⟨rows - 1, by omega⟩
    rw [cursorBelow_some inside.1 inside.2, item]
    rfl

end

section
variable {storage : Storage} {scope : List ScopedRevision} {spec : StatementQuery} {cursor : Option Text}

def matchingClaims (storage : Storage) (scope : List ScopedRevision) (spec : StatementQuery) : List ClaimHit :=
  if spec.matched = [] ∧ spec.short = [] then []
  else ((storage.claims.filter (isHit storage scope spec)).insertionSort byId).map (·.toClaimHit)

theorem sorted_claims (storage : Storage) (test : ClaimRow → Bool) :
    Ascending (·.id) ((storage.claims.filter test).insertionSort byId) := by
  have distinct : ((storage.claims.filter test).map (·.id)).Nodup :=
    storage.claimIds.sublist (filter_sublist.map _)
  exact ascending_insertionSort distinct

theorem matchingClaims_ascending (storage : Storage) (scope : List ScopedRevision) (spec : StatementQuery) :
    Ascending (·.id) (matchingClaims storage scope spec) := by
  unfold matchingClaims
  split
  · exact List.Pairwise.nil
  · exact pairwise_map.mpr (sorted_claims storage _)

theorem no_scope (storage : Storage) (spec : StatementQuery) : matchingClaims storage [] spec = [] := by
  have none : storage.claims.filter (isHit storage [] spec) = [] := by
    rw [filter_eq_nil_iff]
    intro row _ hit
    simp [isHit] at hit
  unfold matchingClaims
  rw [none]
  simp

theorem claimHits_after (storage : Storage) (scope : List ScopedRevision) (spec : StatementQuery) (cursor : Option Text) :
    claimHits storage scope spec cursor false =
      ((matchingClaims storage scope spec).filter fun hit => cursor.all (· < hit.id)).take 51 := by
  unfold claimHits
  by_cases unscoped : scope = []
  · rw [if_pos (.inl unscoped), unscoped, no_scope]
    rfl
  by_cases empty : spec.matched = [] ∧ spec.short = []
  · rw [if_pos (.inr empty), matchingClaims, if_pos empty]
    rfl
  rw [if_neg (by tauto), matchingClaims, if_neg empty]
  have split : (storage.claims.filter fun row => isHit storage scope spec row &&
      cursor.all fun cursor => if false = true then row.id == cursor else cursor < row.id) =
      (storage.claims.filter (isHit storage scope spec)).filter fun row => cursor.all (· < row.id) := by
    rw [filter_filter]
    refine filter_congr ?_
    intro row _
    rw [Bool.and_comm]
    rfl
  have distinct : ((storage.claims.filter (isHit storage scope spec)).map (·.id)).Nodup :=
    storage.claimIds.sublist (filter_sublist.map _)
  have sorted := insertionSort_filter distinct fun row => cursor.all (· < row.id)
  dsimp only
  rw [split, filter_map]
  show ((List.insertionSort byId _).take 51).map _ = _
  rw [← map_take]
  exact congrArg (fun rows => (rows.take 51).map fun row : ClaimRow => row.toClaimHit) sorted

theorem claimHits_known {hit : ClaimHit} (member : hit ∈ matchingClaims storage scope spec) :
    claimHits storage scope spec (some hit.id) true ≠ [] := by
  have filled : scope ≠ [] := by
    rintro rfl
    rw [no_scope] at member
    cases member
  unfold matchingClaims at member
  split at member
  · cases member
  rename_i searchable
  obtain ⟨row, listed, rfl⟩ := mem_map.mp member
  have found := (mem_insertionSort byId).mp listed
  rw [mem_filter] at found
  have kept : row ∈ storage.claims.filter fun other => isHit storage scope spec other &&
      (some row.id).all fun cursor => if true = true then other.id == cursor else cursor < other.id := by
    refine mem_filter.mpr ⟨found.1, ?_⟩
    simp [found.2]
  unfold claimHits
  rw [if_neg (by tauto)]
  intro none
  rw [map_eq_nil_iff, take_eq_nil_iff] at none
  rcases none with impossible | none
  · cases impossible
  · have sorted := (mem_insertionSort byId).mpr kept
    rw [none] at sorted
    cases sorted

end

variable {tokens : Int}

section
variable {storage : Storage} {input : SearchInput} {all : List ClaimHit}

def allClaims (storage : Storage) (input : SearchInput) : Except LibraryError (List ClaimHit) := do
  let scope ← currentReadableScope storage input.projectId input.sourceIds
  let spec ← statementQuery storage input.query
  return matchingClaims storage scope spec

def askClaims (storage : Storage) (input : SearchInput) (cursor : Option Text) (tokens : Int) :
    Answer ClaimHit Text Text :=
  match findClaimsTool storage { input with cursor, maxTokens := some tokens } with
  | .error _ => .failed
  | .ok (.minimum _ _) => .refused
  | .ok (.page rows body) =>
    match findClaims storage { input with cursor } with
    | .error _ => .failed
    | .ok (_, hits) => .page ⟨hits.take rows, body, cursorBelow (·.id) hits rows⟩

def claimsText (spec : StatementQuery) : List ClaimHit → Option Text → Text :=
  hitsText (prose "## Verified claim matches\n\n" rfl ++ claimsNote ++ [10, 10])
    (if spec.terms = [] then prose "No searchable keywords were found." rfl
      else prose "No verified claims matched." rfl) claimMarkdown

theorem outputBudget_valid (valid : 1 ≤ tokens ∧ tokens ≤ 4000) :
    outputBudget (some tokens) = .ok tokens.toNat := by
  rw [outputBudget, if_neg]
  rw [maxToolOutputTokens]
  omega

theorem askClaims_page {cursor : Option Text} {spec : StatementQuery} {hits : List ClaimHit}
    (valid : 1 ≤ tokens ∧ tokens ≤ 4000) (found : findClaims storage { input with cursor } = .ok (spec, hits)) :
    askClaims storage input cursor tokens = .refused ∨ ∃ rows body,
      askClaims storage input cursor tokens = .page ⟨hits.take rows, body, cursorBelow (·.id) hits rows⟩ ∧
        rows ≤ hits.length ∧ rows ≤ maxRows ∧ (rows = 0 → hits = []) ∧
        body = claimsText spec (hits.take rows) (cursorBelow (·.id) hits rows) := by
  have answered : findClaimsTool storage { input with cursor, maxTokens := some tokens } =
      .ok (claimsReply spec hits tokens.toNat) := by
    have same : findClaims storage { input with cursor, maxTokens := some tokens } = .ok (spec, hits) := found
    unfold findClaimsTool
    rw [outputBudget_valid valid, same]
    rfl
  unfold askClaims
  rw [answered]
  cases reply : claimsReply spec hits tokens.toNat with
  | minimum body purpose => exact .inl rfl
  | page rows body =>
    obtain ⟨few, most, nothing, text⟩ := listing_hits reply
    refine .inr ⟨rows, body, ?_, few, most, nothing, text⟩
    dsimp only
    rw [found]

theorem findClaims_at (listed : allClaims storage input = .ok all) {place : Nat}
    (within : place = 0 ∨ place < all.length) :
    ∃ spec, findClaims storage { input with cursor := cursorAt (·.id) all place } =
      .ok (spec, (all.drop place).take 51) := by
  obtain ⟨scope, scoped', rest⟩ := bind_ok listed
  obtain ⟨spec, query, same⟩ := bind_ok rest
  obtain rfl : matchingClaims storage scope spec = all := Except.ok.inj same
  refine ⟨spec, ?_⟩
  have ascending := matchingClaims_ascending storage scope spec
  unfold findClaims
  dsimp only
  rw [scoped', query]
  cases place with
  | zero =>
    have whole := claimHits_after storage scope spec none
    simp only [Option.all_none, filter_true] at whole
    simp [cursorAt, bind, Except.bind, whole, pure, Except.pure]
  | succ place =>
    obtain ⟨hit, item⟩ : ∃ hit, (matchingClaims storage scope spec)[place]? = some hit := by
      have inside : place < (matchingClaims storage scope spec).length := by omega
      exact ⟨_, getElem?_eq_getElem inside⟩
    have known := claimHits_known (mem_of_getElem? item)
    have after := claimHits_after storage scope spec (some hit.id)
    simp only [Option.all_some] at after
    rw [hits_behind ascending item] at after
    simp [cursorAt, item, known, after, bind, Except.bind, pure, Except.pure]

theorem take_enough {Hit : Type} (hits : List Hit) : hits.take 51 = hits ∨ maxRows < (hits.take 51).length := by
  by_cases short : hits.length ≤ 51
  · exact .inl (take_of_length_le short)
  · right
    rw [length_take, maxRows]
    omega

theorem askClaims_from (listed : allClaims storage input = .ok all) {place : Nat} (within : place = 0 ∨ place < all.length)
    (valid : 1 ≤ tokens ∧ tokens ≤ 4000) :
    (askClaims storage input (cursorAt (·.id) all place) tokens).From all (cursorAt (·.id) all) place := by
  obtain ⟨spec, found⟩ := findClaims_at listed within
  rcases askClaims_page valid found with refused | ⟨rows, body, page, few, most, nothing, -⟩
  · rw [refused]
    trivial
  · rw [page]
    exact page_from (by omega) ( take_prefix _ _) (take_enough _) few most nothing

end

section
variable {storage : Storage} {scope : List ScopedRevision} {spec : StatementQuery}

theorem scope_attached {projectId : Text} {requested : Option (List Text)}
    (found : currentReadableScope storage projectId requested = .ok scope) :
    (scope.map (·.revisionId)).Nodup ∧ ∀ entry ∈ scope, ∃ row ∈ storage.attached, row.revisionId = entry.revisionId := by
  unfold currentReadableScope at found
  obtain ⟨_, -, found⟩ := bind_ok found
  dsimp only at found
  split at found
  · cases found
  split at found
  · cases found
    exact ⟨nodup_nil, by simp⟩
  split at found
  · cases found
  split at found
  · cases found
  split at found
  · cases found
  generalize choose : (fun row : Attached => decide (row.projectId = projectId) && row.enabled && row.isReadable &&
    decide (row.currentRevisionId = some row.revisionId) &&
      Option.all (fun ids => ids.contains row.sourceId) (Option.map List.eraseDups requested)) = chosen at found
  cases Except.ok.inj found
  rw [map_map]
  have sorted := perm_insertionSort Attached.before (storage.attached.filter chosen)
  have inProject : (storage.attached.filter chosen).Sublist (storage.attached.filter (·.projectId = projectId)) := by
    refine monotone_filter_right _ ?_
    intro row passed
    rw [← choose] at passed
    simp only [Bool.and_eq_true] at passed
    exact passed.1.1.1.1
  have distinct := (storage.attachedIds projectId).sublist (inProject.map (·.revisionId))
  constructor
  · have ids := ((sorted.map (·.revisionId)).nodup_iff).mpr distinct
    exact ids.sublist ((take_sublist _ _).map _)
  · intro entry member
    obtain ⟨row, listed, rfl⟩ := mem_map.mp member
    have present := sorted.mem_iff.mp (mem_of_mem_take listed)
    exact ⟨row, (mem_filter.mp present).1, rfl⟩

theorem guideHits_ids {hits : List SearchHit} {unavailable : Nat}
    (found : guideHits storage spec scope = .ok (hits, unavailable)) :
    (hits.map (·.id)).Sublist (scope.map (·.revisionId)) ∧ ∀ hit ∈ hits, hit.kind = .guide := by
  induction scope generalizing hits unavailable with
  | nil =>
    cases found
    exact ⟨List.Sublist.refl _, by simp⟩
  | cons selected scope ih =>
    rw [guideHits] at found
    split at found
    · split at found
      · rename_i guide read
        obtain ⟨⟨later, count⟩, rest, same⟩ := bind_ok found
        obtain ⟨sublist, kinds⟩ := ih rest
        cases hit : (guide.filter (· ≠ [])).bind (guideHit storage spec selected) with
        | none =>
          simp only [hit, Option.toList_none, nil_append] at same
          cases same
          exact ⟨sublist.cons _, kinds⟩
        | some first =>
          simp only [hit, Option.toList_some] at same
          cases same
          have named : first.id = selected.revisionId ∧ first.kind = .guide := by
            obtain ⟨text, -, made⟩ := Option.bind_eq_some_iff.mp hit
            unfold guideHit at made
            dsimp only at made
            split at made
            · cases made
            · cases made
              exact ⟨rfl, rfl⟩
          constructor
          · show (first.id :: later.map (·.id)).Sublist _
            rw [named.1]
            exact sublist.cons_cons _
          · intro other member
            rcases mem_cons.mp member with rfl | member
            · exact named.2
            · exact kinds other member
      · split at found
        · obtain ⟨⟨later, count⟩, rest, same⟩ := bind_ok found
          cases same
          obtain ⟨sublist, kinds⟩ := ih rest
          exact ⟨sublist.cons _, kinds⟩
        · cases found
    · obtain ⟨sublist, kinds⟩ := ih found
      exact ⟨sublist.cons _, kinds⟩

end

section
variable {storage : Storage} {input : SearchInput} {all : List SearchHit}

def allHits (storage : Storage) (input : SearchInput) : Except LibraryError (List SearchHit) := do
  let scope ← currentReadableScope storage input.projectId input.sourceIds
  let spec ← statementQuery storage input.query
  if scope = [] ∨ spec.terms = [] then return []
  let (found, _) ← guideHits storage spec scope
  return found.insertionSort hitBefore ++ (matchingClaims storage scope spec).map claimHit

def searchedAnswer : Searched → Reply → Answer SearchHit Text Text
  | _, .minimum _ _ => .refused
  | .nothing, .page _ body => .page ⟨[], body, none⟩
  | .hits hits _, .page rows body => .page ⟨hits.take rows, body, cursorBelow formatSearchCursor hits rows⟩

def askSearch (storage : Storage) (input : SearchInput) (cursor : Option Text) (tokens : Int) :
    Answer SearchHit Text Text :=
  match searchTool storage { input with cursor, maxTokens := some tokens }, search storage { input with cursor } with
  | .ok reply, .ok searched => searchedAnswer searched reply
  | _, _ => .failed

def searchText (unavailable : Nat) : List SearchHit → Option Text → Text :=
  hitsText (prose "## Search results\n\n" rfl ++ searchNote unavailable ++ [10, 10])
    (prose "No guide or verified claim matched every literal keyword." rfl) (·.markdown)

structure Storage.Uuids (storage : Storage) : Prop where
  claims : ∀ row ∈ storage.claims, isUuid row.id = true
  revisions : ∀ row ∈ storage.attached, isUuid row.revisionId = true

theorem parseSearchCursor_format {hit : SearchHit} (accepted : isUuid hit.id = true) :
    parseSearchCursor (formatSearchCursor hit) = .ok (hit.kind, hit.id) := by
  obtain ⟨kind, id, markdown⟩ := hit
  have read : readSearchCursor (formatSearchCursor ⟨kind, id, markdown⟩) = some (kind, id) := by
    have accepted : isUuid id = true := accepted
    cases kind with
    | guide =>
      have named : (HitKind.guide.name ++ [58]).isPrefixOf (HitKind.guide.name ++ [58] ++ id) = true := by
        rw [ isPrefixOf_iff_prefix]
        exact prefix_append _ _
      have rest : (HitKind.guide.name ++ [58] ++ id).drop (HitKind.guide.name.length + 1) = id := by
        exact drop_left' rfl
      unfold readSearchCursor formatSearchCursor
      dsimp only
      rw [rest, named, accepted]
      rfl
    | claim =>
      have other : (HitKind.guide.name ++ [58]).isPrefixOf (HitKind.claim.name ++ [58] ++ id) = false := rfl
      have named : (HitKind.claim.name ++ [58]).isPrefixOf (HitKind.claim.name ++ [58] ++ id) = true := by
        rw [ isPrefixOf_iff_prefix]
        exact prefix_append _ _
      have rest : (HitKind.claim.name ++ [58] ++ id).drop (HitKind.claim.name.length + 1) = id := by
        exact drop_left' rfl
      unfold readSearchCursor formatSearchCursor
      dsimp only
      rw [rest, named, other, accepted]
      rfl
  rw [parseSearchCursor, read]

theorem guides_ascending {scope : List ScopedRevision} {spec : StatementQuery} {found : List SearchHit}
    {unavailable : Nat} {projectId : Text} {requested : Option (List Text)}
    (selected : currentReadableScope storage projectId requested = .ok scope)
    (guides : guideHits storage spec scope = .ok (found, unavailable)) :
    Ascending (·.id) (found.insertionSort hitBefore) :=
  ascending_insertionSort ((scope_attached selected).1.sublist (guideHits_ids guides).1)

theorem claim_stored {scope : List ScopedRevision} {spec : StatementQuery} {hit : ClaimHit}
    (member : hit ∈ matchingClaims storage scope spec) : ∃ row ∈ storage.claims, row.id = hit.id := by
  unfold matchingClaims at member
  split at member
  · cases member
  · obtain ⟨row, listed, rfl⟩ := mem_map.mp member
    have found := (mem_insertionSort byId).mp listed
    exact ⟨row, (mem_filter.mp found).1, rfl⟩

section
variable {scope : List ScopedRevision} {spec : StatementQuery} {found : List SearchHit} {unavailable : Nat}
  (selected : currentReadableScope storage input.projectId input.sourceIds = .ok scope)
  (query : statementQuery storage input.query = .ok spec) (searchable : ¬(scope = [] ∨ spec.terms = []))
  (guides : guideHits storage spec scope = .ok (found, unavailable))

include selected query searchable guides

theorem search_first : search storage { input with cursor := none } =
    .ok (.hits (found.insertionSort hitBefore ++ (claimHits storage scope spec none false).map claimHit)
      unavailable) := by
  unfold search
  dsimp only
  rw [selected, query]
  have none' : (none : Option Text).mapM parseSearchCursor = .ok none := rfl
  rw [none']
  simp only [bind, Except.bind]
  rw [if_neg searchable, guides]
  rfl

theorem search_behind_guide {hit : SearchHit} (accepted : isUuid hit.id = true) (guide : hit.kind = .guide)
    (known : hit ∈ found.insertionSort hitBefore) :
    search storage { input with cursor := some (formatSearchCursor hit) } =
      .ok (.hits ((found.insertionSort hitBefore).filter (fun other => hit.id < other.id) ++
        (claimHits storage scope spec none false).map claimHit) unavailable) := by
  unfold search
  dsimp only
  rw [selected, query]
  have parsed : (some (formatSearchCursor hit)).mapM parseSearchCursor = .ok (some (.guide, hit.id)) := by
    rw [Option.mapM_some, parseSearchCursor_format accepted, guide]
    rfl
  have listed : (found.insertionSort hitBefore).any (·.id == hit.id) = true :=
    any_eq_true.mpr ⟨hit, known, by simp⟩
  have stays : ¬(!(found.insertionSort hitBefore).any (·.id == hit.id)) = true := by
    rw [listed]
    decide
  rw [parsed]
  simp only [bind, Except.bind]
  rw [if_neg searchable, guides]
  exact if_neg stays

theorem search_behind_claim {hit : ClaimHit} (accepted : isUuid hit.id = true)
    (known : hit ∈ matchingClaims storage scope spec) :
    search storage { input with cursor := some (formatSearchCursor (claimHit hit)) } =
      .ok (.hits ((claimHits storage scope spec (some hit.id) false).map claimHit) unavailable) := by
  unfold search
  dsimp only
  rw [selected, query]
  have parsed : (some (formatSearchCursor (claimHit hit))).mapM parseSearchCursor = .ok (some (.claim, hit.id)) := by
    have accepted : isUuid (claimHit hit).id = true := accepted
    rw [Option.mapM_some, parseSearchCursor_format accepted]
    rfl
  have listed : decide (claimHits storage scope spec (some hit.id) true ≠ []) = true :=
    decide_eq_true (claimHits_known known)
  have stays : ¬(!decide (claimHits storage scope spec (some hit.id) true ≠ [])) = true := by
    rw [listed]
    decide
  rw [parsed]
  simp only [bind, Except.bind]
  rw [if_neg searchable, guides]
  exact if_neg stays

end

theorem take_front (first others : List SearchHit) :
    first ++ others.take 51 <+: first ++ others ∧
      (first ++ others.take 51 = first ++ others ∨ maxRows < (first ++ others.take 51).length) := by
  refine ⟨(prefix_append_right_inj _).mpr ( take_prefix _ _), ?_⟩
  rcases take_enough others with same | more
  · rw [same]
    exact .inl rfl
  · right
    rw [length_append]
    omega

theorem search_at (uuids : storage.Uuids) (listed : allHits storage input = .ok all) {place : Nat}
    (within : place = 0 ∨ place < all.length) :
    (all = [] ∧ search storage { input with cursor := cursorAt formatSearchCursor all place } = .ok .nothing) ∨
      ∃ hits unavailable, search storage { input with cursor := cursorAt formatSearchCursor all place } =
          .ok (.hits hits unavailable) ∧ hits <+: all.drop place ∧
        (hits = all.drop place ∨ maxRows < hits.length) := by
  obtain ⟨scope, selected, rest⟩ := bind_ok listed
  obtain ⟨spec, query, rest⟩ := bind_ok rest
  by_cases empty : scope = [] ∨ spec.terms = []
  · rw [if_pos empty] at rest
    obtain rfl : [] = all := Except.ok.inj rest
    have first : place = 0 := by simpa using within
    left
    subst first
    refine ⟨rfl, ?_⟩
    unfold search
    dsimp only [cursorAt]
    rw [selected, query]
    simp [bind, Except.bind, empty, pure, Except.pure, Option.mapM_none]
  rw [if_neg empty] at rest
  obtain ⟨⟨found, unavailable⟩, guides, same⟩ := bind_ok rest
  obtain rfl : found.insertionSort hitBefore ++ (matchingClaims storage scope spec).map claimHit = all :=
    Except.ok.inj same
  right
  have ascending := guides_ascending selected guides
  have ascending' := matchingClaims_ascending storage scope spec
  have unbounded := claimHits_after storage scope spec none
  simp only [Option.all_none, filter_true] at unbounded
  cases place with
  | zero =>
    have searched := search_first selected query empty guides
    rw [unbounded, map_take] at searched
    exact ⟨_, _, searched, take_front _ _⟩
  | succ place =>
    by_cases inside : place < (found.insertionSort hitBefore).length
    · have item : (found.insertionSort hitBefore)[place]? = some (found.insertionSort hitBefore)[place] :=
        getElem?_eq_getElem inside
      generalize (found.insertionSort hitBefore)[place] = hit at item
      have member := mem_of_getElem? item
      have original := (mem_insertionSort hitBefore).mp member
      have accepted : isUuid hit.id = true := by
        obtain ⟨entry, among, same⟩ := mem_map.mp ((guideHits_ids guides).1.mem (mem_map_of_mem original))
        obtain ⟨row, attached, named⟩ := (scope_attached selected).2 entry among
        rw [← same, ← named]
        exact uuids.revisions row attached
      have searched := search_behind_guide selected query empty guides accepted ((guideHits_ids guides).2 hit original)
        member
      rw [hits_behind ascending item, unbounded, map_take] at searched
      have cursor : cursorAt formatSearchCursor
          (found.insertionSort hitBefore ++ (matchingClaims storage scope spec).map claimHit) (place + 1) =
            some (formatSearchCursor hit) := by
        rw [cursorAt, getElem?_append_left inside, item]
        rfl
      rw [cursor, drop_append_of_le_length inside]
      exact ⟨_, _, searched, take_front _ _⟩
    · obtain ⟨later, rfl⟩ : ∃ later, place = (found.insertionSort hitBefore).length + later :=
        ⟨place - (found.insertionSort hitBefore).length, by omega⟩
      have bound : later < (matchingClaims storage scope spec).length := by
        rw [length_append, length_map] at within
        omega
      have item : (matchingClaims storage scope spec)[later]? = some (matchingClaims storage scope spec)[later] :=
        getElem?_eq_getElem bound
      generalize (matchingClaims storage scope spec)[later] = hit at item
      have member := mem_of_getElem? item
      have accepted : isUuid hit.id = true := by
        obtain ⟨row, stored, named⟩ := claim_stored member
        rw [← named]
        exact uuids.claims row stored
      have searched := search_behind_claim selected query empty guides accepted member
      have behind := claimHits_after storage scope spec (some hit.id)
      simp only [Option.all_some] at behind
      rw [hits_behind ascending' item] at behind
      rw [behind, map_take] at searched
      have cursor : cursorAt formatSearchCursor
          (found.insertionSort hitBefore ++ (matchingClaims storage scope spec).map claimHit)
            ((found.insertionSort hitBefore).length + later + 1) = some (formatSearchCursor (claimHit hit)) := by
        rw [cursorAt, getElem?_append_right (Nat.le_add_right _ _), Nat.add_sub_cancel_left, getElem?_map,
          item]
        rfl
      have rest : (found.insertionSort hitBefore ++ (matchingClaims storage scope spec).map claimHit).drop
          ((found.insertionSort hitBefore).length + later + 1) =
            ((matchingClaims storage scope spec).drop (later + 1)).map claimHit := by
        have place : (found.insertionSort hitBefore).length + later + 1 - (found.insertionSort hitBefore).length =
          later + 1 := by omega
        rw [drop_append, drop_eq_nil_of_le (by omega), nil_append, place, map_drop]
      rw [cursor, rest]
      exact ⟨_, _, searched, take_front [] _⟩

def searchWritten (page : Page SearchHit Text Text) : Prop :=
  page.body = nothingToSearch ∧ page.shown = [] ∧ page.next = none ∨
    ∃ unavailable, page.body = searchText unavailable page.shown page.next

inductive SearchPage : Searched → Page SearchHit Text Text → Prop where
  | nothing : SearchPage .nothing ⟨[], nothingToSearch, none⟩
  | hits {hits : List SearchHit} {unavailable rows : Nat} (few : rows ≤ hits.length) (most : rows ≤ maxRows)
      (nothing : rows = 0 → hits = []) :
      SearchPage (.hits hits unavailable)
        ⟨hits.take rows, searchText unavailable (hits.take rows) (cursorBelow formatSearchCursor hits rows),
          cursorBelow formatSearchCursor hits rows⟩

theorem SearchPage.written {searched : Searched} {page : Page SearchHit Text Text} (shown : SearchPage searched page) :
    searchWritten page := by
  cases shown with
  | nothing => exact .inl ⟨rfl, rfl, rfl⟩
  | hits few most nothing => exact .inr ⟨_, rfl⟩

theorem askSearch_page {cursor : Option Text} (valid : 1 ≤ tokens ∧ tokens ≤ 4000) :
    (∃ error, search storage { input with cursor } = .error error ∧ askSearch storage input cursor tokens = .failed) ∨
      ∃ searched, search storage { input with cursor } = .ok searched ∧
        (askSearch storage input cursor tokens = .refused ∨
          ∃ page, askSearch storage input cursor tokens = .page page ∧ SearchPage searched page) := by
  have same : search storage { input with cursor, maxTokens := some tokens } = search storage { input with cursor } :=
    rfl
  unfold askSearch searchTool
  rw [outputBudget_valid valid, same]
  cases search storage { input with cursor } with
  | error error => exact .inl ⟨error, rfl, rfl⟩
  | ok searched =>
    right
    refine ⟨searched, rfl, ?_⟩
    cases searched with
    | nothing =>
      show searchedAnswer .nothing (withinBudget nothingToSearch tokens.toNat) = _ ∨
        ∃ page, searchedAnswer .nothing (withinBudget nothingToSearch tokens.toNat) = _ ∧ _
      unfold withinBudget
      split
      · exact .inr ⟨_, rfl, .nothing⟩
      · exact .inl rfl
    | hits hits unavailable =>
      show searchedAnswer _ (searchReply hits unavailable tokens.toNat) = _ ∨
        ∃ page, searchedAnswer _ (searchReply hits unavailable tokens.toNat) = _ ∧ _
      cases reply : searchReply hits unavailable tokens.toNat with
      | minimum body purpose => exact .inl rfl
      | page rows body =>
        obtain ⟨few, most, nothing, text⟩ := listing_hits reply
        refine .inr ⟨_, rfl, ?_⟩
        rw [text]
        exact .hits few most nothing

theorem askSearch_from (uuids : storage.Uuids) (listed : allHits storage input = .ok all) {place : Nat}
    (within : place = 0 ∨ place < all.length) (valid : 1 ≤ tokens ∧ tokens ≤ 4000) :
    (askSearch storage input (cursorAt formatSearchCursor all place) tokens).From all
      (cursorAt formatSearchCursor all) place := by
  rcases askSearch_page valid with ⟨error, failed, -⟩ | ⟨searched, found, refused | ⟨page, answered, shown⟩⟩
  · rcases search_at uuids listed within with ⟨-, found⟩ | ⟨hits, unavailable, found, -⟩
    · rw [found] at failed
      cases failed
    · rw [found] at failed
      cases failed
  · rw [refused]
    trivial
  · rw [answered]
    rcases search_at uuids listed within with ⟨rfl, nothing⟩ | ⟨hits, unavailable, hits', front, enough⟩
    · rw [nothing] at found
      cases found
      cases shown
      have first : place = 0 := by simpa using within
      subst first
      exact ⟨ nil_prefix, fun _ => rfl, fun more => absurd rfl more⟩
    · rw [hits'] at found
      cases found
      cases shown with
      | hits few most nothing => exact page_from (by omega) front enough few most nothing

end

section
variable {storage : Storage} {input : OutlineInput} {all : List Blocks.Block}

def blockCursor (block : Blocks.Block) : Int := block.id

def blockAt (all : List Blocks.Block) : Nat → Option Int
  | 0 => none
  | place + 1 => all[place + 1]?.map blockCursor

def askOutline (storage : Storage) (input : OutlineInput) (cursor : Option Int) (tokens : Int) :
    Answer Blocks.Block Int Text :=
  match outlineTool storage { input with cursor, maxTokens := some tokens },
    outlineBlocks storage { input with cursor } with
  | .ok (.page rows body), .ok (_, blocks) => .page ⟨blocks.take rows, body, blocks[rows]?.map blockCursor⟩
  | .ok (.minimum _ _), .ok _ => .refused
  | _, _ => .failed

def outlineText (selected : ScopedRevision) (citable : List Nat) (shown : List Blocks.Block) (next : Option Int) : Text :=
  prose "## Outline for " rfl ++ singleLine selected.title ++ prose " [" rfl ++ selected.revisionId ++
    prose "]\n\n" rfl ++
    (if shown = [] then prose "No further blocks." rfl
      else joinLines (shown.map (outlineRow selected.revisionId citable))) ++
    match next with
    | none => []
    | some next => prose "\n\nContinue at block " rfl ++ decimal next.toNat ++ prose " with integer cursor " rfl ++
        decimal next.toNat ++ [46]

def allBlocks (storage : Storage) (input : OutlineInput) : Except LibraryError (List Blocks.Block) := do
  let selected ← attachedReadableRevision storage input.projectId input.revisionId (some input.sourceId)
  let blocks ← storage.outline selected.revisionId
  let _ ← readText storage selected none
  return blocks

def outlineWritten (page : Page Blocks.Block Int Text) : Prop :=
  ∃ selected citable, page.body = outlineText selected citable page.shown page.next

def Numbered (blocks : List Blocks.Block) : Prop := blocks.map (·.id) = List.range' 1 blocks.length

theorem Numbered.ascending (numbered : Numbered all) : Ascending (·.id) all := by
  have ids : (all.map (·.id)).Pairwise (· < ·) := by
    rw [numbered]
    exact pairwise_lt_range'
  exact pairwise_map.mp ids

theorem Numbered.bounds (numbered : Numbered all) {block : Blocks.Block} (member : block ∈ all) :
    1 ≤ block.id ∧ block.id ≤ all.length := by
  have listed : block.id ∈ all.map (·.id) := mem_map_of_mem member
  rw [numbered, mem_range'_1] at listed
  omega

theorem outlineBlocks_at (numbered : Numbered all) (few : all.length ≤ maxSafeInteger)
    (listed : allBlocks storage input = .ok all) {place : Nat} (within : place = 0 ∨ place < all.length) :
    ∃ selected bytes, outlineBlocks storage { input with cursor := blockAt all place } = .ok (selected, all.drop place) ∧
      readText storage selected none = .ok bytes := by
  obtain ⟨selected, chosen, rest⟩ := bind_ok listed
  obtain ⟨blocks, outlined, rest⟩ := bind_ok rest
  obtain ⟨bytes, read, same⟩ := bind_ok rest
  obtain rfl : blocks = all := Except.ok.inj same
  refine ⟨selected, bytes, ?_, read⟩
  unfold outlineBlocks
  dsimp only
  rw [chosen]
  cases place with
  | zero =>
    have whole : blocks.filter (fun block => 1 ≤ block.id) = blocks := by
      rw [filter_eq_self]
      intro block member
      exact decide_eq_true (numbered.bounds member).1
    simp [blockAt, outlineOrdinal, bind, Except.bind, outlined, whole, pure, Except.pure]
  | succ place =>
    have inside : place + 1 < blocks.length := by omega
    have item : blocks[place + 1]? = some blocks[place + 1] := getElem?_eq_getElem inside
    generalize blocks[place + 1] = block at item
    have bounds := numbered.bounds (mem_of_getElem? item)
    have ordinal : outlineOrdinal (blockAt blocks (place + 1)) = .ok block.id := by
      rw [blockAt, item, Option.map_some, blockCursor, outlineOrdinal, if_neg (by omega),
        if_neg (by omega), Int.toNat_natCast]
    have behind := numbered.ascending.filter_from item
    rw [ordinal]
    simp [bind, Except.bind, outlined, behind, pure, Except.pure]

structure OutlinePage (blocks : List Blocks.Block) (page : Page Blocks.Block Int Text) : Prop where
  written : outlineWritten page
  shown : ∃ rows, page.shown = blocks.take rows ∧ page.next = blocks[rows]?.map blockCursor ∧ rows ≤ blocks.length ∧
    (rows = 0 → blocks = [])

theorem outlineReply_page {selected : ScopedRevision} {citable : List Nat} {blocks : List Blocks.Block}
    {tokens rows : Nat} {body : Text} (listed : outlineReply selected citable blocks tokens = .page rows body) :
    OutlinePage blocks ⟨blocks.take rows, body, blocks[rows]?.map blockCursor⟩ := by
  obtain ⟨few, -, nothing, text⟩ := listing_hits listed
  refine ⟨⟨selected, citable, ?_⟩, rows, rfl, rfl, few, nothing⟩
  dsimp only
  rw [text]
  cases blocks[rows]? with
  | none => rfl
  | some next => rfl

theorem askOutline_page {cursor : Option Int} (valid : 1 ≤ tokens ∧ tokens ≤ 4000) :
    (askOutline storage input cursor tokens = .failed ∧ ∀ selected blocks bytes,
      outlineBlocks storage { input with cursor } = .ok (selected, blocks) → readText storage selected none ≠ .ok bytes) ∨
      ∃ selected blocks, outlineBlocks storage { input with cursor } = .ok (selected, blocks) ∧
        (askOutline storage input cursor tokens = .refused ∨
          ∃ page, askOutline storage input cursor tokens = .page page ∧ OutlinePage blocks page) := by
  have same : outlineBlocks storage { input with cursor, maxTokens := some tokens } =
    outlineBlocks storage { input with cursor } := rfl
  unfold askOutline outlineTool
  rw [outputBudget_valid valid, same]
  cases found : outlineBlocks storage { input with cursor } with
  | error error =>
    left
    refine ⟨rfl, ?_⟩
    intro selected blocks bytes impossible
    cases impossible
  | ok pair =>
    obtain ⟨selected, blocks⟩ := pair
    simp only [bind, Except.bind]
    cases read : readText storage selected none with
    | error error =>
      left
      refine ⟨rfl, ?_⟩
      intro chosen others bytes listed read'
      cases listed
      rw [read] at read'
      cases read'
    | ok bytes =>
      right
      refine ⟨selected, blocks, rfl, ?_⟩
      dsimp only
      cases reply : outlineReply selected (Blocks.citableIdsFromBytes blocks bytes) blocks tokens.toNat with
      | minimum body purpose => exact .inl rfl
      | page rows body => exact .inr ⟨_, rfl, outlineReply_page reply⟩

theorem askOutline_from (numbered : Numbered all) (few : all.length ≤ maxSafeInteger)
    (listed : allBlocks storage input = .ok all) {place : Nat} (within : place = 0 ∨ place < all.length)
    (valid : 1 ≤ tokens ∧ tokens ≤ 4000) :
    (askOutline storage input (blockAt all place) tokens).From all (blockAt all) place := by
  obtain ⟨selected, bytes, found, read⟩ := outlineBlocks_at numbered few listed within
  rcases askOutline_page valid with ⟨-, never⟩ | ⟨chosen, blocks, found', refused | ⟨page, answered, shown⟩⟩
  · exact absurd read (never selected _ bytes found)
  · rw [refused]
    trivial
  · rw [found] at found'
    cases found'
    obtain ⟨rows, same, next, least, nothing⟩ := shown.shown
    rw [length_drop] at least
    have size : page.shown.length = rows := by
      rw [same, length_take, length_drop]
      omega
    rw [answered]
    refine ⟨?_, ?_, ?_⟩
    · rw [same]
      exact take_prefix _ _
    · intro last
      rw [next, Option.map_eq_none_iff, getElem?_eq_none_iff, length_drop] at last
      omega
    · intro more
      have inside : rows < (all.drop place).length := by
        by_contra outside
        rw [next, getElem?_eq_none (Nat.not_lt.mp outside)] at more
        exact more rfl
      have positive : 0 < rows := by
        by_contra none
        rw [nothing (by omega), length_nil] at inside
        omega
      rw [length_drop] at inside
      obtain ⟨before, rfl⟩ : ∃ before, rows = before + 1 := ⟨rows - 1, by omega⟩
      refine ⟨?_, by omega, by omega⟩
      rw [next, size, getElem?_drop]
      rfl

end

section

/-- Following the cursors lists rows from the first one on, never fails, and ends with every row listed once; each
    page is the text of its rows with its cursor below them. -/
structure Complete {Row Cursor : Type} (ask : Option Cursor → Int → Answer Row Cursor Text)
    (written : Page Row Cursor Text → Prop) (all : List Row) (budgets : List Int) : Prop where
  shown : listed (follow ask none budgets).1 <+: all
  never : (follow ask none budgets).2 ≠ .failed
  finished : (follow ask none budgets).2 = .finished → listed (follow ask none budgets).1 = all
  ends : all.length < budgets.length →
    (follow ask none budgets).2 = .finished ∨ (follow ask none budgets).2 = .refused
  text : ∀ page ∈ (follow ask none budgets).1, written page

theorem complete_of {Row Cursor : Type} {ask : Option Cursor → Int → Answer Row Cursor Text}
    {written : Page Row Cursor Text → Prop} {all : List Row} {budgets : List Int} (cursorAt : Nat → Option Cursor)
    (first : cursorAt 0 = none)
    (each : ∀ place, place = 0 ∨ place < all.length → ∀ tokens ∈ budgets,
      (ask (cursorAt place) tokens).From all cursorAt place)
    (text : ∀ cursor, ∀ tokens ∈ budgets, ∀ page, ask cursor tokens = .page page → written page) :
    Complete ask written all budgets := by
  have follows := follow_follows each (.inl rfl)
  rw [first] at follows
  obtain ⟨shown, never, finished, unfinished⟩ := follows
  refine ⟨shown, never, finished, ?_, follow_pages text none⟩
  intro enough
  cases ending : (follow ask none budgets).2 with
  | finished => exact .inl rfl
  | refused => exact .inr rfl
  | failed => exact absurd ending never
  | unfinished =>
    have bound := unfinished ending
    omega

variable {storage : Storage} {budgets : List Int}

theorem askClaims_written {input : SearchInput} {spec : StatementQuery}
    (query : statementQuery storage input.query = .ok spec) {cursor : Option Text}
    (valid : 1 ≤ tokens ∧ tokens ≤ 4000) {page : Page ClaimHit Text Text}
    (answered : askClaims storage input cursor tokens = .page page) :
    page.body = claimsText spec page.shown page.next := by
  cases found : findClaims storage { input with cursor } with
  | error error =>
    have same : findClaims storage { input with cursor, maxTokens := some tokens } = .error error := found
    unfold askClaims findClaimsTool at answered
    rw [outputBudget_valid valid, same] at answered
    cases answered
  | ok pair =>
    obtain ⟨other, hits⟩ := pair
    have same : other = spec := by
      obtain ⟨scope, -, rest⟩ := bind_ok found
      obtain ⟨chosen, query', rest⟩ := bind_ok rest
      rw [query] at query'
      cases query'
      dsimp only at rest
      split at rest
      · cases rest
      · cases rest
        rfl
    subst same
    rcases askClaims_page valid found with refused | ⟨rows, body, shown, -, -, -, text⟩
    · rw [answered] at refused
      cases refused
    · rw [answered] at shown
      cases shown
      exact text

theorem claims_complete (valid : ∀ tokens ∈ budgets, 1 ≤ tokens ∧ tokens ≤ 4000) {input : SearchInput}
    {all : List ClaimHit} (listed : allClaims storage input = .ok all) :
    Complete (askClaims storage input) (fun page => ∀ spec, statementQuery storage input.query = .ok spec →
      page.body = claimsText spec page.shown page.next) all budgets := by
  refine complete_of (cursorAt (·.id) all) rfl ?_ ?_
  · intro place within tokens member
    exact askClaims_from listed within (valid tokens member)
  · intro cursor tokens member page answered spec query
    exact askClaims_written query (valid tokens member) answered

theorem hits_complete (valid : ∀ tokens ∈ budgets, 1 ≤ tokens ∧ tokens ≤ 4000) (uuids : storage.Uuids)
    {input : SearchInput} {all : List SearchHit} (listed : allHits storage input = .ok all) :
    Complete (askSearch storage input) searchWritten all budgets := by
  refine complete_of (cursorAt formatSearchCursor all) rfl ?_ ?_
  · intro place within tokens member
    exact askSearch_from uuids listed within (valid tokens member)
  · intro cursor tokens member page answered
    rcases askSearch_page (valid tokens member) with ⟨-, -, failed⟩ | ⟨searched, -, refused | ⟨other, shown, written⟩⟩
    · rw [answered] at failed
      cases failed
    · rw [answered] at refused
      cases refused
    · rw [answered] at shown
      cases shown
      exact written.written

theorem blocks_complete (valid : ∀ tokens ∈ budgets, 1 ≤ tokens ∧ tokens ≤ 4000) {input : OutlineInput}
    {all : List Blocks.Block} (numbered : Numbered all) (few : all.length ≤ maxSafeInteger)
    (listed : allBlocks storage input = .ok all) :
    Complete (askOutline storage input) outlineWritten all budgets := by
  refine complete_of (blockAt all) rfl ?_ ?_
  · intro place within tokens member
    exact askOutline_from numbered few listed within (valid tokens member)
  · intro cursor tokens member page answered
    rcases askOutline_page (valid tokens member) with ⟨failed, -⟩ | ⟨selected, blocks, -, refused | ⟨other, shown, written⟩⟩
    · rw [answered] at failed
      cases failed
    · rw [answered] at refused
      cases refused
    · rw [answered] at shown
      cases shown
      exact written.written

theorem allHits_nodup {input : SearchInput} {all : List SearchHit} (listed : allHits storage input = .ok all) :
    (all.map fun hit => (hit.kind, hit.id)).Nodup := by
  obtain ⟨scope, selected, rest⟩ := bind_ok listed
  obtain ⟨spec, query, rest⟩ := bind_ok rest
  split at rest
  · cases rest
    exact nodup_nil
  obtain ⟨⟨found, unavailable⟩, guides, same⟩ := bind_ok rest
  cases Except.ok.inj same
  have first := guides_ascending selected guides
  have second := matchingClaims_ascending storage scope spec
  rw [map_append, map_map, nodup_append]
  have apart : (found.insertionSort hitBefore).Pairwise fun hit other => (hit.kind, hit.id) ≠ (other.kind, other.id) :=
    List.Pairwise.imp (fun before same => ne_of_lt before (congrArg Prod.snd same)) first
  have apart' : (matchingClaims storage scope spec).Pairwise fun hit other =>
      (HitKind.claim, hit.id) ≠ (HitKind.claim, other.id) :=
    List.Pairwise.imp (fun before same => ne_of_lt before (congrArg Prod.snd same)) second
  refine ⟨pairwise_map.mpr apart, pairwise_map.mpr apart', ?_⟩
  · intro guide listed' claim listed'' same
    obtain ⟨hit, member, rfl⟩ := mem_map.mp listed'
    obtain ⟨other, -, rfl⟩ := mem_map.mp listed''
    have kind := (guideHits_ids guides).2 hit ((mem_insertionSort hitBefore).mp member)
    have same : hit.kind = .claim := congrArg Prod.fst same
    rw [kind] at same
    cases same

/-- Following cursors lists everything that an unbounded request would, once and in its order: the claims, the hits
    of a search, and the blocks of an outline as they are scanned. -/
theorem pages_complete (storage : Storage) (budgets : List Int) (valid : ∀ tokens ∈ budgets, 1 ≤ tokens ∧ tokens ≤ 4000) :
    (∀ input all, allClaims storage input = .ok all → (all.map (·.id)).Nodup ∧
      Complete (askClaims storage input) (fun page => ∀ spec, statementQuery storage input.query = .ok spec →
        page.body = claimsText spec page.shown page.next) all budgets) ∧
    (∀ input all, storage.Uuids → allHits storage input = .ok all → (all.map fun hit => (hit.kind, hit.id)).Nodup ∧
      Complete (askSearch storage input) searchWritten all budgets) ∧
    (∀ input source, allBlocks storage input = .ok (Blocks.scanBlocks source) →
      (Blocks.scanBlocks source).length ≤ maxSafeInteger → ((Blocks.scanBlocks source).map (·.id)).Nodup ∧
      Complete (askOutline storage input) outlineWritten (Blocks.scanBlocks source) budgets) := by
  refine ⟨?_, ?_, ?_⟩
  · intro input all listed
    refine ⟨?_, claims_complete valid listed⟩
    obtain ⟨scope, -, rest⟩ := bind_ok listed
    obtain ⟨spec, -, same⟩ := bind_ok rest
    cases Except.ok.inj same
    exact (matchingClaims_ascending storage scope spec).nodup
  · intro input all uuids listed
    exact ⟨allHits_nodup listed, hits_complete valid uuids listed⟩
  · intro input source listed few
    have numbered : Numbered (Blocks.scanBlocks source) := Blocks.scanBlocks_ids source
    exact ⟨numbered.ascending.nodup, blocks_complete valid numbered few listed⟩

def twoClaims : Storage :=
  let source := text "One."
  let row (id : Text) : ClaimRow := ⟨⟨id, text "00000000-0000-4000-8000-000000000001", text "Title", text "fact", text "One.",
    text "One.", 1, 0, 4⟩, true, true, false, true, false, 0, 2⟩
  let revision : Attached := ⟨⟨text "s", text "Title", text "00000000-0000-4000-8000-000000000001", text "readable",
    some 4, some 1, some (text "done")⟩, text "p", true, 0, true, some (text "00000000-0000-4000-8000-000000000001"),
    false⟩
  { emptyStorage with
    projectSources := fun _ => [text "s"]
    members := fun _ => [(text "s", true)]
    attached := [revision]
    outline := fun _ => .ok (Blocks.scanBlocks source)
    readable := fun _ => .ok (encode source)
    guide := fun _ => .ok (some (text "one guide"))
    claims := [row (text "00000000-0000-4000-8000-000000000003"), row (text "00000000-0000-4000-8000-000000000002")]
    found := fun _ _ => true
    claimIds := by decide
    attachedIds := fun project => by
      refine List.Nodup.sublist (filter_sublist.map _) ?_
      exact nodup_singleton _ }

def oneQuery : SearchInput := ⟨text "p", none, text "one", none, none⟩

theorem pages_complete_twoClaims :
    ∃ claims hits, allClaims twoClaims oneQuery = .ok claims ∧ claims.length = 2 ∧ (claims.map (·.id)).Nodup ∧
      allHits twoClaims oneQuery = .ok hits ∧ hits.length = 3 ∧
      listed (follow (askSearch twoClaims oneQuery) none [180, 180, 180]).1 = hits := by
  obtain ⟨claims, found, two⟩ : ∃ claims, allClaims twoClaims oneQuery = .ok claims ∧ claims.length = 2 :=
    map_ok (by decide +kernel)
  obtain ⟨hits, searched, three⟩ : ∃ hits, allHits twoClaims oneQuery = .ok hits ∧ hits.length = 3 :=
    map_ok (by decide +kernel)
  have uuids : twoClaims.Uuids := ⟨by decide +kernel, by decide +kernel⟩
  have complete := pages_complete twoClaims [180, 180, 180] (by decide)
  have ended : (follow (askSearch twoClaims oneQuery) none [180, 180, 180]).2 = .finished := by decide +kernel
  exact ⟨claims, hits, found, two, (complete.1 oneQuery claims found).1, searched, three,
    (complete.2.1 oneQuery hits uuids searched).2.finished ended⟩

end

end Tools
