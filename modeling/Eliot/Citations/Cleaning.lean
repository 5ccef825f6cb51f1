import Eliot.Citations.Rewriting
import Eliot.Text.Brackets
import Eliot.Text.Replaced

namespace Citations
open Text List Regex
open Regex (Found Located replaced replacedFrom moved)

theorem candidate_bracketed : refCandidate.Bracketed (· == 91) (· == 93) where
  free := by decide
  apart := by
    intro symbol closing
    rw [eq_of_beq closing]
    rfl
  shape := by
    intro word accepted
    obtain ⟨left, others, rfl, opening, behind⟩ := accepted.seq_split
    obtain ⟨content, right, rfl, inside, closing⟩ := behind.seq_split
    obtain ⟨first, rfl, opened⟩ := opening.one_symbol
    obtain ⟨last, rfl, closed⟩ := closing.one_symbol
    refine ⟨first, content, last, rfl, opened, closed, ?_⟩
    have opens : 91 ∉ content := inside.avoids (by decide)
    have closes : 93 ∉ content := inside.avoids (by decide)
    intro symbol member
    constructor
    · exact beq_false_of_ne fun same => opens (same ▸ member)
    · exact beq_false_of_ne fun same => closes (same ▸ member)

section
variable {known : Text → Option Nat} {token : Nat → Text} {text : Text}

def recognised (known : Text → Option Nat) (text : Text) : List (Found Nat) :=
  (refCandidate.matchAll text).filter fun found => !insideCode text found.start && (known found.token).isSome

def replacement (known : Text → Option Nat) (token : Nat → Text) (reference : Text) : Text :=
  ((known reference).map token).getD []

theorem fold_step (known : Text → Option Nat) (token : Nat → Text) (text : Text) (founds : List (Found Nat)) (cleaning : Cleaning) :
    let result := founds.foldl (Cleaning.step known token text) cleaning
    result.finish text = cleaning.parts.flatten ++ replaced (replacement known token) text cleaning.last
      (founds.filter fun found => !insideCode text found.start && (known found.token).isSome) ∧
    result.invalid = cleaning.invalid +
      founds.countP fun found => !insideCode text found.start && (known found.token).isNone := by
  induction founds generalizing cleaning with
  | nil => simp [Rewrite.finish, replaced]
  | cons found founds ih =>
    have next := ih (cleaning.step known token text found)
    rw [foldl_cons, filter_cons, countP_cons]
    cases inside : insideCode text found.start with
    | true => simpa [Cleaning.step, inside] using next
    | false =>
      cases reference : known found.token with
      | none =>
        simp only [Cleaning.step, inside, reference] at next ⊢
        simpa [Nat.add_assoc, Nat.add_comm 1] using next
      | some block =>
        simp only [Cleaning.step, inside, reference] at next ⊢
        simpa [Rewrite.replace, replaced, replacement, reference, slice, Regex.span] using next

end

section
variable {known : Text → Option Nat} {token : Nat → Text} {text : Text} {allowed : Text → Prop}

def residue (known : Text → Option Nat) (token : Nat → Text) (text : Text) : Text :=
  replaced (replacement known token) text 0 (recognised known text)

def residuePlace (known : Text → Option Nat) (token : Nat → Text) (text : Text) (place : Nat) : Nat :=
  moved (replacement known token) text (recognised known text) place

def residueFrom (known : Text → Option Nat) (token : Nat → Text) (text : Text) (place : Nat) : Text :=
  replacedFrom (replacement known token) text (recognised known text) place

/-- Replacing the references of a text makes no other one: those in code stay in code, no bracket of
    the prose closes up to one, and no token that stands for one has another one inside. -/
structure Sealed (known : Text → Option Nat) (token : Nat → Text) (allowed : Text → Prop) (text : Text) :
    Prop where
  code : ∀ found ∈ refCandidate.matchAll text, insideCode text found.start = true →
    allowed found.token ∨ insideCode (residue known token text) (residuePlace known token text found.start) = true
  seams : (∀ block, token block = []) → ∀ place, text[place]? = some 91 →
    (∀ found ∈ refCandidate.matchAll text, found.start ≠ place) →
    refCandidate.test (residueFrom known token text place) = true →
    insideCode (residue known token text) (residuePlace known token text place) = true
  tokens : ∀ found ∈ recognised known text, ∀ inner ∈ refCandidate.matchAll (replacement known token found.token),
    allowed inner.token ∨ insideCode (residue known token text)
      (residuePlace known token text found.start + inner.start) = true

theorem candidates_filled : ∀ found ∈ refCandidate.matchAll text, found.token ≠ [] := by
  intro found member nothing
  obtain ⟨first, content, last, shape, -⟩ :=
    candidate_bracketed.shape _ (candidate_bracketed.mem_matchAll.mp member).1
  rw [nothing] at shape
  cases shape

theorem recognised_located (known : Text → Option Nat) (text : Text) :
    Located text 0 (recognised known text) := (refCandidate.matchAll_located text).filter _

theorem recognised_filled : ∀ found ∈ recognised known text, found.token ≠ [] :=
  fun found member => candidates_filled found (mem_of_mem_filter member)

variable {found : Found Nat}

theorem recognised_replacement (token : Nat → Text) (listed : found ∈ recognised known text) :
    ∃ block, replacement known token found.token = token block := by
  have reference := (mem_filter.mp listed).2
  rw [Bool.and_eq_true] at reference
  obtain ⟨block, named⟩ := Option.isSome_iff_exists.mp reference.2
  exact ⟨block, by rw [replacement, named]; rfl⟩

variable {place : Nat}

theorem bracket_start (member : found ∈ refCandidate.matchAll text)
    (bracket : text[place]? = some 91) (after : found.start ≤ place) (before : place < found.stop) :
    place = found.start := by
  obtain ⟨accepted, rest, there⟩ := candidate_bracketed.mem_matchAll.mp member
  obtain ⟨first, others, shape⟩ := exists_cons_of_ne_nil (candidates_filled found member)
  by_contra different
  have here : (text.drop found.start)[place - found.start]? = some 91 := by
    rw [getElem?_drop, Nat.add_sub_cancel' after, bracket]
  obtain ⟨index, same⟩ : ∃ index, place - found.start = index + 1 := ⟨place - found.start - 1, by omega⟩
  have short : index < others.length := by
    have stop : found.stop = found.start + found.token.length := rfl
    rw [shape, length_cons] at stop
    omega
  rw [there, shape, same, cons_append, getElem?_cons_succ, getElem?_append_left short] at here
  rw [shape] at accepted
  have closed := (candidate_bracketed.opens_first accepted).2 91 (mem_of_getElem? here)
  cases closed

theorem kept_candidate (member : found ∈ refCandidate.matchAll text)
    (inside : insideCode text found.start = true) :
    residueFrom known token text found.start = found.token ++ residueFrom known token text found.stop := by
  have located := refCandidate.matchAll_located text
  have outside : ∀ other ∈ recognised known text, other.stop ≤ found.start ∨ found.stop ≤ other.start := by
    intro other listed
    obtain ⟨candidate, prose⟩ := mem_filter.mp listed
    rcases located.apart member candidate with same | before | after
    · rw [← same, inside] at prose
      cases prose
    · exact .inr before
    · exact .inl after
  rw [residueFrom, replacedFrom_kept (recognised_located known text) recognised_filled
    found.start_le_stop (Nat.zero_le _) outside, located.span_token member]
  rfl

theorem residue_drop
    (outside : ∀ found ∈ recognised known text, found.stop ≤ place ∨ place ≤ found.start) :
    (residue known token text).drop (residuePlace known token text place) = residueFrom known token text place :=
  drop_moved (recognised_located known text) recognised_filled outside

theorem found_outside (member : found ∈ refCandidate.matchAll text) :
    ∀ other ∈ recognised known text, other.stop ≤ found.start ∨ found.start ≤ other.start := by
  intro other listed
  rcases (refCandidate.matchAll_located text).apart member (mem_of_mem_filter listed) with same | before | after
  · exact .inr (same ▸ Nat.le_refl _)
  · exact .inr (found.start_le_stop.trans before)
  · exact .inl after

theorem bracket_outside (bracket : text[place]? = some 91)
    (free : ∀ found ∈ refCandidate.matchAll text, found.start ≠ place) :
    ∀ found ∈ recognised known text, found.stop ≤ place ∨ place < found.start := by
  intro found listed
  have member := mem_of_mem_filter listed
  by_contra inside
  have start := bracket_start member bracket (by omega) (by omega)
  exact free found member start.symm

theorem test_exists {input : Text} (passed : refCandidate.test input = true) :
    ∃ reference rest, refCandidate.Accepts reference ∧ input = reference ++ rest := by
  obtain ⟨once, found⟩ := Option.isSome_iff_exists.mp passed
  obtain ⟨taken, split, accepted⟩ := refCandidate.ways_accepts input once (mem_of_head? found)
  exact ⟨taken, once.rest, accepted, split⟩

theorem sealed_of_clean (clean : ∀ found ∈ refCandidate.matchAll (residue known token text),
      allowed found.token ∨ insideCode (residue known token text) found.start = true)
    (stripped : (∀ block, token block = []) → ∀ reference, ¬ allowed reference) :
    Sealed known token allowed text where
  code := by
    intro found member inside
    obtain ⟨accepted, -⟩ := candidate_bracketed.mem_matchAll.mp member
    refine clean ⟨residuePlace known token text found.start, found.token⟩
      (candidate_bracketed.mem_matchAll.mpr ⟨accepted, residueFrom known token text found.stop, ?_⟩)
    rw [residue_drop (found_outside member), kept_candidate member inside]
  seams := by
    intro removed place bracket free passed
    obtain ⟨reference, rest, accepted, split⟩ := test_exists passed
    have outside : ∀ found ∈ recognised known text, found.stop ≤ place ∨ place < found.start :=
      bracket_outside bracket free
    have there : (⟨residuePlace known token text place, reference⟩ : Found Nat) ∈
        refCandidate.matchAll (residue known token text) := by
      refine candidate_bracketed.mem_matchAll.mpr ⟨accepted, rest, ?_⟩
      rw [residue_drop fun found listed => (outside found listed).imp id Nat.le_of_lt, split]
    exact (clean _ there).resolve_left (stripped removed reference)
  tokens := by
    intro found listed inner member
    obtain ⟨accepted, rest, split⟩ := candidate_bracketed.mem_matchAll.mp member
    refine clean ⟨residuePlace known token text found.start + inner.start, inner.token⟩
      (candidate_bracketed.mem_matchAll.mpr ⟨accepted, rest ++ residueFrom known token text found.stop, ?_⟩)
    have outside : ∀ other ∈ recognised known text, other.stop ≤ found.start ∨ found.start ≤ other.start :=
      found_outside (mem_of_mem_filter listed)
    have here : residueFrom known token text found.start =
        replacement known token found.token ++ residueFrom known token text found.stop :=
      replacedFrom_found (recognised_located known text) recognised_filled listed
    have short : inner.start ≤ (replacement known token found.token).length := by
      by_contra longer
      rw [drop_eq_nil_of_le (by omega)] at split
      obtain ⟨nothing, -⟩ := append_eq_nil_iff.mp split.symm
      exact candidates_filled inner member nothing
    rw [← drop_drop, residue_drop outside, here, drop_append_of_le_length short, split, append_assoc]

theorem place_of_drop {index place : Nat} (within : index ≤ (residue known token text).length)
    (there : (residue known token text).drop index = residueFrom known token text place) :
    residuePlace known token text place = index := by
  have lengths := congrArg List.length there
  rw [length_drop] at lengths
  show (residue known token text).length - (residueFrom known token text place).length = index
  omega

theorem token_before_bracket {reference front rest more : Text} (accepted : refCandidate.Accepts reference)
    (filled : front ≠ []) (split : reference ++ rest = front ++ 91 :: more) :
    ∃ between, front = reference ++ between := by
  rcases append_eq_append_iff.mp split with ⟨between, same, -⟩ | ⟨between, same, behind⟩
  · exact ⟨between, same⟩
  · cases between with
    | nil => exact ⟨[], by simpa using same.symm⟩
    | cons unit between =>
      obtain ⟨rfl, -⟩ := List.cons.inj behind
      obtain ⟨first, others, rfl⟩ := exists_cons_of_ne_nil filled
      rw [same, cons_append] at accepted
      have closed := (candidate_bracketed.opens_first accepted).2 91 (by simp)
      cases closed

theorem token_at_bracket {reference front rest more : Text} (accepted : refCandidate.Accepts reference)
    (split : reference ++ rest = front ++ 93 :: more) : ∃ between, front ++ [93] = reference ++ between := by
  have split : reference ++ rest = (front ++ [93]) ++ more := by simpa using split
  rcases append_eq_append_iff.mp split with ⟨between, same, -⟩ | ⟨between, same, -⟩
  · exact ⟨between, same⟩
  · rcases eq_nil_or_concat between with rfl | ⟨others, unit, rfl⟩
    · exact ⟨[], by simpa using same.symm⟩
    · obtain ⟨first, content, last, shape, opening, -, plain⟩ := candidate_bracketed.shape _ accepted
      rw [shape, ← cons_append, concat_eq_append, ← append_assoc] at same
      have inside : 93 ∈ first :: content := by
        rw [(append_inj' same rfl).1]
        simp
      rcases mem_cons.mp inside with rfl | inside
      · cases opening
      · have closed := (plain 93 inside).2
        cases closed

theorem span_unit (short : place < text.length) :
    Regex.span text place (place + 1) = [text[place]] := by
  rw [Regex.span, Nat.add_sub_cancel_left, drop_eq_getElem_cons short]
  rfl

theorem clean_of_kept (tight : Sealed known token allowed text) (accepted : refCandidate.Accepts found.token)
    {rest : Text} (split : residueFrom known token text place = found.token ++ rest)
    (at' : residuePlace known token text place = found.start) (short : place < text.length)
    (outside : ∀ reference ∈ recognised known text, reference.stop ≤ place ∨ place < reference.start)
    (whole : ∀ found ∈ refCandidate.matchAll text, insideCode text found.start = false →
      (known found.token).isSome = true)
    (form : (∀ block, token block = []) ∨ ∀ block, ∃ content, token block = 91 :: (content ++ [93])) :
    allowed found.token ∨ insideCode (residue known token text) found.start = true := by
  obtain ⟨first, content, last, shape, opening, -⟩ := candidate_bracketed.shape _ accepted
  have bracket : text[place]? = some 91 := by
    have kept : residueFrom known token text place =
        Regex.span text place (place + 1) ++ residueFrom known token text (place + 1) :=
      replacedFrom_kept (recognised_located known text) recognised_filled (Nat.le_succ place)
        (Nat.zero_le _) outside
    rw [split, shape, span_unit short] at kept
    have same := (List.cons.inj kept).1
    rw [getElem?_eq_getElem short, ← same, eq_of_beq opening]
  by_cases candidate : ∃ found ∈ refCandidate.matchAll text, found.start = place
  · obtain ⟨candidate, member, rfl⟩ := candidate
    have inside : insideCode text candidate.start = true := by
      by_contra prose
      have prose : insideCode text candidate.start = false := by simpa using prose
      have listed : candidate ∈ recognised known text :=
        mem_filter.mpr ⟨member, by rw [prose, whole candidate member prose]; rfl⟩
      have length := length_pos_iff.mpr (candidates_filled candidate member)
      have stop : candidate.stop = candidate.start + candidate.token.length := rfl
      have := outside candidate listed
      omega
    rw [kept_candidate member inside] at split
    have same := candidate_bracketed.unique (candidate_bracketed.mem_matchAll.mp member).1 accepted split
    rw [← same, ← at']
    exact tight.code candidate member inside
  · have free : ∀ found ∈ refCandidate.matchAll text, found.start ≠ place :=
      fun found member start => candidate ⟨found, member, start⟩
    have fresh : ∀ more, text.drop place ≠ found.token ++ more := by
      intro more there
      exact free ⟨place, found.token⟩ (candidate_bracketed.mem_matchAll.mpr ⟨accepted, more, there⟩) rfl
    rcases form with removed | bracketed
    · refine .inr (at' ▸ tight.seams removed place bracket free ?_)
      obtain ⟨once, matched, -⟩ : ∃ once, refCandidate.exec (found.token ++ rest) = some once ∧ once.rest = rest :=
        candidate_bracketed.exec_word accepted
      rw [split, Regex.test, matched]
      rfl
    · exfalso
      rw [residueFrom, replacedFrom] at split
      cases ahead : (recognised known text).filter fun found => decide (place ≤ found.start) with
      | nil =>
        rw [ahead] at split
        exact fresh _ split
      | cons reference others =>
        have next : reference ∈ (recognised known text).filter fun found => decide (place ≤ found.start) :=
          ahead ▸ mem_cons_self
        obtain ⟨listed, behind⟩ := mem_filter.mp next
        have filled := length_pos_iff.mpr (recognised_filled reference listed)
        have stop : reference.stop = reference.start + reference.token.length := rfl
        have order : place < reference.start := by
          have apart := outside reference listed
          have behind : place ≤ reference.start := by simpa using behind
          omega
        have fits := (reference.start_le_stop.trans
          ((recognised_located known text).stop_le_length reference listed))
        have front : Regex.span text place reference.start ≠ [] := by
          rw [← length_pos_iff, Regex.span, length_take, length_drop]
          omega
        obtain ⟨block, written⟩ := recognised_replacement token listed
        obtain ⟨content, form⟩ := bracketed block
        rw [form] at written
        rw [ahead, replaced, written, append_assoc, cons_append] at split
        obtain ⟨between, same⟩ := token_before_bracket accepted front split.symm
        refine fresh (between ++ text.drop reference.start) ?_
        rw [drop_span (Nat.le_of_lt order), same, append_assoc]

theorem clean_of_replaced (tight : Sealed known token allowed text) {found reference : Found Nat} {rest : Text}
    {offset : Nat} (accepted : refCandidate.Accepts found.token)
    (listed : reference ∈ recognised known text) (bound : offset < (replacement known token reference.token).length)
    (split : (replacement known token reference.token).drop offset ++ residueFrom known token text reference.stop =
      found.token ++ rest)
    (at' : residuePlace known token text reference.start + offset = found.start)
    (form : (∀ block, token block = []) ∨ ∀ block, ∃ content, token block = 91 :: (content ++ [93])) :
    allowed found.token ∨ insideCode (residue known token text) found.start = true := by
  obtain ⟨block, written⟩ := recognised_replacement token listed
  rcases form with removed | bracketed
  · rw [written, removed] at bound
    cases bound
  · obtain ⟨content, form⟩ := bracketed block
    have tail : (replacement known token reference.token).drop offset = (91 :: content).drop offset ++ [93] := by
      rw [written, form] at bound ⊢
      rw [← cons_append, drop_append_of_le_length]
      simpa using bound
    rw [tail, append_assoc, singleton_append] at split
    obtain ⟨between, same⟩ := token_at_bracket accepted split.symm
    have inner : (⟨offset, found.token⟩ : Found Nat) ∈
        refCandidate.matchAll (replacement known token reference.token) :=
      candidate_bracketed.mem_matchAll.mpr ⟨accepted, between, by rw [tail, same]⟩
    rw [← at']
    exact tight.tokens reference listed _ inner

theorem clean_of_sealed (tight : Sealed known token allowed text)
    (whole : ∀ found ∈ refCandidate.matchAll text, insideCode text found.start = false →
      (known found.token).isSome = true)
    (form : (∀ block, token block = []) ∨ ∀ block, ∃ content, token block = 91 :: (content ++ [93])) :
    ∀ found ∈ refCandidate.matchAll (residue known token text),
      allowed found.token ∨ insideCode (residue known token text) found.start = true := by
  intro found member
  obtain ⟨accepted, rest, split⟩ := candidate_bracketed.mem_matchAll.mp member
  have within : found.start < (residue known token text).length := by
    by_contra outside
    rw [drop_eq_nil_of_le (by omega)] at split
    exact candidates_filled found member (append_eq_nil_iff.mp split.symm).1
  rcases replaced_origin (recognised_located known text) recognised_filled within with
    ⟨place, -, short, outside, there⟩ | ⟨reference, listed, offset, bound, there⟩
  · have there : (residue known token text).drop found.start = residueFrom known token text place := there
    rw [there] at split
    exact clean_of_kept tight accepted split (place_of_drop (Nat.le_of_lt within) there) short outside whole form
  · have there : (residue known token text).drop found.start =
        (replacement known token reference.token).drop offset ++ residueFrom known token text reference.stop := there
    have outside : ∀ other ∈ recognised known text, other.stop ≤ reference.start ∨ reference.start ≤ other.start :=
      found_outside (mem_of_mem_filter listed)
    have here : residueFrom known token text reference.start =
        replacement known token reference.token ++ residueFrom known token text reference.stop :=
      replacedFrom_found (recognised_located known text) recognised_filled listed
    have at' : residuePlace known token text reference.start + offset = found.start := by
      have first := congrArg List.length there
      have second : ((residue known token text).drop (residuePlace known token text reference.start)).length =
          (residueFrom known token text reference.start).length := congrArg List.length (residue_drop outside)
      have third : residuePlace known token text reference.start =
        (residue known token text).length - (residueFrom known token text reference.start).length := rfl
      rw [here] at second third
      simp only [length_append, length_drop] at first second third
      omega
    rw [there] at split
    exact clean_of_replaced tight accepted listed bound split at' form

end

/-- `[R${revisionId}:${block}]` of a block that a label declares. -/
def ownReference (labels : List Text) (revisionId reference : Text) : Prop :=
  ∃ label ∈ labels, ∃ block, declaredBlock label = some block ∧ reference = persistentToken revisionId block

theorem cleanDistillText_eq (text : Text) (labels : List Text) (revisionId : Text) (preserve : Bool) :
    let known := knownReferences labels revisionId
    let cleaned := cleanDistillText text labels revisionId preserve
    cleaned.text = residue known (fun block => if preserve then persistentToken revisionId block else []) text ∧
    (cleaned.invalidReferences = 0 ↔ ∀ found ∈ refCandidate.matchAll text, insideCode text found.start = false →
      (known found.token).isSome = true) := by
  obtain ⟨made, invalid⟩ := fold_step (knownReferences labels revisionId)
    (fun block => if preserve then persistentToken revisionId block else []) text
    (refCandidate.matchAll text) ⟨⟨[], 0⟩, 0⟩
  refine ⟨made, ?_⟩
  simp only [cleanDistillText, invalid, Nat.zero_add, countP_eq_zero]
  refine forall₂_congr fun found _ => ?_
  cases insideCode text found.start <;> cases knownReferences labels revisionId found.token <;> simp

end Citations
