import Eliot.Numbers.Tokens
import Mathlib.Algebra.Order.BigOperators.Group.List
import Mathlib.Data.List.Count
import Mathlib.Data.List.ReduceOption

namespace Numbers

open List Regex.Guarded
open Regex (Located)
open Text (isDigit slice)

variable {tokens : List CompoundPowerToken} {last : Nat}

section
variable {α : Type} {list : List α}

def Placed (length : Nat) : Nat → List CompoundPowerToken → Prop
  | last, [] => last ≤ length
  | last, token :: tokens => last ≤ token.start ∧ token.start ≤ token.stop ∧ Placed length token.stop tokens

def within (list : List α) (token : CompoundPowerToken) : List α :=
  (list.drop token.start).take (token.stop - token.start)

theorem Placed.fits {length last : Nat}
    (placed : Placed length last tokens) : last ≤ length := by
  induction tokens generalizing last with
  | nil => exact placed
  | cons token tokens ih => exact placed.1.trans (placed.2.1.trans (ih placed.2.2))

theorem Placed.after {length last : Nat}
    (placed : Placed length last tokens) : ∀ token ∈ tokens, last ≤ token.start := by
  induction tokens generalizing last with
  | nil => simp
  | cons token tokens ih =>
    intro one member
    rcases mem_cons.mp member with rfl | member
    · exact placed.1
    · exact placed.1.trans (placed.2.1.trans (ih placed.2.2 one member))

theorem count_cut [BEq α] [LawfulBEq α] {filler value : α} (other : value ≠ filler)
    (placed : Placed list.length last tokens) :
    (list.drop last).count value = (tokens.map fun token => (within list token).count value).sum +
      (cut filler list last tokens).count value := by
  induction tokens generalizing last with
  | nil => simp [cut]
  | cons token tokens ih =>
    obtain ⟨after, order, rest⟩ := placed
    have next := ih rest
    have split : list.drop last = (list.drop last).take (token.start - last) ++
        (within list token ++ list.drop token.stop) := by
      conv_lhs => rw [← take_append_drop (token.start - last) (list.drop last)]
      rw [drop_drop, Nat.add_sub_cancel' after]
      conv_lhs => rw [← take_append_drop (token.stop - token.start) (list.drop token.start)]
      rw [drop_drop, Nat.add_sub_cancel' order, within]
    rw [split, count_append, count_append, next, map_cons, sum_cons, cut,
      count_append, count_cons_of_ne (Ne.symm other)]
    omega

theorem map_cut {β : Type} (change : α → β) {filler : α} :
    (cut filler list last tokens).map change = cut (change filler) (list.map change) last tokens := by
  induction tokens generalizing last with
  | nil => simp [cut]
  | cons token tokens ih => simp [cut, ih]

theorem mem_cut {filler value : α}
    (member : value ∈ cut filler list last tokens) : value ∈ list ∨ value = filler := by
  induction tokens generalizing last with
  | nil => exact .inl (mem_of_mem_drop member)
  | cons token tokens ih =>
    rcases mem_append.mp member with member | member
    · exact .inl (mem_of_mem_drop (mem_of_mem_take member))
    · rcases mem_cons.mp member with rfl | member
      · exact .inr rfl
      · exact ih member

theorem uncovered_of_mem_cut {filler value : α} (other : value ≠ filler)
    (placed : Placed list.length last tokens)
    (member : value ∈ cut filler list last tokens) :
    ∃ place, last ≤ place ∧ list[place]? = some value ∧
      ∀ token ∈ tokens, ¬ (token.start ≤ place ∧ place < token.stop) := by
  induction tokens generalizing last with
  | nil =>
    obtain ⟨place, there⟩ := mem_iff_getElem?.mp member
    rw [cut, getElem?_drop] at there
    exact ⟨last + place, Nat.le_add_right _ _, there, by simp⟩
  | cons token tokens ih =>
    obtain ⟨after, order, rest⟩ := placed
    rcases mem_append.mp member with member | member
    · obtain ⟨place, there⟩ := mem_iff_getElem?.mp member
      rw [getElem?_take, getElem?_drop] at there
      obtain ⟨short, there⟩ := Option.ite_none_right_eq_some.mp there
      refine ⟨last + place, Nat.le_add_right _ _, there, ?_⟩
      intro one listed inside
      rcases mem_cons.mp listed with rfl | listed
      · omega
      · have := rest.after one listed
        omega
    · rcases mem_cons.mp member with same | member
      · exact absurd same other
      · obtain ⟨place, behind, there, free⟩ := ih rest member
        refine ⟨place, by omega, there, ?_⟩
        intro one listed inside
        rcases mem_cons.mp listed with rfl | listed
        · omega
        · exact free one listed inside

end

section
variable {unicode : Unicode} {taken : Text}

theorem accepts_digits (accepted : digits.Accepts taken) : ∃ code ∈ taken, isDigit code = true := by
  obtain ⟨filled, all⟩ := accepted.plus_one
  obtain ⟨code, member⟩ := exists_mem_of_ne_nil taken filled
  exact ⟨code, member, all code member⟩

theorem accepts_literal (accepted : numericLiteral.Accepts taken) :
    ∃ code ∈ taken, isDigit code = true := by
  have listed : Regex.alt number pointed ∈
      [Regex.optional ((Regex.one isSign).seq blanks), number.alt pointed, exponent] := by simp
  obtain ⟨inner, chosen, within⟩ := accepted.part listed
  have digit : ∃ code ∈ inner, isDigit code = true := by
    rcases chosen.alt_split with whole | fraction
    · obtain ⟨left, right, rfl, first, -⟩ := whole.seq_split
      obtain ⟨code, member, passed⟩ := accepts_digits first
      exact ⟨code, mem_append_left _ member, passed⟩
    · obtain ⟨left, right, rfl, -, last⟩ := fraction.seq_split
      obtain ⟨code, member, passed⟩ := accepts_digits last
      exact ⟨code, mem_append_right _ member, passed⟩
  obtain ⟨code, member, passed⟩ := digit
  exact ⟨code, within code member, passed⟩

theorem accepts_base {regexes : List (Regex Nat)} (accepted : (Regex.all regexes).Accepts taken)
    (base : unit 49 ∈ regexes) : ∃ code ∈ taken, isDigit code = true := by
  obtain ⟨inner, chosen, within⟩ := accepted.part base
  obtain ⟨code, rfl, passed⟩ := chosen.one_symbol
  refine ⟨code, within code (mem_singleton_self _), ?_⟩
  rw [eq_of_beq passed]
  rfl

theorem accepts_compound (accepted : (compoundPower unicode).body.Accepts taken) :
    ∃ code ∈ taken, isDigit code = true := accepts_base accepted (by simp)

theorem accepts_bare (accepted : (barePower unicode).body.Accepts taken) :
    ∃ code ∈ taken, isDigit code = true := accepts_base accepted (by simp)

theorem consumes_of_digits {guarded : Regex.Guarded Nat}
    (digit : ∀ taken, guarded.body.Accepts taken → ∃ code ∈ taken, isDigit code = true) : guarded.Consumes := by
  refine consumes_of_words fun word accepted nothing => ?_
  obtain ⟨code, member, -⟩ := digit word accepted
  rw [nothing] at member
  cases member

def tokensOf (value : Regex.Hit Nat → Text) (hits : List (Regex.Hit Nat)) : List CompoundPowerToken :=
  hits.map fun hit => ⟨value hit, hit.start, hit.stop⟩

theorem placed_of_located {text : Text} {value : Regex.Hit Nat → Text}
    {hits : List (Regex.Hit Nat)} (located : Located text last (hits.map (·.toFound))) :
    Placed text.length last (tokensOf value hits) := by
  induction hits generalizing last with
  | nil => exact located
  | cons hit hits ih => exact ⟨located.1, Nat.le_add_right _ _, ih located.2.2⟩

variable {guarded : Regex.Guarded Nat}

theorem tokens_placed (digit : ∀ taken, guarded.body.Accepts taken → ∃ code ∈ taken, isDigit code = true)
    (value : Regex.Hit Nat → Text) (text : Text) :
    Placed text.length 0 (tokensOf value (guarded.matchAll text)) :=
  placed_of_located ((matchAll_walk (consumes_of_digits digit) text).located [] rfl)

theorem matchAll_of_no_digit
    (digit : ∀ taken, guarded.body.Accepts taken → ∃ code ∈ taken, isDigit code = true) {text : Text}
    (none : ∀ code ∈ text, isDigit code = false) : guarded.matchAll text = [] := by
  have walk := matchAll_walk (consumes_of_digits digit) text
  rw [eq_nil_iff_forall_not_mem]
  intro hit member
  obtain ⟨code, inside, passed⟩ := digit hit.token (walk.accepts hit member)
  have there : code ∈ text := by
    have located := walk.located [] rfl
    rw [← located.token_of_mem (mem_map_of_mem member)] at inside
    exact mem_of_mem_drop (mem_of_mem_take inside)
  rw [none code there] at passed
  cases passed

theorem literal_covers (text : Text) (place code : Nat) (there : text[place]? = some code)
    (digit : isDigit code = true) :
    ∃ hit ∈ (Regex.unguarded numericLiteral).matchAll text, hit.start ≤ place ∧ place < hit.stop := by
  have consumes : (Regex.unguarded numericLiteral).Consumes := consumes_of_digits fun _ => accepts_literal
  have walk := matchAll_walk consumes text
  have always : ∀ (previous : Option Nat) symbol rest, isDigit symbol = true →
      ((Regex.unguarded numericLiteral).exec previous (symbol :: rest)).isSome = true := by
    intro previous symbol rest passed
    have one : digits.Accepts [symbol] := .seq (.one passed) .stop
    have number : number.Accepts [symbol] := .seq one .stop
    have literal : numericLiteral.Accepts [symbol] := .seq (.altRight .empty) (.seq (.altLeft number) (.altRight .empty))
    exact exec_of_accepts literal (by decide)
  simpa using walk.covers always place code there digit

end

section

def literalTokens (text : Text) : List CompoundPowerToken :=
  tokensOf (·.token) ((Regex.unguarded numericLiteral).matchAll text)

def passes (unicode : Unicode) (text : Text) : List (List (Option Nat)) :=
  let (first, second) := withoutPowers unicode text
  let places := (List.range text.length).map some
  let left := cut none places 0 (compoundPowerTokens unicode text)
  let last := cut none left 0 (barePowerTokens unicode first)
  (compoundPowerTokens unicode text).map (within places) ++ (barePowerTokens unicode first).map (within left) ++
    (literalTokens second).map (within last)

def coverage (unicode : Unicode) (text : Text) : List (List Nat) :=
  (passes unicode text).map List.reduceOption

def Traced (text : Text) (marks : List (Nat × Option Nat)) : Prop :=
  ∀ code place, (code, some place) ∈ marks → text[place]? = some code

def marked (text : Text) : List (Nat × Option Nat) := text.zipIdx.map fun (code, place) => (code, some place)

theorem marked_traced (text : Text) : Traced text (marked text) := by
  intro code place member
  obtain ⟨⟨one, index⟩, listed, same⟩ := mem_map.mp member
  cases same
  simpa using mem_zipIdx_iff_getElem?.mp listed

theorem marked_codes (text : Text) : (marked text).map Prod.fst = text := by
  simp [marked, Function.comp_def]

theorem marked_places (text : Text) : (marked text).map Prod.snd = (List.range text.length).map some := by
  apply ext_getElem
  · simp [marked]
  · simp [marked]

theorem Traced.cut {text : Text} {marks : List (Nat × Option Nat)} (traced : Traced text marks)
    (tokens : List CompoundPowerToken) : Traced text (cut (32, none) marks 0 tokens) := by
  intro code place member
  rcases mem_cut member with member | same
  · exact traced code place member
  · cases same

variable {unicode : Unicode}

theorem literals_cover {text : Text} {marks : List (Nat × Option Nat)} (traced : Traced text marks)
    {place code : Nat} (there : text[place]? = some code) (digit : isDigit code = true) :
    (cut none (marks.map Prod.snd) 0 (literalTokens (marks.map Prod.fst))).count (some place) = 0 := by
  rw [count_eq_zero]
  intro member
  have placed : Placed (marks.map Prod.fst).length 0 (literalTokens (marks.map Prod.fst)) :=
    tokens_placed (fun _ => accepts_literal) _ _
  have length : (marks.map Prod.snd).length = (marks.map Prod.fst).length := by simp
  rw [← length] at placed
  obtain ⟨index, -, found, free⟩ := uncovered_of_mem_cut (by simp) placed member
  rw [getElem?_map, Option.map_eq_some_iff] at found
  obtain ⟨⟨one, mark⟩, mark', rfl⟩ := found
  have same := traced one place (mem_of_getElem? mark')
  rw [there] at same
  cases same
  have here : (marks.map Prod.fst)[index]? = some code := by simp [mark']
  obtain ⟨hit, listed, start, stop⟩ := literal_covers (marks.map Prod.fst) index code here digit
  exact free ⟨hit.token, hit.start, hit.stop⟩ (mem_map_of_mem listed) ⟨start, stop⟩

theorem compound_placed (unicode : Unicode) (text : Text) :
    Placed text.length 0 (compoundPowerTokens unicode text) := tokens_placed (fun _ => accepts_compound) _ text

theorem bare_placed (unicode : Unicode) (text : Text) :
    Placed text.length 0 (barePowerTokens unicode text) := tokens_placed (fun _ => accepts_bare) _ text

theorem literal_placed (text : Text) : Placed text.length 0 (literalTokens text) :=
  tokens_placed (fun _ => accepts_literal) _ text

theorem codes_cut (marks : List (Nat × Option Nat)) (tokens : List CompoundPowerToken) :
    (cut (32, none) marks 0 tokens).map Prod.fst = withoutCompoundPowers (marks.map Prod.fst) tokens :=
  map_cut Prod.fst

theorem places_cut (marks : List (Nat × Option Nat)) (tokens : List CompoundPowerToken) :
    (cut (32, none) marks 0 tokens).map Prod.snd = cut none (marks.map Prod.snd) 0 tokens := map_cut Prod.snd

theorem count_pass (marks : List (Nat × Option Nat))
    (placed : Placed marks.length 0 tokens) (place : Nat) :
    (marks.map Prod.snd).count (some place) =
      ((tokens.map (within (marks.map Prod.snd))).map (List.count (some place))).sum +
        ((cut (32, none) marks 0 tokens).map Prod.snd).count (some place) := by
  have placed : Placed (marks.map Prod.snd).length 0 tokens := by rwa [length_map]
  rw [map_cut, map_map]
  exact count_cut (Option.some_ne_none place) placed

theorem digit_counted {text : Text} {place code : Nat} (there : text[place]? = some code)
    (digit : isDigit code = true) :
    ((passes unicode text).map (List.count (some place))).sum = 1 := by
  have length := (List.getElem?_eq_some_iff.mp there).1
  have start : ((List.range text.length).map some).count (some place) = 1 := by
    rw [count_map_of_injective _ _ (Option.some_injective _)]
    exact count_eq_one_of_mem nodup_range (mem_range.mpr length)
  obtain ⟨left, marksLeft⟩ : ∃ left, left = cut (32, none) (marked text) 0 (compoundPowerTokens unicode text) :=
    ⟨_, rfl⟩
  have codesLeft := codes_cut (marked text) (compoundPowerTokens unicode text)
  have placesLeft := places_cut (marked text) (compoundPowerTokens unicode text)
  have compounds := count_pass (marked text) (by simpa [marked] using compound_placed unicode text) place
  rw [← marksLeft, marked_codes] at codesLeft
  rw [← marksLeft] at placesLeft
  rw [← marksLeft, marked_places] at compounds
  simp only [passes, withoutPowers]
  rw [← codesLeft, ← marked_places, ← placesLeft]
  obtain ⟨last, marksLast⟩ : ∃ last, last = cut (32, none) left 0 (barePowerTokens unicode (left.map Prod.fst)) :=
    ⟨_, rfl⟩
  have codesLast := codes_cut left (barePowerTokens unicode (left.map Prod.fst))
  have placesLast := places_cut left (barePowerTokens unicode (left.map Prod.fst))
  have bares := count_pass left (by simpa using bare_placed unicode (left.map Prod.fst)) place
  rw [← marksLast] at codesLast placesLast bares
  rw [← codesLast, ← placesLast]
  have traced : Traced text last := by
    rw [marksLast, marksLeft]
    exact ((marked_traced text).cut _).cut _
  have literals := count_pass last (by simpa using literal_placed (last.map Prod.fst)) place
  rw [places_cut, literals_cover traced there digit] at literals
  rw [marked_places, map_append, map_append, sum_append, sum_append]
  omega

theorem countP_of_sum {α : Type} (amount : α → Nat) {list : List α} (one : (list.map amount).sum = 1) :
    list.countP (fun value => decide (0 < amount value)) = 1 := by
  induction list with
  | nil => cases one
  | cons value list ih =>
    rw [map_cons, sum_cons] at one
    by_cases none : amount value = 0
    · rw [countP_cons_of_neg (by simp [none])]
      exact ih (by omega)
    · have rest : (list.map amount).sum = 0 := by omega
      rw [countP_cons_of_pos (by simpa using Nat.pos_of_ne_zero none), Nat.add_eq_right, countP_eq_zero]
      intro other member
      have zero : amount other = 0 :=
        sum_eq_zero_iff.mp rest (amount other) (mem_map_of_mem member)
      simp [zero]

theorem digit_covered {text : Text} {place code : Nat} (there : text[place]? = some code)
    (digit : isDigit code = true) : (coverage unicode text).countP (place ∈ ·) = 1 := by
  rw [coverage, countP_map, ← countP_of_sum (List.count (some place)) (digit_counted there digit)]
  congr 1
  funext covered
  simp [count_pos_iff, reduceOption_mem_iff]

theorem foldl_step_length (remaining : Text) (literals : Literals) (hits : List (Regex.Hit Nat)) :
    (hits.foldl (Literals.step unicode remaining) literals).values.length =
      literals.values.length + hits.length := by
  induction hits generalizing literals with
  | nil => rfl
  | cons hit hits ih =>
    rw [foldl_cons, ih]
    simp only [Literals.step, length_append, length_cons, length_nil]
    omega

theorem coverage_length (text : Text) :
    (coverage unicode text).length = (numericValues unicode text).length := by
  simp [coverage, passes, numericValues, literalValues, foldl_step_length, literalTokens, tokensOf]

theorem cut_no_digit {text : Text} (none : ∀ code ∈ text, isDigit code = false) (tokens : List CompoundPowerToken) :
    ∀ code ∈ withoutCompoundPowers text tokens, isDigit code = false := by
  intro code member
  rcases mem_cut member with there | rfl
  · exact none code there
  · rfl

theorem numericValues_of_no_digit {text : Text} (none : ∀ code ∈ text, isDigit code = false) :
    numericValues unicode text = [] := by
  have first := cut_no_digit none (compoundPowerTokens unicode text)
  have second := cut_no_digit first
    (barePowerTokens unicode (withoutCompoundPowers text (compoundPowerTokens unicode text)))
  have compounds : compoundPowerTokens unicode text = [] := by
    rw [compoundPowerTokens, matchAll_of_no_digit (fun _ => accepts_compound) none, map_nil]
  have bares : barePowerTokens unicode (withoutCompoundPowers text (compoundPowerTokens unicode text)) = [] := by
    rw [barePowerTokens, matchAll_of_no_digit (fun _ => accepts_bare) first, map_nil]
  have consumes : ∀ taken, (Regex.unguarded numericLiteral).body.Accepts taken → ∃ code ∈ taken,
      isDigit code = true := fun _ => accepts_literal
  rw [numericValues]
  simp only [withoutPowers, literalValues]
  rw [matchAll_of_no_digit consumes second, bares, compounds]
  rfl

theorem replaceHits_self {text : Text} {hits : List (Regex.Hit Nat)}
    (located : Located text last (hits.map (·.toFound))) : replaceHits (·.token) text last hits = text.drop last := by
  induction hits generalizing last with
  | nil => rfl
  | cons hit hits ih =>
    obtain ⟨after, token, rest⟩ := located
    rw [replaceHits, ih rest, append_assoc, slice]
    conv_lhs => rw [← token]
    have stop : hit.toFound.stop = hit.start + hit.token.length := rfl
    rw [stop, ← drop_drop, take_append_drop]
    conv_rhs => rw [← take_append_drop (hit.start - last) (text.drop last), drop_drop,
      Nat.add_sub_cancel' after]

theorem writtenText_nil (text : Text) : writtenText text [] = text := by
  have consumes : spacedGroups.Consumes := consumes_of_digits fun taken accepted => by
    obtain ⟨left, right, rfl, -, after⟩ := accepted.seq_split
    obtain ⟨one, others, rfl, first, -⟩ := after.seq_split
    obtain ⟨code, rfl, passed⟩ := first.one_symbol
    exact ⟨code, by simp, passed⟩
  have located := (matchAll_walk consumes text).located [] rfl
  have same := replaceHits_self located
  simpa [writtenText] using same

theorem numbersSupported_nil (text : Text) :
    numbersSupported unicode text [] = true ↔ ∀ code ∈ text, isDigit code = false := by
  have nothing : numericLiterals unicode [] = [] := by
    rw [numericLiterals, numericValues_of_no_digit (by simp)]
    rfl
  have supported : numbersSupported unicode text [] = true ↔ numericValues unicode text = [] := by
    rw [numbersSupported, unsupportedNumbers, nothing, writtenText_nil]
    cases values : numericValues unicode text <;> simp [numericLiterals, values, eraseDups_cons]
  rw [supported]
  constructor
  · intro empty code member
    by_contra digit
    obtain ⟨place, there⟩ := mem_iff_getElem?.mp member
    have once : (coverage unicode text).countP (place ∈ ·) = 1 := digit_covered there (by simpa using digit)
    have length : (coverage unicode text).length = _ := coverage_length text
    rw [empty, length_nil, length_eq_zero_iff] at length
    rw [length] at once
    cases once
  · exact numericValues_of_no_digit

/-- Every digit of a text is in one token, and every token of a supported text is in its quote. -/
theorem digits_covered (unicode : Unicode) (text : Text) :
    (coverage unicode text).length = (numericValues unicode text).length ∧
    (∀ place code, text[place]? = some code → isDigit code = true →
      (coverage unicode text).countP (place ∈ ·) = 1) ∧
    (numbersSupported unicode text [] = true ↔ ∀ code ∈ text, isDigit code = false) ∧
    ∀ quote, numbersSupported unicode text quote = true →
      ∀ token ∈ numericLiterals unicode (writtenText text (numericLiterals unicode quote)),
        token ∈ numericLiterals unicode quote := by
  refine ⟨coverage_length text, fun place code => digit_covered, numbersSupported_nil text, ?_⟩
  intro quote supported token member
  rw [numbersSupported, List.isEmpty_iff, unsupportedNumbers, filter_eq_nil_iff] at supported
  simpa using supported token member

theorem sample_digits_covered :
    (coverage Unicode.plain (text "7*10^3 m2")).countP (5 ∈ ·) = 1 ∧
    ∀ token ∈ numericLiterals Unicode.plain (writtenText (text "7*10^3") (numericLiterals Unicode.plain (text "7*10^3 m2"))),
      token ∈ numericLiterals Unicode.plain (text "7*10^3 m2") :=
  ⟨(digits_covered Unicode.plain (text "7*10^3 m2")).2.1 5 51 (by decide) (by decide),
    (digits_covered Unicode.plain (text "7*10^3")).2.2.2 _ (by decide +kernel)⟩

end
end Numbers
