import Eliot.Domain.ScopeSnapshot

namespace Domain

open List
open Fallible (bind_ok mapM_ok)

section
variable {atom other : ScopeAtom} {one two before after : Text}

def marker : ScopeAtom → Text
  | .globalLibrary => [71, 76]
  | .project _ => [112, 114]
  | .selectedSources _ => [115, 101]
  | .sourceClass _ => [115, 111]
  | .tag _ => [116, 97]

theorem require_ok {value label result : Text}
    (required : requireCanonicalIdentifier value label = .ok result) : result = value := by
  unfold requireCanonicalIdentifier at required
  split at required
  · cases required
  · split at required
    · cases required
    · exact (Except.ok.inj required).symm

inductive AtomText : ScopeAtom → Text → Prop where
  | globalLibrary : AtomText .globalLibrary (text "GLOBAL_LIBRARY")
  | project (projectId : Text) :
      AtomText (.project projectId) (applied (text "project") (Text.jsonString projectId))
  | selectedSources (sourceIds : List Text) :
      AtomText (.selectedSources sourceIds) (applied (text "selected_sources")
        (Text.jsonItems ((Insertion.unique sourceIds).insertionSort (· ≤ ·))))
  | sourceClass (name : Text) :
      AtomText (.sourceClass name) (applied (text "source_class") (Text.jsonString name))
  | tag (name : Text) : AtomText (.tag name) (applied (text "tag") (Text.jsonString name))

theorem canonicalAtom_text (canonical : canonicalAtom atom = .ok one) : AtomText atom one := by
  unfold canonicalAtom at canonical
  cases atom with
  | globalLibrary =>
    cases canonical
    exact .globalLibrary
  | project projectId =>
    obtain ⟨required, found, rest⟩ := bind_ok canonical
    cases rest
    rw [require_ok found]
    exact .project projectId
  | selectedSources sourceIds =>
    obtain ⟨required, found, rest⟩ := bind_ok canonical
    cases rest
    have same : sourceIds = required := by
      have pairs := mapM_ok.mp found
      clear found canonical
      induction pairs with
      | nil => rfl
      | cons head _ ih => rw [ih, require_ok head]
    subst same
    exact .selectedSources sourceIds
  | sourceClass name =>
    obtain ⟨required, found, rest⟩ := bind_ok canonical
    cases rest
    rw [require_ok found]
    exact .sourceClass name
  | tag name =>
    obtain ⟨required, found, rest⟩ := bind_ok canonical
    cases rest
    rw [require_ok found]
    exact .tag name

theorem AtomText.marked (written : AtomText atom one) (rest : Text) :
    (one ++ rest).take 2 = marker atom := by
  cases written <;> rfl

theorem applied_unique {name first second : Text}
    (same : applied name first ++ before = applied name second ++ after) :
    first ++ 41 :: before = second ++ 41 :: after := by
  simpa [applied] using same

theorem AtomText.unique (written : AtomText atom one) (another : AtomText other two)
    (same : one ++ before = two ++ after) : one = two ∧ before = after := by
  have markers : marker atom = marker other := by
    rw [← written.marked before, ← another.marked after, same]
  cases written <;> cases another <;> simp only [marker] at markers <;> first
    | exact absurd markers (by decide)
    | skip
  · exact ⟨rfl, append_cancel_left same⟩
  · obtain ⟨rfl, ends⟩ := Text.jsonString_unique (applied_unique same)
    exact ⟨rfl, by simpa using ends⟩
  · obtain ⟨equal, ends⟩ :=
      Text.jsonItems_unique (by decide) (by decide) (applied_unique same)
    exact ⟨by rw [equal], ends⟩
  · obtain ⟨rfl, ends⟩ := Text.jsonString_unique (applied_unique same)
    exact ⟨rfl, by simpa using ends⟩
  · obtain ⟨rfl, ends⟩ := Text.jsonString_unique (applied_unique same)
    exact ⟨rfl, by simpa using ends⟩

theorem marker_letter (atom : ScopeAtom) : ∃ letter rest, marker atom = letter :: rest ∧ letter ≠ 40 := by
  cases atom <;> exact ⟨_, _, rfl, by decide⟩

theorem AtomText.head (written : AtomText atom one) {rest : Text} (same : one ++ before = 40 :: rest) :
    False := by
  have marked := written.marked before
  obtain ⟨letter, more, shape, other⟩ := marker_letter atom
  rw [same, shape, take_succ_cons] at marked
  exact other (List.cons.inj marked).1.symm

end

def Unmistakable (one : Text) : Prop :=
  ∀ expression two before after,
    canonicalizeDeterministicScopeExpression expression = .ok two →
      one ++ before = two ++ after → one = two ∧ before = after

def IsText (one : Text) : Prop :=
  ∃ expression, canonicalizeDeterministicScopeExpression expression = .ok one

def HasText (expression : ScopeExpression) : Prop :=
  ∃ one, canonicalizeDeterministicScopeExpression expression = .ok one

inductive IsWord : Text → Prop where
  | combine (kind : Commutative) : IsWord kind.name
  | except : IsWord (text "EXCEPT")

theorem IsWord.unique {first second before after : Text} (one : IsWord first) (two : IsWord second)
    (same : first ++ before = second ++ after) : first = second := by
  have heads : (first ++ before).head? = (second ++ after).head? := by rw [same]
  cases one with
  | combine kind =>
    cases two with
    | combine other => cases kind <;> cases other <;> first | rfl | exact absurd heads (by simp [Commutative.name, text])
    | except => cases kind <;> exact absurd heads (by simp [Commutative.name, text])
  | except =>
    cases two with
    | combine other => cases other <;> exact absurd heads (by simp [Commutative.name, text])
    | except => rfl

theorem operands_unique {word other before after : Text} {first second : List Text}
    (one : IsWord word) (two : IsWord other) (told : ∀ operand ∈ first, Unmistakable operand)
    (texts : ∀ operand ∈ second, IsText operand)
    (same : (first.flatMap fun operand => (32 :: word ++ [32]) ++ operand) ++ 41 :: before =
      (second.flatMap fun operand => (32 :: other ++ [32]) ++ operand) ++ 41 :: after) :
    first = second ∧ before = after ∧ (word = other ∨ first = []) := by
  induction first generalizing second with
  | nil =>
    cases second with
    | nil => exact ⟨rfl, by simpa using same, .inr rfl⟩
    | cons operand second => simp at same
  | cons operand first ih =>
    cases second with
    | nil => simp at same
    | cons next second =>
      simp only [flatMap_cons, cons_append, append_assoc, nil_append,
        List.cons.injEq, true_and] at same
      obtain rfl := one.unique two same
      simp only [append_cancel_left_eq, List.cons.injEq, true_and] at same
      obtain ⟨expression, canonical⟩ := texts next (mem_cons_self ..)
      obtain ⟨rfl, rest⟩ := told operand (mem_cons_self ..) expression next _ _ canonical same
      obtain ⟨rfl, ends, -⟩ := ih (fun other listed => told other (mem_cons_of_mem _ listed))
        (fun other listed => texts other (mem_cons_of_mem _ listed)) (by simpa using rest)
      exact ⟨rfl, ends, .inl rfl⟩

theorem grouped_unique {word other before after : Text} {first second : List Text}
    (one : IsWord word) (two : IsWord other) (some : first ≠ []) (more : second ≠ [])
    (told : ∀ operand ∈ first, Unmistakable operand) (texts : ∀ operand ∈ second, IsText operand)
    (same : grouped word first ++ before = grouped other second ++ after) :
    first = second ∧ before = after ∧ (word = other ∨ ∃ operand, first = [operand]) := by
  obtain ⟨operand, first, rfl⟩ := exists_cons_of_ne_nil some
  obtain ⟨next, second, rfl⟩ := exists_cons_of_ne_nil more
  rw [grouped, grouped, Text.intersperse_flatten, Text.intersperse_flatten] at same
  simp only [cons_append, append_assoc, nil_append, List.cons.injEq,
    true_and] at same
  obtain ⟨expression, canonical⟩ := texts next (mem_cons_self ..)
  obtain ⟨rfl, rest⟩ := told operand (mem_cons_self ..) expression next _ _ canonical same
  obtain ⟨rfl, ends, words⟩ := operands_unique one two
    (fun other listed => told other (mem_cons_of_mem _ listed))
    (fun other listed => texts other (mem_cons_of_mem _ listed)) (by simpa using rest)
  refine ⟨rfl, ends, ?_⟩
  rcases words with same | rfl
  · exact .inl same
  · exact .inr ⟨operand, rfl⟩

theorem mem_sorted_unique {values : List Text} {value : Text} :
    value ∈ (Insertion.unique values).insertionSort (· ≤ ·) ↔ value ∈ values := by
  rw [mem_insertionSort, Insertion.mem_unique]

inductive Shape : ScopeExpression → Text → Prop where
  | atom {atom : ScopeAtom} {one : Text} (canonical : canonicalAtom atom = .ok one) :
      Shape (.atom atom) one
  | except {left right : ScopeExpression} {one two : Text}
      (first : canonicalizeDeterministicScopeExpression left = .ok one)
      (second : canonicalizeDeterministicScopeExpression right = .ok two) :
      Shape (.except left right) (grouped (text "EXCEPT") [one, two])
  | combine {kind : Commutative} {left right : ScopeExpression} {operands : List Text}
      (members : ∀ one, one ∈ operands ↔ ∃ operand ∈
        flattenCommutative kind (.combine kind left right),
          canonicalizeDeterministicScopeExpression operand = .ok one)
      (each : ∀ operand ∈ flattenCommutative kind (.combine kind left right), HasText operand) :
      Shape (.combine kind left right) (grouped kind.name operands)

theorem mem_left {Value Next : Type} {related : Value → Next → Prop} {values : List Value}
    {results : List Next} (pairs : List.Forall₂ related values results) {value : Value}
    (listed : value ∈ values) : ∃ result ∈ results, related value result := by
  induction pairs with
  | nil => cases listed
  | cons head _ ih =>
    rcases mem_cons.mp listed with rfl | listed
    · exact ⟨_, mem_cons_self .., head⟩
    · obtain ⟨result, found, holds⟩ := ih listed
      exact ⟨result, mem_cons_of_mem _ found, holds⟩

variable {expression : ScopeExpression}

theorem canonical_shape {one : Text}
    (canonical : canonicalizeDeterministicScopeExpression expression = .ok one) :
    Shape expression one := by
  cases expression with
  | atom atom =>
    rw [canonicalizeDeterministicScopeExpression] at canonical
    exact .atom canonical
  | except left right =>
    obtain ⟨first, second, one, two, rfl⟩ := canonicalize_except.mp canonical
    exact .except one two
  | combine kind left right =>
    obtain ⟨operands, pairs, rfl⟩ := canonicalize_combine.mp canonical
    refine .combine (fun one => ?_) fun operand listed => ?_
    · rw [mem_sorted_unique]
      constructor
      · exact fun listed => mem_left pairs.flip listed
      · rintro ⟨operand, listed, canonical⟩
        obtain ⟨result, found, holds⟩ := mem_left pairs listed
        cases Except.ok.inj (holds.symm.trans canonical)
        exact found
    · obtain ⟨result, -, holds⟩ := mem_left pairs listed
      exact ⟨result, holds⟩

variable {left right : ScopeExpression}

theorem Shape.nonempty {kind : Commutative} {operands : List Text}
    (members : ∀ one, one ∈ operands ↔ ∃ operand ∈
      flattenCommutative kind (.combine kind left right),
        canonicalizeDeterministicScopeExpression operand = .ok one)
    (each : ∀ operand ∈ flattenCommutative kind (.combine kind left right), HasText operand) :
    operands ≠ [] := by
  obtain ⟨operand, rest, found⟩ :=
    exists_cons_of_ne_nil (flattenCommutative_ne_nil kind (.combine kind left right))
  have listed : operand ∈ flattenCommutative kind (.combine kind left right) := by simp [found]
  obtain ⟨one, canonical⟩ := each operand listed
  exact ne_nil_of_mem ((members one).mpr ⟨operand, listed, canonical⟩)

theorem Shape.grouped {one : Text} (shape : Shape expression one) :
    (∃ atom, expression = .atom atom ∧ canonicalAtom atom = .ok one) ∨
      ∃ word operands, IsWord word ∧ operands ≠ [] ∧ (∀ operand ∈ operands, IsText operand) ∧
        one = Domain.grouped word operands := by
  cases shape with
  | atom canonical => exact .inl ⟨_, rfl, canonical⟩
  | @except left right first second one two =>
    refine .inr ⟨_, _, .except, by simp, ?_, rfl⟩
    simp only [mem_cons, not_mem_nil, or_false, forall_eq_or_imp, forall_eq]
    exact ⟨⟨left, one⟩, right, two⟩
  | @combine kind left right operands members each =>
    refine .inr ⟨_, _, .combine kind, Shape.nonempty members each, fun operand listed => ?_, rfl⟩
    obtain ⟨expression, -, canonical⟩ := (members operand).mp listed
    exact ⟨expression, canonical⟩

theorem grouped_unmistakable {word : Text} {operands : List Text} (isWord : IsWord word)
    (some : operands ≠ []) (told : ∀ operand ∈ operands, Unmistakable operand) :
    Unmistakable (Domain.grouped word operands) := by
  intro expression two before after canonical same
  rcases (canonical_shape canonical).grouped with ⟨atom, -, written⟩ |
    ⟨other, others, isOther, more, texts, rfl⟩
  · exact absurd ((canonicalAtom_text written).head same.symm) id
  · obtain ⟨rfl, ends, words⟩ := grouped_unique isWord isOther some more told texts same
    refine ⟨?_, ends⟩
    rcases words with rfl | ⟨operand, rfl⟩
    · rfl
    · simp [Domain.grouped]

theorem unmistakable {one : Text}
    (canonical : canonicalizeDeterministicScopeExpression expression = .ok one) :
    Unmistakable one := by
  induction expression using ScopeExpression.flattened_induction generalizing one with
  | basic atom =>
    rw [canonicalizeDeterministicScopeExpression] at canonical
    intro expression two before after another same
    have written := canonicalAtom_text canonical
    rcases (canonical_shape another).grouped with ⟨other, -, found⟩ | ⟨word, operands, -, -, -, rfl⟩
    · exact written.unique (canonicalAtom_text found) same
    · exact absurd (written.head same) id
  | except left right first second =>
    obtain ⟨one, two, left, right, rfl⟩ := canonicalize_except.mp canonical
    refine grouped_unmistakable .except (by simp) ?_
    simp only [mem_cons, not_mem_nil, or_false, forall_eq_or_imp, forall_eq]
    exact ⟨first left, second right⟩
  | combine kind left right ih =>
    have shape := canonical_shape canonical
    cases shape with
    | combine members each =>
      refine grouped_unmistakable (.combine kind) (Shape.nonempty members each)
        fun operand listed => ?_
      obtain ⟨expression, inside, found⟩ := (members operand).mp listed
      exact ih expression inside found

section
variable {expression other : ScopeExpression}

def Alike (expression other : ScopeExpression) : Prop :=
  ∃ one, canonicalizeDeterministicScopeExpression expression = .ok one ∧
    canonicalizeDeterministicScopeExpression other = .ok one

theorem Alike.symm (alike : Alike expression other) : Alike other expression := by
  obtain ⟨one, first, second⟩ := alike
  exact ⟨one, second, first⟩

theorem Alike.of_atom {atom : ScopeAtom} (alike : Alike (.atom atom) other) :
    ∃ same one, other = .atom same ∧ canonicalAtom atom = .ok one ∧ canonicalAtom same = .ok one := by
  obtain ⟨one, first, second⟩ := alike
  rw [canonicalizeDeterministicScopeExpression] at first
  rcases (canonical_shape second).grouped with ⟨same, rfl, found⟩ | ⟨word, operands, -, -, -, rfl⟩
  · exact ⟨same, one, rfl, first, found⟩
  · exact absurd ((canonicalAtom_text first).head (append_nil _)) id

theorem grouped_text {word another : Text} {operands others : List Text} (one : IsWord word)
    (two : IsWord another) (some : operands ≠ []) (more : others ≠ [])
    (first : ∀ operand ∈ operands, IsText operand) (second : ∀ operand ∈ others, IsText operand)
    (same : grouped word operands = grouped another others) :
    operands = others ∧ (word = another ∨ ∃ operand, operands = [operand]) := by
  have told : ∀ operand ∈ operands, Unmistakable operand := by
    intro operand listed
    obtain ⟨expression, canonical⟩ := first operand listed
    exact unmistakable canonical
  obtain ⟨equal, -, words⟩ :=
    grouped_unique one two some more told second (congrArg (· ++ []) same)
  exact ⟨equal, words⟩

theorem pair_texts {one two : Text}
    (first : canonicalizeDeterministicScopeExpression left = .ok one)
    (second : canonicalizeDeterministicScopeExpression right = .ok two) :
    ∀ operand ∈ [one, two], IsText operand := by
  simp only [mem_cons, not_mem_nil, or_false, forall_eq_or_imp, forall_eq]
  exact ⟨⟨left, first⟩, right, second⟩

theorem Shape.texts {kind : Commutative} {operands : List Text}
    (members : ∀ one, one ∈ operands ↔ ∃ operand ∈
      flattenCommutative kind (.combine kind left right),
        canonicalizeDeterministicScopeExpression operand = .ok one) :
    ∀ operand ∈ operands, IsText operand := by
  intro operand listed
  obtain ⟨expression, -, canonical⟩ := (members operand).mp listed
  exact ⟨expression, canonical⟩

theorem Alike.of_except (alike : Alike (.except left right) other) :
    ∃ first second, other = .except first second ∧ Alike left first ∧ Alike right second := by
  obtain ⟨whole, first, second⟩ := alike
  obtain ⟨one, two, oneFound, twoFound, rfl⟩ := canonicalize_except.mp first
  generalize shared : grouped (text "EXCEPT") [one, two] = whole at second
  cases canonical_shape second with
  | atom found =>
    rw [← shared] at found
    exact absurd ((canonicalAtom_text found).head (append_nil _)) id
  | except leftFound rightFound =>
    obtain ⟨equal, -⟩ := grouped_text .except .except (by simp) (by simp)
      (pair_texts oneFound twoFound) (pair_texts leftFound rightFound) shared
    simp only [List.cons.injEq, and_true] at equal
    rw [equal.1] at oneFound
    rw [equal.2] at twoFound
    exact ⟨_, _, rfl, ⟨_, oneFound, leftFound⟩, _, twoFound, rightFound⟩
  | @combine kind left right operands members each =>
    obtain ⟨-, words⟩ := grouped_text .except (.combine kind) (by simp)
      (Shape.nonempty members each) (pair_texts oneFound twoFound) (Shape.texts members) shared
    rcases words with same | ⟨operand, single⟩
    · exact absurd same.symm kind.name_except
    · simp at single

theorem Alike.of_combine {kind : Commutative}
    (alike : Alike (.combine kind left right) other) :
    ∃ another first second, other = .combine another first second ∧
      (∀ operand ∈ flattenCommutative kind (.combine kind left right),
        ∃ partner ∈ flattenCommutative another (.combine another first second),
          Alike operand partner) ∧
      (∀ operand ∈ flattenCommutative another (.combine another first second),
        ∃ partner ∈ flattenCommutative kind (.combine kind left right), Alike partner operand) ∧
      (kind = another ∨ ∀ operand ∈ flattenCommutative kind (.combine kind left right),
        ∀ partner ∈ flattenCommutative kind (.combine kind left right), Alike operand partner) := by
  obtain ⟨whole, first, second⟩ := alike
  cases canonical_shape first with
  | @combine _ _ _ operands members each =>
    generalize shared : grouped kind.name operands = whole at second
    cases canonical_shape second with
    | atom found =>
      rw [← shared] at found
      exact absurd ((canonicalAtom_text found).head (append_nil _)) id
    | except leftFound rightFound =>
      obtain ⟨equal, words⟩ := grouped_text (.combine kind) .except (Shape.nonempty members each)
        (by simp) (Shape.texts members) (pair_texts leftFound rightFound) shared
      rcases words with same | ⟨operand, single⟩
      · exact absurd same kind.name_except
      · rw [single] at equal
        simp at equal
    | @combine another left' right' others members' each' =>
      obtain ⟨equal, words⟩ := grouped_text (.combine kind) (.combine another)
        (Shape.nonempty members each) (Shape.nonempty members' each') (Shape.texts members)
        (Shape.texts members') shared
      subst equal
      refine ⟨another, left', right', rfl, ?_, ?_, ?_⟩
      · intro operand listed
        obtain ⟨one, canonical⟩ := each operand listed
        obtain ⟨found, inside, same⟩ := (members' one).mp ((members one).mpr ⟨operand, listed, canonical⟩)
        exact ⟨found, inside, one, canonical, same⟩
      · intro operand listed
        obtain ⟨one, canonical⟩ := each' operand listed
        obtain ⟨found, inside, same⟩ := (members one).mp ((members' one).mpr ⟨operand, listed, canonical⟩)
        exact ⟨found, inside, one, same, canonical⟩
      · rcases words with same | ⟨single, only⟩
        · exact .inl (Commutative.name_injective same)
        · refine .inr fun operand listed found inside => ?_
          obtain ⟨one, canonical⟩ := each operand listed
          obtain ⟨two, same⟩ := each found inside
          have first := (members one).mpr ⟨operand, listed, canonical⟩
          have second := (members two).mpr ⟨found, inside, same⟩
          rw [only, mem_singleton] at first second
          exact ⟨one, canonical, by rw [same, second, first]⟩

end
end Domain
