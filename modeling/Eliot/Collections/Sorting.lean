import Eliot.Collections.Insertion
import Mathlib.Algebra.Order.Field.Rat
import Mathlib.Data.List.MinMax
import Mathlib.Data.Prod.Lex

namespace Sorting

open List

section

def Compares {Key : Type} [LinearOrder Key] (number : ℚ) (left right : Key) : Prop :=
  (number < 0 ↔ left < right) ∧ (number = 0 ↔ left = right)

/-- `first || second` of two numbers -/
def either (first second : ℚ) : ℚ := if first ≠ 0 then first else second

variable {Key Other : Type} [LinearOrder Key] [LinearOrder Other] {number second : ℚ} {left right : Key}
  {before after : Other}

theorem Compares.le (compares : Compares number left right) : number ≤ 0 ↔ left ≤ right := by
  rw [le_iff_lt_or_eq, le_iff_lt_or_eq, compares.1, compares.2]

theorem Compares.either (compares : Compares number left right) (next : Compares second before after) :
    Compares (either number second) (toLex (left, before)) (toLex (right, after)) := by
  unfold Compares Sorting.either
  rw [Prod.Lex.toLex_lt_toLex, toLex_inj, Prod.mk.injEq]
  by_cases level : number = 0
  · have equal := compares.2.mp level
    rw [if_neg (not_not.mpr level), next.1, next.2, equal]
    simp
  · have apart : left ≠ right := (not_congr compares.2).mp level
    rw [if_pos level, compares.1]
    simp [apart, level]

theorem compares_sub (left right : ℚ) : Compares (left - right) left right :=
  ⟨sub_neg, sub_eq_zero⟩

theorem compares_dual (left right : ℚ) : Compares (right - left) (OrderDual.toDual left)
    (OrderDual.toDual right) := by
  refine ⟨sub_neg.trans OrderDual.toDual_lt_toDual.symm, sub_eq_zero.trans ?_⟩
  rw [OrderDual.toDual_inj, eq_comm]

theorem compares_nat (left right : Nat) : Compares ((left : ℚ) - right) left right :=
  ⟨sub_neg.trans Nat.cast_lt, sub_eq_zero.trans Nat.cast_inj⟩

end

section
variable {Row Key : Type} [LinearOrder Key] {key : Row → Key} {below : Row → Row → Prop} [DecidableRel below]
  {rows others : List Row}

theorem sort_ordered (agrees : ∀ a b, below a b ↔ key a ≤ key b) (rows : List Row) :
    (rows.insertionSort below).Pairwise fun a b => key a ≤ key b := by
  have total : Std.Total below := ⟨fun a b => by
    rw [agrees, agrees]
    exact le_total _ _⟩
  have trans : IsTrans Row below := ⟨fun a b c ab bc => by
    rw [agrees] at *
    exact le_trans ab bc⟩
  exact (pairwise_insertionSort below rows).imp fun le => (agrees _ _).mp le

theorem sort_strict (agrees : ∀ a b, below a b ↔ key a ≤ key b) (distinct : (rows.map key).Nodup) :
    Insertion.Strict key (rows.insertionSort below) := by
  have apart := ((perm_insertionSort below rows).map key).nodup_iff.mpr distinct
  exact ((sort_ordered agrees rows).and (pairwise_map.mp apart)).imp fun both => lt_of_le_of_ne both.1 both.2

theorem sort_congr (agrees : ∀ a b, below a b ↔ key a ≤ key b)
    (told : ∀ a ∈ rows, ∀ b ∈ rows, key a = key b → a = b) (perm : rows.Perm others) :
    rows.insertionSort below = others.insertionSort below := by
  have moved := (perm_insertionSort below rows).trans (perm.trans (perm_insertionSort below others).symm)
  refine moved.eq_of_pairwise ?_ (sort_ordered agrees rows) (sort_ordered agrees others)
  intro a b one two under above
  have listed := (perm_insertionSort below rows).mem_iff.mp one
  have there := perm.mem_iff.mpr ((perm_insertionSort below others).mem_iff.mp two)
  exact told a listed b there (le_antisymm under above)

def Leads (key : Row → Key) (rows : List Row) (row : Row) : Prop :=
  ∃ before after, rows = before ++ row :: after ∧ (∀ other ∈ before, key row < key other) ∧
    ∀ other ∈ after, key row ≤ key other

theorem leads_head (agrees : ∀ a b, below a b ↔ key a ≤ key b) {row : Row}
    (head : (rows.insertionSort below).head? = some row) : Leads key rows row := by
  induction rows generalizing row with
  | nil => cases head
  | cons first rows ih =>
    rw [insertionSort_cons] at head
    cases sorted : rows.insertionSort below with
    | nil =>
      have empty : rows = [] := List.Perm.nil_eq (sorted ▸ perm_insertionSort below rows) |>.symm
      rw [sorted] at head
      obtain rfl : first = row := by simpa using head
      exact ⟨[], rows, rfl, fun _ none => (nomatch none), by simp [empty]⟩
    | cons next rest =>
      obtain ⟨before, after, split, earlier, later⟩ := @ih next (by rw [sorted]; rfl)
      rw [sorted, orderedInsert_cons] at head
      by_cases leads : below first next
      · rw [if_pos leads] at head
        obtain rfl : first = row := by simpa using head
        have under := (agrees _ _).mp leads
        refine ⟨[], rows, rfl, fun _ none => (nomatch none), fun other listed => ?_⟩
        rw [split, mem_append, mem_cons] at listed
        rcases listed with listed | rfl | listed
        · exact under.trans (earlier other listed).le
        · exact under
        · exact under.trans (later other listed)
      · rw [if_neg leads] at head
        obtain rfl : next = row := by simpa using head
        have above : key next < key first := not_le.mp ((not_congr (agrees _ _)).mp leads)
        refine ⟨first :: before, after, by rw [split, cons_append], fun other listed => ?_, later⟩
        rcases mem_cons.mp listed with rfl | listed
        · exact above
        · exact earlier other listed

theorem Leads.unique {first second : Row} (one : Leads key rows first) (two : Leads key rows second) :
    first = second := by
  obtain ⟨before, after, split, earlier, later⟩ := one
  obtain ⟨front, back, again, prior, behind⟩ := two
  rw [split] at again
  rcases append_eq_append_iff.mp again with ⟨middle, rfl, rest⟩ | ⟨middle, rfl, rest⟩
  · cases middle with
    | nil => exact (List.cons.inj rest).1
    | cons other middle =>
      obtain ⟨rfl, rfl⟩ := List.cons.inj rest
      have above := prior first (by simp)
      exact absurd (later second (by simp)) (not_le.mpr above)
  · cases middle with
    | nil => exact (List.cons.inj rest).1.symm
    | cons other middle =>
      obtain ⟨rfl, rfl⟩ := List.cons.inj rest
      have above := earlier second (by simp)
      exact absurd (behind first (by simp)) (not_le.mpr above)

theorem head_leads (agrees : ∀ a b, below a b ↔ key a ≤ key b) {row : Row} :
    (rows.insertionSort below).head? = some row ↔ Leads key rows row := by
  refine ⟨leads_head agrees, fun leads => ?_⟩
  cases head : (rows.insertionSort below).head? with
  | none =>
    have empty : rows = [] :=
      List.Perm.nil_eq (head?_eq_none_iff.mp head ▸ perm_insertionSort below rows) |>.symm
    obtain ⟨before, after, split, -⟩ := leads
    simp [empty] at split
  | some other => rw [(leads_head agrees head).unique leads]

end

end Sorting
