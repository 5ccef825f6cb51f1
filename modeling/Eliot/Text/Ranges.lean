import Mathlib.Data.List.Basic

namespace Ranges

open List

/-- Ranges in order from `low` to `high`; what stands between them is gaps. -/
def Laid (gap : Nat → Prop) (high : Nat) : Nat → List (Nat × Nat) → Prop
  | low, [] => low ≤ high ∧ ∀ place, low ≤ place → place < high → gap place
  | low, (start, stop) :: rest =>
    low ≤ start ∧ start < stop ∧ (∀ place, low ≤ place → place < start → gap place) ∧ Laid gap high stop rest

variable {gap other : Nat → Prop} {low middle high : Nat} {ranges rest : List (Nat × Nat)}

theorem Laid.le (laid : Laid gap high low ranges) : low ≤ high := by
  induction ranges generalizing low with
  | nil => exact laid.1
  | cons range ranges ih =>
    obtain ⟨before, filled, -, behind⟩ := laid
    have last := ih behind
    omega

theorem Laid.weaken (laid : Laid gap high low ranges)
    (imp : ∀ place, low ≤ place → place < high → gap place → other place) : Laid other high low ranges := by
  induction ranges generalizing low with
  | nil => exact ⟨laid.1, fun place after before => imp place after before (laid.2 place after before)⟩
  | cons range ranges ih =>
    obtain ⟨before, filled, empty, behind⟩ := laid
    have last := behind.le
    refine ⟨before, filled, ?_, ih behind ?_⟩
    · intro place after under
      exact imp place after (by omega) (empty place after under)
    · intro place after under
      exact imp place (by omega) under

theorem Laid.after (empty : ∀ place, low ≤ place → place < middle → gap place) (order : low ≤ middle)
    (laid : Laid gap high middle ranges) : Laid gap high low ranges := by
  have whole : ∀ stop, (∀ place, middle ≤ place → place < stop → gap place) →
      ∀ place, low ≤ place → place < stop → gap place := by
    intro stop more place after under
    by_cases early : place < middle
    · exact empty place after early
    · exact more place (by omega) under
  cases ranges with
  | nil => exact ⟨Nat.le_trans order laid.1, whole _ laid.2⟩
  | cons range ranges => exact ⟨Nat.le_trans order laid.1, laid.2.1, whole _ laid.2.2.1, laid.2.2.2⟩

theorem Laid.append (first : Laid gap middle low ranges) (second : Laid gap high middle rest) :
    Laid gap high low (ranges ++ rest) := by
  induction ranges generalizing low with
  | nil => exact second.after first.2 first.1
  | cons range ranges ih => exact ⟨first.1, first.2.1, first.2.2.1, ih first.2.2.2⟩

theorem Laid.bounds (laid : Laid gap high low ranges) :
    ∀ range ∈ ranges, low ≤ range.1 ∧ range.1 < range.2 ∧ range.2 ≤ high := by
  induction ranges generalizing low with
  | nil => simp
  | cons range ranges ih =>
    obtain ⟨before, filled, -, behind⟩ := laid
    have last := behind.le
    intro other member
    rcases mem_cons.mp member with rfl | member
    · exact ⟨before, filled, last⟩
    · have inside := ih behind other member
      omega

theorem Laid.pairwise (laid : Laid gap high low ranges) :
    ranges.Pairwise fun earlier later => earlier.2 ≤ later.1 := by
  induction ranges generalizing low with
  | nil => exact List.Pairwise.nil
  | cons range ranges ih =>
    obtain ⟨-, -, -, behind⟩ := laid
    exact pairwise_cons.mpr ⟨fun later member => (behind.bounds later member).1, ih behind⟩

theorem Laid.cover (laid : Laid gap high low ranges) {place : Nat} (after : low ≤ place) (before : place < high) :
    (∃ range ∈ ranges, range.1 ≤ place ∧ place < range.2) ∨ gap place := by
  induction ranges generalizing low with
  | nil => exact .inr (laid.2 place after before)
  | cons range ranges ih =>
    obtain ⟨-, -, empty, behind⟩ := laid
    by_cases early : place < range.1
    · exact .inr (empty place after early)
    · by_cases inside : place < range.2
      · exact .inl ⟨range, mem_cons_self, by omega, inside⟩
      · rcases ih behind (by omega) with ⟨found, member, within⟩ | missed
        · exact .inl ⟨found, mem_cons_of_mem _ member, within⟩
        · exact .inr missed

theorem Laid.within (place : Nat) (laid : Laid (fun _ => False) high low ranges) :
    (∃ range ∈ ranges, range.1 ≤ place ∧ place < range.2) ↔ low ≤ place ∧ place < high := by
  constructor
  · rintro ⟨range, member, lower, upper⟩
    have bounds := laid.bounds range member
    omega
  · rintro ⟨lower, upper⟩
    rcases laid.cover lower upper with found | impossible
    · exact found
    · exact impossible.elim

theorem Laid.shift (base : Nat) (laid : Laid (fun _ => False) high low ranges) :
    Laid (fun _ => False) (base + high) (base + low)
      (ranges.map fun range => (base + range.1, base + range.2)) := by
  induction ranges generalizing low with
  | nil =>
    refine ⟨Nat.add_le_add_left laid.1 _, ?_⟩
    intro place after before
    exact laid.2 (place - base) (by omega) (by omega)
  | cons range ranges ih =>
    obtain ⟨before, filled, empty, behind⟩ := laid
    refine ⟨Nat.add_le_add_left before _, Nat.add_lt_add_left filled _, ?_, ih behind⟩
    intro place after under
    exact empty (place - base) (by omega) (by omega)

theorem Laid.touches {place : Nat} {first second : Nat × Nat} (laid : Laid (fun _ => False) high low ranges)
    (here : ranges[place]? = some first) (next : ranges[place + 1]? = some second) : first.2 = second.1 := by
  induction ranges generalizing low place with
  | nil => cases here
  | cons range ranges ih =>
    obtain ⟨-, -, -, behind⟩ := laid
    cases place with
    | succ place => exact ih behind here next
    | zero =>
      cases here
      cases ranges with
      | nil => cases next
      | cons range ranges =>
        cases next
        obtain ⟨order, -, empty, -⟩ := behind
        by_cases same : first.2 = second.1
        · exact same
        · exact (empty first.2 (Nat.le_refl _) (by omega)).elim

theorem laid_nil (place : Nat) : Laid (fun _ => False) place place [] :=
  ⟨Nat.le_refl _, fun _ after before => absurd after (Nat.not_le_of_lt before)⟩

theorem laid_singleton {start stop : Nat} (filled : start < stop) :
    Laid (fun _ => False) stop start [(start, stop)] :=
  ⟨Nat.le_refl _, filled, fun _ after before => absurd after (Nat.not_le_of_lt before), laid_nil stop⟩

theorem Laid.first {range : Nat × Nat} (laid : Laid (fun _ => False) high low (range :: ranges)) : range.1 = low := by
  obtain ⟨order, -, empty, -⟩ := laid
  by_contra later
  exact empty low (Nat.le_refl _) (by omega)

theorem Laid.last {range : Nat × Nat} (laid : Laid (fun _ => False) high low (ranges ++ [range])) :
    range.2 = high := by
  induction ranges generalizing low with
  | nil =>
    obtain ⟨-, -, -, order, empty⟩ := laid
    by_contra sooner
    exact empty range.2 (Nat.le_refl _) (by omega)
  | cons other ranges ih => exact ih laid.2.2.2

theorem Laid.flatten {α : Type} (items : List α) (laid : Laid (fun _ => False) high low ranges) :
    (ranges.map fun range => (items.drop range.1).take (range.2 - range.1)).flatten =
      (items.drop low).take (high - low) := by
  induction ranges generalizing low with
  | nil =>
    obtain ⟨order, empty⟩ := laid
    have none : high - low = 0 := by
      by_contra some
      exact empty low (Nat.le_refl _) (by omega)
    rw [none, take_zero]
    rfl
  | cons range ranges ih =>
    have start := laid.first
    obtain ⟨-, filled, -, behind⟩ := laid
    have order := behind.le
    have split : high - low = range.2 - range.1 + (high - range.2) := by omega
    have further : low + (range.2 - low) = range.2 := by omega
    rw [map_cons, flatten_cons, ih behind, split, take_add, start, drop_drop, further]

section

variable {higher start stop : Nat}

structure Ordered (low high : Nat) (ranges : List (Nat × Nat)) : Prop where
  laid : Laid (fun _ => True) high low ranges

theorem ordered_nil (order : low ≤ high) : Ordered low high [] := ⟨order, fun _ _ _ => trivial⟩

theorem Ordered.append (first : Ordered low middle ranges) (second : Ordered middle high rest) :
    Ordered low high (ranges ++ rest) := ⟨first.laid.append second.laid⟩

theorem Ordered.raise (ordered : Ordered low high ranges) (order : high ≤ higher) : Ordered low higher ranges := by
  have more := ordered.append (ordered_nil order)
  rwa [append_nil] at more

theorem Ordered.lower (ordered : Ordered middle high ranges) (order : low ≤ middle) : Ordered low high ranges :=
  ⟨ordered.laid.after (fun _ _ _ => trivial) order⟩

theorem ordered_singleton (order : low ≤ start) (filled : start < stop) : Ordered low stop [(start, stop)] :=
  ⟨order, filled, fun _ _ _ => trivial, (ordered_nil (Nat.le_refl stop)).laid⟩

theorem Ordered.push (ordered : Ordered low high ranges) (order : high ≤ start) (filled : start < stop) :
    Ordered low stop (ranges ++ [(start, stop)]) :=
  ordered.append (ordered_singleton order filled)

theorem Ordered.extend {old : Nat} (ordered : Ordered low high (ranges ++ [(start, old)])) (order : high ≤ stop) :
    Ordered low stop (ranges ++ [(start, stop)]) := by
  induction ranges generalizing low with
  | nil =>
    obtain ⟨before, filled, -, behind⟩ := ordered.laid
    have last := behind.1
    exact ordered_singleton before (by omega)
  | cons range ranges ih =>
    obtain ⟨before, filled, empty, behind⟩ := ordered.laid
    exact ⟨before, filled, empty, (ih ⟨behind⟩).laid⟩

theorem Ordered.sublist (ordered : Ordered low high ranges) (fewer : rest.Sublist ranges) :
    Ordered low high rest := by
  induction fewer generalizing low with
  | slnil => exact ordered
  | cons range fewer ih =>
    obtain ⟨before, filled, -, behind⟩ := ordered.laid
    exact (ih ⟨behind⟩).lower (by omega)
  | cons_cons range fewer ih =>
    obtain ⟨before, filled, empty, behind⟩ := ordered.laid
    exact ⟨before, filled, empty, (ih ⟨behind⟩).laid⟩

end

end Ranges
