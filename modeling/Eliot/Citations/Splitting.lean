import Eliot.Citations.CodeShape
import Eliot.Citations.Wording
import Eliot.Text.Ranges
import Eliot.Text.Scalars

namespace Citations
open Text Ranges List

section

variable (language : Language)

def flushed (gap : Text) : List Text := ((language.segment gap).map trim).filter (· != [])

def splitFrom (text : Text) (last : Nat) : List CodeRange → List Text
  | [] => if last < text.length then flushed language (text.drop last) else []
  | range :: fences =>
    (if last < range.start then flushed language (slice text last range.start) else []) ++
      (if last ≤ range.start then [slice text range.start range.stop] else []) ++
      splitFrom text (max last range.stop) fences

def splitDistillStatements (text : Text) : List Text :=
  splitFrom language text 0 ((fencedRanges text).mergeSort fun first second => first.start ≤ second.start)

end

section

variable {text : Text} {low high : Nat}

def Blank (text : Text) (place : Nat) : Prop := ∃ unit, text[place]? = some unit ∧ isSpace unit = true

structure Cut (gap : Nat → Prop) (text : Text) (low high : Nat) (ranges : List (Nat × Nat)) (units : List Text) :
    Prop where
  same : units = ranges.map fun range => slice text range.1 range.2
  laid : Laid gap high low ranges

theorem Cut.append {gap : Nat → Prop} {middle : Nat} {first second : List (Nat × Nat)} {units others : List Text}
    (front : Cut gap text low middle first units) (back : Cut gap text middle high second others) :
    Cut gap text low high (first ++ second) (units ++ others) := by
  refine ⟨?_, front.laid.append back.laid⟩
  rw [front.same, back.same, map_append]

theorem trim_within (segment : Text) : ∃ lead trail, segment = lead ++ (trim segment ++ trail) ∧
    (∀ unit ∈ lead, isSpace unit = true) ∧ ∀ unit ∈ trail, isSpace unit = true := by
  refine ⟨segment.takeWhile isSpace, (segment.dropWhile isSpace).rtakeWhile isSpace, ?_, ?_, ?_⟩
  · rw [trim, rdropWhile_append_rtakeWhile, takeWhile_append_dropWhile]
  · intro unit member
    exact mem_takeWhile_imp member
  · intro unit member
    exact mem_rtakeWhile_imp member

theorem blank_part {front part rest : Text} (spaces : ∀ unit ∈ part, isSpace unit = true)
    (there : text.drop low = front ++ (part ++ rest)) :
    ∀ place, low + front.length ≤ place → place < low + front.length + part.length → Blank text place := by
  intro place after before
  have inside : place - (low + front.length) < part.length := by omega
  have found : text[place]? = part[place - (low + front.length)]? := by
    have whole : text[low + (place - low)]? = (front ++ (part ++ rest))[place - low]? := by
      rw [← getElem?_drop, there]
    rw [Nat.add_sub_cancel' (by omega), getElem?_append_right (by omega),
      getElem?_append_left (by omega)] at whole
    rw [whole]
    congr 1
    omega
  rw [getElem?_eq_getElem inside] at found
  exact ⟨_, found, spaces _ (getElem_mem inside)⟩

theorem slice_part {front part rest : Text} (there : text.drop low = front ++ (part ++ rest)) :
    slice text (low + front.length) (low + front.length + part.length) = part := by
  rw [slice, ← drop_drop, there, drop_left, Nat.add_sub_cancel_left, take_left]

theorem segment_cut {segment rest : Text} (there : text.drop low = segment ++ rest) :
    ∃ ranges, Cut (Blank text) text low (low + segment.length) ranges
      ([trim segment].filter (· != [])) := by
  obtain ⟨lead, trail, split, before, behind⟩ := trim_within segment
  have length : segment.length = lead.length + ((trim segment).length + trail.length) := by
    conv_lhs => rw [split]
    rw [length_append, length_append]
  by_cases empty : trim segment = []
  · refine ⟨[], ⟨by simp [empty], by omega, ?_⟩⟩
    have blank := @blank_part text low [] segment rest (isSpace_of_trim empty) there
    simpa using blank
  · have filled : 0 < (trim segment).length := length_pos_iff.mpr empty
    have shape : text.drop low = lead ++ (trim segment ++ (trail ++ rest)) := by
      rw [there]
      conv_lhs => rw [split]
      simp
    have shape' : text.drop low = (lead ++ trim segment) ++ (trail ++ rest) := by
      rw [shape, append_assoc]
    have first := @blank_part text low [] lead _ before shape
    have last := blank_part behind shape'
    rw [length_append] at last
    simp only [length_nil, Nat.add_zero] at first
    refine ⟨[(low + lead.length, low + lead.length + (trim segment).length)], ⟨?_, ?_⟩⟩
    · simp [empty, slice_part shape]
    · refine ⟨by omega, by omega, first, by omega, ?_⟩
      intro place after under
      exact last place (by omega) (by omega)

theorem segments_cut {segments : List Text} {rest : Text} (there : text.drop low = segments.flatten ++ rest) :
    ∃ ranges, Cut (Blank text) text low (low + segments.flatten.length) ranges
      ((segments.map trim).filter (· != [])) := by
  induction segments generalizing low with
  | nil => exact ⟨[], rfl, Nat.le_refl _, fun place after before => absurd before (by simp; omega)⟩
  | cons segment segments ih =>
    rw [flatten_cons, append_assoc] at there
    obtain ⟨first, front⟩ := segment_cut there
    have later : text.drop (low + segment.length) = segments.flatten ++ rest := by
      rw [← drop_drop, there, drop_left]
    obtain ⟨second, back⟩ := ih later
    refine ⟨first ++ second, ?_⟩
    have whole := front.append back
    rw [flatten_cons, length_append, ← Nat.add_assoc, map_cons, ← singleton_append,
      filter_append]
    exact whole

theorem flushed_cut (language : Language) {gap rest : Text} (there : text.drop low = gap ++ rest) :
    ∃ ranges, Cut (Blank text) text low (low + gap.length) ranges (flushed language gap) := by
  have whole := language.partition gap
  rw [← whole] at there
  have cut := segments_cut there
  rwa [whole] at cut

end

section

variable {text : Text} {low : Nat} {fences : List CodeRange} {ranges : List (Nat × Nat)} {units : List Text}

def CodeRange.span (fence : CodeRange) : Nat × Nat := (fence.start, fence.stop)

def BlankProse (text : Text) (fences : List CodeRange) (place : Nat) : Prop :=
  Blank text place ∧ ∀ fence ∈ fences, ¬ (fence.start ≤ place ∧ place < fence.stop)

structure Split (text : Text) (fences : List CodeRange) (low : Nat) (ranges : List (Nat × Nat)) (units : List Text) :
    Prop where
  cut : Cut (BlankProse text fences) text low text.length ranges units
  fenced : ∀ fence ∈ fences, fence.span ∈ ranges
  pure : ∀ range ∈ ranges, ∀ fence ∈ fences,
    range = fence.span ∨ range.2 ≤ fence.start ∨ fence.stop ≤ range.1

theorem slice_rest (text : Text) {stop : Nat} (order : low ≤ stop) :
    text.drop low = slice text low stop ++ text.drop stop := by
  have whole := take_append_drop (stop - low) (text.drop low)
  rw [drop_drop, Nat.add_sub_cancel' order] at whole
  exact whole.symm

theorem gap_cut (language : Language) {stop : Nat} (order : low ≤ stop) (within : stop ≤ text.length)
    (free : ∀ fence ∈ fences, stop ≤ fence.start) :
    ∃ ranges, Cut (BlankProse text fences) text low stop ranges
      (if low < stop then flushed language (slice text low stop) else []) := by
  by_cases filled : low < stop
  · obtain ⟨ranges, cut⟩ := flushed_cut language (slice_rest text order)
    have length : (slice text low stop).length = stop - low := by
      rw [slice, length_take, length_drop]
      omega
    rw [length, Nat.add_sub_cancel' order] at cut
    refine ⟨ranges, ?_⟩
    rw [if_pos filled]
    refine ⟨cut.same, cut.laid.weaken ?_⟩
    intro place after before blank
    refine ⟨blank, ?_⟩
    intro fence member inside
    have apart := free fence member
    omega
  · refine ⟨[], ?_⟩
    rw [if_neg filled]
    exact ⟨rfl, order, fun place after before => absurd before (by omega)⟩

theorem Split.behind {fence : CodeRange} {rest : List Text} (filled : fence.start < fence.stop)
    (apart : ∀ later ∈ fences, fence.stop ≤ later.start) {first second : List (Nat × Nat)}
    (front : Cut (BlankProse text (fence :: fences)) text low fence.start first units)
    (back : Split text fences fence.stop second rest) :
    Split text (fence :: fences) low (first ++ (fence.span :: second))
      (units ++ [slice text fence.start fence.stop] ++ rest) := by
  have onto := back.cut.laid.le
  have itself : Cut (BlankProse text (fence :: fences)) text fence.start fence.stop [fence.span]
      [slice text fence.start fence.stop] :=
    ⟨rfl, Nat.le_refl _, filled, fun place after before => absurd before (by omega), Nat.le_refl _,
      fun place after before => absurd before (by omega)⟩
  have later : Cut (BlankProse text (fence :: fences)) text fence.stop text.length second rest := by
    refine ⟨back.cut.same, back.cut.laid.weaken ?_⟩
    intro place after before blank
    refine ⟨blank.1, ?_⟩
    intro other member inside
    rcases mem_cons.mp member with rfl | member
    · omega
    · exact blank.2 other member inside
  constructor
  · rw [append_assoc]
    exact front.append (itself.append later)
  · intro other member
    rcases mem_cons.mp member with rfl | member
    · exact mem_append_right _ mem_cons_self
    · exact mem_append_right _ (mem_cons_of_mem _ (back.fenced other member))
  · intro range there other member
    rcases mem_append.mp there with early | there
    · have bound := (front.laid.bounds range early).2.2
      rcases mem_cons.mp member with rfl | member
      · exact .inr (.inl bound)
      · have order := apart other member
        exact .inr (.inl (by omega))
    · rcases mem_cons.mp there with rfl | inner
      · rcases mem_cons.mp member with rfl | member
        · exact .inl rfl
        · exact .inr (.inl (apart other member))
      · rcases mem_cons.mp member with rfl | member
        · exact .inr (.inr (back.cut.laid.bounds range inner).1)
        · exact back.pure range inner other member

theorem splitFrom_split (language : Language) (shapes : ∀ fence ∈ fences, FenceShape text fence)
    (apart : Apart fences) (after : ∀ fence ∈ fences, low ≤ fence.start) (within : low ≤ text.length) :
    ∃ ranges, Split text fences low ranges (splitFrom language text low fences) := by
  induction fences generalizing low with
  | nil =>
    obtain ⟨ranges, cut⟩ := @gap_cut text low [] language text.length within (Nat.le_refl _) (by simp)
    refine ⟨ranges, ?_, by simp, by simp⟩
    have whole : slice text low text.length = text.drop low := by
      rw [slice, take_of_length_le]
      rw [length_drop]
    rw [splitFrom, ← whole]
    exact cut
  | cons fence fences ih =>
    have shape := shapes fence mem_cons_self
    have filled := shape.nonempty
    have fits := shape.within
    have order := after fence mem_cons_self
    obtain ⟨behind, apart⟩ := pairwise_cons.mp apart
    obtain ⟨second, back⟩ := ih (fun other member => shapes other (mem_cons_of_mem _ member)) apart behind fits
    have free : ∀ other ∈ fence :: fences, fence.start ≤ other.start := by
      intro other member
      rcases mem_cons.mp member with rfl | member
      · exact Nat.le_refl _
      · have later := behind other member
        omega
    have before : fence.start ≤ text.length := by omega
    obtain ⟨first, front⟩ := gap_cut language order before free
    refine ⟨first ++ (fence.span :: second), ?_⟩
    rw [splitFrom, if_pos order, Nat.max_eq_right (by omega)]
    exact Split.behind filled behind front back

theorem fences_sorted (text : Text) :
    (fencedRanges text).mergeSort (fun first second => first.start ≤ second.start) = fencedRanges text := by
  obtain ⟨shapes, apart⟩ := fencedRanges_shape text
  refine mergeSort_of_pairwise (List.Pairwise.imp_of_mem ?_ apart)
  intro first second member other order
  have filled := (shapes first member).nonempty
  exact decide_eq_true (by omega)

/-- The units are the text at ranges in order and apart. Each fence is one unit as it is, every other unit has
    nothing of a fence, and only white space outside of fences is in no unit. -/
theorem splitDistillStatements_lossless (language : Language) (text : Text) :
    ∃ ranges : List (Nat × Nat),
      splitDistillStatements language text = ranges.map (fun range => slice text range.1 range.2) ∧
      Ordered 0 text.length ranges ∧
      (∀ fence ∈ fencedRanges text, ranges.count (fence.start, fence.stop) = 1) ∧
      (∀ range ∈ ranges, ∀ fence ∈ fencedRanges text,
        range = (fence.start, fence.stop) ∨ range.2 ≤ fence.start ∨ fence.stop ≤ range.1) ∧
      ∀ place < text.length, (∃ range ∈ ranges, range.1 ≤ place ∧ place < range.2) ∨
        (∃ unit, text[place]? = some unit ∧ isSpace unit = true) ∧
          ∀ fence ∈ fencedRanges text, ¬ (fence.start ≤ place ∧ place < fence.stop) := by
  obtain ⟨shapes, apart⟩ := fencedRanges_shape text
  obtain ⟨ranges, cut, fenced, pure⟩ :=
    splitFrom_split language shapes apart (fun _ _ => Nat.zero_le _) (Nat.zero_le _)
  have distinct : ranges.Nodup := by
    refine List.Pairwise.imp_of_mem ?_ cut.laid.pairwise
    intro earlier later member other order same
    have filled := (cut.laid.bounds earlier member).2.1
    subst same
    omega
  refine ⟨ranges, ?_, ⟨cut.laid.weaken fun _ _ _ _ => trivial⟩, ?_, pure, ?_⟩
  · rw [splitDistillStatements, fences_sorted, cut.same]
  · intro fence member
    exact count_eq_one_of_mem distinct (fenced fence member)
  · intro place before
    exact cut.laid.cover (Nat.zero_le _) before

end

end Citations
