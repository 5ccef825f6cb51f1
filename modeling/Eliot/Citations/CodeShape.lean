import Eliot.Citations.CodeRanges

namespace Citations
open Text List

section
variable {α : Type} (test : α → Bool)

theorem takeWhile_passes (list : List α) {place : Nat} (within : place < (list.takeWhile test).length) :
    ∃ value, list[place]? = some value ∧ test value = true := by
  induction list generalizing place with
  | nil => simp at within
  | cons first rest ih =>
    rw [takeWhile_cons] at within
    split at within
    · rename_i passed
      cases place with
      | zero => exact ⟨first, rfl, passed⟩
      | succ place => exact ih (by simpa using within)
    · simp at within

theorem takeWhile_stops (list : List α) {value : α}
    (found : list[(list.takeWhile test).length]? = some value) : test value = false := by
  induction list with
  | nil => simp at found
  | cons first rest ih =>
    rw [takeWhile_cons] at found
    split at found
    · exact ih (by simpa using found)
    · rename_i failed
      cases found
      simpa using failed

variable {text : Text} {position : Nat}

theorem tickRun_ticks {place : Nat} (tick : text[position]? = some backtick)
    (within : place < tickRun text position) : text[position + place]? = some backtick := by
  cases place with
  | zero => exact tick
  | succ place =>
    obtain ⟨value, found, passed⟩ := takeWhile_passes (· == backtick) (text.drop (position + 1))
      (show place < _ by unfold tickRun at within; omega)
    rw [getElem?_drop] at found
    rw [← eq_of_beq passed, ← found]
    congr 1
    omega

theorem tickRun_stops : text[position + tickRun text position]? ≠ some backtick := by
  intro tick
  have stopped := takeWhile_stops (· == backtick) (text.drop (position + 1))
    (show _ = some backtick by
      rw [getElem?_drop, ← tick]
      congr 1
      unfold tickRun
      omega)
  simp at stopped

theorem tickRun_fits (tick : text[position]? = some backtick) :
    position + tickRun text position ≤ text.length := by
  by_contra beyond
  have positive := tickRun_pos text position
  have last := tickRun_ticks tick (show tickRun text position - 1 < tickRun text position by omega)
  obtain ⟨within, -⟩ := List.getElem?_eq_some_iff.mp last
  omega

theorem tickRun_before {stop : Nat} (tick : text[position]? = some backtick) (before : position ≤ stop)
    (other : text[stop]? ≠ some backtick) : position + tickRun text position ≤ stop := by
  by_contra beyond
  have there := tickRun_ticks tick (show stop - position < tickRun text position by omega)
  rw [Nat.add_sub_cancel' before] at there
  exact other there

end

variable {position : Nat}

section
variable {text : Text}

def LineStart (text : Text) (position : Nat) : Prop := position = 0 ∨ text[position - 1]? = some 10

structure Lines (text : Text) (position : Nat) (lines : List Text) : Prop where
  rest : text.drop position = [10].intercalate lines
  within : position ≤ text.length
  start : lines ≠ [] → LineStart text position

structure FenceShape (text : Text) (fence : CodeRange) : Prop where
  nonempty : fence.start < fence.stop
  within : fence.stop ≤ text.length
  start : LineStart text fence.start
  stop : fence.stop = text.length ∨ LineStart text fence.stop

def Apart (ranges : List CodeRange) : Prop :=
  ranges.Pairwise fun first second => first.stop ≤ second.start

theorem splitOn_lines (text : Text) : Lines text 0 (text.splitOn 10) :=
  ⟨by simp [intercalate_splitOn], Nat.zero_le _, fun _ => .inl rfl⟩

theorem Lines.next {line : Text} {lines : List Text}
    (shape : Lines text position (line :: lines)) :
    Lines text (position + line.length + if lines.isEmpty then 0 else 1) lines := by
  obtain ⟨rest, within, -⟩ := shape
  cases lines with
  | nil =>
    have whole : text.drop position = line := by simpa [List.intercalate] using rest
    have length := congrArg List.length whole
    rw [length_drop] at length
    refine ⟨?_, ?_, fun nonempty => absurd rfl nonempty⟩
    · simp only [isEmpty_nil, if_true, List.intercalate]
      rw [drop_eq_nil_of_le (by omega)]
      rfl
    · simp only [isEmpty_nil, if_true]
      omega
  | cons next lines =>
    have whole : text.drop position = line ++ 10 :: [10].intercalate (next :: lines) := by
      simpa [List.intercalate] using rest
    have length := congrArg List.length whole
    rw [length_drop, length_append, length_cons] at length
    simp only [isEmpty_cons, Bool.false_eq_true, if_false]
    refine ⟨?_, by omega, fun _ => .inr ?_⟩
    · rw [Nat.add_assoc, ← drop_drop, whole]
      simp
    · have there : (text.drop position)[line.length]? = some 10 := by
        rw [whole]
        simp
      rw [getElem?_drop] at there
      exact there

theorem Lines.stop {lines : List Text} (shape : Lines text position lines) :
    position = text.length ∨ LineStart text position := by
  by_cases last : lines = []
  · subst last
    have none : text.drop position = [] := by simpa [List.intercalate] using shape.rest
    have beyond := drop_eq_nil_iff.mp none
    have within := shape.within
    omega
  · exact .inr (shape.start last)

def fenceFrom (position : Nat) (fence : Option OpenFence) : Nat := (fence.map (·.fenceStart)).getD position

theorem fencedFrom_shape (fence : Option OpenFence) {lines : List Text}
    (shape : Lines text position lines)
    (opened : ∀ open', fence = some open' → open'.fenceStart < position ∧ LineStart text open'.fenceStart) :
    (∀ range ∈ fencedFrom text.length position fence lines,
      FenceShape text range.toCodeRange ∧ fenceFrom position fence ≤ range.start) ∧
    Apart ((fencedFrom text.length position fence lines).map (·.toCodeRange)) := by
  induction lines generalizing position fence with
  | nil =>
    cases fence with
    | none => simp [fencedFrom, Apart]
    | some fence =>
      obtain ⟨before, start⟩ := opened fence rfl
      have within := shape.within
      refine ⟨fun range member => ?_, by simp [fencedFrom, Apart]⟩
      rw [fencedFrom, mem_singleton] at member
      subst member
      refine ⟨⟨?_, Nat.le_refl _, start, .inl rfl⟩, Nat.le_refl _⟩
      exact Nat.lt_of_lt_of_le before within
  | cons line lines ih =>
    have next := shape.next
    have here : LineStart text position := shape.start (cons_ne_nil _ _)
    have onto := next.within
    have ended := next.stop
    cases fence with
    | none =>
      cases opening : (fenceOpen.exec line).bind (·.captures[0]?) with
      | none =>
        obtain ⟨each, apart⟩ := ih none next (by simp)
        simp only [fencedFrom, opening]
        refine ⟨fun range member => ⟨(each range member).1, Nat.le_trans ?_ (each range member).2⟩, apart⟩
        simp only [fenceFrom, Option.map_none, Option.getD_none]
        omega
      | some ticks =>
        have filled : line ≠ [] := by
          rintro rfl
          have none : fenceOpen.exec ([] : Text) = none := by decide
          simp [none] at opening
        have length := length_pos_iff.mpr filled
        have more := ih (some ⟨ticks.headD backtick, ticks.length, position,
          position + line.length + if lines.isEmpty then 0 else 1⟩) next (by
            intro fence same
            cases same
            exact ⟨by simp only; omega, here⟩)
        simp only [fencedFrom, opening]
        exact more
    | some fence =>
      obtain ⟨before, start⟩ := opened fence rfl
      by_cases closing : closesFence fence line = true
      · obtain ⟨each, apart⟩ := ih none next (by simp)
        simp only [fencedFrom, closing, if_true, mem_cons, map_cons]
        refine ⟨fun range member => ?_, pairwise_cons.mpr ⟨fun range member => ?_, apart⟩⟩
        · rcases member with rfl | member
          · exact ⟨⟨by simp only; omega, onto, start, ended⟩, Nat.le_refl _⟩
          · refine ⟨(each range member).1, Nat.le_trans ?_ (each range member).2⟩
            simp only [fenceFrom, Option.map_some, Option.map_none, Option.getD_some, Option.getD_none]
            omega
        · obtain ⟨fenced, listed, rfl⟩ := mem_map.mp member
          exact (each fenced listed).2
      · have more := ih (some fence) next (by
          intro other same
          cases same
          exact ⟨by omega, start⟩)
        simp only [fencedFrom, closing, Bool.false_eq_true, if_false]
        exact more

theorem fencedRanges_shape (text : Text) :
    (∀ fence ∈ fencedRanges text, FenceShape text fence) ∧ Apart (fencedRanges text) := by
  obtain ⟨each, apart⟩ := fencedFrom_shape none (splitOn_lines text) (by simp)
  refine ⟨fun fence member => ?_, apart⟩
  obtain ⟨fenced, listed, rfl⟩ := mem_map.mp member
  exact (each fenced listed).1

end

section
variable {text : Text}

def Fresh (text : Text) (position : Nat) : Prop :=
  text[position]? ≠ some backtick ∨ position = 0 ∨ text[position - 1]? ≠ some backtick ∨
    (2 ≤ position ∧ text[position - 2]? = some backslash)

/-- A run of exactly `count` ticks at a position, to its right. -/
structure Run (text : Text) (position count : Nat) : Prop where
  positive : 0 < count
  ticks : ∀ place < count, text[position + place]? = some backtick
  stops : text[position + count]? ≠ some backtick

structure Quoted (text : Text) (range : CodeRange) (count : Nat) : Prop where
  opening : Run text range.start count
  closing : Run text (range.stop - count) count
  between : range.start + count < range.stop - count
  fresh : Fresh text range.start
  whole : text[range.stop - count - 1]? ≠ some backtick

theorem tickRun_run (tick : text[position]? = some backtick) :
    Run text position (tickRun text position) :=
  ⟨tickRun_pos text position, fun _ within => tickRun_ticks tick within, tickRun_stops⟩

theorem closingRun_some {limit openLength position close : Nat} (positive : 0 < position)
    (edge : text[position]? ≠ some backtick ∨ text[position - 1]? ≠ some backtick)
    (found : closingRun text limit openLength position = some close) :
    position ≤ close ∧ close < limit ∧ text[close]? = some backtick ∧ tickRun text close = openLength ∧
      text[close - 1]? ≠ some backtick := by
  fun_induction closingRun text limit openLength position with
  | case1 position within tick same =>
    cases found
    exact ⟨Nat.le_refl _, within, tick, same, edge.resolve_left (not_not.mpr tick)⟩
  | case2 position within tick other ih =>
    have next := ih (by omega) (.inl tickRun_stops) found
    exact ⟨by omega, next.2⟩
  | case3 position within other ih =>
    have next := ih (by omega) (.inr (by simpa using other)) found
    exact ⟨by omega, next.2⟩
  | case4 position outside => cases found

theorem LineStart.before (start : LineStart text position) (positive : 0 < position) :
    text[position - 1]? ≠ some backtick := by
  rcases start with rfl | newline
  · omega
  · rw [newline]
    decide

theorem LineStart.fresh (start : LineStart text position) : Fresh text position := by
  by_cases first : position = 0
  · exact .inr (.inl first)
  · exact .inr (.inr (.inl (start.before (by omega))))

structure InlineShape (text : Text) (fences : List CodeRange) (position : Nat) (ranges : List CodeRange) :
    Prop where
  after : ∀ range ∈ ranges, position ≤ range.start ∧ range.stop ≤ text.length
  quoted : ∀ range ∈ ranges, ∃ count, Quoted text range count
  outside : ∀ range ∈ ranges, ∀ fence ∈ fences, range.stop ≤ fence.start ∨ fence.stop ≤ range.start
  apart : Apart ranges

theorem InlineShape.earlier {fences ahead : List CodeRange} {position next : Nat} {ranges : List CodeRange}
    (shape : InlineShape text ahead next ranges) (onward : position ≤ next)
    (passed : ∀ fence ∈ fences, fence ∈ ahead ∨ fence.stop ≤ next) :
    InlineShape text fences position ranges := by
  refine ⟨fun range member => ⟨onward.trans (shape.after range member).1, (shape.after range member).2⟩,
    shape.quoted, fun range member fence listed => ?_, shape.apart⟩
  rcases passed fence listed with still | before
  · exact shape.outside range member fence still
  · exact .inr (before.trans (shape.after range member).1)

theorem fencesAfter_passed {fences : List CodeRange} :
    ∀ fence ∈ fences, fence ∈ fencesAfter fences position ∨ fence.stop ≤ position := by
  intro fence listed
  rw [← takeWhile_append_dropWhile (p := (·.stop ≤ position)) (l := fences)] at listed
  rcases mem_append.mp listed with passed | ahead
  · exact .inr (by simpa using mem_takeWhile_imp passed)
  · exact .inl ahead

theorem fencesAfter_shape {fences : List CodeRange} (position : Nat)
    (shapes : ∀ fence ∈ fences, FenceShape text fence) (apart : Apart fences) :
    (∀ fence ∈ fencesAfter fences position, FenceShape text fence) ∧ Apart (fencesAfter fences position) :=
  ⟨fun fence listed => shapes fence ((dropWhile_sublist _).subset listed),
    apart.sublist (dropWhile_sublist _)⟩

theorem limit_bounds {ahead : List CodeRange} {position limit : Nat}
    (shapes : ∀ fence ∈ ahead, FenceShape text fence) (apart : Apart ahead)
    (within : position < text.length) (prose : ahead.head?.filter (·.start ≤ position) = none)
    (named : limit = (ahead.head?.map (·.start)).getD text.length) :
    position < limit ∧ limit ≤ text.length ∧ (∀ fence ∈ ahead, limit ≤ fence.start) ∧
      ∀ place < limit, text[place]? = some backtick → place + tickRun text place ≤ limit := by
  subst named
  cases ahead with
  | nil => exact ⟨within, Nat.le_refl _, by simp, fun place _ tick => tickRun_fits tick⟩
  | cons fence ahead =>
    have shape := shapes fence mem_cons_self
    have before : position < fence.start := by simpa using prose
    have spans := shape.nonempty
    have fits := shape.within
    simp only [head?_cons, Option.map_some, Option.getD_some]
    refine ⟨before, by omega, fun other listed => ?_, fun place there tick => ?_⟩
    · rcases mem_cons.mp listed with rfl | later
      · exact Nat.le_refl _
      · have := (pairwise_cons.mp apart).1 other later
        omega
    · have edge := shape.start.before (by omega)
      have stops := tickRun_before tick (show place ≤ fence.start - 1 by omega) edge
      omega

theorem inlineFrom_shape {fences : List CodeRange}
    (shapes : ∀ fence ∈ fences, FenceShape text fence) (apart : Apart fences)
    (fresh : position < text.length → Fresh text position) :
    InlineShape text fences position (inlineFrom text fences position) := by
  fun_induction inlineFrom text fences position with
  | case1 fences position within ahead fence inside ih =>
    obtain ⟨heads, started⟩ := Option.filter_eq_some_iff.mp inside
    obtain ⟨still, order⟩ := fencesAfter_shape position shapes apart
    have listed : fence ∈ fencesAfter fences position := mem_of_head? heads
    have onward := fencesAfter_head heads
    refine (ih still order fun inner => ?_).earlier onward.le fun other there => ?_
    · exact ((still fence listed).stop.resolve_left (by omega)).fresh
    · exact (fencesAfter_passed other there).imp_right fun passed => passed.trans onward.le
  | case2 fences position within ahead prose escape ih =>
    obtain ⟨still, order⟩ := fencesAfter_shape position shapes apart
    refine (ih still order fun _ => ?_).earlier (Nat.le_add_right _ _) fun other there => ?_
    · exact .inr (.inr (.inr ⟨Nat.le_add_left _ _, escape⟩))
    · exact (fencesAfter_passed other there).imp_right fun passed => passed.trans (Nat.le_add_right _ _)
  | case3 fences position within ahead prose plain other ih =>
    obtain ⟨still, order⟩ := fencesAfter_shape position shapes apart
    refine (ih still order fun _ => ?_).earlier (Nat.le_add_right _ _) fun other there => ?_
    · exact .inr (.inr (.inl other))
    · exact (fencesAfter_passed other there).imp_right fun passed => passed.trans (Nat.le_add_right _ _)
  | case4 fences position within ahead prose plain tick openLength limit open' ih =>
    obtain ⟨still, order⟩ := fencesAfter_shape position shapes apart
    refine (ih still order fun _ => ?_).earlier (Nat.le_add_right _ _) fun other there => ?_
    · exact .inl tickRun_stops
    · exact (fencesAfter_passed other there).imp_right fun passed => passed.trans (Nat.le_add_right _ _)
  | case5 fences position within ahead prose plain tick openLength limit closeStart closed ih =>
    obtain ⟨still, order⟩ := fencesAfter_shape position shapes apart
    have tick := not_not.mp tick
    obtain ⟨before, fits, edges, runs⟩ := limit_bounds still order within prose rfl
    have opening := tickRun_run tick
    have positive : 0 < openLength := opening.positive
    obtain ⟨after, inner, closing, length, whole⟩ :=
      closingRun_some (by omega) (.inl tickRun_stops) closed
    have last := runs closeStart inner closing
    have closes : Run text closeStart openLength := length ▸ tickRun_run closing
    have onward : position ≤ closeStart + openLength := by omega
    have rest := ih still order fun _ => .inl closes.stops
    have apart' : position + openLength ≠ closeStart := by
      rintro same
      exact opening.stops (same ▸ closing)
    rw [length] at last
    have back : closeStart + openLength - openLength = closeStart := Nat.add_sub_cancel _ _
    have later := rest.earlier onward fun other there =>
      (fencesAfter_passed other there).imp_right fun passed => passed.trans onward
    refine ⟨fun range member => ?_, fun range member => ?_, fun range member fence listed => ?_, ?_⟩
    · rcases mem_cons.mp member with rfl | member
      · exact ⟨Nat.le_refl _, by simp only; omega⟩
      · exact later.after range member
    · rcases mem_cons.mp member with rfl | member
      · refine ⟨openLength, ⟨opening, ?_, ?_, fresh within, ?_⟩⟩
        · rw [back]
          exact closes
        · simp only [back]
          omega
        · simp only [back]
          exact whole
      · exact later.quoted range member
    · rcases mem_cons.mp member with rfl | member
      · rcases fencesAfter_passed fence listed with there | passed
        · exact .inl (last.trans (edges fence there))
        · exact .inr passed
      · exact later.outside range member fence listed
    · exact pairwise_cons.mpr ⟨fun range member => (rest.after range member).1, rest.apart⟩
  | case6 fences position outside => exact ⟨by simp, by simp, by simp, List.Pairwise.nil⟩

end
end Citations
