import Eliot.Text.Preferred

namespace Regex

open List
variable {Symbol : Type} {regex : Regex Symbol} {opens closes : Symbol → Bool} {text : List Symbol}

structure Bracketed (regex : Regex Symbol) (opens closes : Symbol → Bool) : Prop where
  free : regex.openEnded = true
  apart : ∀ symbol, closes symbol = true → opens symbol = false
  shape : ∀ word, regex.Accepts word → ∃ first content last, word = first :: (content ++ [last]) ∧
    opens first = true ∧ closes last = true ∧ ∀ symbol ∈ content, opens symbol = false ∧ closes symbol = false

namespace Bracketed

theorem opens_first (bracketed : regex.Bracketed opens closes) {first : Symbol} {others : List Symbol}
    (accepted : regex.Accepts (first :: others)) :
    opens first = true ∧ ∀ symbol ∈ others, opens symbol = false := by
  obtain ⟨head, content, last, same, opening, closing, plain⟩ := bracketed.shape _ accepted
  obtain ⟨rfl, rfl⟩ := List.cons.inj same
  refine ⟨opening, fun symbol member => ?_⟩
  rcases mem_append.mp member with member | member
  · exact (plain symbol member).1
  · rw [mem_singleton.mp member]
    exact bracketed.apart last closing

theorem unique (bracketed : regex.Bracketed opens closes) {word other rest more : List Symbol}
    (accepted : regex.Accepts word) (second : regex.Accepts other) (same : word ++ rest = other ++ more) :
    word = other := by
  obtain ⟨first, content, last, rfl, -, closing, plain⟩ := bracketed.shape word accepted
  obtain ⟨first', content', last', rfl, -, closing', plain'⟩ := bracketed.shape other second
  simp only [cons_append, append_assoc, List.cons.injEq] at same
  obtain ⟨rfl, same⟩ := same
  rcases append_eq_append_iff.mp same with ⟨between, left, right⟩ | ⟨between, left, right⟩
  · cases between with
    | nil =>
      simp only [append_nil, nil_append, List.cons.injEq] at left right
      rw [left, right.1]
    | cons symbol between =>
      obtain ⟨rfl, -⟩ := List.cons.inj right
      have inside : last ∈ content' := by
        rw [left]
        simp
      rw [(plain' last inside).2] at closing
      cases closing
  · cases between with
    | nil =>
      simp only [append_nil, nil_append, List.cons.injEq] at left right
      rw [left, right.1]
    | cons symbol between =>
      obtain ⟨rfl, -⟩ := List.cons.inj right
      have inside : last' ∈ content := by
        rw [left]
        simp
      rw [(plain last' inside).2] at closing'
      cases closing'

theorem exec_word (bracketed : regex.Bracketed opens closes) {word rest : List Symbol}
    (accepted : regex.Accepts word) : ∃ once, regex.exec (word ++ rest) = some once ∧ once.rest = rest := by
  obtain ⟨way, member, -⟩ := (accepted.reaches bracketed.free rest).1
  have found := head?_eq_some_head (ne_nil_of_mem member)
  obtain ⟨taken, split, second⟩ := regex.ways_accepts _ _ (head_mem (ne_nil_of_mem member))
  refine ⟨_, found, ?_⟩
  have same := bracketed.unique accepted second split
  rw [← same] at split
  exact (append_cancel_left split).symm

theorem scan_complete (bracketed : regex.Bracketed opens closes) (position skip place : Nat)
    (input word rest : List Symbol) (skipped : ∀ symbol ∈ input.take skip, opens symbol = false)
    (accepted : regex.Accepts word) (there : input.drop place = word ++ rest) :
    (⟨position + place, word⟩ : Found Symbol) ∈ regex.scan position skip input := by
  obtain ⟨first, content, last, whole, opening, -⟩ := bracketed.shape word accepted
  induction input generalizing position skip place with
  | nil =>
    rw [drop_nil, whole] at there
    cases there
  | cons symbol input ih =>
    cases place with
    | zero =>
      rw [drop_zero] at there
      have opened : symbol = first := by
        rw [whole] at there
        exact (List.cons.inj there).1
      cases skip with
      | succ skip =>
        have closed := skipped symbol (by simp)
        rw [opened, opening] at closed
        cases closed
      | zero =>
        obtain ⟨once, found, left⟩ : ∃ once, regex.exec (word ++ rest) = some once ∧ once.rest = rest :=
          bracketed.exec_word accepted
        rw [← there] at found
        have token : (symbol :: input).take ((symbol :: input).length - once.rest.length) = word := by
          rw [there, left]
          simp
        rw [scan, found]
        dsimp only
        rw [token]
        exact mem_cons_self
    | succ place =>
      rw [drop_succ_cons] at there
      have move : position + (place + 1) = position + 1 + place := by omega
      rw [move]
      cases skip with
      | succ skip =>
        rw [scan]
        exact ih _ _ _ (fun other member => skipped other (by simp [member])) there
      | zero =>
        rw [scan]
        split
        · rename_i once found
          refine mem_cons_of_mem _ (ih _ _ _ ?_ there)
          obtain ⟨taken, split, second⟩ := regex.ways_accepts _ once (mem_of_head? found)
          obtain ⟨first, content, last, shape, -⟩ := bracketed.shape taken second
          rw [shape, cons_append] at split
          obtain ⟨rfl, rfl⟩ := List.cons.inj split
          rw [shape] at second
          have token : (symbol :: (content ++ [last] ++ once.rest)).take
              ((symbol :: (content ++ [last] ++ once.rest)).length - once.rest.length) =
              symbol :: (content ++ [last]) := by
            rw [← cons_append, length_append, Nat.add_sub_cancel, take_left]
          rw [token, length_cons, Nat.add_sub_cancel, take_left]
          exact (bracketed.opens_first second).2
        · exact ih _ _ _ (by simp) there

theorem mem_matchAll (bracketed : regex.Bracketed opens closes) {found : Found Symbol} :
    found ∈ regex.matchAll text ↔
      regex.Accepts found.token ∧ ∃ rest, text.drop found.start = found.token ++ rest := by
  constructor
  · intro member
    have located := (regex.matchAll_located text).token_of_mem member
    refine ⟨regex.scan_accepts 0 0 text found member, (text.drop found.start).drop found.token.length, ?_⟩
    conv_lhs => rw [← take_append_drop found.token.length (text.drop found.start)]
    rw [located]
  · rintro ⟨accepted, rest, there⟩
    have complete := bracketed.scan_complete 0 0 found.start text found.token rest (by simp) accepted there
    rwa [Nat.zero_add] at complete

end Bracketed

end Regex
