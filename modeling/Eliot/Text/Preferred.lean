import Eliot.Text.Matches

namespace Regex

open List
variable {Symbol : Type} {first second body : Regex Symbol} {input : List Symbol} {once more : Match Symbol}

/-! The preferred way of an expression, from the preferred ways of its parts. -/

theorem exec_seq (before : first.exec input = some once) (after : second.exec once.rest = some more) :
    (seq first second).exec input = some ⟨once.captures ++ more.captures, more.rest⟩ := by
  obtain ⟨others, left⟩ := head?_eq_some_iff.mp before
  obtain ⟨last, right⟩ := head?_eq_some_iff.mp after
  rw [exec, ways, left, flatMap_cons, right]
  rfl

theorem exec_suffix (found : body.exec input = some once) : once.rest <:+ input := by
  obtain ⟨taken, split, -⟩ := ways_accepts body input once (mem_of_head? found)
  exact ⟨taken, split.symm⟩

theorem exec_seq_none (missed : ∀ once ∈ first.ways input, second.exec once.rest = none) :
    (seq first second).exec input = none := by
  rw [exec, ways, head?_eq_none_iff, flatMap_eq_nil_iff]
  intro once member
  rw [head?_eq_none_iff.mp (missed once member), map_nil]

theorem exec_seq_left_none (missed : first.exec input = none) : (seq first second).exec input = none := by
  refine exec_seq_none fun once member => ?_
  rw [head?_eq_none_iff.mp missed] at member
  cases member

theorem exec_alt_left (chosen : first.exec input = some once) : (alt first second).exec input = some once := by
  obtain ⟨others, left⟩ := head?_eq_some_iff.mp chosen
  rw [exec, ways, left]
  rfl

theorem exec_alt_right (missed : first.exec input = none) :
    (alt first second).exec input = second.exec input := by
  rw [exec, ways, head?_eq_none_iff.mp missed, nil_append, exec]

theorem exec_one {test : Symbol → Bool} {symbol : Symbol} (passed : test symbol = true) :
    (one test).exec (symbol :: input) = some ⟨[], input⟩ := by
  rw [exec, ways, if_pos passed]
  rfl

theorem exec_one_none {test : Symbol → Bool} (missed : ∀ symbol, input.head? = some symbol → test symbol = false) :
    (one test).exec input = none := by
  cases input with
  | nil => rfl
  | cons symbol input =>
    rw [exec, ways, if_neg (by simp [missed symbol rfl])]
    rfl

theorem exec_unguarded (previous : Option Symbol) (input : List Symbol) :
    (unguarded body).exec previous input = body.exec input := by
  have whole : (fun once : Match Symbol => !once.rest.head?.any fun _ => false) = fun _ => true := by
    funext once
    cases once.rest.head? <;> rfl
  simp only [Guarded.exec, unguarded, exec]
  rw [whole]
  cases body.ways input <;> cases previous <;> rfl

theorem iterate_fuel (step : List Symbol → List (Match Symbol)) {fuel : Nat} {input : List Symbol}
    (enough : input.length ≤ fuel) : iterate step fuel input = iterate step input.length input := by
  induction fuel using Nat.strong_induction_on generalizing input with
  | _ fuel ih =>
  cases fuel with
  | zero => rw [Nat.le_zero.mp enough]
  | succ fuel =>
    cases input with
    | nil => simp [iterate]
    | cons symbol input =>
      rw [length_cons, iterate, iterate]
      congr 1
      apply flatMap_congr
      intro once member
      have shorter : once.rest.length < input.length + 1 := by simpa using (mem_filter.mp member).2
      have bound : input.length < fuel + 1 := Nat.lt_succ_of_le (Nat.le_of_succ_le_succ enough)
      rw [ih fuel (Nat.lt_succ_self _) (by omega), ← ih input.length bound (by omega)]

theorem exec_star_more (found : body.exec input = some once) (shorter : once.rest.length < input.length)
    (rest : (star body).exec once.rest = some more) :
    (star body).exec input = some ⟨once.captures ++ more.captures, more.rest⟩ := by
  obtain ⟨others, left⟩ := head?_eq_some_iff.mp found
  obtain ⟨last, right⟩ := head?_eq_some_iff.mp rest
  cases input with
  | nil => cases shorter
  | cons symbol input =>
    rw [length_cons] at shorter
    rw [ways] at right
    rw [exec, ways, length_cons, iterate, left, filter_cons_of_pos (by simpa using shorter),
      flatMap_cons, iterate_fuel body.ways (Nat.lt_succ_iff.mp shorter), right]
    rfl

theorem exec_star_stop (missed : body.exec input = none) : (star body).exec input = some ⟨[], input⟩ := by
  rw [exec, ways]
  cases input.length with
  | zero => rfl
  | succ fuel =>
    rw [iterate, head?_eq_none_iff.mp missed]
    rfl

theorem exec_star_exists (body : Regex Symbol) (input : List Symbol) :
    ∃ once, (star body).exec input = some once := by
  obtain ⟨once, member, -⟩ : ∃ once ∈ (star body).ways input, once.rest = input := iterate_complete
  exact ⟨_, head?_eq_some_head (ne_nil_of_mem member)⟩

theorem exec_star_one (test : Symbol → Bool) (input : List Symbol) :
    (star (one test)).exec input = some ⟨[], input.dropWhile test⟩ := by
  induction input with
  | nil => rfl
  | cons symbol input ih =>
    by_cases passed : test symbol = true
    · rw [dropWhile_cons_of_pos passed]
      exact exec_star_more (exec_one passed) (by simp) ih
    · rw [dropWhile_cons_of_neg passed]
      exact exec_star_stop (exec_one_none (by simpa using passed))

theorem exec_plus_one {test : Symbol → Bool} {symbol : Symbol} (passed : test symbol = true) :
    (one test).plus.exec (symbol :: input) = some ⟨[], input.dropWhile test⟩ :=
  exec_seq (exec_one passed) (exec_star_one test input)

theorem scan_length (previous other : Option Symbol) (position place skip : Nat) (input : List Symbol) :
    ((unguarded body).scan position skip previous input).length =
      ((unguarded body).scan place skip other input).length := by
  induction input generalizing position place skip previous other with
  | nil =>
    simp only [Guarded.scan, exec_unguarded]
    cases body.exec [] <;> rfl
  | cons symbol input ih =>
    cases skip with
    | succ skip =>
      rw [Guarded.scan, Guarded.scan]
      exact ih _ _ _ _ _
    | zero =>
      simp only [Guarded.scan, exec_unguarded]
      cases body.exec (symbol :: input) with
      | none => exact ih _ _ _ _ _
      | some once => exact congrArg (· + 1) (ih _ _ _ _ _)

def occurrences (body : Regex Symbol) (input : List Symbol) : Nat := ((unguarded body).matchAll input).length

theorem occurrences_pass {symbol : Symbol} (missed : body.exec (symbol :: input) = none) :
    body.occurrences (symbol :: input) = body.occurrences input := by
  rw [occurrences, Guarded.matchAll, Guarded.scan_pass (by rwa [exec_unguarded])]
  exact scan_length _ _ _ _ _ _

theorem occurrences_found (found : body.exec input = some once) (shorter : once.rest.length < input.length) :
    body.occurrences input = body.occurrences once.rest + 1 := by
  have found : (unguarded body).exec none input = some once := by rwa [exec_unguarded]
  obtain ⟨taken, -, -, scanned⟩ := Guarded.scan_found 0 found shorter
  rw [occurrences, Guarded.matchAll, scanned, length_cons]
  exact congrArg (· + 1) (scan_length _ _ _ _ _ _)

variable {Symbol : Type} {regex : Regex Symbol} {replacement : List Symbol → Option (List Symbol)}

def substitute (regex : Regex Symbol) (replacement : List Symbol → Option (List Symbol)) :
    Nat → List Symbol → Option (List Symbol)
  | _, [] =>
    match regex.exec [] with
    | some _ => replacement []
    | none => some []
  | skip + 1, _ :: input => regex.substitute replacement skip input
  | 0, symbol :: input =>
    match regex.exec (symbol :: input) with
    | some once =>
      match (symbol :: input).take ((symbol :: input).length - once.rest.length) with
      | [] =>
        (replacement []).bind fun placed =>
          (regex.substitute replacement 0 input).map fun rest => placed ++ symbol :: rest
      | first :: others =>
        (replacement (first :: others)).bind fun placed =>
          (regex.substitute replacement others.length input).map fun rest => placed ++ rest
    | none => (regex.substitute replacement 0 input).map fun rest => symbol :: rest

theorem substitute_pass {symbol : Symbol} {input : List Symbol} (missed : regex.exec (symbol :: input) = none) :
    regex.substitute replacement 0 (symbol :: input) =
      (regex.substitute replacement 0 input).map fun rest => symbol :: rest := by
  rw [substitute, missed]

theorem substitute_skip (passed rest : List Symbol) :
    regex.substitute replacement passed.length (passed ++ rest) = regex.substitute replacement 0 rest := by
  induction passed with
  | nil => rfl
  | cons symbol passed ih => exact ih

theorem substitute_found {symbol : Symbol} {token rest : List Symbol} {captures : List (List Symbol)}
    (found : regex.exec (symbol :: token ++ rest) = some ⟨captures, rest⟩) :
    regex.substitute replacement 0 (symbol :: token ++ rest) = (replacement (symbol :: token)).bind fun placed =>
      (regex.substitute replacement 0 rest).map fun rest => placed ++ rest := by
  have length : (symbol :: token ++ rest).length - rest.length = (symbol :: token).length := by
    rw [length_append, Nat.add_sub_cancel]
  have taken : (symbol :: token ++ rest).take ((symbol :: token ++ rest).length - rest.length) = symbol :: token := by
    rw [length, take_left]
  rw [cons_append] at found taken ⊢
  rw [substitute, found]
  dsimp only
  rw [taken]
  dsimp only
  rw [substitute_skip]

end Regex
