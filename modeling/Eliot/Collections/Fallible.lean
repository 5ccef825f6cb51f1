import Mathlib.Data.List.Forall2

namespace Fallible

open List
variable {Error : Type} {Value Next : Type}

theorem bind_ok {first : Except Error Value} {rest : Value → Except Error Next}
    {result : Next} (ran : (first >>= rest) = .ok result) :
    ∃ value, first = .ok value ∧ rest value = .ok result := by
  cases first with
  | error error => cases ran
  | ok value => exact ⟨value, rfl, ran⟩

theorem throw_bind {error : Error} {rest : Value → Except Error Next} :
    ((throw error : Except Error Value) >>= rest) = .error error := rfl

theorem map_ok {first : Except Error Value} {change : Value → Next} {result : Next}
    (ran : first.map change = .ok result) : ∃ value, first = .ok value ∧ change value = result := by
  cases first with
  | error error => cases ran
  | ok value => exact ⟨value, rfl, Except.ok.inj ran⟩

theorem guard_ok {Value : Type} {condition : Prop} [Decidable condition] {error : Error}
    {rest : Unit → Except Error Value} {result : Value}
    (ran : (if condition then throw error >>= rest else rest ()) = .ok result) :
    ¬condition ∧ rest () = .ok result := by
  by_cases met : condition
  · rw [if_pos met] at ran
    cases ran
  · rw [if_neg met] at ran
    exact ⟨met, ran⟩

theorem mapM_ok {change : Value → Except Error Next}
    {values : List Value} {results : List Next} :
    values.mapM change = .ok results ↔
      List.Forall₂ (fun value result => change value = .ok result) values results := by
  induction values generalizing results with
  | nil => simp [pure, Except.pure, eq_comm]
  | cons value values ih =>
    rw [mapM_cons]
    cases found : change value with
    | error error => simp [bind, Except.bind, forall₂_cons_left_iff, found]
    | ok result =>
      cases rest : values.mapM change with
      | error error =>
        simp only [bind, Except.bind, reduceCtorEq, forall₂_cons_left_iff, false_iff,
          not_exists, not_and]
        intro one others _ tail _
        exact absurd (ih.mpr tail) (by rw [rest]; simp)
      | ok others =>
        simp only [bind, Except.bind, pure, Except.pure, Except.ok.injEq,
          forall₂_cons_left_iff, found, exists_and_left]
        constructor
        · rintro rfl
          exact ⟨result, rfl, others, ih.mp rest, rfl⟩
        · rintro ⟨one, rfl, more, tail, rfl⟩
          rw [ih.mpr tail] at rest
          cases rest
          rfl

theorem foldlM_checked {State Value : Type} {step : State → Value → Except Error State}
    {check : Value → Except Error Unit} {next : State → Value → State}
    (steps : ∀ state value, step state value = check value >>= fun _ => .ok (next state value))
      {values : List Value}
    {state result : State} :
    values.foldlM step state = .ok result ↔ (∀ value ∈ values, check value = .ok ()) ∧
      values.foldl next state = result := by
  induction values generalizing state with
  | nil => simp [pure, Except.pure]
  | cons value values ih =>
    rw [foldlM_cons, steps, forall_mem_cons, foldl_cons]
    cases check value with
    | error error => simp [bind, Except.bind]
    | ok met =>
      simp only [bind, Except.bind, true_and]
      exact ih

theorem mapM_checked {change : Value → Except Error Next} {check : Value → Except Error Unit}
    {next : Value → Next} (changes : ∀ value, change value = check value >>= fun _ => .ok (next value))
    {values : List Value} {results : List Next} :
    values.mapM change = .ok results ↔ (∀ value ∈ values, check value = .ok ()) ∧ values.map next = results := by
  induction values generalizing results with
  | nil => simp [pure, Except.pure]
  | cons value values ih =>
    rw [mapM_cons, changes, forall_mem_cons, map_cons]
    cases check value with
    | error error => simp [bind, Except.bind]
    | ok met =>
      cases rest : values.mapM change with
      | error error =>
        have failed := (not_congr (@ih (values.map next))).mp (by rw [rest]; simp)
        simp only [and_true] at failed
        simp [bind, Except.bind, failed]
      | ok others =>
        obtain ⟨passed, mapped⟩ := ih.mp rest
        simp only [bind, Except.bind, pure, Except.pure, Except.ok.injEq, true_and, mapped]
        exact (and_iff_right passed).symm

theorem forM_ok {Value : Type} {check : Value → Except Error Unit} {values : List Value} :
    values.forM check = .ok () ↔ ∀ value ∈ values, check value = .ok () := by
  induction values with
  | nil => simp [pure, Except.pure]
  | cons value values ih =>
    have step : (value :: values).forM check = (check value >>= fun _ => values.forM check) := rfl
    rw [step, forall_mem_cons, ← ih]
    cases check value <;> simp [bind, Except.bind]

theorem error_iff {Value : Type} {computed : Except Error Value} :
    (∃ error, computed = .error error) ↔ ¬∃ value, computed = .ok value := by
  cases computed <;> simp

section
variable {Value Next : Type}

theorem bind_same {first second : Except Error Value} {rest others : Value → Except Error Next} (same : second = first)
    (agree : ∀ value, first = .ok value → others value = rest value) : (second >>= others) = (first >>= rest) := by
  rw [same]
  cases first with
  | error error => rfl
  | ok value => exact agree value rfl

theorem guard_same {condition : Prop} [Decidable condition] {error : Error} {rest others : Unit → Except Error Value}
    (agree : others () = rest ()) :
    (if condition then throw error >>= others else others ()) = (if condition then throw error >>= rest else rest ()) := by
  rw [agree]
  rfl

end

def Returns {Value : Type} (post : Value → Prop) : Except Error Value → Prop
  | .ok value => post value
  | .error _ => True

theorem returns_of {Value : Type} {post : Value → Prop} {computed : Except Error Value}
    (each : ∀ value, computed = .ok value → post value) : Returns post computed := by
  cases computed with
  | ok value => exact each value rfl
  | error error => trivial

end Fallible
