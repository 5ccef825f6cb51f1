import Mathlib.Data.List.Basic
import Mathlib.Data.List.Infix

namespace Occurrences

open List
variable {Symbol : Type} [DecidableEq Symbol] {wanted text rest : List Symbol} {first : Symbol} {places : List Nat}

def find (wanted : List Symbol) : List Symbol → Option Nat
  | [] => if wanted = [] then some 0 else none
  | first :: rest => if wanted <+: first :: rest then some 0 else (find wanted rest).map (· + 1)

def countFrom (wanted : List Symbol) : Nat → List Symbol → Nat
  | _, [] => 0
  | skip + 1, _ :: rest => countFrom wanted skip rest
  | 0, first :: rest =>
    if wanted <+: first :: rest then countFrom wanted (wanted.length - 1) rest + 1 else countFrom wanted 0 rest

def count (wanted text : List Symbol) : Nat := countFrom wanted 0 text

theorem find_some {place : Nat} (found : find wanted text = some place) :
    wanted <+: text.drop place ∧ place + wanted.length ≤ text.length := by
  induction text generalizing place with
  | nil =>
    unfold find at found
    split at found
    · rename_i empty
      rw [← Option.some.inj found, empty]
      exact ⟨ nil_prefix, Nat.le_refl _⟩
    · cases found
  | cons first rest ih =>
    unfold find at found
    split at found
    · rename_i here
      rw [← Option.some.inj found, drop_zero, Nat.zero_add]
      exact ⟨here, here.length_le⟩
    · obtain ⟨later, there, rfl⟩ := Option.map_eq_some_iff.mp found
      obtain ⟨occurs, inside⟩ := ih there
      rw [drop_succ_cons, length_cons]
      exact ⟨occurs, by omega⟩

theorem find_none : find wanted text = none ↔ ¬wanted <:+: text := by
  induction text with
  | nil =>
    rw [infix_nil]
    unfold find
    split <;> simp_all
  | cons first rest ih =>
    rw [infix_cons_iff, not_or, ← ih]
    by_cases here : wanted <+: first :: rest
    · simp [find, here]
    · rw [find, if_neg here, Option.map_eq_none_iff]
      exact (and_iff_right here).symm

theorem countFrom_drop (skip : Nat) (text : List Symbol) : countFrom wanted skip text = count wanted (text.drop skip) := by
  induction text generalizing skip with
  | nil => simp [countFrom, count]
  | cons first rest ih =>
    cases skip with
    | zero => rfl
    | succ skip => exact ih skip

theorem count_cons : count wanted (first :: rest) =
    if wanted <+: first :: rest then count wanted (rest.drop (wanted.length - 1)) + 1 else count wanted rest := by
  rw [← countFrom_drop]
  rfl

theorem count_find (filled : wanted ≠ []) : count wanted text =
    match find wanted text with
    | none => 0
    | some place => count wanted (text.drop (place + wanted.length)) + 1 := by
  induction text with
  | nil =>
    rw [find, if_neg filled]
    rfl
  | cons first rest ih =>
    rw [count_cons, find]
    split
    · have length : 0 + wanted.length = wanted.length - 1 + 1 := by
        have long := length_pos_iff.mpr filled
        omega
      dsimp only
      rw [length, drop_succ_cons]
    · rw [ih]
      cases find wanted rest with
      | none => rfl
      | some place =>
        have length : place + 1 + wanted.length = place + wanted.length + 1 := by omega
        rw [Option.map_some]
        simp only [length, drop_succ_cons]

theorem count_pos (filled : wanted ≠ []) : 0 < count wanted text ↔ wanted <:+: text := by
  rw [count_find filled]
  cases found : find wanted text with
  | none => simp [find_none.mp found]
  | some place =>
    have occurs : ¬find wanted text = none := by simp [found]
    simpa using (not_congr find_none).mp occurs

end Occurrences
