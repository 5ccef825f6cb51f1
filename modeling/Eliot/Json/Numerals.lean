import Eliot.Text.Encoding
import Mathlib.Data.Rat.Defs
import Mathlib.Algebra.Field.Rat
import Mathlib.Tactic.FieldSimp
import Mathlib.Tactic.Ring

namespace Json
open Text List

/-- A decimal fraction: its point stands behind the first `point` of its digits. -/
structure Decimal where
  negative : Bool
  digits : Nat
  point : Int

def Decimal.magnitude (fraction : Decimal) : ℚ :=
  fraction.digits * (10 : ℚ) ^ (fraction.point - (decimal fraction.digits).length)

def Decimal.value (fraction : Decimal) : ℚ :=
  if fraction.negative then -fraction.magnitude else fraction.magnitude

/-- The last four steps of `Number::toString`: digits, and where among them the point is. -/
def placed (digits : Text) (point : Int) : Text :=
  if digits.length ≤ point ∧ point ≤ 21 then digits ++ List.replicate (point - digits.length).toNat 48
  else if 0 < point ∧ point ≤ 21 then digits.take point.toNat ++ 46 :: digits.drop point.toNat
  else if -6 < point ∧ point ≤ 0 then 48 :: 46 :: (List.replicate (-point).toNat 48 ++ digits)
  else
    let exponent := 101 :: (if point - 1 < 0 then 45 else 43) :: decimal (point - 1).natAbs
    if digits.length = 1 then digits ++ exponent
    else digits.take 1 ++ 46 :: (digits.drop 1 ++ exponent)

/-- `Number::toString` of a number, from the shortest decimal fraction that is rounded to it. -/
def Decimal.text (fraction : Decimal) : Text :=
  if fraction.digits = 0 then [48]
  else if fraction.negative then 45 :: placed (decimal fraction.digits) fraction.point
  else placed (decimal fraction.digits) fraction.point

def readFraction : Text → Option (Text × Text)
  | 46 :: rest =>
    if rest.takeWhile isDigit = [] then none else some (rest.takeWhile isDigit, rest.dropWhile isDigit)
  | rest => some ([], rest)

def readDigits (digits : Text) : Option Nat :=
  if digits ≠ [] ∧ digits.all isDigit then some (number digits) else none

def readExponent : Text → Option Int
  | [] => some 0
  | mark :: rest =>
    if mark = 101 ∨ mark = 69 then
      match rest with
      | 45 :: digits => (readDigits digits).map fun (exponent : Nat) => -(exponent : Int)
      | 43 :: digits => (readDigits digits).map fun (exponent : Nat) => (exponent : Int)
      | digits => (readDigits digits).map fun (exponent : Nat) => (exponent : Int)
    else none

def readMagnitude (token : Text) : Option ℚ :=
  let whole := token.takeWhile isDigit
  if whole = [] ∨ (whole.head? = some 48 ∧ whole ≠ [48]) then none
  else
    match readFraction (token.dropWhile isDigit) with
    | none => none
    | some (fraction, rest) =>
      (readExponent rest).map fun exponent =>
        number (whole ++ fraction) * (10 : ℚ) ^ (exponent - (fraction.length : Int))

def readNumber : Text → Option ℚ
  | 45 :: token => (readMagnitude token).map fun magnitude => -magnitude
  | token => readMagnitude token

example : readNumber (prose "-12.50e-1" rfl) = some (-5 / 4) := by decide +kernel

structure Parts where
  whole : Text
  fraction : Text
  ending : Text
  exponent : Int
  wholeDigits : ∀ unit ∈ whole, isDigit unit = true
  fractionDigits : ∀ unit ∈ fraction, isDigit unit = true
  leads : whole = [48] ∨ ∃ unit digits, whole = unit :: digits ∧ unit ≠ 48
  ended : readExponent ending = some exponent
  apart : Apart ending
  pointless : ending.head? ≠ some 46

def Parts.text (parts : Parts) : Text :=
  parts.whole ++ ((if parts.fraction = [] then [] else 46 :: parts.fraction) ++ parts.ending)

theorem Parts.read (parts : Parts) : readMagnitude parts.text = some (number (parts.whole ++ parts.fraction) *
    (10 : ℚ) ^ (parts.exponent - (parts.fraction.length : Int))) := by
  have apart : Apart ((if parts.fraction = [] then [] else 46 :: parts.fraction) ++ parts.ending) := by
    intro unit first
    by_cases none : parts.fraction = []
    · rw [if_pos none, nil_append] at first
      exact parts.apart unit first
    · rw [if_neg none, cons_append, head?_cons] at first
      rw [← Option.some.inj first]
      rfl
  have fraction : readFraction ((if parts.fraction = [] then [] else 46 :: parts.fraction) ++ parts.ending) =
      some (parts.fraction, parts.ending) := by
    by_cases none : parts.fraction = []
    · rw [if_pos none, nil_append, none]
      have other := parts.pointless
      unfold readFraction
      split
      · rename_i rest same
        rw [same] at other
        exact absurd rfl other
      · rfl
    · have split := takeWhile_digits parts.fractionDigits parts.apart
      rw [if_neg none, cons_append, readFraction, split.1, split.2, if_neg none]
  have split := takeWhile_digits parts.wholeDigits apart
  have leads : ¬(parts.whole = [] ∨ parts.whole.head? = some 48 ∧ parts.whole ≠ [48]) := by
    rcases parts.leads with same | ⟨unit, digits, same, other⟩
    · simp [same]
    · simp [same, other]
  rw [readMagnitude, text, split.1, split.2, if_neg leads, fraction]
  dsimp only
  rw [parts.ended]
  rfl

section
variable {digits : Text} {point : Int}

theorem readDigits_decimal (value : Nat) : readDigits (decimal value) = some value := by
  rw [readDigits, if_pos ⟨decimal_ne_nil value, all_eq_true.mpr (decimal_digits value)⟩, number_decimal]

theorem readExponent_written (exponent : Int) :
    readExponent (101 :: (if exponent < 0 then 45 else 43) :: decimal exponent.natAbs) = some exponent := by
  by_cases negative : exponent < 0
  · rw [if_pos negative, readExponent, if_pos (.inl rfl), readDigits_decimal, Option.map_some]
    congr 1
    omega
  · rw [if_neg negative, readExponent, if_pos (.inl rfl), readDigits_decimal, Option.map_some]
    congr 1
    omega

theorem readNumber_unsigned {token : Text} {value : ℚ} (read : readMagnitude token = some value) :
    readNumber token = some value := by
  unfold readNumber
  split
  · rename_i rest
    have minus : readMagnitude (45 :: rest) = none := rfl
    rw [minus] at read
    cases read
  · exact read

theorem zeros_digits (count : Nat) : ∀ unit ∈ List.replicate count 48, isDigit unit = true := by
  intro unit member
  rw [eq_of_mem_replicate member]
  rfl

theorem apart_nil : Apart [] := by
  intro unit head
  cases head

variable (all : ∀ unit ∈ digits, isDigit unit = true) (leads : ∃ unit rest, digits = unit :: rest ∧ unit ≠ 48)
include all leads

theorem readMagnitude_whole (whole : digits.length ≤ point) :
    readMagnitude (digits ++ List.replicate (point - digits.length).toNat 48) =
      some (number digits * (10 : ℚ) ^ (point - digits.length)) := by
  obtain ⟨first, rest, same, other⟩ := leads
  let parts : Parts := {
    whole := digits ++ List.replicate (point - digits.length).toNat 48
    fraction := []
    ending := []
    exponent := 0
    wholeDigits := by
      intro unit member
      rcases mem_append.mp member with member | member
      · exact all unit member
      · exact zeros_digits _ unit member
    fractionDigits := by simp
    leads := .inr ⟨first, _, by rw [same, cons_append], other⟩
    ended := rfl
    apart := apart_nil
    pointless := by simp }
  have text : parts.text = digits ++ List.replicate (point - digits.length).toNat 48 := by
    rw [Parts.text, if_pos rfl]
    exact append_nil _
  have shift : ((point - digits.length).toNat : Int) = point - digits.length := by omega
  rw [← text, parts.read]
  show some (((number ((digits ++ List.replicate _ 48) ++ []) : Nat) : ℚ) * 10 ^ ((0 : Int) - 0)) = _
  rw [append_nil, number_append, number_zeros, length_replicate, Nat.add_zero, ← shift, zpow_natCast]
  simp

theorem readMagnitude_pointed (positive : 0 < point) (inside : point < digits.length) :
    readMagnitude (digits.take point.toNat ++ 46 :: digits.drop point.toNat) =
      some (number digits * (10 : ℚ) ^ (point - digits.length)) := by
  obtain ⟨first, rest, same, other⟩ := leads
  have cut : (digits.drop point.toNat).length = digits.length - point.toNat := length_drop
  have more : digits.drop point.toNat ≠ [] := by
    intro nothing
    rw [nothing, length_nil] at cut
    omega
  let parts : Parts := {
    whole := digits.take point.toNat
    fraction := digits.drop point.toNat
    ending := []
    exponent := 0
    wholeDigits := fun unit member => all unit (mem_of_mem_take member)
    fractionDigits := fun unit member => all unit (mem_of_mem_drop member)
    leads := by
      obtain ⟨count, shape⟩ : ∃ count, point.toNat = count + 1 := ⟨point.toNat - 1, by omega⟩
      exact .inr ⟨first, rest.take count, by rw [shape, same, take_succ_cons], other⟩
    ended := rfl
    apart := apart_nil
    pointless := by simp }
  have text : parts.text = digits.take point.toNat ++ 46 :: digits.drop point.toNat := by
    rw [Parts.text, if_neg more]
    exact congrArg _ (append_nil _)
  have shift : (0 : Int) - ((digits.drop point.toNat).length : Int) = point - digits.length := by omega
  rw [← text, parts.read]
  show some (((number (digits.take _ ++ digits.drop _) : Nat) : ℚ) * 10 ^ ((0 : Int) - _)) = _
  rw [take_append_drop, shift]

theorem readMagnitude_small (small : point ≤ 0) :
    readMagnitude (48 :: 46 :: (List.replicate (-point).toNat 48 ++ digits)) =
      some (number digits * (10 : ℚ) ^ (point - digits.length)) := by
  obtain ⟨first, rest, same, other⟩ := leads
  let parts : Parts := {
    whole := [48]
    fraction := List.replicate (-point).toNat 48 ++ digits
    ending := []
    exponent := 0
    wholeDigits := zeros_digits 1
    fractionDigits := by
      intro unit member
      rcases mem_append.mp member with member | member
      · exact zeros_digits _ unit member
      · exact all unit member
    leads := .inl rfl
    ended := rfl
    apart := apart_nil
    pointless := by simp }
  have text : parts.text = 48 :: 46 :: (List.replicate (-point).toNat 48 ++ digits) := by
    rw [Parts.text, if_neg (by simp [parts, same])]
    exact congrArg (48 :: 46 :: ·) (append_nil _)
  have shift : (0 : Int) - ((List.replicate (-point).toNat 48 ++ digits).length : Int) = point - digits.length := by
    rw [length_append, length_replicate]
    omega
  have value : number ([48] ++ (List.replicate (-point).toNat 48 ++ digits)) = number digits := by
    rw [← append_assoc, number_append, number_append, number_zeros]
    simp [number]
  rw [← text, parts.read]
  show some (((number ([48] ++ (List.replicate _ 48 ++ digits)) : Nat) : ℚ) * 10 ^ ((0 : Int) - _)) = _
  rw [value, shift]

theorem readMagnitude_scaled :
    readMagnitude
        (if digits.length = 1 then
          digits ++ 101 :: (if point - 1 < 0 then 45 else 43) :: decimal (point - 1).natAbs
        else digits.take 1 ++ 46 ::
          (digits.drop 1 ++ 101 :: (if point - 1 < 0 then 45 else 43) :: decimal (point - 1).natAbs)) =
      some (number digits * (10 : ℚ) ^ (point - digits.length)) := by
  obtain ⟨first, rest, same, other⟩ := leads
  have filled : 0 < digits.length := by simp [same]
  let parts : Parts := {
    whole := digits.take 1
    fraction := digits.drop 1
    ending := 101 :: (if point - 1 < 0 then 45 else 43) :: decimal (point - 1).natAbs
    exponent := point - 1
    wholeDigits := fun unit member => all unit (mem_of_mem_take member)
    fractionDigits := fun unit member => all unit (mem_of_mem_drop member)
    leads := .inr ⟨first, [], by rw [same]; rfl, other⟩
    ended := readExponent_written (point - 1)
    apart := by
      intro unit head
      rw [← Option.some.inj head]
      rfl
    pointless := by simp }
  have text : parts.text = if digits.length = 1 then
        digits ++ 101 :: (if point - 1 < 0 then 45 else 43) :: decimal (point - 1).natAbs
      else digits.take 1 ++ 46 ::
        (digits.drop 1 ++ 101 :: (if point - 1 < 0 then 45 else 43) :: decimal (point - 1).natAbs) := by
    have cut : digits.drop 1 = [] ↔ digits.length = 1 := by
      rw [drop_eq_nil_iff]
      omega
    by_cases one : digits.length = 1
    · rw [Parts.text, if_pos (cut.mpr one), if_pos one]
      show digits.take 1 ++ _ = _
      rw [take_of_length_le (Nat.le_of_eq one)]
      rfl
    · rw [Parts.text, if_neg (fun nothing => one (cut.mp nothing)), if_neg one]
      rfl
  have shift : point - 1 - ((digits.drop 1).length : Int) = point - digits.length := by
    rw [length_drop]
    omega
  rw [← text, parts.read]
  show some (((number (digits.take 1 ++ digits.drop 1) : Nat) : ℚ) * 10 ^ (point - 1 - _)) = _
  rw [take_append_drop, shift]

theorem readMagnitude_placed :
    readMagnitude (placed digits point) = some (number digits * (10 : ℚ) ^ (point - digits.length)) := by
  unfold placed
  by_cases whole : digits.length ≤ point ∧ point ≤ 21
  · rw [if_pos whole]
    exact readMagnitude_whole all leads whole.1
  · rw [if_neg whole]
    by_cases inside : 0 < point ∧ point ≤ 21
    · rw [if_pos inside]
      exact readMagnitude_pointed all leads inside.1 (by omega)
    · rw [if_neg inside]
      by_cases small : -6 < point ∧ point ≤ 0
      · rw [if_pos small]
        exact readMagnitude_small all leads small.2
      · rw [if_neg small]
        exact readMagnitude_scaled all leads

omit all leads in
theorem readNumber_text (fraction : Decimal) : readNumber fraction.text = some fraction.value := by
  by_cases zero : fraction.digits = 0
  · rw [Decimal.text, if_pos zero, Decimal.value, Decimal.magnitude, zero]
    have read : readNumber [48] = some 0 := by decide +kernel
    simp [read]
  · have digits := decimal_digits fraction.digits
    have leads : ∃ unit rest, decimal fraction.digits = unit :: rest ∧ unit ≠ 48 := by
      rcases decimal_head fraction.digits with ⟨none, -⟩ | ⟨unit, rest, same, large, -⟩
      · exact absurd none zero
      · exact ⟨unit, rest, same, by omega⟩
    have placing : readMagnitude (placed (decimal fraction.digits) fraction.point) = some (fraction.magnitude) := by
      rw [readMagnitude_placed digits leads, number_decimal]
      rfl
    rw [Decimal.text, if_neg zero, Decimal.value]
    by_cases negative : fraction.negative = true
    · rw [if_pos negative, if_pos negative, readNumber, placing]
      rfl
    · rw [if_neg negative, if_neg negative]
      exact readNumber_unsigned placing

end

end Json
