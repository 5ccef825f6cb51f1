import Eliot.Text.Regex
import Mathlib.Data.Nat.Digits.Defs
import Mathlib.Data.Nat.Digits.Lemmas
import Mathlib.Data.List.DropRight

abbrev Text := List Nat

instance : LawfulBEq Text := List.instLawfulBEq

def text (literal : String) : Text := literal.toList.map Char.toNat

namespace Text

open List

def colon : Nat := 58

def isSpace (unit : Nat) : Bool :=
  (9 ≤ unit && unit ≤ 13) || unit == 0x20 || unit == 0xa0 || unit == 0x1680 ||
    (0x2000 ≤ unit && unit ≤ 0x200a) || unit == 0x2028 || unit == 0x2029 || unit == 0x202f ||
    unit == 0x205f || unit == 0x3000 || unit == 0xfeff

def isDigit (unit : Nat) : Bool := 48 ≤ unit && unit ≤ 57

def isHexDigit (unit : Nat) : Bool :=
  isDigit unit || (97 ≤ unit && unit ≤ 102) || (65 ≤ unit && unit ≤ 70)

def trim (text : Text) : Text := (text.dropWhile isSpace).rdropWhile isSpace

/-- The units from `start` up to `stop`. -/
def slice (text : Text) (start stop : Nat) : Text := (text.drop start).take (stop - start)

def inner (token : Text) : Text := slice token 1 (token.length - 1)

def splitLast (text : Text) : Option (Text × Text) :=
  match text.reverse.dropWhile (· != colon) with
  | [] => none
  | _ :: head => some (head.reverse, (text.reverse.takeWhile (· != colon)).reverse)

def number (digits : Text) : Nat := Nat.ofDigits 10 (digits.reverse.map (· - 48))

def decimal (value : Nat) : Text :=
  if value = 0 then [48] else ((Nat.digits 10 value).map (· + 48)).reverse

def maxSafeInteger : Nat := 2 ^ 53 - 1

def codePoints : Text → List Text
  | high :: low :: rest =>
    if (0xd800 ≤ high && high ≤ 0xdbff) && (0xdc00 ≤ low && low ≤ 0xdfff) then
      [high, low] :: codePoints rest
    else [high] :: codePoints (low :: rest)
  | rest => rest.map ([·])

theorem number_decimal (value : Nat) : number (decimal value) = value := by
  unfold number decimal
  split
  · rename_i zero
    simp [zero]
  · have back : (fun unit : Nat => unit - 48) ∘ (fun digit => digit + 48) = id := by
      funext digit
      simp
    rw [reverse_reverse, map_map, back, map_id, Nat.ofDigits_digits]

theorem colon_not_mem_decimal (value : Nat) : colon ∉ decimal value := by
  unfold decimal
  split
  · decide
  · intro member
    simp only [mem_reverse, mem_map] at member
    obtain ⟨digit, present, same⟩ := member
    have small := Nat.digits_lt_base (by decide : 1 < 10) present
    simp only [colon] at same
    omega

theorem splitLast_append (head tail : Text) (plain : colon ∉ tail) :
    splitLast (head ++ colon :: tail) = some (head, tail) := by
  have other : ∀ unit ∈ tail.reverse, (unit != colon) = true := by
    intro unit member
    simp only [bne_iff_ne, ne_eq]
    rintro rfl
    exact plain (mem_reverse.mp member)
  have shape : (head ++ colon :: tail).reverse = tail.reverse ++ colon :: head.reverse := by simp
  unfold splitLast
  rw [shape, dropWhile_append_of_pos other, takeWhile_append_of_pos other]
  simp

theorem splitLast_some {text head tail : Text} (h : splitLast text = some (head, tail)) :
    text = head ++ colon :: tail ∧ colon ∉ tail := by
  unfold splitLast at h
  split at h
  · cases h
  · rename_i unit front found
    cases h
    have whole := takeWhile_append_dropWhile (p := (· != colon)) (l := text.reverse)
    have stopped := head_dropWhile_not (· != colon) (l := text.reverse) (by simp [found])
    simp only [found, head_cons, bne_eq_false_iff_eq] at stopped
    refine ⟨?_, ?_⟩
    · have back := congrArg List.reverse whole
      rw [found, stopped] at back
      simpa using back.symm
    · intro member
      simpa using mem_takeWhile_imp (mem_reverse.mp member)

/-- `/^[a-f0-9]{64}$/` -/
def isSha256 (value : Text) : Bool :=
  value.length = 64 && value.all fun unit => (97 ≤ unit && unit ≤ 102) || isDigit unit

/-- `Number.isSafeInteger` of an integer -/
def isSafeInteger (value : Int) : Bool := value.natAbs ≤ maxSafeInteger

def integer (value : Int) : Text :=
  if value < 0 then 45 :: decimal value.natAbs else decimal value.natAbs

theorem decimal_digits (value : Nat) : ∀ unit ∈ decimal value, isDigit unit = true := by
  intro unit member
  unfold decimal at member
  split at member
  · rw [mem_singleton.mp member]
    decide
  · simp only [mem_reverse, mem_map] at member
    obtain ⟨digit, present, rfl⟩ := member
    have small := Nat.digits_lt_base (by decide : 1 < 10) present
    simp only [isDigit, Bool.and_eq_true, decide_eq_true_eq]
    omega

theorem decimal_head (value : Nat) :
    (value = 0 ∧ decimal value = [48]) ∨
      ∃ unit digits, decimal value = unit :: digits ∧ 49 ≤ unit ∧ unit ≤ 57 := by
  by_cases zero : value = 0
  · exact .inl ⟨zero, by rw [decimal, if_pos zero]⟩
  · have nonempty : Nat.digits 10 value ≠ [] := Nat.digits_ne_nil_iff_ne_zero.mpr zero
    have last := Nat.getLast_digit_ne_zero 10 zero
    have small := Nat.digits_lt_base (by decide : 1 < 10) (getLast_mem nonempty)
    refine .inr ⟨(Nat.digits 10 value).getLast nonempty + 48,
      (((Nat.digits 10 value).dropLast).map (· + 48)).reverse, ?_, by omega, by omega⟩
    rw [decimal, if_neg zero]
    conv => lhs; rw [← dropLast_append_getLast nonempty]
    simp

theorem decimal_ne_nil (value : Nat) : decimal value ≠ [] := by
  rcases decimal_head value with ⟨_, same⟩ | ⟨unit, digits, same, _⟩ <;> simp [same]

theorem number_append (first second : Text) :
    number (first ++ second) = number first * 10 ^ second.length + number second := by
  rw [number, reverse_append, map_append, Nat.ofDigits_append, length_map, length_reverse,
    Nat.mul_comm, Nat.add_comm]
  rfl

theorem number_zeros (count : Nat) : number (List.replicate count 48) = 0 := by
  induction count with
  | zero => rfl
  | succ count ih =>
    rw [replicate_succ', number_append, ih]
    rfl

def Apart (rest : Text) : Prop := ∀ unit, rest.head? = some unit → isDigit unit = false

theorem takeWhile_digits {digits rest : Text} (all : ∀ unit ∈ digits, isDigit unit = true) (apart : Apart rest) :
    (digits ++ rest).takeWhile isDigit = digits ∧ (digits ++ rest).dropWhile isDigit = rest := by
  rw [takeWhile_append_of_pos all, dropWhile_append_of_pos all]
  cases rest with
  | nil => simp
  | cons unit rest =>
    have stopped : ¬ isDigit unit = true := by simp [apart unit rfl]
    rw [takeWhile_cons_of_neg stopped, dropWhile_cons_of_neg stopped, append_nil]
    exact ⟨rfl, rfl⟩

end Text
