import Eliot.Text.Encoding
import Eliot.Text.Utf8

namespace Text

open List

def scalar : Text → Char
  | [high, low] => Char.ofNat (0x10000 + (high - 0xd800) * 0x400 + (low - 0xdc00))
  | [unit] =>
    if unit < 0xd800 ∨ (0xdfff < unit ∧ unit < 0x10000) then Char.ofNat unit else Char.ofNat 0xfffd
  | _ => Char.ofNat 0xfffd

def scalars (text : Text) : List Char := (codePoints text).map scalar

def encode (text : Text) : Bytes := Utf8.encode (scalars text)

def units (char : Char) : Text :=
  let code := char.toNat
  if code < 0x10000 then [code]
  else [0xd800 + (code - 0x10000) / 0x400, 0xdc00 + (code - 0x10000) % 0x400]

def decode (bytes : Bytes) : Text := ((Utf8.decode bytes).getD []).flatMap units

def Whole (first second : Text) : Prop := ¬(first.getLast?.any isHigh ∧ second.head?.any isLow)

theorem Whole.front {first second third : Text} (whole : Whole first (second ++ third)) : Whole first second := by
  cases second with
  | nil => simp [Whole]
  | cons unit second => exact whole

theorem Whole.back {first second third : Text} (whole : Whole (first ++ second) third) : Whole second third := by
  cases second using List.reverseRecOn with
  | nil => simp [Whole]
  | append_singleton second unit =>
    rw [Whole, ← append_assoc, getLast?_concat] at whole
    rwa [Whole, getLast?_concat]

theorem scalars_append {first second : Text} (whole : Whole first second) :
    scalars (first ++ second) = scalars first ++ scalars second := by
  rw [scalars, codePoints_append first second whole, map_append]
  rfl

theorem encode_append {first second : Text} (whole : Whole first second) :
    encode (first ++ second) = encode first ++ encode second := by
  rw [encode, scalars_append whole, Utf8.encode_append]
  rfl

theorem codePoints_cons {unit : Nat} (single : isHigh unit = false) (rest : Text) :
    codePoints (unit :: rest) = [unit] :: codePoints rest := by
  cases rest with
  | nil => rfl
  | cons next rest =>
    rw [codePoints, if_neg]
    simp only [isHigh] at single
    simp [single]

theorem isSpace_of_trim {text : Text} (nothing : trim text = []) : ∀ unit ∈ text, isSpace unit = true := by
  have left := rdropWhile_eq_nil_iff.mp nothing
  cases rest : text.dropWhile isSpace with
  | nil => exact dropWhile_eq_nil_iff.mp rest
  | cons unit others =>
    have stopped := head?_dropWhile_not isSpace text
    rw [rest] at stopped left
    have space := left unit mem_cons_self
    simp [space] at stopped

theorem scalars_spaces {text : Text} (spaces : ∀ unit ∈ text, isSpace unit = true) :
    ∀ char ∈ scalars text, isSpace char.toNat = true := by
  induction text with
  | nil => simp [scalars, codePoints]
  | cons unit rest ih =>
    have space := spaces unit mem_cons_self
    have low : unit < 0xd800 ∨ 0xdfff < unit ∧ unit < 0x10000 := by
      simp only [isSpace, Bool.or_eq_true, Bool.and_eq_true, decide_eq_true_eq, beq_iff_eq] at space
      omega
    have single : isHigh unit = false := by
      simp only [isHigh, Bool.and_eq_false_iff, decide_eq_false_iff_not]
      omega
    have valid : unit.isValidChar := by
      unfold Nat.isValidChar
      omega
    intro char member
    rw [scalars, codePoints_cons single, map_cons] at member
    rcases mem_cons.mp member with rfl | member
    · rwa [scalar, if_pos low, Utf8.toNat_ofNat valid]
    · exact ih (fun unit there => spaces unit (mem_cons_of_mem _ there)) char member

theorem codePoints_units (char : Char) (rest : Text) :
    codePoints (units char ++ rest) = units char :: codePoints rest := by
  have valid := Utf8.toNat_valid char
  unfold units
  generalize char.toNat = code at *
  dsimp only
  split
  · refine codePoints_cons ?_ rest
    simp only [isHigh, Bool.and_eq_false_iff, decide_eq_false_iff_not]
    omega
  · rw [cons_append, singleton_append, codePoints, if_pos]
    simp only [Bool.and_eq_true, decide_eq_true_eq]
    omega

theorem scalar_units (char : Char) : scalar (units char) = char := by
  have valid := Utf8.toNat_valid char
  have back := Char.ofNat_toNat char
  unfold units
  generalize char.toNat = code at *
  dsimp only
  split
  · rw [scalar, if_pos (by omega), back]
  · have same : 0x10000 + (0xd800 + (code - 0x10000) / 0x400 - 0xd800) * 0x400 +
        (0xdc00 + (code - 0x10000) % 0x400 - 0xdc00) = code := by omega
    rw [scalar, same, back]

theorem scalars_units (chars : List Char) : scalars (chars.flatMap units) = chars := by
  induction chars with
  | nil => rfl
  | cons char chars ih =>
    rw [flatMap_cons, scalars, codePoints_units, map_cons, scalar_units]
    exact congrArg (char :: ·) ih

section
def Ascii (text : Text) : Prop := ∀ unit ∈ text, unit < 128

variable {plain : Text}

theorem Ascii.append {first second : Text} (ascii : Ascii first) (others : Ascii second) : Ascii (first ++ second) := by
  intro unit member
  rcases mem_append.mp member with member | member
  · exact ascii unit member
  · exact others unit member

theorem ascii_decimal (value : Nat) : Ascii (decimal value) := by
  intro unit member
  unfold decimal at member
  split at member
  · rw [mem_singleton.mp member]
    decide
  · rw [mem_reverse, mem_map] at member
    obtain ⟨digit, listed, rfl⟩ := member
    have small : digit < 10 := Nat.digits_lt_base (by decide) listed
    omega

theorem decimal_length_mono {value other : Nat} (order : value ≤ other) :
    (decimal value).length ≤ (decimal other).length := by
  have digits := Nat.le_length_digits_le 10 value other order
  unfold decimal
  by_cases zero : value = 0
  · have filled : other = 0 ∨ 0 < (Nat.digits 10 other).length := by
      by_cases none : other = 0
      · exact .inl none
      · exact .inr (length_pos_of_ne_nil (Nat.digits_ne_nil_iff_ne_zero.mpr none))
    rw [if_pos zero]
    split
    · exact Nat.le_refl _
    · rw [length_reverse, length_map]
      show 1 ≤ _
      omega
  · rw [if_neg zero, if_neg (by omega), length_reverse, length_reverse, length_map, length_map]
    exact digits

theorem size_ascii_cons {unit : Nat} (small : unit < 128) (rest : Text) :
    (encode (unit :: rest)).length = (encode rest).length + 1 := by
  have single : isHigh unit = false := by
    unfold isHigh
    simp
    omega
  have scalar' : scalar [unit] = Char.ofNat unit := if_pos (.inl (by omega))
  have byte : (Utf8.encodeChar (Char.ofNat unit)).length = 1 := by
    have value : (Char.ofNat unit).toNat = unit := by
      exact Utf8.toNat_ofNat (.inl (by omega))
    unfold Utf8.encodeChar
    rw [value]
    simp [small]
  rw [encode, encode, scalars, codePoints_cons single, map_cons, scalar', Utf8.encode, flatMap_cons,
    length_append, byte, Nat.add_comm]
  rfl

theorem size_ascii_append (ascii : Ascii plain) (rest : Text) :
    (encode (plain ++ rest)).length = plain.length + (encode rest).length := by
  induction plain with
  | nil => simp
  | cons unit plain ih =>
    have later : Ascii plain := fun other member => ascii other (mem_cons_of_mem _ member)
    rw [cons_append, size_ascii_cons (ascii unit mem_cons_self), ih later, length_cons]
    omega

theorem utf8Bytes_ascii {plain : Text} (ascii : Ascii plain) : utf8Bytes plain = plain.length := by
  induction plain with
  | nil => rfl
  | cons unit plain ih =>
    have small := ascii unit mem_cons_self
    have later : Ascii plain := fun other member => ascii other (mem_cons_of_mem _ member)
    have single : isHigh unit = false := by
      unfold isHigh
      simp
      omega
    have byte : utf8PointBytes [unit] = 1 := if_pos small
    have rest : ((codePoints plain).map utf8PointBytes).sum = plain.length := ih later
    rw [utf8Bytes, codePoints_cons single, map_cons, sum_cons, byte, rest, length_cons, Nat.add_comm]

end

end Text
