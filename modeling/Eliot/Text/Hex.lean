import Eliot.Text.Utf8
import Mathlib.Algebra.GroupWithZero.Nat

namespace Hex
variable {ten : Nat}

/-- The digit of a nibble, where the letter of ten is `ten`. -/
def digit (ten nibble : Nat) : Nat := if nibble ≤ 9 then 48 + nibble else ten + (nibble - 10)

def value (ten digit : Nat) : Option Nat :=
  if 48 ≤ digit ∧ digit ≤ 57 then some (digit - 48)
  else if ten ≤ digit ∧ digit ≤ ten + 5 then some (digit - ten + 10)
  else none

def pair (ten byte : Nat) : Bytes := [digit ten (byte / 16), digit ten (byte % 16)]

def encode (ten : Nat) (bytes : Bytes) : Bytes := bytes.flatMap (pair ten)

def decode (ten : Nat) : Bytes → Option Bytes
  | [] => some []
  | [_] => none
  | high :: low :: rest => do
    let high ← value ten high
    let low ← value ten low
    let bytes ← decode ten rest
    return (high * 16 + low) :: bytes

theorem digit_cases (ten : Nat) {nibble : Nat} (small : nibble < 16) :
    (48 ≤ digit ten nibble ∧ digit ten nibble ≤ 57) ∨ (ten ≤ digit ten nibble ∧ digit ten nibble ≤ ten + 5) := by
  unfold digit
  split <;> omega

theorem value_digit (letters : 58 ≤ ten) {nibble : Nat} (small : nibble < 16) :
    value ten (digit ten nibble) = some nibble := by
  unfold digit value
  by_cases low : nibble ≤ 9
  · rw [if_pos low, if_pos (by omega)]
    congr 1
    omega
  · rw [if_neg low, if_neg (by omega), if_pos (by omega)]
    congr 1
    omega

theorem encode_length (ten : Nat) (bytes : Bytes) : (encode ten bytes).length = 2 * bytes.length := by
  induction bytes with
  | nil => rfl
  | cons byte bytes ih =>
    have split : encode ten (byte :: bytes) = pair ten byte ++ encode ten bytes := rfl
    have two : (pair ten byte).length = 2 := rfl
    rw [split, List.length_append, ih, List.length_cons, two]
    omega

theorem pair_digits (ten : Nat) {byte : Nat} (small : byte < 256) : ∀ written ∈ pair ten byte,
    (48 ≤ written ∧ written ≤ 57) ∨ (ten ≤ written ∧ written ≤ ten + 5) := by
  intro written listed
  rcases List.mem_pair.mp listed with rfl | rfl
  · exact digit_cases ten (by omega)
  · exact digit_cases ten (by omega)

theorem encode_digits (ten : Nat) {bytes : Bytes} (small : ∀ byte ∈ bytes, byte < 256) : ∀ written ∈ encode ten bytes,
    (48 ≤ written ∧ written ≤ 57) ∨ (ten ≤ written ∧ written ≤ ten + 5) := by
  intro written listed
  obtain ⟨byte, member, here⟩ := List.mem_flatMap.mp listed
  exact pair_digits ten (small byte member) written here

theorem decode_pair (letters : 58 ≤ ten) {byte : Nat} (small : byte < 256) (rest : Bytes) :
    decode ten (pair ten byte ++ rest) = (decode ten rest).map (byte :: ·) := by
  have high := value_digit letters (show byte / 16 < 16 by omega)
  have low := value_digit letters (show byte % 16 < 16 by omega)
  have whole : byte / 16 * 16 + byte % 16 = byte := by omega
  show decode ten (digit ten (byte / 16) :: digit ten (byte % 16) :: rest) = _
  rw [decode, high, low]
  cases decode ten rest with
  | none => rfl
  | some bytes => exact congrArg (fun first => some (first :: bytes)) whole

theorem decode_encode (letters : 58 ≤ ten) {bytes : Bytes} (small : ∀ byte ∈ bytes, byte < 256) :
    decode ten (encode ten bytes) = some bytes := by
  induction bytes with
  | nil => rfl
  | cons byte bytes ih =>
    obtain ⟨first, others⟩ := List.forall_mem_cons.mp small
    have split : encode ten (byte :: bytes) = pair ten byte ++ encode ten bytes := rfl
    rw [split, decode_pair letters first, ih others]
    rfl

theorem encode_injective (letters : 58 ≤ ten) {bytes others : Bytes} (small : ∀ byte ∈ bytes, byte < 256)
    (too : ∀ byte ∈ others, byte < 256) (same : encode ten bytes = encode ten others) : bytes = others := by
  have back := decode_encode letters small
  rw [same, decode_encode letters too] at back
  exact (Option.some.inj back).symm

end Hex

namespace Percent
variable {keeps : Nat → Bool}

/-- A byte as it is, or as `%` and its two digits. -/
def encodeByte (keeps : Nat → Bool) (byte : Nat) : Bytes :=
  if keeps byte then [byte] else 37 :: Hex.pair 65 byte

def encode (keeps : Nat → Bool) (bytes : Bytes) : Bytes := bytes.flatMap (encodeByte keeps)

def decode : Bytes → Option Bytes
  | 37 :: high :: low :: rest => do
    let high ← Hex.value 65 high
    let low ← Hex.value 65 low
    let bytes ← decode rest
    return (high * 16 + low) :: bytes
  | byte :: rest => if byte = 37 then none else (decode rest).map (byte :: ·)
  | [] => some []

theorem encode_cons (byte : Nat) (bytes : Bytes) :
    encode keeps (byte :: bytes) = encodeByte keeps byte ++ encode keeps bytes := rfl

theorem encodeByte_length (byte : Nat) : (encodeByte keeps byte).length = if keeps byte then 1 else 3 := by
  unfold encodeByte
  split <;> rfl

theorem encode_length (bytes : Bytes) :
    (encode keeps bytes).length = (bytes.map fun byte => if keeps byte then 1 else 3).sum := by
  induction bytes with
  | nil => rfl
  | cons byte bytes ih => rw [encode_cons, List.length_append, encodeByte_length, ih, List.map_cons, List.sum_cons]

theorem encode_length_le (bytes : Bytes) : (encode keeps bytes).length ≤ 3 * bytes.length := by
  induction bytes with
  | nil => exact Nat.le_refl 0
  | cons byte bytes ih =>
    have here : (encodeByte keeps byte).length ≤ 3 := by
      rw [encodeByte_length]
      split <;> omega
    rw [encode_cons, List.length_append, List.length_cons]
    omega

theorem decode_encodeByte (escapes : keeps 37 = false) {byte : Nat} (small : byte < 256) (rest : Bytes) :
    decode (encodeByte keeps byte ++ rest) = (decode rest).map (byte :: ·) := by
  unfold encodeByte
  by_cases kept : keeps byte = true
  · have plain : byte ≠ 37 := fun same => by
      rw [same, escapes] at kept
      cases kept
    rw [if_pos kept]
    show decode (byte :: rest) = _
    rw [decode.eq_def]
    split
    · rename_i same
      exact absurd (List.cons.inj same).1 plain
    · rename_i same
      obtain ⟨rfl, rfl⟩ := List.cons.inj same
      rw [if_neg plain]
    · rename_i same
      cases same
  · have high := Hex.value_digit (show 58 ≤ 65 by decide) (show byte / 16 < 16 by omega)
    have low := Hex.value_digit (show 58 ≤ 65 by decide) (show byte % 16 < 16 by omega)
    have whole : byte / 16 * 16 + byte % 16 = byte := by omega
    rw [if_neg kept]
    show decode (37 :: Hex.digit 65 (byte / 16) :: Hex.digit 65 (byte % 16) :: rest) = _
    rw [decode, high, low]
    cases decode rest with
    | none => rfl
    | some bytes => exact congrArg (fun first => some (first :: bytes)) whole

theorem decode_encode (escapes : keeps 37 = false) {bytes : Bytes} (small : ∀ byte ∈ bytes, byte < 256) :
    decode (encode keeps bytes) = some bytes := by
  induction bytes with
  | nil => rfl
  | cons byte bytes ih =>
    obtain ⟨first, others⟩ := List.forall_mem_cons.mp small
    rw [encode_cons, decode_encodeByte escapes first, ih others]
    rfl

theorem encode_avoids {mark : Nat} (escaped : keeps mark = false) (low : mark < 48) (plain : mark ≠ 37) {bytes : Bytes}
    (small : ∀ byte ∈ bytes, byte < 256) : mark ∉ encode keeps bytes := by
  intro there
  obtain ⟨byte, listed, here⟩ := List.mem_flatMap.mp there
  unfold encodeByte at here
  by_cases kept : keeps byte = true
  · rw [if_pos kept] at here
    rw [List.mem_singleton.mp here, kept] at escaped
    cases escaped
  · rw [if_neg kept] at here
    rcases List.mem_cons.mp here with same | digit
    · exact plain same
    · have bounds := Hex.pair_digits 65 (small byte listed) mark digit
      omega

end Percent
