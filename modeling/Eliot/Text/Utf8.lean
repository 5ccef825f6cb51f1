import Mathlib.Data.List.Basic

abbrev Bytes := List Nat

namespace Utf8

open List

def encodeChar (char : Char) : Bytes :=
  let code := char.toNat
  if code < 0x80 then [code]
  else if code < 0x800 then [0xc0 + code / 64, 0x80 + code % 64]
  else if code < 0x10000 then [0xe0 + code / 4096, 0x80 + code / 64 % 64, 0x80 + code % 64]
  else
    [0xf0 + code / 262144, 0x80 + code / 4096 % 64, 0x80 + code / 64 % 64, 0x80 + code % 64]

def encode (chars : List Char) : Bytes := chars.flatMap encodeChar

def scalar (code : Nat) : Option Char := if code.isValidChar then some (Char.ofNat code) else none

/-- Decodes bytes while a character still owes some of its own, of which `code` is known, and
    must not be written shorter than `least` allows. -/
def decodeFrom : (owed code least : Nat) → Bytes → Option (List Char)
  | 0, _, _, [] => some []
  | _ + 1, _, _, [] => none
  | 0, _, _, byte :: rest =>
    if byte < 0x80 then (decodeFrom 0 0 0 rest).map (Char.ofNat byte :: ·)
    else if 0xc2 ≤ byte ∧ byte ≤ 0xdf then decodeFrom 1 (byte - 0xc0) 0x80 rest
    else if 0xe0 ≤ byte ∧ byte ≤ 0xef then decodeFrom 2 (byte - 0xe0) 0x800 rest
    else if 0xf0 ≤ byte ∧ byte ≤ 0xf4 then decodeFrom 3 (byte - 0xf0) 0x10000 rest
    else none
  | owed + 1, code, least, byte :: rest =>
    if 0x80 ≤ byte ∧ byte ≤ 0xbf then
      let code := code * 64 + (byte - 0x80)
      if owed = 0 then
        if least ≤ code then
          (scalar code).bind fun char => (decodeFrom 0 0 0 rest).map (char :: ·)
        else none
      else decodeFrom owed code least rest
    else none

def decode (bytes : Bytes) : Option (List Char) := decodeFrom 0 0 0 bytes

def validUpTo (bytes : Bytes) : Nat :=
  ((List.range (bytes.length + 1)).reverse.find? fun length =>
    (decode (bytes.take length)).isSome).getD 0

theorem toNat_valid (char : Char) :
    char.toNat < 0xd800 ∨ (0xdfff < char.toNat ∧ char.toNat < 0x110000) := char.valid

theorem scalar_toNat (char : Char) : scalar char.toNat = some char := by
  have valid : char.toNat.isValidChar := char.valid
  rw [scalar, if_pos valid, Char.ofNat_toNat]

theorem decodeFrom_last {code least byte : Nat} {rest : Bytes} {char : Char}
    (tail : 0x80 ≤ byte ∧ byte ≤ 0xbf) (whole : code * 64 + (byte - 0x80) = char.toNat)
    (long : least ≤ char.toNat) :
    decodeFrom 1 code least (byte :: rest) = (decode rest).map (char :: ·) := by
  rw [decodeFrom, if_pos tail]
  simp only [whole, if_pos long, scalar_toNat, Option.bind_some, if_true, decode]

theorem decodeFrom_more {owed code least byte : Nat} {rest : Bytes}
    (tail : 0x80 ≤ byte ∧ byte ≤ 0xbf) :
    decodeFrom (owed + 2) code least (byte :: rest) =
      decodeFrom (owed + 1) (code * 64 + (byte - 0x80)) least rest := by
  rw [decodeFrom, if_pos tail]
  simp

theorem decode_encodeChar (char : Char) (rest : Bytes) :
    decode (encodeChar char ++ rest) = (decode rest).map (char :: ·) := by
  have valid := toNat_valid char
  have back := Char.ofNat_toNat char
  unfold encodeChar
  generalize same : char.toNat = code at *
  simp only
  split
  · rename_i small
    rw [singleton_append, decode, decodeFrom, if_pos small, back]
    rfl
  · split
    · rw [cons_append, singleton_append, decode, decodeFrom, if_neg (by omega),
        if_pos (by omega)]
      exact decodeFrom_last (by omega) (by omega) (by omega)
    · split
      · rw [cons_append, cons_append, singleton_append, decode, decodeFrom,
          if_neg (by omega), if_neg (by omega), if_pos (by omega), decodeFrom_more (by omega)]
        exact decodeFrom_last (by omega) (by omega) (by omega)
      · rw [cons_append, cons_append, cons_append, singleton_append, decode,
          decodeFrom, if_neg (by omega), if_neg (by omega), if_neg (by omega), if_pos (by omega),
          decodeFrom_more (by omega), decodeFrom_more (by omega)]
        exact decodeFrom_last (by omega) (by omega) (by omega)

theorem decode_encode_append (chars : List Char) (rest : Bytes) :
    decode (encode chars ++ rest) = (decode rest).map (chars ++ ·) := by
  induction chars with
  | nil => simp [encode]
  | cons char chars ih =>
    rw [encode, flatMap_cons, append_assoc, decode_encodeChar]
    rw [← encode, ih, Option.map_map]
    rfl

theorem decode_encode (chars : List Char) : decode (encode chars) = some chars := by
  have whole := decode_encode_append chars []
  rw [append_nil] at whole
  rw [whole]
  simp [decode, decodeFrom]

section
variable {code least : Nat} {bytes : Bytes} {chars : List Char}

theorem toNat_ofNat {code : Nat} (valid : code.isValidChar) : (Char.ofNat code).toNat = code := by
  unfold Char.ofNat
  rw [dif_pos valid]
  rfl

theorem scalar_some {char : Char} (found : scalar code = some char) : char.toNat = code := by
  unfold scalar at found
  split at found
  · rename_i valid
    cases found
    exact toNat_ofNat valid
  · cases found

theorem decodeFrom_one (decoded : decodeFrom 1 code least bytes = some chars) :
    ∃ char others rest, chars = char :: others ∧ bytes = (0x80 + char.toNat % 64) :: rest ∧
      decode rest = some others ∧ code = char.toNat / 64 ∧ least ≤ char.toNat := by
  cases bytes with
  | nil => simp [decodeFrom] at decoded
  | cons byte rest =>
    rw [decodeFrom] at decoded
    split at decoded
    · rename_i tail
      simp only [if_true] at decoded
      split at decoded
      · rename_i long
        cases found : scalar (code * 64 + (byte - 0x80)) with
        | none => simp [found] at decoded
        | some char =>
          rw [found, Option.bind_some, Option.map_eq_some_iff] at decoded
          obtain ⟨others, inner, rfl⟩ := decoded
          have value := scalar_some found
          have last : byte = 0x80 + char.toNat % 64 := by omega
          exact ⟨char, others, rest, rfl, by rw [last], inner, by omega, by omega⟩
      · cases decoded
    · cases decoded

theorem decodeFrom_two (decoded : decodeFrom 2 code least bytes = some chars) :
    ∃ char others rest, chars = char :: others ∧
      bytes = (0x80 + char.toNat / 64 % 64) :: (0x80 + char.toNat % 64) :: rest ∧
      decode rest = some others ∧ code = char.toNat / 4096 ∧ least ≤ char.toNat := by
  cases bytes with
  | nil => simp [decodeFrom] at decoded
  | cons byte more =>
    by_cases tail : 0x80 ≤ byte ∧ byte ≤ 0xbf
    · rw [decodeFrom_more tail] at decoded
      obtain ⟨char, others, rest, rfl, rfl, inner, shape, long⟩ := decodeFrom_one decoded
      have first : byte = 0x80 + char.toNat / 64 % 64 := by omega
      exact ⟨char, others, rest, rfl, by rw [first], inner, by omega, long⟩
    · rw [decodeFrom, if_neg tail] at decoded
      cases decoded

theorem decodeFrom_three (decoded : decodeFrom 3 code least bytes = some chars) :
    ∃ char others rest, chars = char :: others ∧
      bytes = (0x80 + char.toNat / 4096 % 64) :: (0x80 + char.toNat / 64 % 64) ::
        (0x80 + char.toNat % 64) :: rest ∧
      decode rest = some others ∧ code = char.toNat / 262144 ∧ least ≤ char.toNat := by
  cases bytes with
  | nil => simp [decodeFrom] at decoded
  | cons byte more =>
    by_cases tail : 0x80 ≤ byte ∧ byte ≤ 0xbf
    · rw [decodeFrom_more tail] at decoded
      obtain ⟨char, others, rest, rfl, rfl, inner, shape, long⟩ := decodeFrom_two decoded
      have first : byte = 0x80 + char.toNat / 4096 % 64 := by omega
      exact ⟨char, others, rest, rfl, by rw [first], inner, by omega, long⟩
    · rw [decodeFrom, if_neg tail] at decoded
      cases decoded

theorem decode_cons {byte : Nat} {more : Bytes} (decoded : decode (byte :: more) = some chars) :
    ∃ char others rest, chars = char :: others ∧ byte :: more = encodeChar char ++ rest ∧
      decode rest = some others := by
  rw [decode, decodeFrom] at decoded
  split at decoded
  · rename_i ascii
    rw [Option.map_eq_some_iff] at decoded
    obtain ⟨others, inner, rfl⟩ := decoded
    have valid : byte.isValidChar := .inl (by omega)
    refine ⟨Char.ofNat byte, others, more, rfl, ?_, inner⟩
    simp [encodeChar, toNat_ofNat valid, ascii]
  split at decoded
  · obtain ⟨char, others, rest, rfl, rfl, inner, shape, long⟩ := decodeFrom_one decoded
    have lead : byte = 0xc0 + char.toNat / 64 := by omega
    refine ⟨char, others, rest, rfl, ?_, inner⟩
    simp only [encodeChar]
    rw [if_neg (by omega), if_pos (by omega), cons_append, singleton_append, lead]
  split at decoded
  · obtain ⟨char, others, rest, rfl, rfl, inner, shape, long⟩ := decodeFrom_two decoded
    have lead : byte = 0xe0 + char.toNat / 4096 := by omega
    refine ⟨char, others, rest, rfl, ?_, inner⟩
    simp only [encodeChar]
    rw [if_neg (by omega), if_neg (by omega), if_pos (by omega)]
    simp only [cons_append, nil_append, lead]
  split at decoded
  · obtain ⟨char, others, rest, rfl, rfl, inner, shape, long⟩ := decodeFrom_three decoded
    have lead : byte = 0xf0 + char.toNat / 262144 := by omega
    refine ⟨char, others, rest, rfl, ?_, inner⟩
    simp only [encodeChar]
    rw [if_neg (by omega), if_neg (by omega), if_neg (by omega)]
    simp only [cons_append, nil_append, lead]
  · cases decoded

theorem encodeChar_pos (char : Char) : 0 < (encodeChar char).length := by
  unfold encodeChar
  simp only
  split_ifs <;> simp

theorem encode_decode (decoded : decode bytes = some chars) : encode chars = bytes := by
  induction size : bytes.length using Nat.strongRecOn generalizing bytes chars with
  | ind length ih =>
    cases bytes with
    | nil =>
      cases decoded
      rfl
    | cons byte more =>
      obtain ⟨char, others, rest, rfl, shape, inner⟩ := decode_cons decoded
      have shorter : rest.length < length := by
        have pos := encodeChar_pos char
        rw [← size, shape, length_append]
        omega
      rw [shape, encode, flatMap_cons, ← encode, ih _ shorter inner rfl]

end

theorem encode_append (first second : List Char) :
    encode (first ++ second) = encode first ++ encode second := flatMap_append

def Valid (bytes : Bytes) : Prop := ∃ chars, bytes = encode chars

theorem Valid.decodes {bytes : Bytes} (valid : Valid bytes) : (decode bytes).isSome := by
  obtain ⟨chars, rfl⟩ := valid
  rw [decode_encode]
  rfl

theorem Valid.append {first second : Bytes} (left : Valid first) (right : Valid second) :
    Valid (first ++ second) := by
  obtain ⟨first, rfl⟩ := left
  obtain ⟨second, rfl⟩ := right
  exact ⟨first ++ second, (encode_append first second).symm⟩

theorem valid_nil : Valid [] := ⟨[], rfl⟩

theorem valid_ascii {byte : Nat} (small : byte < 0x80) : Valid [byte] := by
  have same : (Char.ofNat byte).toNat = byte := toNat_ofNat (.inl (by omega))
  refine ⟨[Char.ofNat byte], ?_⟩
  simp [encode, encodeChar, same, small]

theorem decode_ascii {bytes : Bytes} (ascii : ∀ byte ∈ bytes, byte < 0x80) : (decode bytes).isSome := by
  have valid : Valid bytes := by
    induction bytes with
    | nil => exact valid_nil
    | cons byte bytes ih =>
      obtain ⟨first, others⟩ := forall_mem_cons.mp ascii
      exact (valid_ascii first).append (ih others)
  exact valid.decodes

theorem encodeChar_small (char : Char) : ∀ byte ∈ encodeChar char, byte < 256 := by
  have valid := toNat_valid char
  intro byte listed
  unfold encodeChar at listed
  dsimp only at listed
  split_ifs at listed <;> simp only [mem_cons, not_mem_nil, or_false] at listed <;> omega

/-- `(byte & 0xc0) === 0x80` -/
def continuation (byte : Option Nat) : Bool := byte.any fun byte => 0x80 ≤ byte && byte < 0xc0

def Boundary (chars : List Char) (place : Nat) : Prop :=
  ∃ before after, chars = before ++ after ∧ place = (encode before).length

theorem encodeChar_shape (char : Char) : ∃ first others, encodeChar char = first :: others ∧
    continuation (some first) = false ∧ (∀ byte ∈ others, 0x80 ≤ byte ∧ byte < 0xc0) ∧ others.length ≤ 3 ∧
    (first < 0x80 → others = []) := by
  have valid := toNat_valid char
  unfold encodeChar
  generalize char.toNat = code at *
  simp only [continuation, Option.any_some, Bool.and_eq_false_iff, decide_eq_false_iff_not]
  split
  · exact ⟨_, [], rfl, by omega, by simp, by simp, fun _ => rfl⟩
  · split
    · exact ⟨_, _, rfl, by omega, by simp; omega, by simp, by omega⟩
    · split
      · exact ⟨_, _, rfl, by omega, by simp; omega, by simp, by omega⟩
      · exact ⟨_, _, rfl, by omega, by simp; omega, by simp, by omega⟩

theorem boundary_zero (chars : List Char) : Boundary chars 0 := ⟨[], chars, rfl, rfl⟩

theorem boundary_length (chars : List Char) : Boundary chars (encode chars).length :=
  ⟨chars, [], (append_nil _).symm, rfl⟩

variable {chars : List Char} {place : Nat}

theorem Boundary.le_length (boundary : Boundary chars place) :
    place ≤ (encode chars).length := by
  obtain ⟨before, after, rfl, rfl⟩ := boundary
  rw [encode_append, length_append]
  exact Nat.le_add_right _ _

theorem Boundary.shift {char : Char} (boundary : Boundary chars place) :
    Boundary (char :: chars) ((encodeChar char).length + place) := by
  obtain ⟨before, after, rfl, rfl⟩ := boundary
  exact ⟨char :: before, after, rfl, by rw [encode, encode, flatMap_cons, length_append]⟩

theorem boundary_of_start (within : place ≤ (encode chars).length)
    (start : continuation (encode chars)[place]? = false) : Boundary chars place := by
  induction chars generalizing place with
  | nil =>
    have none : place = 0 := by simpa [encode] using within
    exact none ▸ boundary_zero []
  | cons char chars ih =>
    obtain ⟨first, others, shape, -, tail, -⟩ := encodeChar_shape char
    rw [encode, flatMap_cons, ← encode] at within start
    by_cases inside : place < (encodeChar char).length
    · cases place with
      | zero => exact boundary_zero _
      | succ place =>
        rw [getElem?_append_left inside, shape, getElem?_cons_succ] at start
        rw [shape, length_cons] at inside
        have short : place < others.length := by omega
        rw [getElem?_eq_getElem short] at start
        have bounds := tail _ (getElem_mem short)
        simp [continuation, bounds] at start
    · rw [getElem?_append_right (by omega)] at start
      rw [length_append] at within
      have rest : Boundary (char :: chars) _ := (ih (by omega) start).shift
      rwa [Nat.add_sub_cancel' (by omega)] at rest

theorem Boundary.start (boundary : Boundary chars place) :
    continuation (encode chars)[place]? = false := by
  obtain ⟨before, after, rfl, rfl⟩ := boundary
  rw [encode_append, getElem?_append_right (Nat.le_refl _), Nat.sub_self]
  cases after with
  | nil => rfl
  | cons char after =>
    obtain ⟨first, others, shape, start, -⟩ := encodeChar_shape char
    rw [encode, flatMap_cons, shape]
    exact start

theorem Boundary.next (boundary : Boundary chars place)
    (before : place < (encode chars).length) :
    ∃ next, Boundary chars next ∧ place < next ∧ next ≤ place + 4 := by
  obtain ⟨front, after, rfl, rfl⟩ := boundary
  cases after with
  | nil => simp at before
  | cons char after =>
    obtain ⟨first, others, shape, -, -, short, -⟩ := encodeChar_shape char
    refine ⟨(encode (front ++ [char])).length, ⟨front ++ [char], after, by simp, rfl⟩, ?_⟩
    rw [encode_append, length_append, encode, encode, flatMap_singleton, shape, length_cons]
    omega

theorem boundary_ascii {place byte : Nat} (found : (encode chars)[place]? = some byte)
    (ascii : byte < 0x80) : Boundary chars place ∧ Boundary chars (place + 1) := by
  have within := (List.getElem?_eq_some_iff.mp found).1
  have here : Boundary chars place := by
    refine boundary_of_start (Nat.le_of_lt within) ?_
    rw [found]
    simp only [continuation, Option.any_some, Bool.and_eq_false_iff, decide_eq_false_iff_not]
    omega
  refine ⟨here, ?_⟩
  obtain ⟨front, after, rfl, rfl⟩ := here
  cases after with
  | nil => simp at within
  | cons char after =>
    obtain ⟨first, others, shape, -, -, -, alone⟩ := encodeChar_shape char
    rw [encode_append, getElem?_append_right (Nat.le_refl _), Nat.sub_self, encode, flatMap_cons,
      shape, cons_append, getElem?_cons_zero] at found
    cases found
    rw [alone ascii] at shape
    exact ⟨front ++ [char], after, by simp, by
      rw [encode_append, length_append, encode, encode, flatMap_singleton, shape]
      rfl⟩

theorem Boundary.inside {before inside after : List Char} (boundary : Boundary inside place) :
    Boundary (before ++ (inside ++ after)) ((encode before).length + place) := by
  obtain ⟨front, back, rfl, rfl⟩ := boundary
  exact ⟨before ++ front, back ++ after, by simp, by rw [encode_append, length_append]⟩

theorem Boundary.between {start stop : Nat} (first : Boundary chars start)
    (last : Boundary chars stop) (order : start ≤ stop) :
    ∃ before inside after, chars = before ++ (inside ++ after) ∧ start = (encode before).length ∧
      stop = (encode (before ++ inside)).length ∧ ((encode chars).drop start).take (stop - start) = encode inside := by
  obtain ⟨before, rest, rfl, rfl⟩ := first
  obtain ⟨front, after, same, rfl⟩ := last
  have split : ∃ inside, front = before ++ inside ∧ rest = inside ++ after := by
    rcases append_eq_append_iff.mp same with ⟨inside, longer, tail⟩ | ⟨inside, longer, tail⟩
    · exact ⟨inside, longer, tail⟩
    · cases inside with
      | nil => exact ⟨[], by simpa using longer.symm, by simpa using tail.symm⟩
      | cons char inside =>
        have positive := encodeChar_pos char
        rw [longer, encode_append, length_append, encode, encode, flatMap_cons, length_append] at order
        omega
  obtain ⟨inside, rfl, rfl⟩ := split
  refine ⟨before, inside, after, rfl, rfl, rfl, ?_⟩
  rw [encode_append, encode_append, encode_append, drop_left, length_append, Nat.add_sub_cancel_left,
    take_left]

end Utf8
