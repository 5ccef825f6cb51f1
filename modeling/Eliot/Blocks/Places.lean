import Eliot.Blocks.Lines

namespace Blocks
open Text List

structure Place (text : Text) (char byte : Nat) : Prop where
  within : char ≤ text.length
  whole : Whole (text.take char) (text.drop char)
  bytes : byte = (encode (text.take char)).length

variable {text : Text} {char byte : Nat}

theorem place_zero (text : Text) : Place text 0 0 := ⟨Nat.zero_le _, by simp [Whole], rfl⟩

theorem Place.scalars (place : Place text char byte) :
    scalars text = Text.scalars (text.take char) ++ Text.scalars (text.drop char) := by
  have whole := scalars_append place.whole
  rwa [take_append_drop] at whole

theorem Place.boundary (place : Place text char byte) : Utf8.Boundary (Text.scalars text) byte :=
  ⟨_, _, place.scalars, place.bytes⟩

theorem Place.step (place : Place text char byte) {piece rest : Text} (ahead : text.drop char = piece ++ rest)
    (whole : Whole piece rest) : Place text (char + piece.length) (byte + (encode piece).length) := by
  have front : text.take (char + piece.length) = text.take char ++ piece := by
    rw [take_add, ahead, take_left]
  have behind : text.drop (char + piece.length) = rest := by
    rw [← drop_drop, ahead, drop_left]
  have start := place.whole
  rw [ahead] at start
  have joined := start.front
  have size := congrArg List.length ahead
  rw [length_drop, length_append] at size
  have fits := place.within
  refine ⟨by omega, ?_, ?_⟩
  · rw [front, behind]
    cases piece with
    | nil => simpa using start
    | cons unit piece =>
      rw [Whole, getLast?_append_of_ne_nil _ (by simp)]
      exact whole
  · rw [front, encode_append joined, length_append, ← place.bytes]

theorem Place.between {stopChar stop : Nat} (place : Place text char byte) (later : Place text stopChar stop)
    (order : char ≤ stopChar) :
    Text.scalars text = Text.scalars (text.take char) ++
      (Text.scalars (slice text char stopChar) ++ Text.scalars (text.drop stopChar)) ∧
    stop = byte + (encode (slice text char stopChar)).length := by
  have front : text.take stopChar = text.take char ++ slice text char stopChar := by
    rw [slice, ← take_add, Nat.add_sub_cancel' order]
  have behind : text.drop char = slice text char stopChar ++ text.drop stopChar := by
    rw [slice, ← Nat.add_sub_cancel' order, ← drop_drop, Nat.add_sub_cancel_left, take_append_drop]
  have first := place.whole
  have second := later.whole
  rw [behind] at first
  rw [front] at second
  refine ⟨?_, ?_⟩
  · rw [place.scalars, behind, scalars_append second.back]
  · rw [later.bytes, front, encode_append first.front, length_append, ← place.bytes]

theorem encode_filled {text : Text} (filled : text ≠ []) : 0 < (encode text).length := by
  have some : scalars text ≠ [] := by
    rw [scalars, ne_eq, map_eq_nil_iff]
    cases text with
    | nil => exact absurd rfl filled
    | cons first rest =>
      cases rest with
      | nil => simp [codePoints]
      | cons second rest =>
        rw [codePoints]
        split <;> simp
  obtain ⟨char, chars, shape⟩ := exists_cons_of_ne_nil some
  have positive := Utf8.encodeChar_pos char
  rw [encode, shape, Utf8.encode, flatMap_cons, length_append]
  omega

def byteAt (text : Text) (unit : Nat) : Nat := (encode (text.take unit)).length

theorem Place.later {unit : Nat} (place : Place text char byte) (behind : char ≤ unit) : byte ≤ byteAt text unit := by
  have front : text.take unit = text.take char ++ slice text char unit := by
    rw [slice, ← take_add, Nat.add_sub_cancel' behind]
  have rest : text.drop char = slice text char unit ++ text.drop unit := by
    rw [slice, ← Nat.add_sub_cancel' behind, ← drop_drop, Nat.add_sub_cancel_left, take_append_drop]
  have whole := place.whole
  rw [rest] at whole
  rw [byteAt, front, encode_append whole.front, length_append, ← place.bytes]
  exact Nat.le_add_right _ _

theorem encode_half {high low : Nat} (first : isHigh high = true) (second : isLow low = true) :
    (encode [high]).length < (encode [high, low]).length := by
  simp only [isHigh, isLow, Bool.and_eq_true, decide_eq_true_eq] at first second
  have half : encode [high] = Utf8.encodeChar (Char.ofNat 0xfffd) := by
    have alone : scalar [high] = Char.ofNat 0xfffd := if_neg (by omega)
    simp [encode, scalars, codePoints, alone, Utf8.encode]
  have whole : encode [high, low] =
      Utf8.encodeChar (Char.ofNat (0x10000 + (high - 0xd800) * 0x400 + (low - 0xdc00))) := by
    rw [encode, scalars, codePoints, if_pos (by simp; omega)]
    exact append_nil _
  have valid : (0x10000 + (high - 0xd800) * 0x400 + (low - 0xdc00)).isValidChar := by
    unfold Nat.isValidChar
    omega
  have three : (Utf8.encodeChar (Char.ofNat 0xfffd)).length = 3 := by decide
  have four : (Utf8.encodeChar (Char.ofNat (0x10000 + (high - 0xd800) * 0x400 + (low - 0xdc00)))).length = 4 := by
    unfold Utf8.encodeChar
    rw [Utf8.toNat_ofNat valid]
    dsimp only
    rw [if_neg (by omega), if_neg (by omega), if_neg (by omega)]
    rfl
  rw [half, whole, three, four]
  decide

theorem Place.earlier {unit : Nat} (place : Place text char byte) (before : unit < char) :
    byteAt text unit < byte := by
  have within := place.within
  by_cases whole : Whole (text.take unit) (text.drop unit)
  · have here : Place text unit (byteAt text unit) := ⟨by omega, whole, rfl⟩
    obtain ⟨-, size⟩ := here.between place (Nat.le_of_lt before)
    have filled : slice text unit char ≠ [] := by
      intro nothing
      have length := congrArg List.length nothing
      rw [slice, length_take, length_drop, length_nil] at length
      omega
    have positive := encode_filled filled
    omega
  · unfold Whole at whole
    rw [not_not] at whole
    obtain ⟨high, low⟩ := whole
    rw [head?_drop, getElem?_eq_getElem (by omega), Option.any_some] at low
    cases unit with
    | zero => simp at high
    | succ unit =>
      have front : text.take (unit + 1) = text.take unit ++ [text.get ⟨unit, by omega⟩] :=
        take_succ_eq_append_getElem (by omega)
      have next : text.take (unit + 1 + 1) =
          text.take unit ++ [text.get ⟨unit, by omega⟩, text.get ⟨unit + 1, by omega⟩] := by
        rw [take_succ_eq_append_getElem (by omega), front, append_assoc]
        rfl
      rw [front, getLast?_concat, Option.any_some] at high
      have half := encode_half high low
      simp only [isHigh, isLow, Bool.and_eq_true, decide_eq_true_eq] at high low
      have apart (more : Text) : Whole (text.take unit) (text.get ⟨unit, by omega⟩ :: more) := by
        rintro ⟨-, second⟩
        simp only [head?_cons, Option.any_some, isLow, Bool.and_eq_true, decide_eq_true_eq] at second
        omega
      have after : Place text (unit + 1 + 1) (byteAt text (unit + 1 + 1)) := by
        refine ⟨by omega, ?_, rfl⟩
        rintro ⟨last, -⟩
        rw [next, append_cons, getLast?_concat, Option.any_some] at last
        simp only [isHigh, Bool.and_eq_true, decide_eq_true_eq] at last
        have low' : 0xdc00 ≤ text.get ⟨unit + 1, by omega⟩ := low.1
        omega
      have bound := after.later (Nat.succ_le_of_lt before)
      have here := place.bytes
      rw [byteAt, byteAt, next, encode_append (apart _), length_append] at bound
      rw [byteAt, front, encode_append (apart _), length_append]
      have half' : (encode [text.get ⟨unit, by omega⟩]).length <
          (encode [text.get ⟨unit, by omega⟩, text.get ⟨unit + 1, by omega⟩]).length := half
      omega

theorem Place.units (place : Place text char byte) (unit : Nat) : byteAt text unit < byte ↔ unit < char := by
  constructor
  · intro before
    by_contra behind
    have later := place.later (Nat.le_of_not_lt behind)
    omega
  · exact place.earlier

theorem lineEnd_ends (text : Text) :
    ∀ unit ∈ lineEnd (text.dropWhile (!isLineEnd ·)), isLineEnd unit = true := by
  have stopped := head?_dropWhile_not (!isLineEnd ·) text
  unfold lineEnd
  split
  · simp
  · decide
  · rename_i unit rest other same
    rw [same] at stopped
    simpa using stopped

theorem firstLine_whole (text rest : Text) (split : text = firstLine text ++ rest) :
    Whole (firstLine text) rest := by
  have ends := lineEnd_ends text
  cases ending : lineEnd (text.dropWhile (!isLineEnd ·)) with
  | nil =>
    have gone : text.dropWhile (!isLineEnd ·) = [] := by
      by_contra filled
      exact lineEnd_filled filled ending
    have all : firstLine text = text := by
      rw [firstLine, ending, append_nil, bodyOf, ← append_nil (List.takeWhile _ _), ← gone,
        takeWhile_append_dropWhile]
    have nothing : rest = [] := by
      rw [all] at split
      simpa using split
    simp [Whole, nothing]
  | cons unit others =>
    rw [ending] at ends
    rw [firstLine, ending, Whole, getLast?_append_of_ne_nil _ (by simp)]
    rintro ⟨high, -⟩
    cases found : (unit :: others).getLast? with
    | none => simp at found
    | some last =>
      rw [found, Option.any_some] at high
      have lineEnds := ends last (mem_of_getLast? found)
      simp only [isLineEnd, isHigh, Bool.or_eq_true, beq_iff_eq, Bool.and_eq_true, decide_eq_true_eq] at lineEnds high
      omega

structure Line.Lies (text : Text) (line : Line) : Prop where
  starts : Place text line.charStart line.start
  stops : Place text line.charStop line.stop
  filled : line.start < line.stop
  shape : ∃ ending, slice text line.charStart line.charStop = line.body ++ ending ∧
    (∀ unit ∈ line.body, isLineEnd unit = false) ∧ ∀ unit ∈ ending, isLineEnd unit = true
  order : line.charStart < line.charStop

def Chained (text : Text) : Nat → Nat → List Line → Prop
  | char, byte, [] => char = text.length ∧ byte = (encode text).length
  | char, byte, line :: rest =>
    line.charStart = char ∧ line.start = byte ∧ line.Lies text ∧ Chained text line.charStop line.stop rest

theorem linesFrom_chained {char byte : Nat} {rest : Text} (place : Place text char byte)
    (ahead : text.drop char = rest) : Chained text char byte (linesFrom char byte rest) := by
  fun_induction linesFrom char byte rest with
  | case1 char byte =>
    have size := congrArg List.length ahead
    have fits := place.within
    rw [length_drop, length_nil] at size
    have all : char = text.length := by omega
    refine ⟨all, ?_⟩
    rw [place.bytes, all, take_length]
  | case2 char byte rest filled raw stop ih =>
    obtain ⟨behind, split⟩ := firstLine_prefix rest
    have left : rest.drop raw.length = behind := by
      conv_lhs => rw [← split]
      exact drop_left
    have next := place.step (ahead.trans split.symm) (firstLine_whole rest behind split.symm)
    have positive := encode_filled (firstLine_filled filled)
    have long := length_pos_iff.mpr (firstLine_filled filled)
    refine ⟨rfl, rfl, ⟨place, next, Nat.lt_add_of_pos_right positive, ?_, Nat.lt_add_of_pos_right long⟩, ih next ?_⟩
    · refine ⟨lineEnd (rest.dropWhile (!isLineEnd ·)), ?_, ?_, lineEnd_ends rest⟩
      · show slice text char (char + raw.length) = firstLine rest
        rw [slice, ahead, Nat.add_sub_cancel_left]
        conv_lhs => rw [← split]
        exact take_left
      · intro unit member
        simpa using mem_takeWhile_imp member
    · rw [← drop_drop, ahead]

theorem lines_chained (text : Text) : Chained text 0 0 (lines text) := linesFrom_chained (place_zero text) rfl

end Blocks
