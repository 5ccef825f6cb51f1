import Eliot.Canonical.Writer

namespace Canonical

open List hiding count
open Text (isDigit decimal_digits decimal_head)

def Short {Error : Type} (profile : Profile Error) (string : List Char) : Prop :=
  (Utf8.encode string).length ≤ profile.maxStringBytes

/-- Values within the limits of a parser that have `levels` levels of containers at most. -/
inductive Within {Error : Type} (profile : Profile Error) : Nat → JsonValue → Prop where
  | null {levels : Nat} : Within profile levels .null
  | boolean {levels : Nat} (value : Bool) : Within profile levels (.boolean value)
  | integer {levels : Nat} {value : Int} (safe : value.natAbs ≤ maxInteger) :
      Within profile levels (.integer value)
  | string {levels : Nat} {value : List Char} (short : Short profile value) :
      Within profile levels (.string value)
  | array {levels : Nat} {items : List JsonValue} (few : items.length ≤ profile.maxArrayItems)
      (inner : ∀ item ∈ items, Within profile levels item) :
      Within profile (levels + 1) (.array items)
  | object {levels : Nat} {members : List Member}
      (few : members.length ≤ profile.maxObjectMembers)
      (keys : (members.map Prod.fst).Nodup)
      (short : ∀ member ∈ members, Short profile member.1)
      (inner : ∀ member ∈ members, Within profile levels member.2) :
      Within profile (levels + 1) (.object members)

section
variable {Error : Type} {profile : Profile Error}

def Delimited (rest : Bytes) : Prop :=
  ∀ byte ∈ rest.head?, isDigit byte = false ∧ byte ≠ 46 ∧ byte ≠ 101 ∧ byte ≠ 69

theorem delimited_cons {byte : Nat} {rest : Bytes} (plain : isDigit byte = false)
    (point : byte ≠ 46) (lower : byte ≠ 101) (upper : byte ≠ 69) : Delimited (byte :: rest) := by
  intro head same
  cases same
  exact ⟨plain, point, lower, upper⟩

theorem skipWhitespace_stop {parser : Parser} (plain : parser.peek.any isWhitespace = false) :
    skipWhitespace profile parser = .ok parser := by
  unfold skipWhitespace skipWhitespaceFrom
  rw [if_neg (by simp [plain])]
  rfl

theorem consumeIf_cons (byte expected : Nat) (rest : Bytes) (cursor nodes : Nat) :
    Parser.consumeIf ⟨byte :: rest, cursor, nodes⟩ expected =
      if byte = expected then some ⟨rest, cursor + 1, nodes⟩ else none := by
  simp [Parser.consumeIf, Parser.peek, Parser.advance]

end

section
variable {Error : Type} {profile : Profile Error}

theorem appendStringBytes_ok {output bytes : Bytes}
    (within : output.length + bytes.length ≤ profile.maxStringBytes) :
    appendStringBytes profile output bytes = .ok (output ++ bytes) := by
  rw [appendStringBytes, if_neg (by omega)]
  rfl

theorem hexNibble_lowerHex {nibble : Nat} (small : nibble < 16) :
    hexNibble (lowerHex nibble) = some nibble := by
  unfold lowerHex hexNibble isDigit
  split
  · rw [if_pos (by simp; omega)]
    simp
  · rw [if_neg (by simp; omega), if_pos (by omega)]
    simp
    omega

theorem parseHexQuad_control {code offset cursor nodes : Nat} {rest : Bytes}
    (control : code ≤ 0x1f) :
    parseHexQuad profile offset
      ⟨[48, 48, lowerHex (code / 16), lowerHex (code % 16)] ++ rest, cursor, nodes⟩ =
      .ok (code, ⟨rest, cursor + 4, nodes⟩) := by
  have high : hexNibble (lowerHex (code / 16)) = some (code / 16) :=
    hexNibble_lowerHex (by omega)
  have low : hexNibble (lowerHex (code % 16)) = some (code % 16) :=
    hexNibble_lowerHex (by omega)
  have zero : hexNibble 48 = some 0 := by decide
  have value : code / 16 * 16 + code % 16 = code := by omega
  simp only [parseHexQuad, cons_append, nil_append, length_cons,
    take_succ_cons, take_zero, hexQuadFrom, high, low, zero, Parser.advance,
    drop_succ_cons, drop_zero, Nat.zero_mul, Nat.zero_add, value]
  rw [if_neg (by omega)]
  rfl

theorem parseUnicodeEscape_control {char : Char} {output rest : Bytes} {offset cursor nodes : Nat}
    (control : char.toNat ≤ 0x1f) (within : output.length + 1 ≤ profile.maxStringBytes) :
    parseUnicodeEscape profile output offset
      ⟨[48, 48, lowerHex (char.toNat / 16), lowerHex (char.toNat % 16)] ++ rest, cursor, nodes⟩ =
      .ok (output ++ Utf8.encodeChar char, ⟨rest, cursor + 4, nodes⟩) := by
  have one : Utf8.encodeChar char = [char.toNat] := by
    rw [Utf8.encodeChar, if_pos (by omega)]
  have scalar : parseScalar profile offset
      ⟨[48, 48, lowerHex (char.toNat / 16), lowerHex (char.toNat % 16)] ++ rest, cursor, nodes⟩ =
      .ok (char.toNat, ⟨rest, cursor + 4, nodes⟩) := by
    simp only [parseScalar, parseHexQuad_control control, bind, Except.bind]
    rw [if_neg (by omega), if_neg (by omega)]
    rfl
  simp only [parseUnicodeEscape, scalar, bind, Except.bind, Utf8.scalar_toNat]
  rw [appendStringBytes_ok (by simpa [one] using within)]
  rfl

theorem escapeByte_cases (byte : Nat) :
    (∃ letter, escapeByte byte = [92, letter] ∧ shortEscape letter = some byte) ∨
      (byte ≤ 0x1f ∧
        escapeByte byte = [92, 117, 48, 48, lowerHex (byte / 16), lowerHex (byte % 16)]) ∨
      (0x20 ≤ byte ∧ byte ≠ 34 ∧ byte ≠ 92 ∧ escapeByte byte = [byte]) := by
  unfold escapeByte
  split
  · rename_i same
    exact .inl ⟨34, rfl, by rw [same]; rfl⟩
  split
  · rename_i same
    exact .inl ⟨92, rfl, by rw [same]; rfl⟩
  split
  · rename_i same
    exact .inl ⟨98, rfl, by rw [same]; rfl⟩
  split
  · rename_i same
    exact .inl ⟨116, rfl, by rw [same]; rfl⟩
  split
  · rename_i same
    exact .inl ⟨110, rfl, by rw [same]; rfl⟩
  split
  · rename_i same
    exact .inl ⟨102, rfl, by rw [same]; rfl⟩
  split
  · rename_i same
    exact .inl ⟨114, rfl, by rw [same]; rfl⟩
  split
  · rename_i control
    exact .inr (.inl ⟨control, rfl⟩)
  · exact .inr (.inr ⟨by omega, by assumption, by assumption, rfl⟩)

section
variable {start steps cursor nodes : Nat} {output rest : Bytes}

theorem parseStringFrom_short {letter byte : Nat} (known : shortEscape letter = some byte)
    (within : output.length + 1 ≤ profile.maxStringBytes) :
    parseStringFrom profile start (steps + 1) output ⟨92 :: letter :: rest, cursor, nodes⟩ =
      parseStringFrom profile start steps (output ++ [byte]) ⟨rest, cursor + 2, nodes⟩ := by
  simp only [parseStringFrom, Parser.peek, head?_cons, Nat.reduceEqDiff, if_false, if_true,
    parseEscape, Parser.advance, drop_succ_cons, drop_zero, known, bind, Except.bind]
  rw [appendStringBytes_ok within]
  rfl

theorem parseStringFrom_control {char : Char} (control : char.toNat ≤ 0x1f)
    (within : output.length + 1 ≤ profile.maxStringBytes) :
    parseStringFrom profile start (steps + 1) output
      ⟨[92, 117, 48, 48, lowerHex (char.toNat / 16), lowerHex (char.toNat % 16)] ++ rest, cursor,
        nodes⟩ =
      parseStringFrom profile start steps (output ++ Utf8.encodeChar char)
        ⟨rest, cursor + 6, nodes⟩ := by
  have other : shortEscape 117 = none := by decide
  have escaped := @parseUnicodeEscape_control _ profile char output rest cursor (cursor + 1 + 1)
    nodes control within
  simp only [cons_append, nil_append] at escaped
  simp only [cons_append, nil_append, parseStringFrom, Parser.peek, head?_cons,
    Nat.reduceEqDiff, if_false, if_true, parseEscape, Parser.advance, drop_succ_cons,
    drop_zero, other, Nat.add_sub_cancel, escaped, bind, Except.bind]

theorem parseStringFrom_plain {byte : Nat} (printable : 0x20 ≤ byte) (ascii : byte < 0x80)
    (quote : byte ≠ 34) (backslash : byte ≠ 92)
    (within : output.length + 1 ≤ profile.maxStringBytes) :
    parseStringFrom profile start (steps + 1) output ⟨byte :: rest, cursor, nodes⟩ =
      parseStringFrom profile start steps (output ++ [byte]) ⟨rest, cursor + 1, nodes⟩ := by
  simp only [parseStringFrom, Parser.peek, head?_cons, Parser.advance, drop_succ_cons,
    drop_zero, bind, Except.bind]
  rw [if_neg quote, if_neg backslash, if_neg (by omega), if_pos ascii, appendStringBytes_ok within]

theorem parseStringFrom_wide {first : Nat} {more : Bytes} (wide : 0x80 ≤ first)
    (width : utf8Width first = some (more.length + 1))
    (within : output.length + (more.length + 1) ≤ profile.maxStringBytes) :
    parseStringFrom profile start (steps + 1) output ⟨first :: more ++ rest, cursor, nodes⟩ =
      parseStringFrom profile start steps (output ++ first :: more)
        ⟨rest, cursor + (more.length + 1), nodes⟩ := by
  have taken : (first :: more ++ rest).take (more.length + 1) = first :: more := by simp
  have left : (first :: more ++ rest).drop (more.length + 1) = rest := by simp
  simp only [cons_append] at taken left
  simp only [cons_append, parseStringFrom, Parser.peek, head?_cons, Parser.advance,
    width, taken, left, bind, Except.bind, length_cons, length_append]
  rw [if_neg (by omega), if_neg (by omega), if_neg (by omega), if_neg (by omega),
    if_neg (by omega), appendStringBytes_ok (by simpa using within)]

theorem escape_wide {bytes : Bytes} (wide : ∀ byte ∈ bytes, 0x80 ≤ byte) :
    bytes.flatMap escapeByte = bytes := by
  induction bytes with
  | nil => rfl
  | cons byte bytes ih =>
    have head := wide byte (mem_cons_self ..)
    have plain : escapeByte byte = [byte] := by
      rcases escapeByte_cases byte with ⟨letter, -, known⟩ | ⟨control, -⟩ | ⟨-, -, -, same⟩
      · unfold shortEscape at known
        split at known <;> cases known <;> omega
      · omega
      · exact same
    rw [flatMap_cons, plain, ih fun other listed => wide other (mem_cons_of_mem _ listed)]
    rfl

theorem encodeChar_wide {char : Char} (wide : 0x80 ≤ char.toNat) :
    ∃ first more, Utf8.encodeChar char = first :: more ∧ (∀ byte ∈ first :: more, 0x80 ≤ byte) ∧
      utf8Width first = some (more.length + 1) := by
  have valid := Utf8.toNat_valid char
  unfold Utf8.encodeChar
  simp only
  rw [if_neg (by omega)]
  split
  · refine ⟨_, _, rfl, by simp; omega, ?_⟩
    rw [utf8Width, if_pos (by omega)]
    rfl
  split
  · refine ⟨_, _, rfl, by simp; omega, ?_⟩
    rw [utf8Width, if_neg (by omega), if_pos (by omega)]
    rfl
  · refine ⟨_, _, rfl, by simp; omega, ?_⟩
    rw [utf8Width, if_neg (by omega), if_neg (by omega), if_pos (by omega)]
    rfl

theorem parseStringFrom_char {char : Char}
    (within : output.length + (Utf8.encodeChar char).length ≤ profile.maxStringBytes) :
    parseStringFrom profile start (steps + 1) output
      ⟨(Utf8.encodeChar char).flatMap escapeByte ++ rest, cursor, nodes⟩ =
      parseStringFrom profile start steps (output ++ Utf8.encodeChar char)
        ⟨rest, cursor + ((Utf8.encodeChar char).flatMap escapeByte).length, nodes⟩ := by
  by_cases ascii : char.toNat < 0x80
  · have one : Utf8.encodeChar char = [char.toNat] := by rw [Utf8.encodeChar, if_pos ascii]
    have room : output.length + 1 ≤ profile.maxStringBytes := by simpa [one] using within
    rw [one, flatMap_singleton]
    rcases escapeByte_cases char.toNat with ⟨letter, same, known⟩ | ⟨control, same⟩ |
      ⟨printable, quote, backslash, same⟩
    · rw [same]
      exact parseStringFrom_short known room
    · rw [same, ← one]
      exact parseStringFrom_control control room
    · rw [same]
      exact parseStringFrom_plain printable ascii quote backslash room
  · obtain ⟨first, more, same, wide, width⟩ := encodeChar_wide (not_lt.mp ascii)
    rw [same, escape_wide wide]
    rw [same] at within
    exact parseStringFrom_wide (wide first (mem_cons_self ..)) width within

end

theorem escape_length (bytes : Bytes) : bytes.length ≤ (bytes.flatMap escapeByte).length := by
  induction bytes with
  | nil => exact Nat.le_refl _
  | cons byte bytes ih =>
    have one : 1 ≤ (escapeByte byte).length := by
      rcases escapeByte_cases byte with ⟨letter, same, -⟩ | ⟨-, same⟩ | ⟨-, -, -, same⟩ <;>
        simp [same]
    rw [flatMap_cons, length_append, length_cons]
    omega

/-- The rest of a written string is read back, after the characters `seen` before it. -/
theorem parseStringFrom_render {start cursor nodes : Nat} {rest : Bytes} (seen chars : List Char)
    {steps : Nat} (short : Short profile (seen ++ chars)) (enough : chars.length < steps) :
    parseStringFrom profile start steps (Utf8.encode seen)
      ⟨(Utf8.encode chars).flatMap escapeByte ++ 34 :: rest, cursor, nodes⟩ =
      .ok (seen ++ chars,
        ⟨rest, cursor + ((Utf8.encode chars).flatMap escapeByte).length + 1, nodes⟩) := by
  induction chars generalizing seen steps cursor with
  | nil =>
    obtain ⟨steps, rfl⟩ := Nat.exists_eq_succ_of_ne_zero (Nat.ne_of_gt enough)
    simp [Utf8.encode, parseStringFrom, Parser.peek, Parser.advance]
    rw [← Utf8.encode, Utf8.decode_encode]
    rfl
  | cons char chars ih =>
    obtain ⟨steps, rfl⟩ := Nat.exists_eq_succ_of_ne_zero (Nat.ne_of_gt (Nat.zero_lt_of_lt enough))
    have whole : seen ++ char :: chars = (seen ++ [char]) ++ chars := by simp
    have size : (Utf8.encode (seen ++ char :: chars)).length =
        (Utf8.encode seen).length + (Utf8.encodeChar char).length + (Utf8.encode chars).length := by
      simp [Utf8.encode, Nat.add_assoc]
    have room : (Utf8.encode seen).length + (Utf8.encodeChar char).length ≤
        profile.maxStringBytes := by
      unfold Short at short
      omega
    have grown : Utf8.encode seen ++ Utf8.encodeChar char = Utf8.encode (seen ++ [char]) := by
      simp [Utf8.encode]
    have bytes : (Utf8.encode (char :: chars)).flatMap escapeByte =
        (Utf8.encodeChar char).flatMap escapeByte ++ (Utf8.encode chars).flatMap escapeByte := by
      simp [Utf8.encode]
    rw [bytes, append_assoc, parseStringFrom_char room, grown,
      ih (seen ++ [char]) (whole ▸ short) (by simpa using enough), whole, length_append]
    simp [Nat.add_assoc]

theorem renderString_length (chars : List Char) : chars.length + 2 ≤ (renderString chars).length := by
  have bytes : chars.length ≤ (Utf8.encode chars).length := by
    induction chars with
    | nil => exact Nat.le_refl _
    | cons char chars ih =>
      have one : 1 ≤ (Utf8.encodeChar char).length := by
        unfold Utf8.encodeChar
        simp only
        split_ifs <;> simp
      rw [Utf8.encode, flatMap_cons, length_append, ← Utf8.encode, length_cons]
      omega
  have escaped := escape_length (Utf8.encode chars)
  simp only [renderString, length_cons, length_append, length_nil]
  omega

theorem parseString_render {chars : List Char} {rest : Bytes} {cursor nodes : Nat}
    (short : Short profile chars)
    (steps : (renderString chars ++ rest).length < profile.maxParserSteps) :
    parseString profile ⟨renderString chars ++ rest, cursor, nodes⟩ =
      .ok (chars, ⟨rest, cursor + (renderString chars).length, nodes⟩) := by
  have long := renderString_length chars
  rw [length_append] at steps
  have body := @parseStringFrom_render _ profile cursor (cursor + 1) nodes rest [] chars
    profile.maxParserSteps (by simpa using short) (by omega)
  unfold parseString renderString
  rw [cons_append, consumeIf_cons, if_pos rfl]
  simp only [Utf8.encode, flatMap_nil, nil_append] at body
  simp only [Utf8.encode, append_assoc, singleton_append, body, length_cons,
    length_append, length_nil]
  congr 3
  omega

end

section
variable {Error : Type} {profile : Profile Error}

theorem number_cons (byte : Nat) (digits : Bytes) :
    Text.number (byte :: digits) = (byte - 48) * 10 ^ digits.length + Text.number digits := by
  unfold Text.number
  rw [reverse_cons, map_append, Nat.ofDigits_append]
  simp [Nat.ofDigits_singleton]
  ring

theorem magnitudeOf_ok {start : Nat} {digits : Bytes} {magnitude : Nat}
    (safe : magnitude * 10 ^ digits.length + Text.number digits ≤ maxInteger) :
    magnitudeOf profile start digits magnitude =
      .ok (magnitude * 10 ^ digits.length + Text.number digits) := by
  induction digits generalizing magnitude with
  | nil => simp [magnitudeOf, Text.number, pure, Except.pure]
  | cons byte digits ih =>
    have power : 1 ≤ 10 ^ digits.length := Nat.one_le_pow _ _ (by decide)
    have shift : magnitude * 10 ^ (byte :: digits).length + Text.number (byte :: digits) =
        (magnitude * 10 + (byte - 48)) * 10 ^ digits.length + Text.number digits := by
      rw [number_cons, length_cons, pow_succ]
      ring
    rw [shift] at safe ⊢
    have head : magnitude * 10 + (byte - 48) ≤ maxInteger :=
      le_trans (Nat.le_mul_of_pos_right _ power) (le_trans (Nat.le_add_right _ _) safe)
    rw [magnitudeOf, if_neg (by omega)]
    exact ih safe

theorem skipDigits_ok {digits rest : Bytes} {steps cursor nodes : Nat}
    (all : ∀ byte ∈ digits, isDigit byte = true) (delimited : Delimited rest)
    (enough : digits.length ≤ steps) :
    skipDigits profile steps ⟨digits ++ rest, cursor, nodes⟩ =
      .ok ⟨rest, cursor + digits.length, nodes⟩ := by
  induction digits generalizing steps cursor with
  | nil =>
    have stop : rest.head?.any isDigit = false := by
      cases rest with
      | nil => rfl
      | cons byte rest => exact (delimited byte rfl).1
    unfold skipDigits
    rw [if_neg (by simpa [Parser.peek] using stop)]
    rfl
  | cons byte digits ih =>
    obtain ⟨steps, rfl⟩ := Nat.exists_eq_succ_of_ne_zero
      (Nat.ne_of_gt (Nat.lt_of_lt_of_le (Nat.zero_lt_succ _) enough))
    have digit := all byte (mem_cons_self ..)
    unfold skipDigits
    rw [if_pos (by simpa [Parser.peek] using digit)]
    have rest' := @ih steps (cursor + 1)
      (fun other listed => all other (mem_cons_of_mem _ listed))
      (Nat.le_of_succ_le_succ enough)
    simp only [Parser.advance, cons_append, drop_succ_cons, drop_zero]
    rw [rest', length_cons]
    congr 2
    omega

theorem skipInteger_decimal {value start cursor nodes : Nat} {rest : Bytes}
    (delimited : Delimited rest)
    (steps : (Text.decimal value ++ rest).length < profile.maxParserSteps) :
    skipInteger profile start ⟨Text.decimal value ++ rest, cursor, nodes⟩ =
      .ok ⟨rest, cursor + (Text.decimal value).length, nodes⟩ := by
  rcases decimal_head value with ⟨-, same⟩ | ⟨byte, digits, same, low, high⟩
  · have stop : rest.head?.any isDigit = false := by
      cases rest with
      | nil => rfl
      | cons byte rest => exact (delimited byte rfl).1
    rw [same]
    simp [skipInteger, Parser.peek, Parser.advance, stop, pure, Except.pure]
  · have all : ∀ other ∈ digits, isDigit other = true := by
      intro other listed
      exact decimal_digits value other (by rw [same]; exact mem_cons_of_mem _ listed)
    rw [same, cons_append, length_cons, length_append] at steps
    rw [same]
    have rest' := @skipDigits_ok _ profile digits rest profile.maxParserSteps (cursor + 1) nodes all
      delimited (by omega)
    unfold skipInteger
    simp only [Parser.peek, cons_append, head?_cons]
    split
    · rename_i zero
      cases zero
      omega
    · rename_i found
      cases found
      rw [if_pos ⟨low, high⟩]
      simp only [Parser.advance, drop_succ_cons, drop_zero]
      rw [rest', length_cons]
      congr 2
      omega
    · rename_i nothing
      cases nothing

theorem delimited_peek {rest : Bytes} {cursor nodes : Nat} (delimited : Delimited rest) :
    ¬(Parser.peek ⟨rest, cursor, nodes⟩ = some 46 ∨ Parser.peek ⟨rest, cursor, nodes⟩ = some 101 ∨
      Parser.peek ⟨rest, cursor, nodes⟩ = some 69) := by
  rintro (same | same | same)
  · exact (delimited 46 same).2.1 rfl
  · exact (delimited 101 same).2.2.1 rfl
  · exact (delimited 69 same).2.2.2 rfl

theorem magnitudeOf_decimal {start value : Nat} (safe : value ≤ maxInteger) :
    magnitudeOf profile start (Text.decimal value) 0 = .ok value := by
  have number := Text.number_decimal value
  rw [magnitudeOf_ok (by omega), number]
  simp

theorem take_left (front rest : Bytes) (cursor : Nat) :
    (front ++ rest).take (cursor + front.length - cursor) = front := by
  rw [Nat.add_sub_cancel_left, List.take_left]

theorem parseInteger_render {value : Int} {cursor nodes : Nat} {rest : Bytes}
    (safe : value.natAbs ≤ maxInteger) (delimited : Delimited rest)
    (steps : (renderInteger value ++ rest).length < profile.maxParserSteps) :
    parseInteger profile ⟨renderInteger value ++ rest, cursor, nodes⟩ =
      .ok (value, ⟨rest, cursor + (renderInteger value).length, nodes⟩) := by
  by_cases negative : value < 0
  · have shape : renderInteger value = 45 :: Text.decimal value.natAbs := by
      rw [renderInteger, if_pos negative]
    rw [shape, cons_append, length_cons] at steps
    have skip := @skipInteger_decimal _ profile value.natAbs cursor (cursor + 1) nodes rest delimited
      (by omega)
    rw [shape]
    unfold parseInteger
    simp only [cons_append, consumeIf_cons, if_true, Option.isSome_some, Option.getD_some,
      skip, take_left, magnitudeOf_decimal safe, bind, Except.bind]
    rw [if_neg (delimited_peek delimited), if_neg (by omega)]
    simp only [pure, Except.pure, length_cons]
    congr 2
    · omega
    · congr 1
      omega
  · have shape : renderInteger value = Text.decimal value.natAbs := by
      rw [renderInteger, if_neg negative]
    rw [shape] at steps
    have skip := @skipInteger_decimal _ profile value.natAbs cursor cursor nodes rest delimited steps
    have unsigned : Parser.consumeIf ⟨Text.decimal value.natAbs ++ rest, cursor, nodes⟩ 45 =
        none := by
      rcases decimal_head value.natAbs with ⟨-, same⟩ | ⟨byte, digits, same, low, high⟩
      · rw [same]
        rfl
      · rw [same, cons_append, consumeIf_cons, if_neg (by omega)]
    rw [shape]
    unfold parseInteger
    simp only [unsigned, Option.isSome_none, Option.getD_none, skip, take_left,
      magnitudeOf_decimal safe, bind, Except.bind, Bool.false_eq_true, false_and, if_false]
    rw [if_neg (delimited_peek delimited)]
    simp only [pure, Except.pure]
    congr 2
    omega

end

section
open JsonValue
variable {Error : Type} {profile : Profile Error}

def ReadsBack (profile : Profile Error) (inner : Inner Error) (value : JsonValue) : Prop :=
  ∀ (rest : Bytes) (cursor nodes : Nat), Delimited rest →
    (render value ++ rest).length < profile.maxParserSteps →
    nodes + value.count ≤ profile.maxNodes →
    inner ⟨render value ++ rest, cursor, nodes⟩ =
      .ok (value, ⟨rest, cursor + (render value).length, nodes + value.count⟩)

theorem renderInteger_head (value : Int) :
    ∃ byte more, renderInteger value = byte :: more ∧ (byte = 45 ∨ isDigit byte = true) := by
  unfold renderInteger
  split
  · exact ⟨45, _, rfl, .inl rfl⟩
  · rcases decimal_head value.natAbs with ⟨-, same⟩ | ⟨byte, digits, same, low, high⟩
    · exact ⟨48, [], same, .inr rfl⟩
    · exact ⟨byte, digits, same, .inr (by simp [isDigit]; omega)⟩

theorem render_head (value : JsonValue) :
    ∃ byte more, render value = byte :: more ∧ isWhitespace byte = false ∧ byte ≠ 93 := by
  cases value with
  | null => exact ⟨110, _, rfl, by decide, by decide⟩
  | boolean value =>
    cases value
    · exact ⟨102, _, rfl, by decide, by decide⟩
    · exact ⟨116, _, rfl, by decide, by decide⟩
  | integer value =>
    obtain ⟨byte, more, same, start⟩ := renderInteger_head value
    have range : byte = 45 ∨ 48 ≤ byte ∧ byte ≤ 57 := by simpa [isDigit] using start
    refine ⟨byte, more, same, ?_, by omega⟩
    simp only [isWhitespace, Bool.or_eq_false_iff, beq_eq_false_iff_ne]
    omega
  | string value => exact ⟨34, _, rfl, by decide, by decide⟩
  | array items => exact ⟨91, _, rfl, by decide, by decide⟩
  | object members => exact ⟨123, _, rfl, by decide, by decide⟩

theorem skipWhitespace_cons {byte : Nat} {rest : Bytes} {cursor nodes : Nat}
    (plain : isWhitespace byte = false) :
    skipWhitespace profile ⟨byte :: rest, cursor, nodes⟩ = .ok ⟨byte :: rest, cursor, nodes⟩ :=
  skipWhitespace_stop (by simp [Parser.peek, plain])

theorem skipWhitespace_render (value : JsonValue) {rest : Bytes} {cursor nodes : Nat} :
    skipWhitespace profile ⟨render value ++ rest, cursor, nodes⟩ =
      .ok ⟨render value ++ rest, cursor, nodes⟩ := by
  obtain ⟨byte, more, same, plain, -⟩ := render_head value
  rw [same]
  exact skipWhitespace_cons plain

theorem renderItems_succ (index : Nat) (items : List JsonValue) :
    renderItems (index + 1) items = renderItems 1 items := by
  induction items generalizing index with
  | nil => rfl
  | cons item items ih => rw [renderItems, renderItems, ih (index + 1), ih 1]; rfl

theorem renderMembers_succ (index : Nat) (members : List Member) :
    renderMembers (index + 1) members = renderMembers 1 members := by
  induction members generalizing index with
  | nil => rfl
  | cons member members ih => rw [renderMembers, renderMembers, ih (index + 1), ih 1]; rfl

variable {inner : Inner Error}

theorem parseItems_render {item : JsonValue} {items values : List JsonValue}
    {rest : Bytes} {cursor nodes left : Nat}
    (each : ∀ one ∈ item :: items, ReadsBack profile inner one) (few : items.length < left)
    (steps : (render item ++ (renderItems 1 items ++ 93 :: rest)).length < profile.maxParserSteps)
    (room : nodes + countItems (item :: items) ≤ profile.maxNodes) :
    parseItems profile inner left values
      ⟨render item ++ (renderItems 1 items ++ 93 :: rest), cursor, nodes⟩ =
      .ok (values ++ item :: items,
        ⟨rest, cursor + (render item).length + (renderItems 1 items).length + 1,
          nodes + countItems (item :: items)⟩) := by
  induction items generalizing item values cursor nodes left with
  | nil =>
    obtain ⟨left, rfl⟩ := Nat.exists_eq_succ_of_ne_zero (Nat.ne_of_gt (Nat.zero_lt_of_lt few))
    have head := each item (mem_cons_self ..) (93 :: rest) cursor nodes
      (delimited_cons (by decide) (by decide) (by decide) (by decide)) steps
      (by simpa [countItems] using room)
    simp only [renderItems, nil_append, parseItems, head, bind, Except.bind]
    rw [skipWhitespace_cons (by decide)]
    simp only [consumeIf_cons, if_true, countItems]
    rfl
  | cons next items ih =>
    obtain ⟨left, rfl⟩ := Nat.exists_eq_succ_of_ne_zero (Nat.ne_of_gt (Nat.zero_lt_of_lt few))
    have shape : renderItems 1 (next :: items) = 44 :: (render next ++ renderItems 1 items) := by
      rw [renderItems, renderItems_succ]
      rfl
    rw [shape] at steps ⊢
    simp only [cons_append, append_assoc] at steps ⊢
    have budget : nodes + item.count ≤ profile.maxNodes := by
      simp only [countItems] at room
      omega
    have head := each item (mem_cons_self ..)
      (44 :: (render next ++ (renderItems 1 items ++ 93 :: rest))) cursor nodes
      (delimited_cons (by decide) (by decide) (by decide) (by decide)) steps budget
    have tail := @ih next (values ++ [item]) (cursor + (render item).length + 1)
      (nodes + item.count) left
      (fun one listed => each one (mem_cons_of_mem _ listed))
      (by simpa using few)
      (by simp only [length_append, length_cons] at steps ⊢; omega)
      (by simp only [countItems] at room ⊢; omega)
    simp only [parseItems, head, bind, Except.bind]
    rw [skipWhitespace_cons (by decide)]
    simp only [consumeIf_cons, Nat.reduceEqDiff, if_false, if_true]
    rw [skipWhitespace_render next]
    simp only [tail, append_assoc, singleton_append, countItems, length_cons,
      length_append]
    congr 3
    · omega
    · omega

def renderMember (member : Member) : Bytes := renderString member.1 ++ 58 :: render member.2

theorem renderMembers_cons (member : Member) (members : List Member) :
    renderMembers 0 (member :: members) = renderMember member ++ renderMembers 1 members ∧
      renderMembers 1 (member :: members) =
        44 :: (renderMember member ++ renderMembers 1 members) := by
  constructor <;> simp [renderMembers, renderMembers_succ, renderMember, separator]

theorem parseMembers_step {member : Member} {seen : List Member}
    {byte cursor nodes left : Nat} {rest : Bytes} (reads : ReadsBack profile inner member.2)
    (short : Short profile member.1) (fresh : member.1 ∉ seen.map Prod.fst)
    (ends : byte = 125 ∨ byte = 44)
    (steps : (renderMember member ++ byte :: rest).length < profile.maxParserSteps)
    (room : nodes + member.2.count ≤ profile.maxNodes) :
    parseMembers profile inner (left + 1) seen
      ⟨renderMember member ++ byte :: rest, cursor, nodes⟩ =
      if byte = 125 then
        .ok (seen ++ [member],
          ⟨rest, cursor + (renderMember member).length + 1, nodes + member.2.count⟩)
      else
        skipWhitespace profile
          ⟨rest, cursor + (renderMember member).length + 1, nodes + member.2.count⟩ >>=
            parseMembers profile inner left (seen ++ [member]) := by
  obtain ⟨key, value⟩ := member
  simp only [renderMember, append_assoc, cons_append, length_append,
    length_cons] at steps ⊢
  have name := @parseString_render _ profile key (58 :: (render value ++ byte :: rest)) cursor nodes
    short (by simp only [length_append, length_cons]; omega)
  have body := reads (byte :: rest) (cursor + (renderString key).length + 1) nodes
    (by rcases ends with rfl | rfl <;>
      exact delimited_cons (by decide) (by decide) (by decide) (by decide))
    (by simp only [length_append, length_cons]; omega) room
  have quoted : Parser.peek ⟨renderString key ++ 58 :: (render value ++ byte :: rest), cursor,
      nodes⟩ = some 34 := rfl
  have plain : isWhitespace byte = false := by rcases ends with rfl | rfl <;> decide
  unfold parseMembers
  simp only [quoted, ne_eq, not_true_eq_false, if_false, name, fresh, bind, Except.bind]
  rw [skipWhitespace_cons (by decide)]
  simp only [consumeIf_cons, if_true]
  rw [skipWhitespace_render value]
  simp only [body]
  rw [skipWhitespace_cons plain]
  have cursors : cursor + (renderString key).length + 1 + (render value).length + 1 =
      cursor + ((renderString key).length + ((render value).length + 1)) + 1 := by omega
  rcases ends with rfl | rfl
  · simp only [consumeIf_cons, if_true, cursors]
    rfl
  · simp only [consumeIf_cons, Nat.reduceEqDiff, if_false, if_true, cursors]

theorem parseMembers_render {member : Member} {members seen : List Member}
    {rest : Bytes} {cursor nodes left : Nat}
    (each : ∀ one ∈ member :: members, ReadsBack profile inner one.2)
    (short : ∀ one ∈ member :: members, Short profile one.1) (few : members.length < left)
    (keys : ((seen ++ member :: members).map Prod.fst).Nodup)
    (steps : (renderMember member ++ (renderMembers 1 members ++ 125 :: rest)).length <
      profile.maxParserSteps)
    (room : nodes + countMembers (member :: members) ≤ profile.maxNodes) :
    parseMembers profile inner left seen
      ⟨renderMember member ++ (renderMembers 1 members ++ 125 :: rest), cursor, nodes⟩ =
      .ok (seen ++ member :: members,
        ⟨rest, cursor + (renderMember member).length + (renderMembers 1 members).length + 1,
          nodes + countMembers (member :: members)⟩) := by
  induction members generalizing member seen cursor nodes left with
  | nil =>
    obtain ⟨left, rfl⟩ := Nat.exists_eq_succ_of_ne_zero (Nat.ne_of_gt (Nat.zero_lt_of_lt few))
    have fresh : member.1 ∉ seen.map Prod.fst := by
      intro known
      rw [map_append, nodup_append] at keys
      exact keys.2.2 _ known _ (by simp) rfl
    have head := @parseMembers_step _ profile inner member seen 125 cursor nodes left rest
      (each member (mem_cons_self ..)) (short member (mem_cons_self ..)) fresh (.inl rfl)
      steps (by simpa [countMembers] using room)
    simpa [renderMembers, countMembers] using head
  | cons next members ih =>
    obtain ⟨left, rfl⟩ := Nat.exists_eq_succ_of_ne_zero (Nat.ne_of_gt (Nat.zero_lt_of_lt few))
    have fresh : member.1 ∉ seen.map Prod.fst := by
      intro known
      rw [map_append, nodup_append] at keys
      exact keys.2.2 _ known _ (by simp) rfl
    rw [(renderMembers_cons next members).2] at steps ⊢
    simp only [cons_append, append_assoc] at steps ⊢
    simp only [countMembers] at room
    have head := @parseMembers_step _ profile inner member seen 44 cursor nodes left
      (renderMember next ++ (renderMembers 1 members ++ 125 :: rest))
      (each member (mem_cons_self ..)) (short member (mem_cons_self ..)) fresh (.inr rfl)
      steps (by omega)
    have tail := @ih next (seen ++ [member]) (cursor + (renderMember member).length + 1)
      (nodes + member.2.count) left (fun one listed => each one (mem_cons_of_mem _ listed))
      (fun one listed => short one (mem_cons_of_mem _ listed))
      (by simpa using few) (by simpa using keys)
      (by simp only [length_append, length_cons] at steps ⊢; omega)
      (by simp only [countMembers]; omega)
    rw [head, if_neg (by decide)]
    have quote : skipWhitespace profile
        ⟨renderMember next ++ (renderMembers 1 members ++ 125 :: rest),
          cursor + (renderMember member).length + 1, nodes + member.2.count⟩ =
        .ok ⟨renderMember next ++ (renderMembers 1 members ++ 125 :: rest),
          cursor + (renderMember member).length + 1, nodes + member.2.count⟩ :=
      skipWhitespace_cons (by decide)
    rw [quote]
    simp only [bind, Except.bind, tail, append_assoc, singleton_append, countMembers,
      length_cons, length_append]
    congr 3
    · omega
    · omega

theorem parseValue_with (arrange : List Member → List Member) (levels : Nat) :
    ∃ inner, parseValue profile arrange levels = parseValueWith profile arrange inner := by
  cases levels with
  | zero => exact ⟨none, by funext parser; rfl⟩
  | succ levels => exact ⟨some (parseValue profile arrange levels), by funext parser; rfl⟩

theorem registerNode_ok {rest : Bytes} {cursor nodes : Nat} (room : nodes + 1 ≤ profile.maxNodes) :
    registerNode profile ⟨rest, cursor, nodes⟩ = .ok ⟨rest, cursor, nodes + 1⟩ := by
  rw [registerNode, if_neg (by simp only; omega)]
  rfl

theorem parseLiteral_ok {literal rest : Bytes} {value : JsonValue} {cursor nodes : Nat} :
    parseLiteral profile literal value ⟨literal ++ rest, cursor, nodes⟩ =
      .ok (value, ⟨rest, cursor + literal.length, nodes⟩) := by
  simp [parseLiteral, Parser.advance, pure, Except.pure]

theorem parseValueWith_node {arrange : List Member → List Member} {inner : Option (Inner Error)}
    {rest : Bytes} {cursor nodes : Nat} (room : nodes + 1 ≤ profile.maxNodes) :
    parseValueWith profile arrange inner ⟨rest, cursor, nodes⟩ =
      parseByte profile arrange inner ⟨rest, cursor, nodes + 1⟩ := by
  rw [parseValueWith, registerNode_ok room]
  rfl

theorem parseByte_integer {arrange : List Member → List Member} {inner : Option (Inner Error)}
    {byte cursor nodes : Nat} {rest : Bytes} (start : byte = 45 ∨ isDigit byte = true) :
    parseByte profile arrange inner ⟨byte :: rest, cursor, nodes⟩ =
      (do
        let (number, parser) ← parseInteger profile ⟨byte :: rest, cursor, nodes⟩
        return (.integer number, parser)) := by
  have range : byte = 45 ∨ 48 ≤ byte ∧ byte ≤ 57 := by simpa [isDigit] using start
  unfold parseByte
  simp only [Parser.peek, head?_cons]
  split <;> rename_i found <;> simp only [Option.some.injEq, reduceCtorEq] at found
  · omega
  · omega
  · omega
  · omega
  · omega
  · omega
  · subst found
    rw [if_pos start]

theorem parseArray_render {items : List JsonValue} {rest : Bytes}
    {cursor nodes : Nat} (each : ∀ item ∈ items, ReadsBack profile inner item)
    (few : items.length ≤ profile.maxArrayItems)
    (steps : (render (.array items) ++ rest).length < profile.maxParserSteps)
    (room : nodes + countItems items ≤ profile.maxNodes) :
    parseArray profile (some inner) ⟨render (.array items) ++ rest, cursor, nodes⟩ =
      .ok (.array items,
        ⟨rest, cursor + (render (.array items)).length, nodes + countItems items⟩) := by
  simp only [render, cons_append, append_assoc, nil_append, length_cons] at steps
  simp only [render, cons_append, append_assoc, nil_append, parseArray,
    Parser.advance, drop_succ_cons, drop_zero, length_cons, length_append,
    length_nil]
  cases items with
  | nil =>
    simp only [renderItems, nil_append, bind, Except.bind]
    rw [skipWhitespace_cons (by decide)]
    simp only [consumeIf_cons, if_true, countItems, length_nil]
    rfl
  | cons item items =>
    have shape : renderItems 0 (item :: items) = render item ++ renderItems 1 items := rfl
    rw [shape, append_assoc] at steps
    have body := @parseItems_render _ profile inner item items [] rest (cursor + 1) nodes
      profile.maxArrayItems each (by simpa using few) (by omega) room
    obtain ⟨byte, more, head, -, open_⟩ := render_head item
    have filled : Parser.consumeIf ⟨render item ++ (renderItems 1 items ++ 93 :: rest), cursor + 1,
        nodes⟩ 93 = none := by
      rw [head, cons_append, consumeIf_cons, if_neg open_]
    rw [shape, append_assoc]
    simp only [bind, Except.bind]
    rw [skipWhitespace_render item]
    simp only [filled, body, nil_append, pure, Except.pure, length_append]
    congr 3
    omega

theorem parseObject_render {members : List Member} {rest : Bytes}
    {cursor nodes : Nat} (each : ∀ member ∈ members, ReadsBack profile inner member.2)
    (short : ∀ member ∈ members, Short profile member.1)
    (few : members.length ≤ profile.maxObjectMembers) (keys : (members.map Prod.fst).Nodup)
    (steps : (render (.object members) ++ rest).length < profile.maxParserSteps)
    (room : nodes + countMembers members ≤ profile.maxNodes) :
    parseObject profile id (some inner) ⟨render (.object members) ++ rest, cursor, nodes⟩ =
      .ok (.object members,
        ⟨rest, cursor + (render (.object members)).length, nodes + countMembers members⟩) := by
  simp only [render, cons_append, append_assoc, nil_append, length_cons] at steps
  simp only [render, cons_append, append_assoc, nil_append, parseObject,
    Parser.advance, drop_succ_cons, drop_zero, length_cons, length_append,
    length_nil]
  cases members with
  | nil =>
    simp only [renderMembers, nil_append, bind, Except.bind]
    rw [skipWhitespace_cons (by decide)]
    simp only [consumeIf_cons, if_true, countMembers, length_nil]
    rfl
  | cons member members =>
    have shape := (renderMembers_cons member members).1
    rw [shape, append_assoc] at steps
    have body := @parseMembers_render _ profile inner member members [] rest (cursor + 1) nodes
      profile.maxObjectMembers each short (by simpa using few) keys (by omega) room
    have filled : Parser.consumeIf ⟨renderMember member ++ (renderMembers 1 members ++ 125 :: rest),
        cursor + 1, nodes⟩ 125 = none := rfl
    have quote : skipWhitespace profile
        ⟨renderMember member ++ (renderMembers 1 members ++ 125 :: rest), cursor + 1, nodes⟩ =
        .ok ⟨renderMember member ++ (renderMembers 1 members ++ 125 :: rest), cursor + 1, nodes⟩ :=
      skipWhitespace_cons (by decide)
    rw [shape, append_assoc]
    simp only [bind, Except.bind]
    rw [quote]
    simp only [filled, body, nil_append, pure, Except.pure, length_append, id_eq]
    congr 3
    omega

theorem within_reads {levels : Nat} {value : JsonValue} (within : Within profile levels value) :
    ReadsBack profile (parseValue profile id levels) value := by
  induction within with
  | @null levels =>
    obtain ⟨inner, same⟩ := @parseValue_with _ profile id levels
    intro rest cursor nodes _ _ room
    rw [same, parseValueWith_node room]
    exact parseLiteral_ok
  | @boolean levels value =>
    obtain ⟨inner, same⟩ := @parseValue_with _ profile id levels
    intro rest cursor nodes _ _ room
    rw [same, parseValueWith_node room]
    cases value <;> exact parseLiteral_ok
  | @integer levels value safe =>
    obtain ⟨inner, same⟩ := @parseValue_with _ profile id levels
    intro rest cursor nodes delimited steps room
    obtain ⟨byte, more, shape, start⟩ := renderInteger_head value
    have reads := @parseInteger_render _ profile value cursor (nodes + 1) rest safe delimited steps
    rw [shape, cons_append] at reads
    rw [same, parseValueWith_node room, render, shape, cons_append, parseByte_integer start,
      reads]
    rfl
  | @string levels value short =>
    obtain ⟨inner, same⟩ := @parseValue_with _ profile id levels
    intro rest cursor nodes _ steps room
    have reads := @parseString_render _ profile value rest cursor (nodes + 1) short steps
    have quoted : parseByte profile id inner ⟨renderString value ++ rest, cursor, nodes + 1⟩ =
        parseString profile ⟨renderString value ++ rest, cursor, nodes + 1⟩ >>= fun read =>
          return (.string read.1, read.2) := rfl
    rw [same, parseValueWith_node room, render, quoted, reads]
    rfl
  | @array levels items few _ ih =>
    intro rest cursor nodes _ steps room
    simp only [count] at room
    have body := @parseArray_render _ profile (parseValue profile id levels) items rest cursor
      (nodes + 1) ih few steps (by omega)
    rw [parseValue, parseValueWith_node (by omega)]
    have bracket : parseByte profile id (some (parseValue profile id levels))
        ⟨render (.array items) ++ rest, cursor, nodes + 1⟩ = _ := body
    rw [bracket, count, Nat.add_assoc]
  | @object levels members few keys short _ ih =>
    intro rest cursor nodes _ steps room
    simp only [count] at room
    have body := @parseObject_render _ profile (parseValue profile id levels) members rest cursor
      (nodes + 1) ih short few keys steps (by omega)
    rw [parseValue, parseValueWith_node (by omega)]
    have brace : parseByte profile id (some (parseValue profile id levels))
        ⟨render (.object members) ++ rest, cursor, nodes + 1⟩ = _ := body
    rw [brace, count, Nat.add_assoc]

end
end Canonical
