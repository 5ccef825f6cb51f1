import Eliot.Canonical.Soundness

namespace Canonical
open Fallible (bind_ok guard_ok bind_same guard_same throw_bind)
open Text (isDigit)

section
variable {Error : Type} {profile : Profile Error} {steps : Nat}

def Profile.patient (profile : Profile Error) (steps : Nat) : Profile Error := { profile with maxParserSteps := steps }

def Enough (profile : Profile Error) (steps : Nat) (parser : Parser) : Prop :=
  parser.rest.length < profile.maxParserSteps ∧ parser.rest.length < steps

variable {parser after : Parser}

theorem Enough.later (enough : Enough profile steps parser)
    (shorter : after.rest.length ≤ parser.rest.length) : Enough profile steps after :=
  ⟨lt_of_le_of_lt shorter enough.1, lt_of_le_of_lt shorter enough.2⟩

theorem advance_shorter (parser : Parser) (width : Nat) :
    (parser.advance width).rest.length = parser.rest.length - width := List.length_drop

theorem peek_filled {byte : Nat} (head : parser.peek = some byte) : 0 < parser.rest.length := by
  unfold Parser.peek at head
  cases rest : parser.rest with
  | nil =>
    rw [rest] at head
    cases head
  | cons first others => exact Nat.succ_pos _

theorem consumeIf_shorter {expected : Nat} (ate : parser.consumeIf expected = some after) :
    after.rest.length < parser.rest.length := by
  unfold Parser.consumeIf at ate
  by_cases head : parser.peek = some expected
  · rw [if_pos head] at ate
    have filled := peek_filled head
    rw [← Option.some.inj ate, advance_shorter]
    omega
  · rw [if_neg head] at ate
    cases ate

variable {turns : Nat}

theorem skipWhitespaceFrom_shorter
    (ran : skipWhitespaceFrom profile turns parser = .ok after) : after.rest.length ≤ parser.rest.length := by
  induction turns generalizing parser with
  | zero =>
    unfold skipWhitespaceFrom at ran
    split at ran
    · cases ran
    · cases ran
      exact Nat.le_refl _
  | succ turns ih =>
    unfold skipWhitespaceFrom at ran
    split at ran
    · have step := ih ran
      rw [advance_shorter] at step
      omega
    · cases ran
      exact Nat.le_refl _

theorem skipWhitespace_shorter (ran : skipWhitespace profile parser = .ok after) :
    after.rest.length ≤ parser.rest.length := skipWhitespaceFrom_shorter ran

theorem skipWhitespaceFrom_blank (blank : parser.peek.any isWhitespace = true) :
    skipWhitespaceFrom profile (turns + 1) parser = skipWhitespaceFrom profile turns (parser.advance 1) := by
  rw [skipWhitespaceFrom.eq_def]
  dsimp only
  rw [if_pos blank]

theorem skipWhitespaceFrom_plain (plain : ¬parser.peek.any isWhitespace = true) :
    skipWhitespaceFrom profile turns parser = .ok parser := by
  rw [skipWhitespaceFrom.eq_def]
  dsimp only
  rw [if_neg plain]
  rfl

theorem skipWhitespaceFrom_patient {turns others : Nat} (one : parser.rest.length ≤ turns)
    (two : parser.rest.length ≤ others) :
    skipWhitespaceFrom (profile.patient steps) others parser = skipWhitespaceFrom profile turns parser := by
  induction turns generalizing others parser with
  | zero =>
    have empty : parser.peek = none := by
      rw [Parser.peek, List.length_eq_zero_iff.mp (Nat.le_zero.mp one)]
      rfl
    rw [skipWhitespaceFrom_plain (by rw [empty]; decide), skipWhitespaceFrom_plain (by rw [empty]; decide)]
  | succ turns ih =>
    by_cases blank : parser.peek.any isWhitespace = true
    · obtain ⟨byte, head, -⟩ := any_some blank
      have filled := peek_filled head
      have next := advance_shorter parser 1
      rw [skipWhitespaceFrom_blank blank]
      cases others with
      | zero => omega
      | succ others =>
        rw [skipWhitespaceFrom_blank blank]
        exact ih (by omega) (by omega)
    · rw [skipWhitespaceFrom_plain blank, skipWhitespaceFrom_plain blank]

theorem skipWhitespace_patient (enough : Enough profile steps parser) :
    skipWhitespace (profile.patient steps) parser = skipWhitespace profile parser :=
  skipWhitespaceFrom_patient (Nat.le_of_lt enough.1) (Nat.le_of_lt enough.2)

theorem skipDigits_digit (digit : parser.peek.any isDigit = true) :
    skipDigits profile (turns + 1) parser = skipDigits profile turns (parser.advance 1) := by
  rw [skipDigits.eq_def]
  dsimp only
  rw [if_pos digit]

theorem skipDigits_plain (plain : ¬parser.peek.any isDigit = true) :
    skipDigits profile turns parser = .ok parser := by
  rw [skipDigits.eq_def]
  dsimp only
  rw [if_neg plain]
  rfl

theorem skipDigits_patient {turns others : Nat} (one : parser.rest.length ≤ turns)
    (two : parser.rest.length ≤ others) :
    skipDigits (profile.patient steps) others parser = skipDigits profile turns parser := by
  induction turns generalizing others parser with
  | zero =>
    have empty : parser.peek = none := by
      rw [Parser.peek, List.length_eq_zero_iff.mp (Nat.le_zero.mp one)]
      rfl
    rw [skipDigits_plain (by rw [empty]; decide), skipDigits_plain (by rw [empty]; decide)]
  | succ turns ih =>
    by_cases digit : parser.peek.any isDigit = true
    · obtain ⟨byte, head, -⟩ := any_some digit
      have filled := peek_filled head
      have next := advance_shorter parser 1
      rw [skipDigits_digit digit]
      cases others with
      | zero => omega
      | succ others =>
        rw [skipDigits_digit digit]
        exact ih (by omega) (by omega)
    · rw [skipDigits_plain digit, skipDigits_plain digit]

theorem skipDigits_shorter (ran : skipDigits profile turns parser = .ok after) :
    after.rest.length ≤ parser.rest.length := by
  induction turns generalizing parser with
  | zero =>
    unfold skipDigits at ran
    split at ran
    · cases ran
    · cases ran
      exact Nat.le_refl _
  | succ turns ih =>
    unfold skipDigits at ran
    split at ran
    · have step := ih ran
      rw [advance_shorter] at step
      omega
    · cases ran
      exact Nat.le_refl _

theorem skipInteger_patient {start : Nat} (enough : Enough profile steps parser) :
    skipInteger (profile.patient steps) start parser = skipInteger profile start parser := by
  have next := advance_shorter parser 1
  have digits : skipDigits (profile.patient steps) steps (parser.advance 1) =
      skipDigits profile profile.maxParserSteps (parser.advance 1) :=
    skipDigits_patient (by have := enough.1; omega) (by have := enough.2; omega)
  unfold skipInteger
  split
  · rfl
  · split
    · exact digits
    · rfl
  · rfl

theorem skipInteger_shorter {start : Nat}
    (ran : skipInteger profile start parser = .ok after) : after.rest.length ≤ parser.rest.length := by
  have next := advance_shorter parser 1
  unfold skipInteger at ran
  split at ran
  · split at ran
    · cases ran
    · cases ran
      omega
  · split at ran
    · have step := skipDigits_shorter ran
      omega
    · cases ran
  · cases ran

theorem signed_shorter (parser : Parser) : ((parser.consumeIf 45).getD parser).rest.length ≤ parser.rest.length := by
  cases sign : parser.consumeIf 45 with
  | none => exact Nat.le_refl _
  | some after => exact Nat.le_of_lt (consumeIf_shorter sign)

theorem magnitudeOf_patient (start : Nat) (digits : Bytes) (magnitude : Nat) :
    magnitudeOf (profile.patient steps) start digits magnitude = magnitudeOf profile start digits magnitude := by
  induction digits generalizing magnitude with
  | nil => rfl
  | cons byte digits ih =>
    unfold magnitudeOf
    dsimp only
    rw [ih]
    rfl

theorem parseInteger_patient (enough : Enough profile steps parser) :
    parseInteger (profile.patient steps) parser = parseInteger profile parser := by
  unfold parseInteger
  dsimp only
  rw [skipInteger_patient (enough.later (signed_shorter parser))]
  simp only [magnitudeOf_patient]
  rfl

theorem parseInteger_shorter {value : Int}
    (ran : parseInteger profile parser = .ok (value, after)) : after.rest.length ≤ parser.rest.length := by
  unfold parseInteger at ran
  obtain ⟨skipped, skip, ran⟩ := bind_ok ran
  obtain ⟨-, ran⟩ := guard_ok ran
  obtain ⟨magnitude, read, ran⟩ := bind_ok ran
  obtain ⟨-, ran⟩ := guard_ok ran
  cases ran
  exact le_trans (skipInteger_shorter skip) (signed_shorter parser)

theorem hexQuadFrom_patient (offset : Nat) (bytes : Bytes) (value : Nat) :
    hexQuadFrom (profile.patient steps) offset bytes value = hexQuadFrom profile offset bytes value := by
  induction bytes generalizing value with
  | nil => rfl
  | cons byte bytes ih =>
    unfold hexQuadFrom
    cases hexNibble byte with
    | none => rfl
    | some nibble => exact ih _

theorem parseHexQuad_patient (offset : Nat) (parser : Parser) :
    parseHexQuad (profile.patient steps) offset parser = parseHexQuad profile offset parser := by
  unfold parseHexQuad
  simp only [hexQuadFrom_patient]
  rfl

theorem parseScalar_patient (offset : Nat) (parser : Parser) :
    parseScalar (profile.patient steps) offset parser = parseScalar profile offset parser := by
  unfold parseScalar parseLowSurrogate
  simp only [parseHexQuad_patient]
  rfl

theorem parseEscape_patient (output : Bytes) (parser : Parser) :
    parseEscape (profile.patient steps) output parser = parseEscape profile output parser := by
  unfold parseEscape parseUnicodeEscape
  simp only [parseScalar_patient]
  rfl

theorem parseHexQuad_shorter {offset value : Nat}
    (ran : parseHexQuad profile offset parser = .ok (value, after)) : after.rest.length + 4 = parser.rest.length := by
  unfold parseHexQuad at ran
  obtain ⟨long, ran⟩ := guard_ok ran
  obtain ⟨number, -, ran⟩ := bind_ok ran
  obtain ⟨-, rfl⟩ := Prod.mk.inj (Except.ok.inj ran)
  rw [advance_shorter]
  omega

theorem parseScalar_shorter {offset value : Nat}
    (ran : parseScalar profile offset parser = .ok (value, after)) : after.rest.length + 4 ≤ parser.rest.length := by
  unfold parseScalar at ran
  obtain ⟨⟨first, next⟩, read, ran⟩ := bind_ok ran
  have quad := parseHexQuad_shorter read
  dsimp only at ran
  split at ran
  · unfold parseLowSurrogate at ran
    obtain ⟨-, ran⟩ := guard_ok ran
    obtain ⟨⟨second, last⟩, pair, ran⟩ := bind_ok ran
    have low := parseHexQuad_shorter pair
    rw [advance_shorter] at low
    dsimp only at ran
    split at ran
    · obtain ⟨-, rfl⟩ := Prod.mk.inj (Except.ok.inj ran)
      omega
    · cases ran
  · split at ran
    · cases ran
    · obtain ⟨-, rfl⟩ := Prod.mk.inj (Except.ok.inj ran)
      omega

theorem appendStringBytes_grows {output bytes result : Bytes}
    (ran : appendStringBytes profile output bytes = .ok result) : result = output ++ bytes := by
  unfold appendStringBytes at ran
  split at ran
  · cases ran
  · exact (Except.ok.inj ran).symm

theorem parseEscape_shorter {output result : Bytes}
    (ran : parseEscape profile output parser = .ok (result, after)) : after.rest.length ≤ parser.rest.length := by
  have next := advance_shorter parser 1
  unfold parseEscape at ran
  dsimp only at ran
  split at ran
  · cases ran
  split at ran
  · obtain ⟨grown, appended, ran⟩ := bind_ok ran
    cases ran
    omega
  split at ran
  · unfold parseUnicodeEscape at ran
    obtain ⟨⟨scalar, last⟩, read, ran⟩ := bind_ok ran
    have digits := parseScalar_shorter read
    dsimp only at ran
    split at ran
    · obtain ⟨grown, appended, ran⟩ := bind_ok ran
      cases ran
      omega
    · cases ran
  · cases ran

theorem utf8Width_wide {byte width : Nat} (wide : utf8Width byte = some width) : 1 < width := by
  unfold utf8Width at wide
  split_ifs at wide <;> have same := Option.some.inj wide <;> omega

theorem parseStringFrom_patient {start turns others : Nat} {output : Bytes}
    (one : parser.rest.length < turns) (two : parser.rest.length < others) :
    parseStringFrom (profile.patient steps) start others output parser =
      parseStringFrom profile start turns output parser := by
  induction turns generalizing others output parser with
  | zero => omega
  | succ turns ih =>
    cases others with
    | zero => omega
    | succ others =>
      unfold parseStringFrom
      cases head : parser.peek with
      | none => rfl
      | some byte =>
        have filled := peek_filled head
        have next := advance_shorter parser 1
        dsimp only
        split
        · rfl
        split
        · rw [parseEscape_patient]
          cases escaped : parseEscape profile output (parser.advance 1) with
          | error error => rfl
          | ok read =>
            have shorter : read.2.rest.length ≤ _ := parseEscape_shorter escaped
            exact ih (by omega) (by omega)
        split
        · rfl
        split
        · show (appendStringBytes profile output [byte] >>= _) = _
          cases appendStringBytes profile output [byte] with
          | error error => rfl
          | ok grown => exact ih (by omega) (by omega)
        · cases wide : utf8Width byte with
          | none => rfl
          | some width =>
            have bytes := advance_shorter parser width
            have positive := utf8Width_wide wide
            dsimp only
            split
            · rfl
            · show (appendStringBytes profile output (parser.rest.take width) >>= _) = _
              cases appendStringBytes profile output (parser.rest.take width) with
              | error error => rfl
              | ok grown => exact ih (by omega) (by omega)

theorem parseString_patient (enough : Enough profile steps parser) :
    parseString (profile.patient steps) parser = parseString profile parser := by
  unfold parseString
  cases quoted : parser.consumeIf 34 with
  | none => rfl
  | some inside =>
    have shorter := consumeIf_shorter quoted
    exact parseStringFrom_patient (lt_trans shorter enough.1) (lt_trans shorter enough.2)

theorem parseStringFrom_shorter {start turns : Nat} {output : Bytes} {string : List Char}
    (ran : parseStringFrom profile start turns output parser = .ok (string, after)) :
    after.rest.length ≤ parser.rest.length := by
  have next := advance_shorter parser 1
  induction turns generalizing output parser with
  | zero => cases ran
  | succ turns ih =>
    have step {other : Parser} {grown : Bytes} (shorter : other.rest.length ≤ parser.rest.length)
        (more : parseStringFrom profile start turns grown other = .ok (string, after)) :
        after.rest.length ≤ parser.rest.length :=
      le_trans (ih more (advance_shorter other 1)) shorter
    unfold parseStringFrom at ran
    split at ran
    · cases ran
    split at ran
    · split at ran
      · cases ran
        omega
      · cases ran
    split at ran
    · obtain ⟨⟨grown, other⟩, escaped, ran⟩ := bind_ok ran
      have shorter := parseEscape_shorter escaped
      exact step (by omega) ran
    split at ran
    · cases ran
    split at ran
    · obtain ⟨grown, appended, ran⟩ := bind_ok ran
      exact step (by omega) ran
    split at ran
    · cases ran
    split at ran
    · cases ran
    · rename_i width _ _
      obtain ⟨grown, appended, ran⟩ := bind_ok ran
      have bytes := advance_shorter parser width
      exact step (by omega) ran

theorem parseString_shorter {string : List Char}
    (ran : parseString profile parser = .ok (string, after)) : after.rest.length ≤ parser.rest.length := by
  unfold parseString at ran
  split at ran
  · cases ran
  · rename_i inside quoted
    have shorter := consumeIf_shorter quoted
    have rest := parseStringFrom_shorter ran
    omega

structure Alike (profile : Profile Error) (steps : Nat) (inner other : Inner Error) : Prop where
  same : ∀ parser, Enough profile steps parser → other parser = inner parser
  shorter : ∀ parser value after, inner parser = .ok (value, after) → after.rest.length ≤ parser.rest.length

variable {inner other : Inner Error}

theorem parseItems_patient (alike : Alike profile steps inner other) {left : Nat} {seen : List JsonValue}
    (enough : Enough profile steps parser) :
    parseItems (profile.patient steps) other left seen parser = parseItems profile inner left seen parser := by
  induction left generalizing seen parser with
  | zero => rfl
  | succ left ih =>
    unfold parseItems
    refine bind_same (alike.same parser enough) fun found read => ?_
    have valued := enough.later (alike.shorter _ _ _ read)
    refine bind_same (skipWhitespace_patient valued) fun ended skipped => ?_
    have spaced := valued.later (skipWhitespace_shorter skipped)
    cases ended.consumeIf 93 with
    | some closed => rfl
    | none =>
      cases comma : ended.consumeIf 44 with
      | none => rfl
      | some next =>
        have follows := spaced.later (Nat.le_of_lt (consumeIf_shorter comma))
        refine bind_same (skipWhitespace_patient follows) fun started skipped => ?_
        exact ih (follows.later (skipWhitespace_shorter skipped))

theorem parseItems_shorter (alike : Alike profile steps inner other) {left : Nat} {seen items : List JsonValue}
    (ran : parseItems profile inner left seen parser = .ok (items, after)) :
    after.rest.length ≤ parser.rest.length := by
  induction left generalizing seen parser with
  | zero => cases ran
  | succ left ih =>
    unfold parseItems at ran
    obtain ⟨⟨value, next⟩, read, ran⟩ := bind_ok ran
    have valued := alike.shorter _ _ _ read
    obtain ⟨ended, skipped, ran⟩ := bind_ok ran
    have spaced := skipWhitespace_shorter skipped
    split at ran
    · rename_i closed
      have ate := consumeIf_shorter closed
      cases ran
      omega
    · split at ran
      · cases ran
      · rename_i comma
        have ate := consumeIf_shorter comma
        obtain ⟨started, skipped, ran⟩ := bind_ok ran
        have again := skipWhitespace_shorter skipped
        have rest := ih ran
        omega

theorem parseMembers_patient (alike : Alike profile steps inner other) {left : Nat} {seen : List Member}
    (enough : Enough profile steps parser) :
    parseMembers (profile.patient steps) other left seen parser = parseMembers profile inner left seen parser := by
  induction left generalizing seen parser with
  | zero => rfl
  | succ left ih =>
    unfold parseMembers
    by_cases quoted : parser.peek ≠ some 34
    · rw [if_pos quoted, if_pos quoted, throw_bind, throw_bind]
      rfl
    rw [if_neg quoted, if_neg quoted]
    refine bind_same (parseString_patient enough) fun named name => ?_
    have shorter : named.2.rest.length ≤ _ := parseString_shorter name
    have keyed := enough.later shorter
    dsimp only
    split
    · rw [throw_bind, throw_bind]
      rfl
    refine bind_same (skipWhitespace_patient keyed) fun spaced skipped => ?_
    have before := keyed.later (skipWhitespace_shorter skipped)
    cases colon : spaced.consumeIf 58 with
    | none => rfl
    | some next =>
      have behind := before.later (Nat.le_of_lt (consumeIf_shorter colon))
      refine bind_same (skipWhitespace_patient behind) fun started skipped => ?_
      have opens := behind.later (skipWhitespace_shorter skipped)
      refine bind_same (alike.same started opens) fun found read => ?_
      have valued := opens.later (alike.shorter _ _ _ read)
      refine bind_same (skipWhitespace_patient valued) fun ended skipped => ?_
      have closes := valued.later (skipWhitespace_shorter skipped)
      cases ended.consumeIf 125 with
      | some closed => rfl
      | none =>
        cases comma : ended.consumeIf 44 with
        | none => rfl
        | some next =>
          have follows := closes.later (Nat.le_of_lt (consumeIf_shorter comma))
          refine bind_same (skipWhitespace_patient follows) fun again skipped => ?_
          exact ih (follows.later (skipWhitespace_shorter skipped))

theorem parseMembers_shorter (alike : Alike profile steps inner other) {left : Nat} {seen members : List Member}
    (ran : parseMembers profile inner left seen parser = .ok (members, after)) :
    after.rest.length ≤ parser.rest.length := by
  induction left generalizing seen parser with
  | zero => cases ran
  | succ left ih =>
    unfold parseMembers at ran
    obtain ⟨-, ran⟩ := guard_ok ran
    obtain ⟨⟨key, named⟩, name, ran⟩ := bind_ok ran
    have keyed := parseString_shorter name
    obtain ⟨fresh, ran⟩ := guard_ok ran
    obtain ⟨spaced, skipped, ran⟩ := bind_ok ran
    have before := skipWhitespace_shorter skipped
    split at ran
    · cases ran
    rename_i colon
    have ate := consumeIf_shorter colon
    obtain ⟨started, skipped, ran⟩ := bind_ok ran
    have opens := skipWhitespace_shorter skipped
    obtain ⟨⟨value, next⟩, read, ran⟩ := bind_ok ran
    have valued := alike.shorter _ _ _ read
    obtain ⟨ended, skipped, ran⟩ := bind_ok ran
    have closes := skipWhitespace_shorter skipped
    split at ran
    · rename_i closed
      have ate := consumeIf_shorter closed
      cases ran
      omega
    · split at ran
      · cases ran
      · rename_i comma
        have ate := consumeIf_shorter comma
        obtain ⟨again, skipped, ran⟩ := bind_ok ran
        have follows := skipWhitespace_shorter skipped
        have rest := ih ran
        omega

variable {deeper others : Option (Inner Error)} {arrange : List Member → List Member}

theorem parseArray_patient (alike : Option.Rel (Alike profile steps) deeper others)
    (enough : Enough profile steps parser) :
    parseArray (profile.patient steps) others parser = parseArray profile deeper parser := by
  cases alike with
  | none => rfl
  | some alike =>
    have inside := enough.later (by rw [advance_shorter]; omega : (parser.advance 1).rest.length ≤ parser.rest.length)
    refine bind_same (skipWhitespace_patient inside) fun started skipped => ?_
    have opens := inside.later (skipWhitespace_shorter skipped)
    cases started.consumeIf 93 with
    | some closed => rfl
    | none => exact bind_same (parseItems_patient alike opens) fun found read => rfl

theorem parseArray_shorter (alike : Option.Rel (Alike profile steps) deeper others)
    {value : JsonValue} (ran : parseArray profile deeper parser = .ok (value, after)) :
    after.rest.length ≤ parser.rest.length := by
  have inside := advance_shorter parser 1
  cases alike with
  | none => cases ran
  | some alike =>
    obtain ⟨started, skipped, ran⟩ := bind_ok ran
    have opens := skipWhitespace_shorter skipped
    split at ran
    · rename_i closed
      have ate := consumeIf_shorter closed
      cases ran
      omega
    · obtain ⟨⟨items, last⟩, read, ran⟩ := bind_ok ran
      have rest := parseItems_shorter alike read
      cases ran
      omega

theorem parseObject_patient (alike : Option.Rel (Alike profile steps) deeper others)
    (enough : Enough profile steps parser) :
    parseObject (profile.patient steps) arrange others parser = parseObject profile arrange deeper parser := by
  cases alike with
  | none => rfl
  | some alike =>
    have inside := enough.later (by rw [advance_shorter]; omega : (parser.advance 1).rest.length ≤ parser.rest.length)
    refine bind_same (skipWhitespace_patient inside) fun started skipped => ?_
    have opens := inside.later (skipWhitespace_shorter skipped)
    cases started.consumeIf 125 with
    | some closed => rfl
    | none => exact bind_same (parseMembers_patient alike opens) fun found read => rfl

theorem parseObject_shorter (alike : Option.Rel (Alike profile steps) deeper others)
    {value : JsonValue} (ran : parseObject profile arrange deeper parser = .ok (value, after)) :
    after.rest.length ≤ parser.rest.length := by
  have inside := advance_shorter parser 1
  cases alike with
  | none => cases ran
  | some alike =>
    obtain ⟨started, skipped, ran⟩ := bind_ok ran
    have opens := skipWhitespace_shorter skipped
    split at ran
    · rename_i closed
      have ate := consumeIf_shorter closed
      cases ran
      omega
    · obtain ⟨⟨members, last⟩, read, ran⟩ := bind_ok ran
      have rest := parseMembers_shorter alike read
      cases ran
      omega

theorem parseLiteral_shorter {literal : Bytes} {value result : JsonValue}
    (ran : parseLiteral profile literal value parser = .ok (result, after)) :
    after.rest.length ≤ parser.rest.length := by
  unfold parseLiteral at ran
  split at ran
  · cases ran
  · obtain ⟨-, rfl⟩ := Prod.mk.inj (Except.ok.inj ran)
    rw [advance_shorter]
    omega

theorem parseByte_patient (alike : Option.Rel (Alike profile steps) deeper others)
    (enough : Enough profile steps parser) :
    parseByte (profile.patient steps) arrange others parser = parseByte profile arrange deeper parser := by
  unfold parseByte
  split
  · rfl
  · rfl
  · rfl
  · exact bind_same (parseString_patient enough) fun read ran => rfl
  · exact parseArray_patient alike enough
  · exact parseObject_patient alike enough
  · split
    · exact bind_same (parseInteger_patient enough) fun read ran => rfl
    · rfl
  · rfl

theorem parseByte_shorter (alike : Option.Rel (Alike profile steps) deeper others)
    {value : JsonValue} (ran : parseByte profile arrange deeper parser = .ok (value, after)) :
    after.rest.length ≤ parser.rest.length := by
  unfold parseByte at ran
  split at ran
  · exact parseLiteral_shorter ran
  · exact parseLiteral_shorter ran
  · exact parseLiteral_shorter ran
  · obtain ⟨⟨chars, next⟩, read, ran⟩ := bind_ok ran
    have rest := parseString_shorter read
    cases ran
    exact rest
  · exact parseArray_shorter alike ran
  · exact parseObject_shorter alike ran
  · split at ran
    · obtain ⟨⟨number, next⟩, read, ran⟩ := bind_ok ran
      have rest := parseInteger_shorter read
      cases ran
      exact rest
    · cases ran
  · cases ran

theorem registerNode_rest (ran : registerNode profile parser = .ok after) :
    after.rest = parser.rest := by
  unfold registerNode at ran
  split at ran
  · cases ran
  · cases ran
    rfl

theorem parseValueWith_alike (alike : Option.Rel (Alike profile steps) deeper others) :
    Alike profile steps (parseValueWith profile arrange deeper) (parseValueWith (profile.patient steps) arrange others) := by
  constructor
  · intro parser enough
    refine bind_same rfl fun counted registered => ?_
    have kept := registerNode_rest registered
    exact parseByte_patient alike (enough.later (by rw [kept]))
  · intro parser value after ran
    obtain ⟨counted, registered, ran⟩ := bind_ok ran
    have kept := registerNode_rest registered
    have rest := parseByte_shorter alike ran
    rw [kept] at rest
    exact rest

theorem parseValue_alike (levels : Nat) :
    Alike profile steps (parseValue profile arrange levels) (parseValue (profile.patient steps) arrange levels) := by
  induction levels with
  | zero => exact parseValueWith_alike .none
  | succ levels ih => exact parseValueWith_alike (.some ih)

theorem parseDocument_patient {input : Bytes} (one : input.length < profile.maxParserSteps) (two : input.length < steps) :
    parseDocument (profile.patient steps) arrange input = parseDocument profile arrange input := by
  have enough : Enough profile steps ⟨input, 0, 0⟩ := ⟨one, two⟩
  unfold parseDocument
  refine guard_same ?_
  refine guard_same ?_
  refine bind_same (skipWhitespace_patient enough) fun started skipped => ?_
  have opens := enough.later (skipWhitespace_shorter skipped)
  have alike := @parseValue_alike Error profile steps arrange profile.maxDepth
  refine bind_same (alike.same started opens) fun found read => ?_
  have valued := opens.later (alike.shorter _ _ _ read)
  exact bind_same (skipWhitespace_patient valued) fun ended skipped => rfl

end

end Canonical
