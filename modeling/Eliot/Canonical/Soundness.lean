import Eliot.Canonical.RoundTrip
import Eliot.Collections.Fallible

namespace Canonical

open List hiding count
open Fallible (bind_ok guard_ok)
open Text (isDigit)

variable {parser after : Parser}

section
variable {Error : Type} {profile : Profile Error}

theorem consumeIf_nodes {expected : Nat}
    (ate : parser.consumeIf expected = some after) : after.nodes = parser.nodes := by
  unfold Parser.consumeIf at ate
  split at ate
  · cases ate
    rfl
  · cases ate

theorem skipWhitespaceFrom_nodes {steps : Nat}
    (ran : skipWhitespaceFrom profile steps parser = .ok after) : after.nodes = parser.nodes := by
  induction steps generalizing parser with
  | zero =>
    unfold skipWhitespaceFrom at ran
    split at ran
    · cases ran
    · cases ran
      rfl
  | succ steps ih =>
    unfold skipWhitespaceFrom at ran
    split at ran
    · rw [ih ran]
      rfl
    · cases ran
      rfl

theorem skipWhitespace_nodes
    (ran : skipWhitespace profile parser = .ok after) : after.nodes = parser.nodes :=
  skipWhitespaceFrom_nodes ran

structure Digits (parser after : Parser) : Prop where
  forward : parser.cursor ≤ after.cursor
  digits : ∀ byte ∈ parser.rest.take (after.cursor - parser.cursor), isDigit byte = true
  nodes : after.nodes = parser.nodes

theorem Digits.stay (parser : Parser) : Digits parser parser :=
  ⟨Nat.le_refl _, by simp, rfl⟩

theorem Digits.next {byte : Nat} (head : parser.peek = some byte)
    (digit : isDigit byte = true) (more : Digits (parser.advance 1) after) :
    Digits parser after := by
  obtain ⟨rest, cursor, nodes⟩ := parser
  cases rest with
  | nil => cases head
  | cons first rest =>
    cases head
    have forward := more.forward
    simp only [Parser.advance] at forward
    refine ⟨Nat.le_of_succ_le forward, ?_, more.nodes⟩
    intro other listed
    have width : after.cursor - cursor = after.cursor - (cursor + 1) + 1 := by omega
    simp only [width, take_succ_cons, mem_cons] at listed
    rcases listed with rfl | listed
    · exact digit
    · exact more.digits other (by simpa [Parser.advance] using listed)

theorem any_some {Value : Type} {found : Option Value} {test : Value → Bool}
    (holds : found.any test = true) : ∃ value, found = some value ∧ test value = true := by
  cases found with
  | none => cases holds
  | some value => exact ⟨value, rfl, holds⟩

theorem skipDigits_digits {steps : Nat}
    (ran : skipDigits profile steps parser = .ok after) : Digits parser after := by
  induction steps generalizing parser with
  | zero =>
    unfold skipDigits at ran
    split at ran
    · cases ran
    · cases ran
      exact .stay _
  | succ steps ih =>
    unfold skipDigits at ran
    split at ran
    · rename_i more
      obtain ⟨byte, head, digit⟩ := any_some more
      exact .next head digit (ih ran)
    · cases ran
      exact .stay _

theorem skipInteger_digits {start : Nat}
    (ran : skipInteger profile start parser = .ok after) : Digits parser after := by
  unfold skipInteger at ran
  split at ran
  · rename_i head
    split at ran
    · cases ran
    · cases ran
      exact .next head (by decide) (.stay _)
  · rename_i byte _ head
    split at ran
    · rename_i range
      exact .next head (by simp [isDigit]; omega) (skipDigits_digits ran)
    · cases ran
  · cases ran

theorem magnitudeOf_safe {start magnitude value : Nat} {digits : Bytes}
    (all : ∀ byte ∈ digits, isDigit byte = true) (below : magnitude ≤ maxInteger)
    (ran : magnitudeOf profile start digits magnitude = .ok value) : value ≤ maxInteger := by
  induction digits generalizing magnitude with
  | nil =>
    cases ran
    exact below
  | cons byte digits ih =>
    have digit := all byte (mem_cons_self ..)
    simp only [isDigit, Bool.and_eq_true, decide_eq_true_eq] at digit
    unfold magnitudeOf at ran
    simp only at ran
    split at ran
    · cases ran
    · refine ih (fun other listed => all other (mem_cons_of_mem _ listed)) ?_ ran
      unfold maxInteger at *
      omega

theorem parseInteger_sound {value : Int}
    (ran : parseInteger profile parser = .ok (value, after)) :
    value.natAbs ≤ maxInteger ∧ after.nodes = parser.nodes := by
  unfold parseInteger at ran
  obtain ⟨skipped, skip, ran⟩ := bind_ok ran
  obtain ⟨-, ran⟩ := guard_ok ran
  obtain ⟨magnitude, read, ran⟩ := bind_ok ran
  obtain ⟨-, ran⟩ := guard_ok ran
  cases ran
  have digits := skipInteger_digits skip
  have safe := magnitudeOf_safe digits.digits (by decide) read
  constructor
  · split <;> omega
  · rw [digits.nodes]
    cases found : parser.consumeIf 45 with
    | none => rfl
    | some first => exact consumeIf_nodes found

end

section
variable {Error : Type} {profile : Profile Error}

theorem appendStringBytes_short {output bytes result : Bytes}
    (ran : appendStringBytes profile output bytes = .ok result) :
    result.length ≤ profile.maxStringBytes := by
  unfold appendStringBytes at ran
  split at ran
  · cases ran
  · cases ran
    rw [length_append]
    omega

theorem parseHexQuad_nodes {offset value : Nat}
    (ran : parseHexQuad profile offset parser = .ok (value, after)) :
    after.nodes = parser.nodes := by
  unfold parseHexQuad at ran
  obtain ⟨-, ran⟩ := guard_ok ran
  obtain ⟨number, -, ran⟩ := bind_ok ran
  cases ran
  rfl

theorem parseScalar_nodes {offset value : Nat}
    (ran : parseScalar profile offset parser = .ok (value, after)) :
    after.nodes = parser.nodes := by
  unfold parseScalar at ran
  obtain ⟨⟨first, next⟩, read, ran⟩ := bind_ok ran
  have firstNodes := parseHexQuad_nodes read
  simp only at ran
  split at ran
  · unfold parseLowSurrogate at ran
    obtain ⟨-, ran⟩ := guard_ok ran
    obtain ⟨⟨second, last⟩, pair, ran⟩ := bind_ok ran
    have secondNodes := parseHexQuad_nodes pair
    simp only at ran
    split at ran
    · obtain ⟨-, rfl⟩ := Prod.mk.inj (Except.ok.inj ran)
      exact secondNodes.trans firstNodes
    · cases ran
  · split at ran
    · cases ran
    · cases ran
      exact firstNodes

theorem parseEscape_sound {output result : Bytes}
    (ran : parseEscape profile output parser = .ok (result, after)) :
    result.length ≤ profile.maxStringBytes ∧ after.nodes = parser.nodes := by
  unfold parseEscape at ran
  simp only at ran
  split at ran
  · cases ran
  split at ran
  · obtain ⟨grown, appended, ran⟩ := bind_ok ran
    cases ran
    exact ⟨appendStringBytes_short appended, rfl⟩
  split at ran
  · unfold parseUnicodeEscape at ran
    obtain ⟨⟨scalar, next⟩, read, ran⟩ := bind_ok ran
    simp only at ran
    split at ran
    · obtain ⟨grown, appended, ran⟩ := bind_ok ran
      cases ran
      have nodes := parseScalar_nodes read
      exact ⟨appendStringBytes_short appended, nodes⟩
    · cases ran
  · cases ran

theorem parseStringFrom_sound {start steps : Nat} {output : Bytes}
    {string : List Char} (within : output.length ≤ profile.maxStringBytes)
    (ran : parseStringFrom profile start steps output parser = .ok (string, after)) :
    Short profile string ∧ after.nodes = parser.nodes := by
  induction steps generalizing output parser with
  | zero => cases ran
  | succ steps ih =>
    unfold parseStringFrom at ran
    split at ran
    · cases ran
    split at ran
    · split at ran
      · rename_i decoded
        cases ran
        exact ⟨by rw [Short, Utf8.encode_decode decoded]; exact within, rfl⟩
      · cases ran
    split at ran
    · obtain ⟨⟨grown, next⟩, escaped, ran⟩ := bind_ok ran
      have sound := parseEscape_sound escaped
      have rest := ih sound.1 ran
      exact ⟨rest.1, rest.2.trans sound.2⟩
    split at ran
    · cases ran
    split at ran
    · obtain ⟨grown, appended, ran⟩ := bind_ok ran
      have rest := ih (appendStringBytes_short appended) ran
      exact ⟨rest.1, rest.2⟩
    split at ran
    · cases ran
    split at ran
    · cases ran
    · obtain ⟨grown, appended, ran⟩ := bind_ok ran
      have rest := ih (appendStringBytes_short appended) ran
      exact ⟨rest.1, rest.2⟩

theorem parseString_sound {string : List Char}
    (ran : parseString profile parser = .ok (string, after)) :
    Short profile string ∧ after.nodes = parser.nodes := by
  unfold parseString at ran
  split at ran
  · cases ran
  · rename_i inside quoted
    have rest := parseStringFrom_sound (Nat.zero_le _) ran
    exact ⟨rest.1, rest.2.trans (consumeIf_nodes quoted)⟩

end

section
open JsonValue
variable {Error : Type} {profile : Profile Error}

def Sound (profile : Profile Error) (levels : Nat) (inner : Inner Error) : Prop :=
  ∀ parser value after, inner parser = .ok (value, after) →
    Within profile levels value ∧ after.nodes = parser.nodes + value.count ∧
      after.nodes ≤ profile.maxNodes

theorem parseItems_sound {levels left : Nat} {inner : Inner Error} {seen items : List JsonValue}
    (sound : Sound profile levels inner)
    (ran : parseItems profile inner left seen parser = .ok (items, after)) :
    ∃ parsed, items = seen ++ parsed ∧ parsed.length ≤ left ∧
      (∀ item ∈ parsed, Within profile levels item) ∧
      after.nodes = parser.nodes + countItems parsed ∧ after.nodes ≤ profile.maxNodes := by
  induction left generalizing seen parser with
  | zero => cases ran
  | succ left ih =>
    unfold parseItems at ran
    obtain ⟨⟨value, next⟩, read, ran⟩ := bind_ok ran
    obtain ⟨within, counted, bounded⟩ := sound _ _ _ read
    obtain ⟨ended, skipped, ran⟩ := bind_ok ran
    have same := skipWhitespace_nodes skipped
    split at ran
    · rename_i closed
      have ate := consumeIf_nodes closed
      cases ran
      exact ⟨[value], rfl, by simp, by simpa using within, by simp [countItems]; omega, by omega⟩
    · split at ran
      · cases ran
      · rename_i comma
        have ate := consumeIf_nodes comma
        obtain ⟨started, spaced, ran⟩ := bind_ok ran
        have space := skipWhitespace_nodes spaced
        obtain ⟨parsed, rfl, few, inside, total, limit⟩ := ih ran
        refine ⟨value :: parsed, by simp, by simp; omega, ?_, ?_, limit⟩
        · simpa using ⟨within, inside⟩
        · rw [countItems]
          omega

variable {inner : Option (Inner Error)}

theorem parseArray_sound {levels : Nat}
    {value : JsonValue} (sound : ∀ deeper ∈ inner, ∃ below, levels = below + 1 ∧
      Sound profile below deeper)
    (room : parser.nodes ≤ profile.maxNodes)
    (ran : parseArray profile inner parser = .ok (value, after)) :
    Within profile levels value ∧ after.nodes + 1 = parser.nodes + value.count ∧
      after.nodes ≤ profile.maxNodes := by
  unfold parseArray at ran
  split at ran
  · cases ran
  · rename_i deeper
    obtain ⟨below, rfl, deep⟩ := sound deeper rfl
    obtain ⟨started, skipped, ran⟩ := bind_ok ran
    have same := skipWhitespace_nodes skipped
    simp only [Parser.advance] at same
    split at ran
    · rename_i closed
      have ate := consumeIf_nodes closed
      cases ran
      exact ⟨.array (Nat.zero_le _) (by simp), by simp [count, countItems]; omega, by omega⟩
    · obtain ⟨⟨items, last⟩, read, ran⟩ := bind_ok ran
      obtain ⟨parsed, rfl, few, inside, total, limit⟩ := parseItems_sound deep read
      cases ran
      refine ⟨.array few inside, ?_, limit⟩
      rw [count]
      omega

theorem parseMembers_sound {levels left : Nat} {inner : Inner Error} {seen members : List Member}
    (sound : Sound profile levels inner)
    (keys : (seen.map Prod.fst).Nodup)
    (ran : parseMembers profile inner left seen parser = .ok (members, after)) :
    ∃ parsed, members = seen ++ parsed ∧ parsed.length ≤ left ∧
      (members.map Prod.fst).Nodup ∧ (∀ member ∈ parsed, Short profile member.1) ∧
      (∀ member ∈ parsed, Within profile levels member.2) ∧
      after.nodes = parser.nodes + countMembers parsed ∧ after.nodes ≤ profile.maxNodes := by
  induction left generalizing seen parser with
  | zero => cases ran
  | succ left ih =>
    unfold parseMembers at ran
    obtain ⟨-, ran⟩ := guard_ok ran
    obtain ⟨⟨key, named⟩, name, ran⟩ := bind_ok ran
    obtain ⟨short, same⟩ := parseString_sound name
    obtain ⟨fresh, ran⟩ := guard_ok ran
    obtain ⟨spaced, skipped, ran⟩ := bind_ok ran
    have space := skipWhitespace_nodes skipped
    have grown : ((seen ++ [(key, JsonValue.null)]).map Prod.fst).Nodup := by
      rw [map_append, nodup_append]
      refine ⟨keys, by simp, ?_⟩
      intro first known second listed equal
      rw [map_singleton, mem_singleton] at listed
      rw [equal, listed] at known
      exact fresh known
    split at ran
    · cases ran
    rename_i colon
    have ate := consumeIf_nodes colon
    obtain ⟨valued, skipped, ran⟩ := bind_ok ran
    have space := skipWhitespace_nodes skipped
    obtain ⟨⟨value, next⟩, read, ran⟩ := bind_ok ran
    obtain ⟨within, counted, bounded⟩ := sound _ _ _ read
    obtain ⟨ended, skipped, ran⟩ := bind_ok ran
    have space := skipWhitespace_nodes skipped
    split at ran
    · rename_i closed
      have ate := consumeIf_nodes closed
      cases ran
      refine ⟨[(key, value)], rfl, by simp, by simpa using grown, by simpa using short,
        by simpa using within, ?_, by omega⟩
      simp only [countMembers]
      omega
    · split at ran
      · cases ran
      · rename_i comma
        have ate := consumeIf_nodes comma
        obtain ⟨started, skipped, ran⟩ := bind_ok ran
        have space := skipWhitespace_nodes skipped
        obtain ⟨parsed, rfl, few, names, shorts, inside, total, limit⟩ :=
          ih (by simpa using grown) ran
        refine ⟨(key, value) :: parsed, by simp, by simp; omega, by simpa using names, ?_, ?_, ?_,
          limit⟩
        · exact forall_mem_cons.mpr ⟨short, shorts⟩
        · exact forall_mem_cons.mpr ⟨within, inside⟩
        · rw [countMembers]
          omega

theorem parseObject_sound {levels : Nat}
    {value : JsonValue} (sound : ∀ deeper ∈ inner, ∃ below, levels = below + 1 ∧
      Sound profile below deeper)
    (room : parser.nodes ≤ profile.maxNodes)
    (ran : parseObject profile id inner parser = .ok (value, after)) :
    Within profile levels value ∧ after.nodes + 1 = parser.nodes + value.count ∧
      after.nodes ≤ profile.maxNodes := by
  unfold parseObject at ran
  split at ran
  · cases ran
  · rename_i deeper
    obtain ⟨below, rfl, deep⟩ := sound deeper rfl
    obtain ⟨started, skipped, ran⟩ := bind_ok ran
    have same := skipWhitespace_nodes skipped
    simp only [Parser.advance] at same
    split at ran
    · rename_i closed
      have ate := consumeIf_nodes closed
      cases ran
      exact ⟨.object (Nat.zero_le _) (by simp) (by simp) (by simp),
        by simp [count, countMembers]; omega, by omega⟩
    · obtain ⟨⟨members, last⟩, read, ran⟩ := bind_ok ran
      obtain ⟨parsed, rfl, few, names, shorts, inside, total, limit⟩ :=
        parseMembers_sound deep (by simp) read
      cases ran
      refine ⟨.object few names shorts inside, ?_, limit⟩
      rw [id_eq, count]
      omega

theorem parseLiteral_sound {literal : Bytes} {value result : JsonValue}
    (ran : parseLiteral profile literal value parser = .ok (result, after)) :
    result = value ∧ after.nodes = parser.nodes := by
  unfold parseLiteral at ran
  split at ran
  · cases ran
  · cases ran
    exact ⟨rfl, rfl⟩

theorem parseByte_sound {levels : Nat}
    {value : JsonValue} (sound : ∀ deeper ∈ inner, ∃ below, levels = below + 1 ∧
      Sound profile below deeper)
    (room : parser.nodes ≤ profile.maxNodes)
    (ran : parseByte profile id inner parser = .ok (value, after)) :
    Within profile levels value ∧ after.nodes + 1 = parser.nodes + value.count ∧
      after.nodes ≤ profile.maxNodes := by
  unfold parseByte at ran
  split at ran
  · obtain ⟨rfl, same⟩ := parseLiteral_sound ran
    exact ⟨.null, by rw [same]; rfl, by omega⟩
  · obtain ⟨rfl, same⟩ := parseLiteral_sound ran
    exact ⟨.boolean true, by rw [same]; rfl, by omega⟩
  · obtain ⟨rfl, same⟩ := parseLiteral_sound ran
    exact ⟨.boolean false, by rw [same]; rfl, by omega⟩
  · obtain ⟨⟨chars, next⟩, read, ran⟩ := bind_ok ran
    obtain ⟨short, same⟩ := parseString_sound read
    cases ran
    exact ⟨.string short, by rw [same]; rfl, by omega⟩
  · exact parseArray_sound sound room ran
  · exact parseObject_sound sound room ran
  · split at ran
    · obtain ⟨⟨number, next⟩, read, ran⟩ := bind_ok ran
      obtain ⟨safe, same⟩ := parseInteger_sound read
      cases ran
      exact ⟨.integer safe, by rw [same]; rfl, by omega⟩
    · cases ran
  · cases ran

theorem parseValueWith_sound {levels : Nat}
    (sound : ∀ deeper ∈ inner, ∃ below, levels = below + 1 ∧ Sound profile below deeper) :
    Sound profile levels (parseValueWith profile id inner) := by
  intro parser value after ran
  obtain ⟨counted, registered, ran⟩ := bind_ok ran
  unfold registerNode at registered
  split at registered
  · cases registered
  · rename_i room
    cases registered
    obtain ⟨within, total, limit⟩ := parseByte_sound sound (by simp only; omega) ran
    simp only at total
    exact ⟨within, by omega, limit⟩

theorem parseValue_sound (levels : Nat) : Sound profile levels (parseValue profile id levels) := by
  induction levels with
  | zero =>
    intro parser
    exact parseValueWith_sound (by simp) parser
  | succ levels ih =>
    intro parser
    exact parseValueWith_sound (by simpa using ih) parser

end

section
open JsonValue
variable {Error : Type} {profile : Profile Error} {arrange : List Member → List Member}

def rearranged (arrange : List Member → List Member) (read : JsonValue × Parser) :
    JsonValue × Parser := (read.1.arranged arrange, read.2)

def Rearranges (arrange : List Member → List Member) (plain other : Inner Error) : Prop :=
  ∀ parser, other parser = (plain parser).map (rearranged arrange)

theorem map_bind {Value Next Last : Type} (first : Except Error Value)
    (rest : Value → Except Error Next) (change : Next → Last) :
    (first >>= rest).map change = first >>= fun value => (rest value).map change := by
  cases first <;> rfl

theorem bind_map {Value Next Last : Type} (first : Except Error Value) (change : Value → Next)
    (rest : Next → Except Error Last) :
    (first.map change) >>= rest = first >>= fun value => rest (change value) := by
  cases first <;> rfl

theorem parseItems_arranged {plain other : Inner Error} (inner : Rearranges arrange plain other)
    (left : Nat) (seen : List JsonValue) (parser : Parser) :
    parseItems profile other left (seen.map (JsonValue.arranged arrange)) parser =
      (parseItems profile plain left seen parser).map
        fun read => (read.1.map (JsonValue.arranged arrange), read.2) := by
  induction left generalizing seen parser with
  | zero => rfl
  | succ left ih =>
    unfold parseItems
    rw [inner, bind_map, map_bind]
    congr 1
    funext read
    obtain ⟨value, next⟩ := read
    simp only [rearranged]
    rw [map_bind]
    congr 1
    funext next
    split
    · simp [pure, Except.pure, Except.map]
    · split
      · rfl
      · rw [map_bind]
        congr 1
        funext next
        rw [← ih]
        simp

theorem parseMembers_arranged {plain other : Inner Error} (inner : Rearranges arrange plain other)
    (left : Nat) (seen : List Member) (parser : Parser) :
    parseMembers profile other left (arrangedMembers arrange seen) parser =
      (parseMembers profile plain left seen parser).map
        fun read => (arrangedMembers arrange read.1, read.2) := by
  induction left generalizing seen parser with
  | zero => rfl
  | succ left ih =>
    have keys : (arrangedMembers arrange seen).map Prod.fst = seen.map Prod.fst := by
      rw [arrangedMembers_eq, map_map]
      rfl
    have append (key : List Char) (value : JsonValue) :
        arrangedMembers arrange seen ++ [(key, value.arranged arrange)] =
          arrangedMembers arrange (seen ++ [(key, value)]) := by
      simp [arrangedMembers_eq]
    unfold parseMembers
    simp only
    split
    · rfl
    rw [map_bind]
    congr 1
    funext read
    obtain ⟨key, next⟩ := read
    simp only [keys]
    split
    · rfl
    rw [map_bind]
    congr 1
    funext next
    split
    · rfl
    rw [map_bind]
    congr 1
    funext next
    rw [inner, bind_map, map_bind]
    congr 1
    funext read
    obtain ⟨value, next⟩ := read
    simp only [rearranged, append]
    rw [map_bind]
    congr 1
    funext next
    split
    · rfl
    · split
      · rfl
      · rw [map_bind]
        congr 1
        funext next
        exact ih _ _

theorem parseByte_arranged {plain other : Option (Inner Error)} (parser : Parser)
    (inner : (plain = none ∧ other = none) ∨ ∃ first second, plain = some first ∧
      other = some second ∧ Rearranges arrange first second) (empty : arrange [] = []) :
    parseByte profile arrange other parser =
      (parseByte profile id plain parser).map (rearranged arrange) := by
  have literal (bytes : Bytes) (value : JsonValue) (fixed : value.arranged arrange = value) :
      parseLiteral profile bytes value parser =
        (parseLiteral profile bytes value parser).map (rearranged arrange) := by
    unfold parseLiteral
    split
    · rfl
    · simp [pure, Except.pure, Except.map, rearranged, fixed]
  have array : parseArray profile other parser =
      (parseArray profile plain parser).map (rearranged arrange) := by
    rcases inner with ⟨rfl, rfl⟩ | ⟨first, second, rfl, rfl, same⟩
    · rfl
    · unfold parseArray
      simp only
      rw [map_bind]
      congr 1
      funext next
      split
      · rfl
      · have items := @parseItems_arranged _ profile arrange _ _ same profile.maxArrayItems [] next
        rw [map_nil] at items
        rw [items, bind_map, map_bind]
        congr 1
        funext ⟨values, next⟩
        simp [pure, Except.pure, Except.map, rearranged, JsonValue.arranged, arrangedItems_eq]
  have object : parseObject profile arrange other parser =
      (parseObject profile id plain parser).map (rearranged arrange) := by
    rcases inner with ⟨rfl, rfl⟩ | ⟨first, second, rfl, rfl, same⟩
    · rfl
    · unfold parseObject
      simp only
      rw [map_bind]
      congr 1
      funext next
      split
      · simp [pure, Except.pure, Except.map, rearranged, JsonValue.arranged, arrangedMembers, empty]
      · have members :=
          @parseMembers_arranged _ profile arrange _ _ same profile.maxObjectMembers [] next
        rw [arrangedMembers] at members
        rw [members, bind_map, map_bind]
        congr 1
  unfold parseByte
  split
  · exact literal _ _ rfl
  · exact literal _ _ rfl
  · exact literal _ _ rfl
  · rw [map_bind]
    congr 1
  · exact array
  · exact object
  · split
    · rw [map_bind]
      congr 1
    · rfl
  · rfl

theorem parseValue_arranged (empty : arrange [] = []) (levels : Nat) :
    Rearranges arrange (parseValue profile id levels) (parseValue profile arrange levels) := by
  induction levels with
  | zero =>
    intro parser
    rw [parseValue, parseValue, parseValueWith, parseValueWith, map_bind]
    congr 1
    funext counted
    exact parseByte_arranged counted (.inl ⟨rfl, rfl⟩) empty
  | succ levels ih =>
    intro parser
    rw [parseValue, parseValue, parseValueWith, parseValueWith, map_bind]
    congr 1
    funext counted
    exact parseByte_arranged counted (.inr ⟨_, _, rfl, rfl, ih⟩) empty

theorem parseDocument_arranged (empty : arrange [] = []) (input : Bytes) :
    parseDocument profile arrange input =
      (parseDocument profile id input).map (JsonValue.arranged arrange) := by
  unfold parseDocument
  simp only
  split
  · rfl
  split
  · rfl
  rw [map_bind]
  congr 1
  funext started
  rw [parseValue_arranged empty, bind_map, map_bind]
  congr 1
  funext ⟨value, next⟩
  simp only [rearranged]
  rw [map_bind]
  congr 1
  funext ended
  split <;> rfl

end
end Canonical
