import Eliot.Canonical.CanonicalJson
import Eliot.Canonical.Patience

namespace Canonical
open Fallible (bind_ok guard_ok)
open Text (isDigit)
open JsonValue
open List hiding count

section
variable {Error Other : Type} {profile : Profile Error} {target : Profile Other}

theorem skipWhitespaceFrom_transfer {turns others : Nat} {parser after : Parser}
    (ran : skipWhitespaceFrom profile turns parser = .ok after) (more : turns ≤ others) :
    skipWhitespaceFrom target others parser = .ok after := by
  induction turns generalizing others parser with
  | zero =>
    by_cases blank : parser.peek.any isWhitespace = true
    · rw [skipWhitespaceFrom.eq_def] at ran
      dsimp only at ran
      rw [if_pos blank] at ran
      cases ran
    · rw [skipWhitespaceFrom_plain blank] at ran ⊢
      rw [Except.ok.inj ran]
  | succ turns ih =>
    by_cases blank : parser.peek.any isWhitespace = true
    · rw [skipWhitespaceFrom_blank blank] at ran
      cases others with
      | zero => omega
      | succ others =>
        rw [skipWhitespaceFrom_blank blank]
        exact ih ran (by omega)
    · rw [skipWhitespaceFrom_plain blank] at ran ⊢
      rw [Except.ok.inj ran]

theorem skipDigits_transfer {turns others : Nat} {parser after : Parser}
    (ran : skipDigits profile turns parser = .ok after) (more : turns ≤ others) :
    skipDigits target others parser = .ok after := by
  induction turns generalizing others parser with
  | zero =>
    by_cases digit : parser.peek.any isDigit = true
    · rw [skipDigits.eq_def] at ran
      dsimp only at ran
      rw [if_pos digit] at ran
      cases ran
    · rw [skipDigits_plain digit] at ran ⊢
      rw [Except.ok.inj ran]
  | succ turns ih =>
    by_cases digit : parser.peek.any isDigit = true
    · rw [skipDigits_digit digit] at ran
      cases others with
      | zero => omega
      | succ others =>
        rw [skipDigits_digit digit]
        exact ih ran (by omega)
    · rw [skipDigits_plain digit] at ran ⊢
      rw [Except.ok.inj ran]

theorem magnitudeOf_transfer {start magnitude value : Nat} {digits : Bytes}
    (ran : magnitudeOf profile start digits magnitude = .ok value) :
    magnitudeOf target start digits magnitude = .ok value := by
  induction digits generalizing magnitude with
  | nil => exact congrArg _ (Except.ok.inj ran)
  | cons byte digits ih =>
    unfold magnitudeOf at ran ⊢
    dsimp only at ran ⊢
    split at ran
    · cases ran
    · rename_i small
      rw [if_neg small]
      exact ih ran

theorem hexQuadFrom_transfer {offset value result : Nat} {bytes : Bytes}
    (ran : hexQuadFrom profile offset bytes value = .ok result) : hexQuadFrom target offset bytes value = .ok result := by
  induction bytes generalizing value with
  | nil => exact congrArg _ (Except.ok.inj ran)
  | cons byte bytes ih =>
    unfold hexQuadFrom at ran ⊢
    cases digit : hexNibble byte with
    | none =>
      rw [digit] at ran
      cases ran
    | some nibble =>
      rw [digit] at ran
      exact ih ran

theorem parseHexQuad_transfer {offset value : Nat} {parser after : Parser}
    (ran : parseHexQuad profile offset parser = .ok (value, after)) :
    parseHexQuad target offset parser = .ok (value, after) := by
  unfold parseHexQuad at ran ⊢
  obtain ⟨long, ran⟩ := guard_ok ran
  obtain ⟨number, read, ran⟩ := bind_ok ran
  rw [if_neg long, hexQuadFrom_transfer read]
  exact congrArg _ (Except.ok.inj ran)

theorem parseScalar_transfer {offset value : Nat} {parser after : Parser}
    (ran : parseScalar profile offset parser = .ok (value, after)) :
    parseScalar target offset parser = .ok (value, after) := by
  unfold parseScalar at ran ⊢
  obtain ⟨⟨first, next⟩, read, ran⟩ := bind_ok ran
  rw [parseHexQuad_transfer read]
  dsimp only [bind, Except.bind] at ran ⊢
  by_cases high : 0xd800 ≤ first ∧ first ≤ 0xdbff
  · rw [if_pos high] at ran ⊢
    unfold parseLowSurrogate at ran ⊢
    obtain ⟨mark, ran⟩ := guard_ok ran
    obtain ⟨⟨second, last⟩, pair, ran⟩ := bind_ok ran
    rw [if_neg mark, parseHexQuad_transfer pair]
    dsimp only [bind, Except.bind] at ran ⊢
    split at ran
    · rename_i low
      rw [if_pos low]
      exact congrArg _ (Except.ok.inj ran)
    · cases ran
  · rw [if_neg high] at ran ⊢
    split at ran
    · cases ran
    · rename_i plain
      rw [if_neg plain]
      exact congrArg _ (Except.ok.inj ran)

theorem appendStringBytes_transfer {output bytes result : Bytes} (ran : appendStringBytes profile output bytes = .ok result)
    (short : result.length ≤ target.maxStringBytes) : appendStringBytes target output bytes = .ok result := by
  obtain rfl := appendStringBytes_grows ran
  rw [length_append] at short
  unfold appendStringBytes
  rw [if_neg (not_lt.mpr short)]
  rfl

theorem parseEscape_grows {output result : Bytes} {parser after : Parser}
    (ran : parseEscape profile output parser = .ok (result, after)) : output <+: result := by
  unfold parseEscape at ran
  dsimp only at ran
  split at ran
  · cases ran
  split at ran
  · obtain ⟨grown, appended, ran⟩ := bind_ok ran
    cases ran
    rw [appendStringBytes_grows appended]
    exact prefix_append _ _
  split at ran
  · unfold parseUnicodeEscape at ran
    obtain ⟨⟨scalar, last⟩, read, ran⟩ := bind_ok ran
    dsimp only at ran
    split at ran
    · obtain ⟨grown, appended, ran⟩ := bind_ok ran
      cases ran
      rw [appendStringBytes_grows appended]
      exact prefix_append _ _
    · cases ran
  · cases ran

theorem parseEscape_transfer {output result : Bytes} {parser after : Parser}
    (ran : parseEscape profile output parser = .ok (result, after)) (short : result.length ≤ target.maxStringBytes) :
    parseEscape target output parser = .ok (result, after) := by
  unfold parseEscape at ran ⊢
  dsimp only at ran ⊢
  split at ran
  · cases ran
  cases known : shortEscape _ with
  | some byte =>
    rw [known] at ran
    obtain ⟨grown, appended, ran⟩ := bind_ok ran
    cases ran
    dsimp only
    rw [appendStringBytes_transfer appended short]
    rfl
  | none =>
    rw [known] at ran
    dsimp only at ran ⊢
    split at ran
    · rename_i letter
      rw [if_pos letter]
      unfold parseUnicodeEscape at ran ⊢
      obtain ⟨⟨scalar, last⟩, read, ran⟩ := bind_ok ran
      rw [parseScalar_transfer read]
      dsimp only [bind, Except.bind] at ran ⊢
      cases character : Utf8.scalar scalar with
      | none =>
        rw [character] at ran
        cases ran
      | some character' =>
        rw [character] at ran
        obtain ⟨grown, appended, ran⟩ := bind_ok ran
        cases ran
        dsimp only
        rw [appendStringBytes_transfer appended short]
        rfl
    · cases ran

theorem parseStringFrom_grows {start turns : Nat} {output : Bytes} {parser after : Parser} {string : List Char}
    (ran : parseStringFrom profile start turns output parser = .ok (string, after)) : output <+: Utf8.encode string := by
  induction turns generalizing output parser with
  | zero => cases ran
  | succ turns ih =>
    have appends {bytes grown : Bytes} {other : Parser} (appended : appendStringBytes profile output bytes = .ok grown)
        (rest : parseStringFrom profile start turns grown other = .ok (string, after)) : output <+: Utf8.encode string := by
      have front := ih rest
      rw [appendStringBytes_grows appended] at front
      exact (prefix_append _ _).trans front
    unfold parseStringFrom at ran
    split at ran
    · cases ran
    split at ran
    · split at ran
      · rename_i decoded
        cases ran
        rw [Utf8.encode_decode decoded]
      · cases ran
    split at ran
    · obtain ⟨⟨grown, other⟩, escaped, ran⟩ := bind_ok ran
      exact (parseEscape_grows escaped).trans (ih ran)
    split at ran
    · cases ran
    split at ran
    · obtain ⟨grown, appended, ran⟩ := bind_ok ran
      exact appends appended ran
    split at ran
    · cases ran
    split at ran
    · cases ran
    · obtain ⟨grown, appended, ran⟩ := bind_ok ran
      exact appends appended ran

theorem parseStringFrom_transfer {start turns others : Nat} {output : Bytes} {parser after : Parser} {string : List Char}
    (ran : parseStringFrom profile start turns output parser = .ok (string, after)) (short : Short target string)
    (more : turns ≤ others) : parseStringFrom target start others output parser = .ok (string, after) := by
  induction turns generalizing others output parser with
  | zero => cases ran
  | succ turns ih =>
    cases others with
    | zero => omega
    | succ others =>
      have again : turns ≤ others := by omega
      have fits {grown : Bytes} {other : Parser}
          (rest : parseStringFrom profile start turns grown other = .ok (string, after)) :
          grown.length ≤ target.maxStringBytes := le_trans (parseStringFrom_grows rest).length_le short
      unfold parseStringFrom at ran ⊢
      cases head : parser.peek with
      | none =>
        rw [head] at ran
        cases ran
      | some byte =>
        rw [head] at ran
        dsimp only at ran ⊢
        by_cases quote : byte = 34
        · rw [if_pos quote] at ran ⊢
          cases decoded : Utf8.decode output with
          | none =>
            rw [decoded] at ran
            cases ran
          | some found =>
            rw [decoded] at ran
            exact congrArg _ (Except.ok.inj ran)
        rw [if_neg quote] at ran ⊢
        by_cases slash : byte = 92
        · rw [if_pos slash] at ran ⊢
          obtain ⟨⟨grown, other⟩, escaped, ran⟩ := bind_ok ran
          rw [parseEscape_transfer escaped (fits ran)]
          exact ih ran again
        rw [if_neg slash] at ran ⊢
        by_cases control : byte < 0x20
        · rw [if_pos control] at ran
          cases ran
        rw [if_neg control] at ran ⊢
        by_cases ascii : byte < 0x80
        · rw [if_pos ascii] at ran ⊢
          obtain ⟨grown, appended, ran⟩ := bind_ok ran
          rw [appendStringBytes_transfer appended (fits ran)]
          exact ih ran again
        rw [if_neg ascii] at ran ⊢
        cases wide : utf8Width byte with
        | none =>
          rw [wide] at ran
          cases ran
        | some width =>
          rw [wide] at ran
          dsimp only at ran ⊢
          split at ran
          · cases ran
          · rename_i long
            obtain ⟨grown, appended, ran⟩ := bind_ok ran
            rw [if_neg long, appendStringBytes_transfer appended (fits ran)]
            exact ih ran again

theorem parseLiteral_transfer {literal : Bytes} {value result : JsonValue} {parser after : Parser}
    (ran : parseLiteral profile literal value parser = .ok (result, after)) :
    parseLiteral target literal value parser = .ok (result, after) := by
  unfold parseLiteral at ran ⊢
  split at ran
  · cases ran
  · rename_i spelled
    rw [if_neg spelled]
    exact congrArg _ (Except.ok.inj ran)

theorem count_positive (value : JsonValue) : 0 < value.count := by
  cases value <;> simp [count]

variable (more : profile.maxParserSteps ≤ target.maxParserSteps)
include more

theorem skipWhitespace_transfer {parser after : Parser} (ran : skipWhitespace profile parser = .ok after) :
    skipWhitespace target parser = .ok after := skipWhitespaceFrom_transfer ran more

theorem skipInteger_transfer {start : Nat} {parser after : Parser} (ran : skipInteger profile start parser = .ok after) :
    skipInteger target start parser = .ok after := by
  unfold skipInteger at ran ⊢
  split at ran
  · split at ran
    · cases ran
    · rename_i plain
      rw [if_neg plain]
      exact congrArg _ (Except.ok.inj ran)
  · split at ran
    · rename_i range
      rw [if_pos range]
      exact skipDigits_transfer ran more
    · cases ran
  · cases ran

theorem parseInteger_transfer {parser after : Parser} {value : Int}
    (ran : parseInteger profile parser = .ok (value, after)) : parseInteger target parser = .ok (value, after) := by
  unfold parseInteger at ran ⊢
  obtain ⟨skipped, skip, ran⟩ := bind_ok ran
  obtain ⟨whole, ran⟩ := guard_ok ran
  obtain ⟨magnitude, read, ran⟩ := bind_ok ran
  obtain ⟨signed, ran⟩ := guard_ok ran
  dsimp only
  rw [skipInteger_transfer more skip]
  show (if _ then _ else _) = _
  rw [if_neg whole, magnitudeOf_transfer read]
  show (if _ then _ else _) = _
  rw [if_neg signed]
  exact congrArg _ (Except.ok.inj ran)

theorem parseString_transfer {parser after : Parser} {string : List Char}
    (ran : parseString profile parser = .ok (string, after)) (short : Short target string) :
    parseString target parser = .ok (string, after) := by
  unfold parseString at ran ⊢
  cases quoted : parser.consumeIf 34 with
  | none =>
    rw [quoted] at ran
    cases ran
  | some inside =>
    rw [quoted] at ran
    exact parseStringFrom_transfer ran short more

def Transfers (target : Profile Other) (levels : Nat) (inner : Inner Error) (other : Inner Other) : Prop :=
  ∀ parser value after, inner parser = .ok (value, after) → Within target levels value →
    parser.nodes + value.count ≤ target.maxNodes → other parser = .ok (value, after)

variable {inner : Inner Error} {other : Inner Other} {levels below : Nat}

theorem parseItems_transfer (sound : Sound profile below inner) (transfers : Transfers target levels inner other)
    {left room : Nat} {seen parsed : List JsonValue} {parser after : Parser}
    (ran : parseItems profile inner left seen parser = .ok (seen ++ parsed, after)) (few : parsed.length ≤ room)
    (within : ∀ item ∈ parsed, Within target levels item) (nodes : parser.nodes + countItems parsed ≤ target.maxNodes) :
    parseItems target other room seen parser = .ok (seen ++ parsed, after) := by
  induction left generalizing room seen parsed parser with
  | zero => cases ran
  | succ left ih =>
    unfold parseItems at ran
    obtain ⟨⟨value, next⟩, read, ran⟩ := bind_ok ran
    obtain ⟨-, counted, -⟩ := sound _ _ _ read
    obtain ⟨ended, skipped, ran⟩ := bind_ok ran
    have same := skipWhitespace_nodes skipped
    -- the item that was read is the first of those parsed
    have first {rest : List JsonValue} (shape : parsed = value :: rest) : ∃ spare, room = spare + 1 ∧
        rest.length ≤ spare ∧ other parser = .ok (value, next) ∧ (∀ item ∈ rest, Within target levels item) ∧
          parser.nodes + value.count + countItems rest ≤ target.maxNodes := by
      subst shape
      rw [length_cons] at few
      rw [countItems] at nodes
      obtain ⟨head, tail⟩ := forall_mem_cons.mp within
      exact ⟨room - 1, by omega, by omega, transfers _ _ _ read head (by omega), tail, by omega⟩
    cases closed : ended.consumeIf 93 with
    | some last =>
      rw [closed] at ran
      obtain ⟨whole, rfl⟩ := Prod.mk.inj (Except.ok.inj ran)
      have shape := (append_cancel_left whole).symm
      obtain ⟨spare, rfl, -, reads, -⟩ := first shape
      unfold parseItems
      rw [reads]
      show (skipWhitespace target next >>= _) = _
      rw [skipWhitespace_transfer more skipped]
      dsimp only [bind, Except.bind]
      rw [closed, shape]
      rfl
    | none =>
      rw [closed] at ran
      cases comma : ended.consumeIf 44 with
      | none =>
        rw [comma] at ran
        cases ran
      | some behind =>
        rw [comma] at ran
        obtain ⟨started, spaced, ran⟩ := bind_ok ran
        obtain ⟨rest, whole, -, -, -⟩ := parseItems_sound sound ran
        rw [append_assoc] at whole
        have shape : parsed = value :: rest := append_cancel_left whole
        obtain ⟨spare, rfl, fewer, reads, inside, total⟩ := first shape
        have ate := consumeIf_nodes comma
        have space := skipWhitespace_nodes spaced
        have again := @ih spare (seen ++ [value]) rest started (by rw [ran, shape]; simp) fewer inside (by omega)
        unfold parseItems
        rw [reads]
        show (skipWhitespace target next >>= _) = _
        rw [skipWhitespace_transfer more skipped]
        dsimp only [bind, Except.bind]
        rw [closed]
        dsimp only
        rw [comma]
        show (skipWhitespace target behind >>= _) = _
        rw [skipWhitespace_transfer more spaced, shape]
        exact again.trans (by simp)

variable {value : JsonValue}

theorem parseMembers_reads {parser named spaced behind valued next ended : Parser} {key : List Char}
    {seen : List Member} {spare : Nat} (quoted : ¬parser.peek ≠ some 34)
    (names : parseString target parser = .ok (key, named)) (fresh : ¬key ∈ seen.map Prod.fst)
    (before : skipWhitespace profile named = .ok spaced) (colon : spaced.consumeIf 58 = some behind)
    (opens : skipWhitespace profile behind = .ok valued) (reads : other valued = .ok (value, next))
    (skipped : skipWhitespace profile next = .ok ended) : parseMembers target other (spare + 1) seen parser =
      (match ended.consumeIf 125 with
      | some parser => .ok (seen ++ [(key, value)], parser)
      | none =>
        match ended.consumeIf 44 with
        | none => throw (target.syntaxError ended.cursor)
        | some parser => do
          let parser ← skipWhitespace target parser
          parseMembers target other spare (seen ++ [(key, value)]) parser) := by
  rw [parseMembers, if_neg quoted, names]
  show (if key ∈ seen.map Prod.fst then _ else _) = _
  rw [if_neg fresh]
  show (skipWhitespace target named >>= _) = _
  rw [skipWhitespace_transfer more before]
  dsimp only [bind, Except.bind]
  rw [colon]
  show (skipWhitespace target behind >>= _) = _
  rw [skipWhitespace_transfer more opens]
  show (other valued >>= _) = _
  rw [reads]
  show (skipWhitespace target next >>= _) = _
  rw [skipWhitespace_transfer more skipped]
  rfl

theorem parseMembers_transfer (sound : Sound profile below inner) (transfers : Transfers target levels inner other)
    {left room : Nat} {seen parsed : List Member} {parser after : Parser} (keys : (seen.map Prod.fst).Nodup)
    (ran : parseMembers profile inner left seen parser = .ok (seen ++ parsed, after)) (few : parsed.length ≤ room)
    (short : ∀ member ∈ parsed, Short target member.1) (within : ∀ member ∈ parsed, Within target levels member.2)
    (nodes : parser.nodes + countMembers parsed ≤ target.maxNodes) :
    parseMembers target other room seen parser = .ok (seen ++ parsed, after) := by
  induction left generalizing room seen parsed parser with
  | zero => cases ran
  | succ left ih =>
    unfold parseMembers at ran
    obtain ⟨quoted, ran⟩ := guard_ok ran
    obtain ⟨⟨key, named⟩, name, ran⟩ := bind_ok ran
    obtain ⟨-, sameName⟩ := parseString_sound name
    obtain ⟨fresh, ran⟩ := guard_ok ran
    obtain ⟨spaced, before, ran⟩ := bind_ok ran
    have spaceNodes := skipWhitespace_nodes before
    have grown : ((seen ++ [(key, JsonValue.null)]).map Prod.fst).Nodup := by
      rw [map_append, nodup_append]
      refine ⟨keys, by simp, ?_⟩
      intro first known second listed equal
      rw [map_singleton, mem_singleton] at listed
      rw [equal, listed] at known
      exact fresh known
    cases colon : spaced.consumeIf 58 with
    | none =>
      rw [colon] at ran
      cases ran
    | some behind =>
      rw [colon] at ran
      have colonNodes := consumeIf_nodes colon
      obtain ⟨valued, opens, ran⟩ := bind_ok ran
      have openNodes := skipWhitespace_nodes opens
      obtain ⟨⟨value, next⟩, read, ran⟩ := bind_ok ran
      obtain ⟨-, counted, -⟩ := sound _ _ _ read
      obtain ⟨ended, skipped, ran⟩ := bind_ok ran
      have endNodes := skipWhitespace_nodes skipped
      -- the member that was read is the first of those parsed
      have first {rest : List Member} (shape : parsed = (key, value) :: rest) : ∃ spare, room = spare + 1 ∧
          rest.length ≤ spare ∧ parseString target parser = .ok (key, named) ∧ other valued = .ok (value, next) ∧
            (∀ member ∈ rest, Short target member.1) ∧ (∀ member ∈ rest, Within target levels member.2) ∧
              parser.nodes + value.count + countMembers rest ≤ target.maxNodes := by
        subst shape
        rw [length_cons] at few
        rw [countMembers] at nodes
        obtain ⟨shortHead, shortTail⟩ := forall_mem_cons.mp short
        obtain ⟨head, tail⟩ := forall_mem_cons.mp within
        exact ⟨room - 1, by omega, by omega, parseString_transfer more name shortHead,
          transfers _ _ _ read head (by omega), shortTail, tail, by omega⟩
      cases closed : ended.consumeIf 125 with
      | some last =>
        rw [closed] at ran
        obtain ⟨whole, rfl⟩ := Prod.mk.inj (Except.ok.inj ran)
        have shape := (append_cancel_left whole).symm
        obtain ⟨spare, rfl, -, names, reads, -⟩ := first shape
        rw [parseMembers_reads more quoted names fresh before colon opens reads skipped, closed, shape]
      | none =>
        rw [closed] at ran
        cases comma : ended.consumeIf 44 with
        | none =>
          rw [comma] at ran
          cases ran
        | some behind =>
          rw [comma] at ran
          obtain ⟨started, follows, ran⟩ := bind_ok ran
          have names' : ((seen ++ [(key, value)]).map Prod.fst).Nodup := by simpa using grown
          obtain ⟨rest, whole, -⟩ := parseMembers_sound sound names' ran
          rw [append_assoc] at whole
          have shape : parsed = (key, value) :: rest := append_cancel_left whole
          obtain ⟨spare, rfl, fewer, names, reads, shorts, inside, total⟩ := first shape
          have ate := consumeIf_nodes comma
          have space := skipWhitespace_nodes follows
          have again := @ih spare (seen ++ [(key, value)]) rest started names' (by rw [ran, shape]; simp) fewer shorts
            inside (by omega)
          rw [parseMembers_reads more quoted names fresh before colon opens reads skipped, closed]
          dsimp only
          rw [comma]
          show (skipWhitespace target behind >>= _) = _
          rw [skipWhitespace_transfer more follows, shape]
          exact again.trans (by simp)

def Deeper (profile : Profile Error) (target : Profile Other) (levels : Nat) (deeper : Option (Inner Error))
    (others : Option (Inner Other)) : Prop :=
  ∀ inner ∈ deeper, (∃ depth, Sound profile depth inner) ∧
    ∀ below, levels = below + 1 → ∃ other ∈ others, Transfers target below inner other

variable {deeper : Option (Inner Error)} {others : Option (Inner Other)}

theorem parseArray_transfer (given : Deeper profile target levels deeper others) {parser after : Parser}
    (ran : parseArray profile deeper parser = .ok (value, after))
    (within : Within target levels value) (nodes : parser.nodes + value.count ≤ target.maxNodes + 1) :
    parseArray target others parser = .ok (value, after) := by
  cases found : deeper with
  | none =>
    rw [found] at ran
    cases ran
  | some inner =>
    rw [found] at ran
    obtain ⟨⟨depth, sound⟩, deep⟩ := given inner found
    unfold parseArray at ran
    obtain ⟨started, skipped, ran⟩ := bind_ok ran
    have same := skipWhitespace_nodes skipped
    cases closed : started.consumeIf 93 with
    | some last =>
      rw [closed] at ran
      cases ran
      cases within with
      | @array below _ few inside =>
        obtain ⟨other, rfl, -⟩ := deep below rfl
        unfold parseArray
        dsimp only
        rw [skipWhitespace_transfer more skipped]
        dsimp only [bind, Except.bind]
        rw [closed]
        rfl
    | none =>
      rw [closed] at ran
      obtain ⟨⟨items, last⟩, read, ran⟩ := bind_ok ran
      cases ran
      cases within with
      | @array below _ few inside =>
        obtain ⟨other, rfl, transfers⟩ := deep below rfl
        rw [count] at nodes
        have parsed := @parseItems_transfer _ _ profile target more inner other below depth sound transfers
          profile.maxArrayItems target.maxArrayItems [] items started after read few inside
          (by rw [same]; simp only [Parser.advance]; omega)
        unfold parseArray
        dsimp only
        rw [skipWhitespace_transfer more skipped]
        dsimp only [bind, Except.bind]
        rw [closed]
        show (parseItems target other target.maxArrayItems [] started >>= _) = _
        rw [parsed]
        rfl

theorem parseObject_transfer (given : Deeper profile target levels deeper others) {parser after : Parser}
    (ran : parseObject profile id deeper parser = .ok (value, after))
    (within : Within target levels value) (nodes : parser.nodes + value.count ≤ target.maxNodes + 1) :
    parseObject target id others parser = .ok (value, after) := by
  cases found : deeper with
  | none =>
    rw [found] at ran
    cases ran
  | some inner =>
    rw [found] at ran
    obtain ⟨⟨depth, sound⟩, deep⟩ := given inner found
    unfold parseObject at ran
    obtain ⟨started, skipped, ran⟩ := bind_ok ran
    have same := skipWhitespace_nodes skipped
    cases closed : started.consumeIf 125 with
    | some last =>
      rw [closed] at ran
      cases ran
      cases within with
      | @object below _ few names short inside =>
        obtain ⟨other, rfl, -⟩ := deep below rfl
        unfold parseObject
        dsimp only
        rw [skipWhitespace_transfer more skipped]
        dsimp only [bind, Except.bind]
        rw [closed]
        rfl
    | none =>
      rw [closed] at ran
      obtain ⟨⟨members, last⟩, read, ran⟩ := bind_ok ran
      cases ran
      cases within with
      | @object below _ few names short inside =>
        obtain ⟨other, rfl, transfers⟩ := deep below rfl
        rw [id_eq, count] at nodes
        have parsed := @parseMembers_transfer _ _ profile target more inner other below depth sound transfers
          profile.maxObjectMembers target.maxObjectMembers [] members started after nodup_nil read few short inside
          (by rw [same]; simp only [Parser.advance]; omega)
        unfold parseObject
        dsimp only
        rw [skipWhitespace_transfer more skipped]
        dsimp only [bind, Except.bind]
        rw [closed]
        show (parseMembers target other target.maxObjectMembers [] started >>= _) = _
        rw [parsed]
        rfl

theorem parseByte_transfer (given : Deeper profile target levels deeper others) {parser after : Parser}
    (ran : parseByte profile id deeper parser = .ok (value, after))
    (within : Within target levels value) (nodes : parser.nodes + value.count ≤ target.maxNodes + 1) :
    parseByte target id others parser = .ok (value, after) := by
  unfold parseByte at ran ⊢
  split at ran
  · exact parseLiteral_transfer ran
  · exact parseLiteral_transfer ran
  · exact parseLiteral_transfer ran
  · obtain ⟨⟨chars, next⟩, read, ran⟩ := bind_ok ran
    cases ran
    cases within with
    | string short =>
      rw [parseString_transfer more read short]
      rfl
  · exact parseArray_transfer more given ran within nodes
  · exact parseObject_transfer more given ran within nodes
  · split at ran
    · rename_i digit
      obtain ⟨⟨number, next⟩, read, ran⟩ := bind_ok ran
      rw [if_pos digit, parseInteger_transfer more read]
      exact congrArg _ (Except.ok.inj ran)
    · cases ran
  · cases ran

theorem parseValueWith_transfer (given : Deeper profile target levels deeper others) :
    Transfers target levels (parseValueWith profile id deeper) (parseValueWith target id others) := by
  intro parser value after ran within nodes
  have positive := count_positive value
  obtain ⟨counted, registered, ran⟩ := bind_ok ran
  unfold registerNode at registered
  split at registered
  · cases registered
  · obtain rfl := Except.ok.inj registered
    have room : ¬target.maxNodes ≤ parser.nodes := by omega
    unfold parseValueWith registerNode
    rw [if_neg room]
    exact parseByte_transfer more given ran within (by dsimp only; omega)

theorem parseValue_transfer (depth levels : Nat) :
    Transfers target levels (parseValue profile id depth) (parseValue target id levels) := by
  induction depth generalizing levels with
  | zero =>
    have given (others : Option (Inner Other)) : Deeper profile target levels none others := fun _ none => by cases none
    cases levels with
    | zero => exact parseValueWith_transfer more (given _)
    | succ levels => exact parseValueWith_transfer more (given _)
  | succ depth ih =>
    have sound := @parseValue_sound _ profile depth
    cases levels with
    | zero =>
      refine parseValueWith_transfer more fun inner same => ?_
      obtain rfl := Option.some.inj same
      exact ⟨⟨depth, sound⟩, fun _ impossible => by cases impossible⟩
    | succ levels =>
      refine parseValueWith_transfer more fun inner same => ?_
      obtain rfl := Option.some.inj same
      refine ⟨⟨depth, sound⟩, fun below same => ?_⟩
      obtain rfl := Nat.succ.inj same
      exact ⟨_, rfl, ih levels⟩

theorem parseDocument_transfer {input : Bytes} (ran : parseDocument profile id input = .ok value)
    (size : input.length ≤ target.maxInputBytes) (fits : Fits target value) :
    parseDocument target id input = .ok value := by
  unfold parseDocument at ran
  obtain ⟨-, ran⟩ := guard_ok ran
  obtain ⟨decodes, ran⟩ := guard_ok ran
  obtain ⟨started, skipped, ran⟩ := bind_ok ran
  obtain ⟨⟨found, next⟩, read, ran⟩ := bind_ok ran
  obtain ⟨ended, closes, ran⟩ := bind_ok ran
  obtain ⟨last, ran⟩ := guard_ok ran
  obtain rfl := Except.ok.inj ran
  have fresh := skipWhitespace_nodes skipped
  have reads := parseValue_transfer more profile.maxDepth target.maxDepth started found next read fits.1
    (by rw [fresh, Nat.zero_add]; exact fits.2)
  unfold parseDocument
  rw [if_neg (not_lt.mpr size)]
  show (if _ then _ else _) = _
  rw [if_neg decodes]
  show (skipWhitespace target _ >>= _) = _
  rw [skipWhitespace_transfer more skipped]
  show (parseValue target id target.maxDepth started >>= _) = _
  rw [reads]
  show (skipWhitespace target next >>= _) = _
  rw [skipWhitespace_transfer more closes]
  show (if _ then _ else _) = _
  rw [if_neg last]
  rfl

end

end Canonical
