import Eliot.Json.Parsing
import Eliot.Text.Preferred
import Mathlib.Data.Finset.Basic

namespace Context
open Text Json List

/-- `.` of an expression with the flag `u`: a code point that ends no line -/
def isDot (point : Text) : Bool := !([[10], [13], [0x2028], [0x2029]].contains point)

/-- `\\.|[^"\\]` -/
def stringPoint : Regex Text :=
  .alt (.seq (.one fun point => point = [92]) (.one isDot)) (.one fun point => point ≠ [34] ∧ point ≠ [92])

/-- `/"(?:\\.|[^"\\])*"/gu`, which matches code points -/
def stringToken : Regex Text :=
  .seq (.one fun point => point = [34]) (.seq (.star stringPoint) (.one fun point => point = [34]))

/-- `replaceAll` of one unit -/
def replaceUnit (unit : Nat) (replacement text : Text) : Text :=
  text.flatMap fun other => if other = unit then replacement else [other]

def escapeBrackets (token : Text) : Text :=
  replaceUnit 93 (prose "\\u005d" rfl) (replaceUnit 91 (prose "\\u005b" rfl) token)

section
variable (numbers : Numbers) (authorityLabels : Finset Text)

/-- The callback of the replacement, which fails where `JSON.parse` throws. -/
def contextToken (token : Text) : Option Text :=
  (parse numbers token).map fun value =>
    match value with
    | .text label => if label ∈ authorityLabels then token else escapeBrackets token
    | _ => escapeBrackets token

def contextText (written : Text) : Option Text :=
  (stringToken.substitute (fun token => (contextToken numbers authorityLabels token.flatten).map fun placed => [placed])
    0 (codePoints written)).map List.flatten

def sourceContextJson (value : Record numbers.Number) : Option Text :=
  contextText numbers authorityLabels (stringify numbers value.data)

end

theorem escapeBrackets_append (first second : Text) :
    escapeBrackets (first ++ second) = escapeBrackets first ++ escapeBrackets second := by
  simp only [escapeBrackets, replaceUnit, flatMap_append]

theorem escapeBrackets_flatMap (points : List Text) (written : Text → Text) :
    escapeBrackets (points.flatMap written) = points.flatMap fun point => escapeBrackets (written point) := by
  induction points with
  | nil => rfl
  | cons point points ih => rw [flatMap_cons, escapeBrackets_append, ih, flatMap_cons]

theorem escapeBrackets_cons {unit : Nat} (start : unit ≠ 91) (stop : unit ≠ 93) (rest : Text) :
    escapeBrackets (unit :: rest) = unit :: escapeBrackets rest := by
  simp only [escapeBrackets, replaceUnit, flatMap_cons, if_neg start, singleton_append, if_neg stop]

theorem escapeBrackets_plain {text : Text} (plain : ∀ unit ∈ text, unit ≠ 91 ∧ unit ≠ 93) :
    escapeBrackets text = text := by
  induction text with
  | nil => rfl
  | cons unit rest ih =>
    have here := plain unit mem_cons_self
    rw [escapeBrackets_cons here.1 here.2, ih fun other member => plain other (mem_cons_of_mem _ member)]

theorem escapeBrackets_clean (text : Text) : ∀ unit ∈ escapeBrackets text, unit ≠ 91 ∧ unit ≠ 93 := by
  induction text with
  | nil => simp [escapeBrackets, replaceUnit]
  | cons unit rest ih =>
    by_cases start : unit = 91
    · have shape : escapeBrackets (unit :: rest) = prose "\\u005b" rfl ++ escapeBrackets rest := by
        subst start
        rfl
      intro other member
      rw [shape, mem_append] at member
      rcases member with member | member
      · revert other
        decide
      · exact ih other member
    · by_cases stop : unit = 93
      · have shape : escapeBrackets (unit :: rest) = prose "\\u005d" rfl ++ escapeBrackets rest := by
          subst stop
          rfl
        intro other member
        rw [shape, mem_append] at member
        rcases member with member | member
        · revert other
          decide
        · exact ih other member
      · rw [escapeBrackets_cons start stop]
        intro other member
        rcases mem_cons.mp member with rfl | member
        · exact ⟨start, stop⟩
        · exact ih other member

theorem hexDigit_plain (value : Nat) : hexDigit value ≠ 91 ∧ hexDigit value ≠ 93 := by
  unfold hexDigit
  split <;> omega

theorem unescape_plain {letter unit : Nat} (known : unescape letter = some unit) : letter ≠ 91 ∧ letter ≠ 93 := by
  constructor
  · rintro rfl
    cases known
  · rintro rfl
    cases known

theorem unicodeEscape_plain (code : Nat) : ∀ unit ∈ unicodeEscape code, unit ≠ 91 ∧ unit ≠ 93 := by
  intro unit member
  simp only [unicodeEscape, mem_cons, not_mem_nil, or_false] at member
  rcases member with rfl | rfl | rfl | rfl | rfl | rfl
  · decide
  · decide
  · exact hexDigit_plain _
  · exact hexDigit_plain _
  · exact hexDigit_plain _
  · exact hexDigit_plain _

theorem spells_escapeBrackets {point written : Text} (spelling : Spelling point written) :
    Spells point (escapeBrackets written) := by
  cases spelling with
  | @plain unit quote control backslash alone =>
    by_cases start : unit = 91
    · have small : 91 < 0x10000 := by decide
      subst start
      exact spells_unicode small
    · by_cases stop : unit = 93
      · have small : 93 < 0x10000 := by decide
        subst stop
        exact spells_unicode small
      · rw [escapeBrackets_cons start stop]
        exact spells_plain quote control backslash
  | letter known other =>
    have plain := unescape_plain known
    rw [escapeBrackets_cons (by decide) (by decide), escapeBrackets_cons plain.1 plain.2]
    exact spells_escaped other known
  | code small =>
    rw [escapeBrackets_plain (unicodeEscape_plain _)]
    exact spells_unicode small
  | pair first second =>
    have pair := Spelling.pair first second
    simp only [isHigh, isLow, Bool.and_eq_true, decide_eq_true_eq] at first second
    rw [escapeBrackets_cons (by omega) (by omega), escapeBrackets_cons (by omega) (by omega)]
    exact pair.spells

def contextString (authorityLabels : Finset Text) (text : Text) : Text :=
  if text ∈ authorityLabels then jsonString text else escapeBrackets (jsonString text)

theorem quotes_contextString (authorityLabels : Finset Text) : Quotes (contextString authorityLabels) := by
  refine quotes_of_spells fun text => ?_
  by_cases label : text ∈ authorityLabels
  · refine ⟨(codePoints text).flatMap jsonPoint, if_pos label, ?_⟩
    exact spells_points fun point member => (spelling_jsonPoint member).spells
  · refine ⟨(codePoints text).flatMap fun point => escapeBrackets (jsonPoint point), ?_, ?_⟩
    · rw [contextString, if_neg label, jsonString, cons_append, escapeBrackets_cons (by decide) (by decide),
        escapeBrackets_append, escapeBrackets_flatMap]
      rfl
    · exact spells_points fun point member => spells_escapeBrackets (spelling_jsonPoint member)

section
variable {rest : Text} {out : List Text}

open Regex

theorem exec_stringPoint {point : Text} (quote : point ≠ [34]) (backslash : point ≠ [92]) (points : List Text) :
    stringPoint.exec (point :: points) = some ⟨[], points⟩ := by
  have missed : (Regex.seq (.one fun point : Text => point = [92]) (.one isDot)).exec (point :: points) = none :=
    exec_seq_left_none (exec_one_none (by simp [backslash]))
  rw [stringPoint, exec_alt_right missed]
  exact exec_one (by simp [quote, backslash])

theorem exec_stringEscape {point : Text} (dot : isDot point = true) (points : List Text) :
    stringPoint.exec ([92] :: point :: points) = some ⟨[], points⟩ :=
  exec_alt_left (exec_seq (exec_one rfl) (exec_one dot))

theorem exec_star_point {point : Text} (quote : point ≠ [34]) (backslash : point ≠ [92]) {points : List Text}
    (later : (Regex.star stringPoint).exec points = some ⟨[], out⟩) :
    (Regex.star stringPoint).exec (point :: points) = some ⟨[], out⟩ :=
  exec_star_more (exec_stringPoint quote backslash points) (by simp) later

theorem exec_star_escape {point : Text} (dot : isDot point = true) {points : List Text}
    (later : (Regex.star stringPoint).exec points = some ⟨[], out⟩) :
    (Regex.star stringPoint).exec ([92] :: point :: points) = some ⟨[], out⟩ :=
  exec_star_more (exec_stringEscape dot points) (by simp) later

theorem hexDigit_range (value : Nat) : 48 ≤ hexDigit (value % 16) ∧ hexDigit (value % 16) ≤ 102 ∧
    hexDigit (value % 16) ≠ 92 := by
  unfold hexDigit
  split <;> omega

theorem codePoints_small {unit : Nat} (small : unit < 0xd800) (rest : Text) :
    codePoints (unit :: rest) = [unit] :: codePoints rest := by
  refine codePoints_cons ?_ rest
  simp only [isHigh, Bool.and_eq_false_iff, decide_eq_false_iff_not]
  omega

theorem exec_star_spelling {point written : Text} (spelling : Spelling point written)
    (later : (Regex.star stringPoint).exec (codePoints rest) = some ⟨[], out⟩) :
    (Regex.star stringPoint).exec (codePoints (written ++ rest)) = some ⟨[], out⟩ := by
  cases spelling with
  | @plain unit quote control backslash alone =>
    have single : isHigh unit = false := by
      simp only [isSurrogate, Bool.and_eq_false_iff, decide_eq_false_iff_not] at alone
      simp only [isHigh, Bool.and_eq_false_iff, decide_eq_false_iff_not]
      omega
    rw [singleton_append, codePoints_cons single]
    exact exec_star_point (by simpa using quote) (by simpa using backslash) later
  | @letter unit letter known other =>
    have escape : letter < 0xd800 ∧ isDot [letter] = true := by
      unfold unescape at known
      split at known
      all_goals first | exact ⟨by decide, by decide⟩ | cases known
    rw [cons_append, singleton_append, codePoints_small (by decide), codePoints_small escape.1]
    exact exec_star_escape escape.2 later
  | @code unit small =>
    have digit (value : Nat) {points : List Text}
        (later : (Regex.star stringPoint).exec points = some ⟨[], out⟩) :
        (Regex.star stringPoint).exec ([hexDigit (value % 16)] :: points) = some ⟨[], out⟩ := by
      have range := hexDigit_range value
      exact exec_star_point (by simp; omega) (by simp; omega) later
    have plain (value : Nat) : hexDigit (value % 16) < 0xd800 := by
      have range := hexDigit_range value
      omega
    simp only [unicodeEscape, cons_append, nil_append]
    rw [codePoints_small (by decide), codePoints_small (by decide), codePoints_small (plain _),
      codePoints_small (plain _), codePoints_small (plain _), codePoints_small (plain _)]
    exact exec_star_escape rfl (digit _ (digit _ (digit _ (digit _ later))))
  | @pair high low first second =>
    rw [cons_append, singleton_append, codePoints, if_pos]
    · exact exec_star_point (by simp) (by simp) later
    · simp only [isHigh, isLow, Bool.and_eq_true, decide_eq_true_eq] at first second
      simp only [Bool.and_eq_true, decide_eq_true_eq]
      exact ⟨first, second⟩

theorem exec_star_body (points : List Text) (each : ∀ point ∈ points, Spelling point (jsonPoint point)) (rest : Text) :
    (Regex.star stringPoint).exec (codePoints (points.flatMap jsonPoint ++ 34 :: rest)) =
      some ⟨[], [34] :: codePoints rest⟩ := by
  induction points with
  | nil =>
    rw [flatMap_nil, nil_append, codePoints_small (by decide)]
    refine exec_star_stop ?_
    rw [stringPoint, exec_alt_right (exec_seq_left_none (exec_one_none (by simp)))]
    exact exec_one_none (by simp)
  | cons point points ih =>
    rw [flatMap_cons, append_assoc]
    exact exec_star_spelling (each point mem_cons_self)
      (ih fun other listed => each other (mem_cons_of_mem _ listed))

theorem exec_stringToken (text rest : Text) :
    stringToken.exec (codePoints (jsonString text ++ rest)) = some ⟨[], codePoints rest⟩ := by
  have body := exec_star_body (codePoints text) (fun _ member => spelling_jsonPoint member) rest
  rw [jsonString, cons_append, cons_append, append_assoc, singleton_append,
    codePoints_small (by decide)]
  have closed : (Regex.seq (.star stringPoint) (.one fun point : Text => point = [34])).exec
      (codePoints ((codePoints text).flatMap jsonPoint ++ 34 :: rest)) = some ⟨[], codePoints rest⟩ :=
    exec_seq body (exec_one rfl)
  exact exec_seq (exec_one rfl) closed

theorem codePoints_jsonString (text rest : Text) :
    codePoints (jsonString text ++ rest) = codePoints (jsonString text) ++ codePoints rest := by
  refine codePoints_append _ _ ?_
  rw [jsonString, getLast?_concat]
  simp [isHigh]

end

section
variable {numbers : Numbers} {authorityLabels : Finset Text}

def Rewritten (numbers : Numbers) (authorityLabels : Finset Text) (part result : Text) : Prop :=
  ∀ rest, contextText numbers authorityLabels (part ++ rest) =
    (contextText numbers authorityLabels rest).map fun out => result ++ out

theorem Rewritten.append {first second left right : Text} (one : Rewritten numbers authorityLabels first left)
    (two : Rewritten numbers authorityLabels second right) :
    Rewritten numbers authorityLabels (first ++ second) (left ++ right) := by
  intro rest
  rw [append_assoc, one, two, Option.map_map]
  congr 1
  funext out
  simp

theorem rewritten_nil : Rewritten numbers authorityLabels [] [] := by
  intro rest
  cases same : contextText numbers authorityLabels rest <;> simp [same]

theorem rewritten_unit {unit : Nat} (quote : unit ≠ 34) (small : unit < 0xd800) :
    Rewritten numbers authorityLabels [unit] [unit] := by
  intro rest
  have missed : stringToken.exec ([unit] :: codePoints rest) = none :=
    Regex.exec_seq_left_none (Regex.exec_one_none (by simpa using quote))
  rw [contextText, contextText, singleton_append, codePoints_small small, Regex.substitute_pass missed,
    Option.map_map, Option.map_map]
  rfl

theorem rewritten_plain {part : Text} (plain : ∀ unit ∈ part, unit ≠ 34 ∧ unit < 0xd800) :
    Rewritten numbers authorityLabels part part := by
  induction part with
  | nil => exact rewritten_nil
  | cons unit part ih =>
    have here := plain unit mem_cons_self
    exact (rewritten_unit here.1 here.2).append (ih fun other member => plain other (mem_cons_of_mem _ member))

theorem parse_jsonString (text : Text) : parse numbers (jsonString text) = some (.text text) :=
  parse_write quotes_jsonString (.text text)

theorem rewritten_string (text : Text) :
    Rewritten numbers authorityLabels (jsonString text) (contextString authorityLabels text) := by
  intro rest
  have token : contextToken numbers authorityLabels (jsonString text) = some (contextString authorityLabels text) := by
    rw [contextToken, parse_jsonString]
    rfl
  have shape : codePoints (jsonString text) = [34] :: codePoints ((codePoints text).flatMap jsonPoint ++ [34]) := by
    rw [jsonString, cons_append, codePoints_small (by decide)]
  have found := exec_stringToken text rest
  have whole := codePoints_flatten (jsonString text)
  rw [codePoints_jsonString] at found
  rw [contextText, codePoints_jsonString]
  rw [shape] at found whole ⊢
  rw [Regex.substitute_found found, whole, token]
  simp only [Option.map_some, Option.bind_some, Option.map_map]
  rw [contextText, Option.map_map]
  rfl

theorem rewritten_enclosed {Part : Type} {start stop : Nat} (opened : start ≠ 34 ∧ start < 0xd800)
    (closed : stop ≠ 34 ∧ stop < 0xd800) {parts : List Part} {before after : Part → Text}
    (each : ∀ part ∈ parts, Rewritten numbers authorityLabels (before part) (after part)) :
    Rewritten numbers authorityLabels (enclosed start stop (parts.map before)) (enclosed start stop (parts.map after)) := by
  have first : Rewritten numbers authorityLabels [start] [start] := rewritten_unit opened.1 opened.2
  have last : Rewritten numbers authorityLabels [stop] [stop] := rewritten_unit closed.1 closed.2
  cases parts with
  | nil => exact first.append last
  | cons part parts =>
    have later (others : List Part)
        (each : ∀ part ∈ others, Rewritten numbers authorityLabels (before part) (after part)) :
        Rewritten numbers authorityLabels ((others.map before).flatMap fun part => [44] ++ part)
          ((others.map after).flatMap fun part => [44] ++ part) := by
      induction others with
      | nil => exact rewritten_nil
      | cons other others ih =>
        have comma : Rewritten numbers authorityLabels [44] [44] := rewritten_unit (by decide) (by decide)
        exact (comma.append (each other mem_cons_self)).append
          (ih fun part listed => each part (mem_cons_of_mem _ listed))
    have rest := later parts fun other listed => each other (mem_cons_of_mem _ listed)
    have inside := (each part mem_cons_self).append rest
    simp only [map_cons]
    rw [enclosed, enclosed, intersperse_flatten, intersperse_flatten]
    exact first.append (inside.append last)

theorem rewritten_write {value : Data numbers.Number} (regular : value.Regular) :
    Rewritten numbers authorityLabels (write numbers jsonString value)
      (write numbers (contextString authorityLabels) value) := by
  induction regular with
  | null =>
    have plain : ∀ unit ∈ prose "null" rfl, unit ≠ 34 ∧ unit < 0xd800 := by decide
    exact rewritten_plain plain
  | boolean value =>
    have yes : ∀ unit ∈ prose "true" rfl, unit ≠ 34 ∧ unit < 0xd800 := by decide
    have no : ∀ unit ∈ prose "false" rfl, unit ≠ 34 ∧ unit < 0xd800 := by decide
    cases value with
    | true => exact rewritten_plain yes
    | false => exact rewritten_plain no
  | number value =>
    refine rewritten_plain fun unit member => ?_
    have numeral := numeral_text (numbers.shortest value) unit member
    simp only [isNumeral, isDigit, Bool.or_eq_true, Bool.and_eq_true, decide_eq_true_eq] at numeral
    omega
  | text value => exact rewritten_string value
  | array each ih =>
    rw [write_array, write_array]
    exact rewritten_enclosed (by decide) (by decide) ih
  | object listed each ih =>
    rw [write_object, write_object]
    refine rewritten_enclosed (by decide) (by decide) fun member listed => ?_
    exact (rewritten_string member.1).append ((rewritten_unit (by decide) (by decide)).append (ih member listed))

theorem sourceContextJson_write (value : Record numbers.Number) : sourceContextJson numbers authorityLabels value =
    some (write numbers (contextString authorityLabels) value.data) := by
  have rewritten : Rewritten numbers authorityLabels _ _ := rewritten_write value.regular
  have empty : contextText numbers authorityLabels [] = some [] := rfl
  have whole := rewritten []
  rw [append_nil, empty, Option.map_some, append_nil] at whole
  exact whole

/-- What the model is shown is the record, and brackets in its strings are those of exact labels. -/
theorem sourceContextJson_faithful (numbers : Numbers) (authorityLabels : Finset Text) (value : Record numbers.Number) :
    ∃ shown, sourceContextJson numbers authorityLabels value = some shown ∧ parse numbers shown = some value.data ∧
      ∀ token ∈ stringTokens numbers shown, 91 ∈ token ∨ 93 ∈ token →
        ∃ label ∈ authorityLabels, token = jsonString label ∧ parse numbers token = some (.text label) := by
  have quotes := quotes_contextString authorityLabels
  refine ⟨_, sourceContextJson_write value, parse_write quotes value.regular, ?_⟩
  intro token member bracket
  obtain ⟨text, rfl⟩ := stringTokens_write quotes value.regular token member
  by_cases label : text ∈ authorityLabels
  · rw [contextString, if_pos label] at bracket ⊢
    exact ⟨text, label, rfl, parse_jsonString text⟩
  · rw [contextString, if_neg label] at bracket
    rcases bracket with bracket | bracket
    · exact absurd rfl (escapeBrackets_clean _ _ bracket).1
    · exact absurd rfl (escapeBrackets_clean _ _ bracket).2

example : contextText integers {prose "[S1:7]" rfl} (prose "[\"[S1:7]\",-12,\"see [S1:7]\"]" rfl) =
    some (prose "[\"[S1:7]\",-12,\"see \\u005bS1:7\\u005d\"]" rfl) := by decide +kernel

end

end Context
