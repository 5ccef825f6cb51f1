import Eliot.Context.Assembly
import Eliot.Context.Estimates
import Eliot.Json.Schema

namespace Context
open Text Json List

/-- What `JSON.stringify` and the escape of brackets add to a code point; a pair stays as it is. -/
def addedUnits : Text → Nat
  | [code] =>
    if code = 91 ∨ code = 93 then 5
    else if code = 34 ∨ code = 92 then 1
    else if code < 32 then if code ∈ [8, 9, 10, 12, 13] then 1 else 5
    else if isSurrogate code then 5
    else 0
  | _ => 0

def sourceEvidenceJsonLength (text : Text) : Nat :=
  text.length + 2 + ((codePoints text).map addedUnits).sum

def unitUnits (code : Nat) : Nat :=
  if code = 34 ∨ code = 92 then 2
  else if code < 32 then if code ∈ [8, 9, 10, 12, 13] then 2 else 6
  else if isSurrogate code then 6
  else 1

theorem length_jsonPoint (code : Nat) : (jsonPoint [code]).length = unitUnits code := by
  show List.length (if code = 34 ∨ code = 92 then [92, code] else _) = _
  unfold unitUnits
  by_cases special : code = 34 ∨ code = 92
  · rw [if_pos special, if_pos special]
    rfl
  · rw [if_neg special, if_neg special]
    by_cases control : code < 32
    · rw [if_pos control, if_pos control]
      clear special
      revert code
      decide
    · rw [if_neg control, if_neg control]
      split_ifs <;> rfl

theorem length_escapeBrackets (code : Nat) : (escapeBrackets (jsonPoint [code])).length =
    unitUnits code + if code = 91 ∨ code = 93 then 5 else 0 := by
  by_cases bracket : code = 91 ∨ code = 93
  · rw [if_pos bracket]
    rcases bracket with rfl | rfl <;> decide
  · have plain : ∀ unit ∈ jsonPoint [code], unit ≠ 91 ∧ unit ≠ 93 := by
      have spelling : Spelling [code] (jsonPoint [code]) := @spelling_jsonPoint [code] [code] (by simp [codePoints])
      generalize jsonPoint [code] = written at spelling
      cases spelling with
      | plain quote control backslash alone =>
        intro unit member
        rw [mem_singleton.mp member]
        exact not_or.mp bracket
      | letter known other =>
        intro unit member
        simp only [mem_cons, not_mem_nil, or_false] at member
        rcases member with rfl | rfl
        · decide
        · exact unescape_plain known
      | code small => exact unicodeEscape_plain code
    rw [escapeBrackets_plain plain, length_jsonPoint, if_neg bracket]
    rfl

theorem unitUnits_added (code : Nat) :
    1 + addedUnits [code] = unitUnits code + if code = 91 ∨ code = 93 then 5 else 0 := by
  show 1 + (if code = 91 ∨ code = 93 then 5 else _) = _
  unfold unitUnits
  by_cases control : code < 32
  · revert code
    decide
  · by_cases bracket : code = 91 ∨ code = 93
    · rcases bracket with rfl | rfl <;> rfl
    · rw [if_neg bracket, if_neg bracket, if_neg control]
      split_ifs <;> rfl

theorem escapeBrackets_pair {high low : Nat} (first : isHigh high = true) (second : isLow low = true) :
    escapeBrackets [high, low] = [high, low] := by
  simp only [isHigh, isLow, Bool.and_eq_true, decide_eq_true_eq] at first second
  refine escapeBrackets_plain fun unit member => ?_
  simp only [mem_cons, not_mem_nil, or_false] at member
  omega

theorem length_escapedPoint {text point : Text} (listed : point ∈ codePoints text) :
    (escapeBrackets (jsonPoint point)).length = point.length + addedUnits point := by
  rcases codePoints_points text point listed with ⟨unit, rfl⟩ | ⟨high, low, rfl, surrogate⟩
  · rw [length_escapeBrackets, ← unitUnits_added]
    rfl
  · obtain ⟨first, second⟩ := isPair listed
    exact congrArg List.length (escapeBrackets_pair first second)

theorem length_jsonString (content : Text) :
    (jsonString content).length = 2 + ((codePoints content).map fun point => (jsonPoint point).length).sum := by
  rw [jsonString, length_append, length_cons, length_flatMap, length_singleton]
  omega

theorem length_escapedString (content : Text) : (escapeBrackets (jsonString content)).length =
    2 + ((codePoints content).map fun point => (escapeBrackets (jsonPoint point)).length).sum := by
  rw [jsonString, cons_append, escapeBrackets_cons (by decide) (by decide), escapeBrackets_append,
    escapeBrackets_flatMap, length_cons, length_append, length_flatMap]
  show _ + 1 + 1 = _
  omega

theorem sourceEvidenceJsonLength_eq (content : Text) :
    sourceEvidenceJsonLength content = (escapeBrackets (jsonString content)).length := by
  have points : content.length = ((codePoints content).map List.length).sum := by
    rw [← length_flatten, codePoints_flatten]
  have each : ((codePoints content).map fun point => (escapeBrackets (jsonPoint point)).length) =
      (codePoints content).map fun point => point.length + addedUnits point :=
    map_congr_left fun point listed => length_escapedPoint listed
  rw [length_escapedString, each, sum_map_add, sourceEvidenceJsonLength, points]
  omega

def sourceEvidenceLabel (source : Text) (blockId : Nat) : Text :=
  prose "[" rfl ++ source ++ prose ":" rfl ++ decimal blockId ++ prose "]" rfl

def evidenceRecord (label content : Text) : Text :=
  prose "\x7b\"label\":" rfl ++ jsonString label ++ prose ",\"text\":" rfl ++ escapeBrackets (jsonString content) ++
    prose "\x7d" rfl

def sourceEvidenceRecord {World : Type} (source : Text) (blockId : Nat) (content : Text) (workspace : Nat) :
    Assembling World (Text × Nat) := do
  let label := sourceEvidenceLabel source blockId
  let prefixLength := label.length + 19
  let encodedLength := sourceEvidenceJsonLength content
  let recordLength := prefixLength + encodedLength + 1
  let nextWorkspace := 4 * (encodedLength + 64)
  reserve (nextWorkspace - workspace)
  reserve (2 * recordLength)
  return (evidenceRecord label content, max workspace nextWorkspace)

def sourceAlias (index : Nat) : Text := prose "S" rfl ++ decimal (index + 1)

theorem jsonString_plain {content : Text}
    (plain : ∀ unit ∈ content, unit ≠ 34 ∧ unit ≠ 92 ∧ 32 ≤ unit ∧ unit < 0xd800) :
    (jsonString content).length = content.length + 2 := by
  have each : ((codePoints content).map fun point => (jsonPoint point).length) = (codePoints content).map List.length := by
    refine map_congr_left fun point listed => ?_
    rcases codePoints_points content point listed with ⟨unit, rfl⟩ | ⟨high, low, rfl, surrogate⟩
    · have member : unit ∈ content := by
        rw [← codePoints_flatten content]
        exact mem_flatten.mpr ⟨_, listed, mem_singleton_self unit⟩
      have here := plain unit member
      rw [length_jsonPoint, unitUnits, if_neg (by omega), if_neg (by omega), if_neg]
      · rfl
      · simp only [isSurrogate, Bool.and_eq_true, decide_eq_true_eq]
        omega
    · rfl
  rw [length_jsonString, each, ← length_flatten, codePoints_flatten, Nat.add_comm]

theorem length_sourceEvidenceLabel (index blockId : Nat) :
    (jsonString (sourceEvidenceLabel (sourceAlias index) blockId)).length =
      (sourceEvidenceLabel (sourceAlias index) blockId).length + 2 := by
  refine jsonString_plain fun unit member => ?_
  have digits (value : Nat) (listed : unit ∈ decimal value) : unit ≠ 34 ∧ unit ≠ 92 ∧ 32 ≤ unit ∧ unit < 0xd800 := by
    have digit := decimal_digits value unit listed
    simp only [isDigit, Bool.and_eq_true, decide_eq_true_eq] at digit
    omega
  have literals : ∀ other ∈ prose "[" rfl ++ prose "S" rfl ++ prose ":" rfl ++ prose "]" rfl,
      other ≠ 34 ∧ other ≠ 92 ∧ 32 ≤ other ∧ other < 0xd800 := by decide
  simp only [mem_append] at literals
  simp only [sourceEvidenceLabel, sourceAlias, mem_append] at member
  rcases member with (((opened | (name | number)) | colon) | number) | closed
  · exact literals unit (.inl (.inl (.inl opened)))
  · exact literals unit (.inl (.inl (.inr name)))
  · exact digits _ number
  · exact literals unit (.inl (.inr colon))
  · exact digits _ number
  · exact literals unit (.inr closed)

theorem length_evidenceRecord (index blockId : Nat) (content : Text) :
    (evidenceRecord (sourceEvidenceLabel (sourceAlias index) blockId) content).length =
      (sourceEvidenceLabel (sourceAlias index) blockId).length + 19 + sourceEvidenceJsonLength content + 1 := by
  have name : (prose "\x7b\"label\":" rfl).length = 9 := rfl
  have body : (prose ",\"text\":" rfl).length = 8 := rfl
  have last : (prose "\x7d" rfl).length = 1 := rfl
  rw [evidenceRecord, length_append, length_append, length_append, length_append,
    length_sourceEvidenceLabel, sourceEvidenceJsonLength_eq, name, body, last]
  omega

theorem sourceEvidenceRecord_exact {World : Type} (index blockId : Nat) (content : Text) (workspace : Nat) :
    (sourceEvidenceRecord (sourceAlias index) blockId content workspace : Assembling World (Text × Nat)) =
      (do
        let record := evidenceRecord (sourceEvidenceLabel (sourceAlias index) blockId) content
        let nextWorkspace := 4 * ((escapeBrackets (jsonString content)).length + 64)
        reserve (nextWorkspace - workspace)
        reserve (2 * record.length)
        return (record, max workspace nextWorkspace)) := by
  dsimp only
  rw [sourceEvidenceRecord, length_evidenceRecord, ← sourceEvidenceJsonLength_eq]

section

/-- What a value holds where JSON has a number: `undefined`, functions and symbols are absent. -/
inductive Leaf (Number : Type) where
  | finite (value : Number)
  | negativeZero
  | endless
  | absent

variable (numbers : Numbers)

def Leaf.text : Leaf numbers.Number → Text
  | .finite value => (numbers.shortest value).text
  | .negativeZero => prose "0" rfl
  | _ => prose "null" rfl

def isAbsent : Data (Leaf numbers.Number) → Bool
  | .number .absent => true
  | _ => false

section
variable (quote : Text → Text)

mutual
/-- `JSON.stringify` of what is in an array, or not absent. -/
def writeValue : Data (Leaf numbers.Number) → Text
  | .null => prose "null" rfl
  | .boolean true => prose "true" rfl
  | .boolean false => prose "false" rfl
  | .number leaf => leaf.text
  | .text value => quote value
  | .array items => enclosed 91 93 (writeElements items)
  | .object members => enclosed 123 125 (writePresent members)
def writeElements : List (Data (Leaf numbers.Number)) → List Text
  | [] => []
  | item :: items => writeValue item :: writeElements items
def writePresent : List (Text × Data (Leaf numbers.Number)) → List Text
  | [] => []
  | (name, value) :: members =>
    if isAbsent numbers value then writePresent members
    else (quote name ++ 58 :: writeValue value) :: writePresent members
end

end

structure Charged where
  jsonUnits : Nat
  escapedUnits : Nat
  largestEscapedToken : Nat

def Charged.addLiteral (charged : Charged) (units : Nat) : Charged :=
  { charged with jsonUnits := charged.jsonUnits + units, escapedUnits := charged.escapedUnits + units }

/-- The loop of `addString` over the units, with what is encoded and what is escaped. -/
def scanUnits (escapes : Bool) : Text → Nat → Nat → Nat × Nat
  | high :: low :: rest, encoded, escaped =>
    if isHigh high && isLow low then scanUnits escapes rest (encoded + 2) (escaped + 2)
    else scanUnits escapes (low :: rest) (encoded + unitUnits high)
      (escaped + (unitUnits high + if escapes ∧ (high = 91 ∨ high = 93) then 5 else 0))
  | [code], encoded, escaped =>
    (encoded + unitUnits code, escaped + (unitUnits code + if escapes ∧ (code = 91 ∨ code = 93) then 5 else 0))
  | [], encoded, escaped => (encoded, escaped)

variable (authorityLabels : Finset Text)

def Charged.addString (charged : Charged) (content : Text) : Charged :=
  let (encoded, escaped) := scanUnits (content ∉ authorityLabels) content 2 2
  ⟨charged.jsonUnits + encoded, charged.escapedUnits + escaped, max charged.largestEscapedToken escaped⟩

mutual
def addValue (charged : Charged) (arrayItem : Bool) : Data (Leaf numbers.Number) → Charged
  | .null => charged.addLiteral 4
  | .number .absent => if arrayItem then charged.addLiteral 4 else charged
  | .text value => charged.addString authorityLabels value
  | .boolean value => charged.addLiteral (if value then 4 else 5)
  | .number (.finite value) => charged.addLiteral (numbers.shortest value).text.length
  | .number .negativeZero => charged.addLiteral 1
  | .number .endless => charged.addLiteral 4
  | .array items => addItems (charged.addLiteral (2 + (items.length - 1))) items
  | .object members => (addMembers (charged.addLiteral 2) true members).addLiteral 1
def addItems (charged : Charged) : List (Data (Leaf numbers.Number)) → Charged
  | [] => charged
  | item :: items => addItems (addValue charged true item) items
def addMembers (charged : Charged) (first : Bool) : List (Text × Data (Leaf numbers.Number)) → Charged
  | [] => charged
  | (name, value) :: members =>
    if isAbsent numbers value then addMembers charged first members
    else
      let comma := if first then charged else charged.addLiteral 1
      addMembers (addValue ((comma.addString authorityLabels name).addLiteral 1) false value) false members
end

def sourceContextJsonAllocation (value : Data (Leaf numbers.Number)) : Nat :=
  let charged := addValue numbers authorityLabels ⟨0, 0, 0⟩ false value
  2 * (charged.jsonUnits + charged.escapedUnits) + 12 * (charged.largestEscapedToken + 64)

variable {numbers : Numbers} {authorityLabels : Finset Text} {charged : Charged}

theorem writeValue_array (quote : Text → Text) (items : List (Data (Leaf numbers.Number))) :
    writeValue numbers quote (.array items) = enclosed 91 93 (items.map (writeValue numbers quote)) := by
  have parts : writeElements numbers quote items = items.map (writeValue numbers quote) := by
    induction items with
    | nil => rfl
    | cons item items ih => rw [writeElements, ih, map_cons]
  rw [writeValue, parts]

theorem writeValue_object (quote : Text → Text) (members : List (Text × Data (Leaf numbers.Number))) :
    writeValue numbers quote (.object members) =
      enclosed 123 125 ((members.filter fun member => !isAbsent numbers member.2).map
        fun member => quote member.1 ++ 58 :: writeValue numbers quote member.2) := by
  have parts : writePresent numbers quote members = (members.filter fun member => !isAbsent numbers member.2).map
      fun member => quote member.1 ++ 58 :: writeValue numbers quote member.2 := by
    induction members with
    | nil => rfl
    | cons member members ih =>
      rw [writePresent, ih, filter_cons]
      cases isAbsent numbers member.2 <;> rfl
  rw [writeValue, parts]

theorem rewritten_value {value : Data (Leaf numbers.Number)} (regular : value.Regular) :
    Rewritten numbers authorityLabels (writeValue numbers jsonString value)
      (writeValue numbers (contextString authorityLabels) value) := by
  have null : Rewritten numbers authorityLabels (prose "null" rfl) (prose "null" rfl) := by
    have plain : ∀ unit ∈ prose "null" rfl, unit ≠ 34 ∧ unit < 0xd800 := by decide
    exact rewritten_plain plain
  induction regular with
  | null => exact null
  | boolean value =>
    have yes : ∀ unit ∈ prose "true" rfl, unit ≠ 34 ∧ unit < 0xd800 := by decide
    have no : ∀ unit ∈ prose "false" rfl, unit ≠ 34 ∧ unit < 0xd800 := by decide
    cases value with
    | true => exact rewritten_plain yes
    | false => exact rewritten_plain no
  | number leaf =>
    cases leaf with
    | finite value =>
      refine rewritten_plain fun unit member => ?_
      have numeral := numeral_text (numbers.shortest value) unit member
      simp only [isNumeral, isDigit, Bool.or_eq_true, Bool.and_eq_true, decide_eq_true_eq] at numeral
      omega
    | negativeZero => exact rewritten_unit (by decide) (by decide)
    | endless => exact null
    | absent => exact null
  | text value => exact rewritten_string value
  | array each ih =>
    rw [writeValue_array, writeValue_array]
    exact rewritten_enclosed (by decide) (by decide) ih
  | object listed each ih =>
    rw [writeValue_object, writeValue_object]
    refine rewritten_enclosed (by decide) (by decide) fun member kept => ?_
    have colon : Rewritten numbers authorityLabels [58] [58] := rewritten_unit (by decide) (by decide)
    exact (rewritten_string member.1).append (colon.append (ih member (mem_filter.mp kept).1))

theorem scanUnits_points (escapes : Bool) (content : Text) (encoded escaped : Nat) :
    scanUnits escapes content encoded escaped =
      (encoded + ((codePoints content).map fun point => (jsonPoint point).length).sum,
        escaped + ((codePoints content).map fun point =>
          (if escapes then escapeBrackets (jsonPoint point) else jsonPoint point).length).sum) := by
  have single (code : Nat) : (if escapes then escapeBrackets (jsonPoint [code]) else jsonPoint [code]).length =
      unitUnits code + if escapes ∧ (code = 91 ∨ code = 93) then 5 else 0 := by
    cases escapes with
    | true => simpa using length_escapeBrackets code
    | false => simpa using length_jsonPoint code
  induction content using codePoints.induct generalizing encoded escaped with
  | case1 high low rest paired ih =>
    have pair : isHigh high = true ∧ isLow low = true := by
      simpa only [isHigh, isLow, Bool.and_eq_true] using paired
    have kept : (if escapes then escapeBrackets (jsonPoint [high, low]) else jsonPoint [high, low]).length = 2 := by
      cases escapes with
      | true => exact congrArg List.length (escapeBrackets_pair pair.1 pair.2)
      | false => rfl
    rw [scanUnits, if_pos (by simp only [pair, Bool.and_self]), ih, codePoints, if_pos paired, map_cons,
      sum_cons, map_cons, sum_cons, kept, Nat.add_assoc, Nat.add_assoc]
    rfl
  | case2 high low rest unpaired ih =>
    have apart : ¬(isHigh high && isLow low) = true := unpaired
    rw [scanUnits, if_neg apart, ih, codePoints, if_neg unpaired, map_cons, sum_cons, map_cons,
      sum_cons, single, length_jsonPoint, Nat.add_assoc, Nat.add_assoc]
  | case3 rest short =>
    cases rest with
    | nil => rfl
    | cons code rest =>
      cases rest with
      | nil =>
        simp only [codePoints, map_cons, map_nil, sum_cons, sum_nil, Nat.add_zero, single,
          length_jsonPoint]
        rfl
      | cons second rest => exact absurd rfl (short code second rest)

theorem addString_exact (charged : Charged) (content : Text) : charged.addString authorityLabels content =
    ⟨charged.jsonUnits + (jsonString content).length, charged.escapedUnits + (contextString authorityLabels content).length,
      max charged.largestEscapedToken (contextString authorityLabels content).length⟩ := by
  unfold Charged.addString contextString
  by_cases label : content ∈ authorityLabels
  · simp only [scanUnits_points, label, not_true_eq_false, decide_false, Bool.false_eq_true, if_false, if_true,
      length_jsonString]
  · simp only [scanUnits_points, label, not_false_eq_true, decide_true, if_true, if_false, length_jsonString,
      length_escapedString]

def Charged.Covers (before after : Charged) (written escaped : Nat) : Prop :=
  before.jsonUnits + written ≤ after.jsonUnits ∧ before.escapedUnits + escaped ≤ after.escapedUnits

theorem Charged.Covers.trans {first second third : Charged} {written escaped more further : Nat}
    (one : first.Covers second written escaped) (two : second.Covers third more further) :
    first.Covers third (written + more) (escaped + further) := by
  obtain ⟨left, right⟩ := one
  obtain ⟨left', right'⟩ := two
  constructor <;> omega

theorem Charged.covers_refl (charged : Charged) : charged.Covers charged 0 0 :=
  ⟨Nat.le_refl _, Nat.le_refl _⟩

theorem Charged.covers_literal (charged : Charged) (units : Nat) : charged.Covers (charged.addLiteral units) units units :=
  ⟨Nat.le_refl _, Nat.le_refl _⟩

theorem Charged.covers_string (charged : Charged) (content : Text) :
    charged.Covers (charged.addString authorityLabels content) (jsonString content).length
      (contextString authorityLabels content).length := by
  rw [addString_exact]
  exact ⟨Nat.le_refl _, Nat.le_refl _⟩

def Charges (numbers : Numbers) (authorityLabels : Finset Text) (value : Data (Leaf numbers.Number)) : Prop :=
  ∀ (charged : Charged) (arrayItem : Bool), isAbsent numbers value = false ∨ arrayItem = true →
    charged.Covers (addValue numbers authorityLabels charged arrayItem value)
      (writeValue numbers jsonString value).length (writeValue numbers (contextString authorityLabels) value).length

theorem covers_items {items : List (Data (Leaf numbers.Number))}
    (each : ∀ item ∈ items, Charges numbers authorityLabels item) (charged : Charged) :
    charged.Covers (addItems numbers authorityLabels charged items)
      (items.map fun item => (writeValue numbers jsonString item).length).sum
      (items.map fun item => (writeValue numbers (contextString authorityLabels) item).length).sum := by
  induction items generalizing charged with
  | nil => exact charged.covers_refl
  | cons item items ih =>
    have first := each item mem_cons_self charged true (.inr rfl)
    exact first.trans (ih (fun other listed => each other (mem_cons_of_mem _ listed)) _)

theorem covers_members {members : List (Text × Data (Leaf numbers.Number))}
    (each : ∀ member ∈ members, Charges numbers authorityLabels member.2) (charged : Charged) (first : Bool) :
    (charged.addLiteral (if first then 0 else 1)).Covers
      ((addMembers numbers authorityLabels charged first members).addLiteral 1)
      ((members.filter fun member => !isAbsent numbers member.2).map fun member =>
        (jsonString member.1 ++ 58 :: writeValue numbers jsonString member.2).length + 1).sum
      ((members.filter fun member => !isAbsent numbers member.2).map fun member =>
        (contextString authorityLabels member.1 ++
          58 :: writeValue numbers (contextString authorityLabels) member.2).length + 1).sum := by
  induction members generalizing charged first with
  | nil =>
    unfold addMembers
    cases first with
    | true => exact ⟨Nat.le_add_right _ _, Nat.le_add_right _ _⟩
    | false => exact Charged.covers_refl _
  | cons member members ih =>
    obtain ⟨name, value⟩ := member
    have later := ih fun other listed => each other (mem_cons_of_mem _ listed)
    unfold addMembers
    cases absent : isAbsent numbers value with
    | true =>
      rw [if_pos rfl, filter_cons_of_neg (by simp [absent])]
      exact later charged first
    | false =>
      rw [if_neg Bool.false_ne_true, filter_cons_of_pos (by simp [absent]), map_cons, sum_cons, map_cons,
        sum_cons]
      dsimp only
      generalize comma : (if first = true then charged else charged.addLiteral 1) = started
      have same : charged.addLiteral (if first then 0 else 1) = started := by
        rw [← comma]
        cases first <;> rfl
      have string := @Charged.covers_string authorityLabels started name
      have colon := (started.addString authorityLabels name).covers_literal 1
      have valued := each (name, value) mem_cons_self
        ((started.addString authorityLabels name).addLiteral 1) false (.inl absent)
      have rest := later (addValue numbers authorityLabels ((started.addString authorityLabels name).addLiteral 1) false value)
        false
      have behind := Charged.covers_literal
        (addValue numbers authorityLabels ((started.addString authorityLabels name).addLiteral 1) false value) 1
      have whole := (((string.trans colon).trans valued).trans behind).trans rest
      rw [same]
      rw [length_append, length_cons, length_append, length_cons]
      dsimp only at whole
      constructor
      · have bound := whole.1
        omega
      · have bound := whole.2
        omega

theorem charges_value {value : Data (Leaf numbers.Number)} (regular : value.Regular) :
    Charges numbers authorityLabels value := by
  induction regular with
  | null =>
    intro charged arrayItem written
    exact charged.covers_literal 4
  | boolean value =>
    intro charged arrayItem written
    cases value with
    | true => exact charged.covers_literal 4
    | false => exact charged.covers_literal 5
  | number leaf =>
    intro charged arrayItem written
    cases leaf with
    | finite value => exact charged.covers_literal _
    | negativeZero => exact charged.covers_literal 1
    | endless => exact charged.covers_literal 4
    | absent =>
      rcases written with present | rfl
      · cases present
      · exact charged.covers_literal 4
  | text value =>
    intro charged arrayItem written
    exact charged.covers_string value
  | @array items each ih =>
    intro charged arrayItem written
    have opened := charged.covers_literal (2 + (items.length - 1))
    have whole := opened.trans (covers_items ih (charged.addLiteral (2 + (items.length - 1))))
    rw [writeValue_array, writeValue_array, enclosed_length, enclosed_length, length_map, length_map,
      map_map, map_map]
    exact whole
  | @object members listed each ih =>
    intro charged arrayItem written
    have opened := charged.covers_literal 2
    have whole := opened.trans (covers_members ih (charged.addLiteral 2) true)
    rw [writeValue_object, writeValue_object]
    have first := length_enclosed 123 125 ((members.filter fun member => !isAbsent numbers member.2).map
      fun member => jsonString member.1 ++ 58 :: writeValue numbers jsonString member.2)
    have second := length_enclosed 123 125 ((members.filter fun member => !isAbsent numbers member.2).map
      fun member => contextString authorityLabels member.1 ++
        58 :: writeValue numbers (contextString authorityLabels) member.2)
    rw [map_map] at first second
    exact ⟨Nat.le_trans (Nat.add_le_add_left first _) whole.1, Nat.le_trans (Nat.add_le_add_left second _) whole.2⟩

end

/-- What packing reserves for evidence is what it emits, and what is charged for a source context holds
    the text it is written as and the text the model is shown. -/
theorem sourceEvidence_accounted (numbers : Numbers) (World : Type) :
    (∀ content, sourceEvidenceJsonLength content = (escapeBrackets (jsonString content)).length) ∧
    (∀ index blockId content workspace,
      (sourceEvidenceRecord (sourceAlias index) blockId content workspace : Assembling World (Text × Nat)) = do
        let record := evidenceRecord (sourceEvidenceLabel (sourceAlias index) blockId) content
        let nextWorkspace := 4 * ((escapeBrackets (jsonString content)).length + 64)
        reserve (nextWorkspace - workspace)
        reserve (2 * record.length)
        return (record, max workspace nextWorkspace)) ∧
    (∀ (authorityLabels : Finset Text) (value : Record (Leaf numbers.Number)), ∃ shown,
      contextText numbers authorityLabels (writeValue numbers jsonString value.data) = some shown ∧
        2 * ((writeValue numbers jsonString value.data).length + shown.length) ≤
          sourceContextJsonAllocation numbers authorityLabels value.data) := by
  refine ⟨sourceEvidenceJsonLength_eq, sourceEvidenceRecord_exact, ?_⟩
  intro authorityLabels value
  have rewritten : Rewritten numbers authorityLabels _ _ := rewritten_value value.regular
  have empty : contextText numbers authorityLabels [] = some [] := rfl
  have whole := rewritten []
  rw [append_nil, empty, Option.map_some, append_nil] at whole
  refine ⟨_, whole, ?_⟩
  obtain ⟨written, shown⟩ := @charges_value numbers authorityLabels _ value.regular ⟨0, 0, 0⟩ false (.inl rfl)
  unfold sourceContextJsonAllocation Record.data
  dsimp only
  omega

end Context
