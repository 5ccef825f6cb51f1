import Eliot.Canonical.Soundness

namespace Canonical
open Fallible (bind_ok guard_ok)
open JsonValue Utf8
open List hiding count

inductive CanonicalJsonError where
  | inputTooLarge (actualBytes maxBytes : Nat)
  | invalidUtf8 (validUpTo : Nat)
  | syntaxError (offset : Nat)
  | duplicateKey (offset : Nat)
  | depthLimit (maxDepth : Nat)
  | memberLimit (maxMembers : Nat)
  | itemLimit (maxItems : Nat)
  | nodeLimit (maxNodes : Nat)
  | stringTooLarge (maxBytes : Nat)
  | number (offset : Nat)
  | unicode (offset : Nat)
  | outputTooLarge (maxBytes : Nat)

def maxCanonicalJsonInputBytes : Nat := 128 * 1024
def maxCanonicalJsonOutputBytes : Nat := 96 * 1024

def canonicalJson : Profile CanonicalJsonError where
  maxInputBytes := maxCanonicalJsonInputBytes
  maxStringBytes := 32 * 1024
  maxDepth := 64
  maxObjectMembers := 128
  maxArrayItems := 256
  maxNodes := 1024
  maxParserSteps := maxCanonicalJsonInputBytes + 1
  inputTooLarge := .inputTooLarge
  invalidUtf8 := .invalidUtf8
  syntaxError := .syntaxError
  duplicateKey := .duplicateKey
  depthLimit := .depthLimit
  memberLimit := .memberLimit
  itemLimit := .itemLimit
  nodeLimit := .nodeLimit
  stringTooLarge := .stringTooLarge
  number := .number
  unicode := .unicode

def canonicalWriter : Budget CanonicalJsonError where
  maxOutputBytes := maxCanonicalJsonOutputBytes
  outputTooLarge := .outputTooLarge

def canonicalizeJson (input : Bytes) : Except CanonicalJsonError Bytes := do
  let value ← parseDocument canonicalJson sortMembers input
  writeValue canonicalWriter value []

def readJson (input : Bytes) : Except CanonicalJsonError JsonValue :=
  parseDocument canonicalJson id input

section
variable {Error : Type} {profile : Profile Error} {value : JsonValue} {levels : Nat}

def Fits (profile : Profile Error) (value : JsonValue) : Prop :=
  Within profile profile.maxDepth value ∧ value.count ≤ profile.maxNodes

theorem parseDocument_fits {input : Bytes} (ran : parseDocument profile id input = .ok value) :
    Fits profile value := by
  unfold parseDocument at ran
  obtain ⟨-, ran⟩ := guard_ok ran
  obtain ⟨-, ran⟩ := guard_ok ran
  obtain ⟨started, skipped, ran⟩ := bind_ok ran
  obtain ⟨⟨found, next⟩, read, ran⟩ := bind_ok ran
  obtain ⟨ended, -, ran⟩ := bind_ok ran
  obtain ⟨-, ran⟩ := guard_ok ran
  cases ran
  have fresh := skipWhitespace_nodes skipped
  obtain ⟨within, counted, limit⟩ := parseValue_sound _ _ _ _ read
  simp only at fresh
  exact ⟨within, by omega⟩

theorem escapeByte_ascii {byte : Nat} (ascii : byte < 0x80) : Utf8.Valid (escapeByte byte) := by
  have all : ∀ written ∈ escapeByte byte, written < 0x80 := by
    intro written listed
    unfold escapeByte lowerHex at listed
    split_ifs at listed <;> simp at listed <;> omega
  generalize escapeByte byte = bytes at all
  induction bytes with
  | nil => exact valid_nil
  | cons first rest ih =>
    exact (valid_ascii (all first (mem_cons_self ..))).append
      (ih fun other listed => all other (mem_cons_of_mem _ listed))

theorem renderString_valid (string : List Char) : Utf8.Valid (renderString string) := by
  have body : Utf8.Valid ((Utf8.encode string).flatMap escapeByte) := by
    induction string with
    | nil => exact valid_nil
    | cons char string ih =>
      rw [Utf8.encode, flatMap_cons, flatMap_append]
      refine Utf8.Valid.append ?_ ih
      by_cases ascii : char.toNat < 0x80
      · rw [Utf8.encodeChar, if_pos ascii, flatMap_singleton]
        exact escapeByte_ascii ascii
      · obtain ⟨first, more, same, wide, -⟩ := encodeChar_wide (not_lt.mp ascii)
        rw [same, escape_wide wide, ← same]
        exact ⟨[char], by simp [Utf8.encode]⟩
  exact (valid_ascii (by decide)).append (body.append (valid_ascii (by decide)))

theorem renderInteger_valid (integer : Int) : Utf8.Valid (renderInteger integer) := by
  have digits (value : Nat) : Utf8.Valid (Text.decimal value) := by
    have all := Text.decimal_digits value
    generalize Text.decimal value = bytes at all
    induction bytes with
    | nil => exact valid_nil
    | cons first rest ih =>
      have digit := all first (mem_cons_self ..)
      simp only [Text.isDigit, Bool.and_eq_true, decide_eq_true_eq] at digit
      exact (valid_ascii (by omega)).append
        (ih fun other listed => all other (mem_cons_of_mem _ listed))
  unfold renderInteger
  split
  · exact (valid_ascii (by decide)).append (digits _)
  · exact digits _

theorem separator_valid (index : Nat) : Utf8.Valid (separator index) := by
  unfold separator
  split
  · exact valid_ascii (by decide)
  · exact valid_nil

theorem render_valid (value : JsonValue) : Utf8.Valid (render value) := by
  induction value using JsonValue.induct with
  | null => exact ⟨"null".toList, rfl⟩
  | boolean value =>
    cases value
    · exact ⟨"false".toList, rfl⟩
    · exact ⟨"true".toList, rfl⟩
  | integer value => exact renderInteger_valid value
  | string value => exact renderString_valid value
  | array items ih =>
    have body (index : Nat) : Utf8.Valid (renderItems index items) := by
      induction items generalizing index with
      | nil => exact valid_nil
      | cons item items inner =>
        have head := (separator_valid index).append (ih item (mem_cons_self ..))
        exact head.append
          (inner (fun other listed => ih other (mem_cons_of_mem _ listed)) (index + 1))
    exact (valid_ascii (by decide)).append ((body 0).append (valid_ascii (by decide)))
  | object members ih =>
    have body (index : Nat) : Utf8.Valid (renderMembers index members) := by
      induction members generalizing index with
      | nil => exact valid_nil
      | cons member members inner =>
        have name := (separator_valid index).append (renderString_valid member.1)
        have head := (name.append (valid_ascii (by decide : 58 < 0x80))).append
          (ih member (mem_cons_self ..))
        exact head.append
          (inner (fun other listed => ih other (mem_cons_of_mem _ listed)) (index + 1))
    exact (valid_ascii (by decide)).append ((body 0).append (valid_ascii (by decide)))

theorem parseDocument_render (fits : Fits profile value)
    (size : (render value).length ≤ profile.maxInputBytes)
    (steps : (render value).length < profile.maxParserSteps) :
    parseDocument profile id (render value) = .ok value := by
  have decoded : ¬(Utf8.decode (render value)).isNone = true := by
    simp [Option.isSome_iff_ne_none.mp (render_valid value).decodes]
  have begins := @skipWhitespace_render _ profile value [] 0 0
  have body := within_reads fits.1 [] 0 0 (by intro byte none; cases none) (by simpa using steps)
    (by simpa using fits.2)
  have ends : skipWhitespace profile ⟨[], 0 + (render value).length, 0 + value.count⟩ =
      .ok ⟨[], 0 + (render value).length, 0 + value.count⟩ := skipWhitespace_stop rfl
  rw [append_nil] at begins body
  simp only [parseDocument, if_neg (not_lt.mpr size), if_neg decoded, bind, Except.bind, begins,
    body, ends, ne_eq, not_true_eq_false, if_false]
  rfl

theorem within_distinct (within : Within profile levels value) : Distinct value := by
  induction within with
  | null => exact .null
  | boolean value => exact .boolean value
  | integer safe => exact .integer _
  | string short => exact .string _
  | array few inner ih => exact .array ih
  | object few keys short inner ih => exact .object keys ih

theorem within_sorted (within : Within profile levels value) :
    Within profile levels value.sorted := by
  induction within with
  | null => exact .null
  | boolean value => exact .boolean value
  | integer safe => exact .integer safe
  | string short => exact .string short
  | array few inner ih =>
    rw [sorted_array]
    refine .array (by simpa using few) ?_
    intro item listed
    obtain ⟨before, present, rfl⟩ := mem_map.mp listed
    exact ih before present
  | @object levels members few keys short inner ih =>
    rw [sorted_object]
    have perm := sortMembers_perm (members.map fun member => (member.1, member.2.sorted))
    have length := perm.length_eq
    rw [length_map] at length
    have names : ((members.map fun member => (member.1, member.2.sorted)).map Prod.fst).Nodup := by
      rw [map_map]
      exact keys
    refine .object (by omega) (keys_perm perm.symm names) ?_ ?_
    · intro member listed
      obtain ⟨before, present, rfl⟩ := mem_map.mp (perm.mem_iff.mp listed)
      exact short before present
    · intro member listed
      obtain ⟨before, present, rfl⟩ := mem_map.mp (perm.mem_iff.mp listed)
      exact ih before present

theorem count_sorted (value : JsonValue) : value.sorted.count = value.count := by
  induction value using JsonValue.induct with
  | null => rfl
  | boolean value => rfl
  | integer value => rfl
  | string value => rfl
  | array items ih =>
    rw [sorted_array, count, count, countItems_eq, countItems_eq, map_map]
    congr 2
    exact map_congr_left ih
  | object members ih =>
    rw [sorted_object, count, count, countMembers_eq, countMembers_eq,
      ((sortMembers_perm _).map _).sum_eq, map_map]
    congr 2
    exact map_congr_left ih

theorem sorted_idem (value : JsonValue) : value.sorted.sorted = value.sorted := by
  induction value using JsonValue.induct with
  | null => rfl
  | boolean value => rfl
  | integer value => rfl
  | string value => rfl
  | array items ih =>
    rw [sorted_array, sorted_array, map_map]
    congr 1
    exact map_congr_left ih
  | object members ih =>
    have fixed : (sortMembers (members.map fun member => (member.1, member.2.sorted))).map
        (fun member => (member.1, member.2.sorted)) =
        sortMembers (members.map fun member => (member.1, member.2.sorted)) := by
      conv => rhs; rw [← map_id (sortMembers _)]
      refine map_congr_left fun member listed => ?_
      obtain ⟨before, present, rfl⟩ := mem_map.mp ((sortMembers_perm _).mem_iff.mp listed)
      simp only [ih before present, id_eq]
    rw [sorted_object, sorted_object, fixed, sortMembers_idem]

theorem Fits.sorted (fits : Fits profile value) : Fits profile value.sorted :=
  ⟨within_sorted fits.1, by rw [count_sorted]; exact fits.2⟩

end

theorem writeValue_size {value : JsonValue} {output : Bytes}
    (written : writeValue canonicalWriter value [] = .ok output) :
    output = render value ∧ (render value).length ≤ 96 * 1024 := writeValue_ok.mp written

theorem canonicalizeJson_ok {input output : Bytes} :
    canonicalizeJson input = .ok output ↔
      ∃ value, readJson input = .ok value ∧
        writeValue canonicalWriter value.sorted [] = .ok output := by
  unfold canonicalizeJson readJson
  rw [parseDocument_arranged (mergeSort_nil)]
  cases parseDocument canonicalJson id input with
  | error error => simp [Except.map, bind, Except.bind]
  | ok value => simp [Except.map, bind, Except.bind, JsonValue.sorted]

theorem readJson_written {value : JsonValue} {output : Bytes} (fits : Fits canonicalJson value)
    (written : writeValue canonicalWriter value [] = .ok output) :
    readJson output = .ok value := by
  obtain ⟨rfl, size⟩ := writeValue_size written
  refine parseDocument_render fits ?_ ?_
  · exact le_trans size (by decide)
  · exact lt_of_le_of_lt size (by decide)

/-- Canonical JSON is a canonical form. An output is its own canonical form; two admitted inputs
    have one output exactly when they are the same value up to the order of members; and a value
    within the limits is read back from its written form. -/
theorem canonicalizeJson_canonical :
    (∀ input output, canonicalizeJson input = .ok output →
      canonicalizeJson output = .ok output) ∧
    (∀ first second left right, canonicalizeJson first = .ok left →
      canonicalizeJson second = .ok right →
      (left = right ↔ ∃ one two, readJson first = .ok one ∧ readJson second = .ok two ∧
        SameValue one two)) ∧
    (∀ value output, Fits canonicalJson value →
      writeValue canonicalWriter value [] = .ok output → readJson output = .ok value) := by
  refine ⟨?_, ?_, fun value output => readJson_written⟩
  · intro input output ran
    obtain ⟨value, read, written⟩ := canonicalizeJson_ok.mp ran
    have fits := (parseDocument_fits read).sorted
    refine canonicalizeJson_ok.mpr ⟨value.sorted, readJson_written fits written, ?_⟩
    rw [sorted_idem]
    exact written
  · intro first second left right ranFirst ranSecond
    obtain ⟨one, readOne, writtenOne⟩ := canonicalizeJson_ok.mp ranFirst
    obtain ⟨two, readTwo, writtenTwo⟩ := canonicalizeJson_ok.mp ranSecond
    have fitsOne := parseDocument_fits readOne
    have fitsTwo := parseDocument_fits readTwo
    constructor
    · rintro rfl
      have backOne := readJson_written fitsOne.sorted writtenOne
      have backTwo := readJson_written fitsTwo.sorted writtenTwo
      have equal : one.sorted = two.sorted := Except.ok.inj (backOne.symm.trans backTwo)
      refine ⟨one, two, readOne, readTwo, .trans (sameValue_sorted one) ?_⟩
      rw [equal]
      exact .symm (sameValue_sorted two)
    · rintro ⟨firstValue, secondValue, sameFirst, sameSecond, same⟩
      cases Except.ok.inj (sameFirst.symm.trans readOne)
      cases Except.ok.inj (sameSecond.symm.trans readTwo)
      have equal := same.sorted.2 (within_distinct fitsOne.1)
      rw [equal] at writtenOne
      exact Except.ok.inj (writtenOne.symm.trans writtenTwo)

/-- Two spellings of one list have one canonical form, which stays as it is. -/
theorem canonicalizeJson_canonical_list :
    canonicalizeJson (text "[1]") = .ok (text "[1]") ∧
      (∃ one two, readJson (text " [ 1 ]") = .ok one ∧ readJson (text "[1]") = .ok two ∧
        SameValue one two) ∧
      readJson (text "[1]") = .ok (.array [.integer 1]) :=
  ⟨canonicalizeJson_canonical.1 (text " [ 1 ]") _ rfl,
    (canonicalizeJson_canonical.2.1 (text " [ 1 ]") (text "[1]") _ _ rfl rfl).mp rfl,
    canonicalizeJson_canonical.2.2 (.array [.integer 1]) _
      ⟨.array (by decide) (by simpa using .integer (by decide)), by decide⟩ rfl⟩

end Canonical
