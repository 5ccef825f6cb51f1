import Eliot.Canonical.Transfers

namespace Canonical
open Fallible (guard_ok)
open JsonValue

inductive SnapshotIdentityError where
  | inputTooLarge (actualBytes maxBytes : Nat)
  | invalidUtf8 (validUpTo : Nat)
  | syntaxError (offset : Nat)
  | duplicateKey (offset : Nat)
  | unicode (offset : Nat)
  | number (offset : Nat)
  | depthLimit (maxDepth : Nat)
  | memberLimit (maxMembers : Nat)
  | nodeLimit (maxNodes : Nat)
  | stringTooLarge (maxBytes : Nat)

def snapshotInputMaxBytes : Nat := 2 * 1024 * 1024

def scopeSnapshot : Profile SnapshotIdentityError where
  maxInputBytes := snapshotInputMaxBytes
  maxStringBytes := 4096
  maxDepth := 64
  maxObjectMembers := 51000
  maxArrayItems := 50000
  maxNodes := 250000
  maxParserSteps := snapshotInputMaxBytes + 1
  inputTooLarge := .inputTooLarge
  invalidUtf8 := .invalidUtf8
  syntaxError := .syntaxError
  duplicateKey := .duplicateKey
  depthLimit := .depthLimit
  memberLimit := .memberLimit
  itemLimit := .memberLimit
  nodeLimit := .nodeLimit
  stringTooLarge := .stringTooLarge
  number := .number
  unicode := .unicode

def parseFrame (input : Bytes) : Except SnapshotIdentityError JsonValue :=
  parseDocument scopeSnapshot sortMembers input

/-- The parser of `canonicalize_json`. -/
def parseCanonical (input : Bytes) : Except CanonicalJsonError JsonValue :=
  parseDocument canonicalJson sortMembers input

section
variable {Error : Type} {profile : Profile Error} {levels : Nat} {value : JsonValue}

theorem within_of_sorted (within : Within profile levels value.sorted) : Within profile levels value := by
  induction value using JsonValue.induct generalizing levels with
  | null => exact within
  | boolean value => exact within
  | integer value => exact within
  | string value => exact within
  | array items ih =>
    rw [sorted_array] at within
    cases within with
    | array few inner =>
      refine .array (by simpa using few) fun item listed => ?_
      exact ih item listed (inner _ (List.mem_map_of_mem listed))
  | object members ih =>
    rw [sorted_object] at within
    have perm := sortMembers_perm (members.map fun member => (member.1, member.2.sorted))
    have length := perm.length_eq
    rw [List.length_map] at length
    cases within with
    | object few keys short inner =>
      have there (member : Member) (listed : member ∈ members) :
          (member.1, member.2.sorted) ∈ sortMembers (members.map fun member => (member.1, member.2.sorted)) :=
        perm.mem_iff.mpr (List.mem_map_of_mem listed)
      have names := keys_perm perm keys
      rw [List.map_map] at names
      refine .object (le_of_eq_of_le length.symm few) names (fun member listed => ?_) fun member listed => ?_
      · exact short (member.1, member.2.sorted) (there member listed)
      · exact ih member listed (inner _ (there member listed))

theorem Fits.of_sorted (fits : Fits profile value.sorted) : Fits profile value :=
  ⟨within_of_sorted fits.1, by rw [← count_sorted]; exact fits.2⟩

theorem parseDocument_sorted {input : Bytes} :
    parseDocument profile sortMembers input = .ok value ↔
      ∃ plain, parseDocument profile id input = .ok plain ∧ value = plain.sorted := by
  rw [parseDocument_arranged (List.mergeSort_nil)]
  cases parseDocument profile id input with
  | error error => simp [Except.map]
  | ok plain => simp [Except.map, JsonValue.sorted, eq_comm]

def InLimits (profile : Profile Error) (input : Bytes) (value : JsonValue) : Prop :=
  input.length ≤ profile.maxInputBytes ∧ Fits profile value

theorem parseDocument_inLimits {input : Bytes}
    (ran : parseDocument profile sortMembers input = .ok value) : InLimits profile input value := by
  obtain ⟨plain, read, rfl⟩ := parseDocument_sorted.mp ran
  have fits := (parseDocument_fits read).sorted
  unfold parseDocument at read
  obtain ⟨size, -⟩ := guard_ok read
  exact ⟨not_lt.mp size, fits⟩

theorem parseDocument_agrees {Other : Type} {target : Profile Other} {input : Bytes}
    (one : input.length < profile.maxParserSteps) (two : input.length < target.maxParserSteps)
    (limits : InLimits target input value) (ran : parseDocument profile sortMembers input = .ok value) :
    parseDocument target sortMembers input = .ok value := by
  rw [← @parseDocument_patient _ profile target.maxParserSteps _ _ one two] at ran
  obtain ⟨plain, read, rfl⟩ := parseDocument_sorted.mp ran
  refine parseDocument_sorted.mpr ⟨plain, ?_, rfl⟩
  exact @parseDocument_transfer _ _ (profile.patient target.maxParserSteps) target (Nat.le_refl _) plain input read
    limits.1 limits.2.of_sorted

/-- The two parsers read one language, up to their limits: within the limits of both they read the same value or
    none, what each reads is within its own, and neither runs out of turns. -/
theorem parseFrame_agrees :
    (∀ input value, InLimits scopeSnapshot input value → InLimits canonicalJson input value →
      (parseFrame input = .ok value ↔ parseCanonical input = .ok value)) ∧
    (∀ input value, parseFrame input = .ok value → InLimits scopeSnapshot input value) ∧
    (∀ input value, parseCanonical input = .ok value → InLimits canonicalJson input value) ∧
    (∀ input steps, input.length ≤ scopeSnapshot.maxInputBytes → input.length < steps →
      parseDocument (scopeSnapshot.patient steps) sortMembers input = parseFrame input) ∧
    (∀ input steps, input.length ≤ canonicalJson.maxInputBytes → input.length < steps →
      parseDocument (canonicalJson.patient steps) sortMembers input = parseCanonical input) := by
  refine ⟨fun input value frame canonical => ?_, fun _ _ => parseDocument_inLimits, fun _ _ => parseDocument_inLimits,
    fun input steps size turns => ?_, fun input steps size turns => ?_⟩
  · have one : input.length < scopeSnapshot.maxParserSteps := Nat.lt_succ_of_le frame.1
    have two : input.length < canonicalJson.maxParserSteps := Nat.lt_succ_of_le canonical.1
    exact ⟨parseDocument_agrees one two canonical, parseDocument_agrees two one frame⟩
  · exact parseDocument_patient (Nat.lt_succ_of_le size) turns
  · exact parseDocument_patient (Nat.lt_succ_of_le size) turns

end

end Canonical
