import Eliot.Collections.Fallible
import Eliot.Text.Hex
import Eliot.Text.Scalars

namespace ResidencyKey

open List Fallible Percent
open Text (isDigit)

def objectResidencyKeyVersion : Text := text "object-residency-key.v1"
def objectResidencyKeyDigestAlgorithm : Text := text "sha256"
def residencyKeyIdentifierMaxUtf16Units : Nat := 256
def residencyKeyIdentifierMaxUtf8Bytes : Nat := residencyKeyIdentifierMaxUtf16Units * 3
def residencyKeyDigestBytes : Nat := 64
def objectResidencyKeyMaxOutputBytes : Nat := 13925

inductive ResidencyKeyField where
  | scopeDomainId
  | accessDomainId
  | confidentialityDomainId
  | encryptionKeyDomainId
  | retentionDomainId
  | erasureDomainId
  | contentDigest

structure ObjectResidencyKeyInput where
  scopeDomainId : Bytes
  accessDomainId : Bytes
  confidentialityDomainId : Bytes
  encryptionKeyDomainId : Bytes
  retentionDomainId : Bytes
  erasureDomainId : Bytes
  contentDigest : Bytes

inductive ResidencyKeyError where
  | identifierInputTooLarge (field : ResidencyKeyField) (actualBytes maxBytes : Nat)
  | invalidUtf8 (field : ResidencyKeyField) (validUpTo : Nat)
  | emptyIdentifier (field : ResidencyKeyField)
  | identifierTooLong (field : ResidencyKeyField) (actualUtf16Units maxUtf16Units : Nat)
  | digestLength (actualBytes expectedBytes : Nat)
  | digestAlphabet (offset : Nat)

abbrev Serializing := Except ResidencyKeyError

def fromUtf8 (field : ResidencyKeyField) (bytes : Bytes) : Serializing (List Char) :=
  match Utf8.decode bytes with
  | some chars => .ok chars
  | none => .error (.invalidUtf8 field (Utf8.validUpTo bytes))

def validateIdentifier (field : ResidencyKeyField) (input : Bytes) : Serializing Bytes := do
  if input.length > residencyKeyIdentifierMaxUtf8Bytes then
    throw (.identifierInputTooLarge field input.length residencyKeyIdentifierMaxUtf8Bytes)
  let chars ← fromUtf8 field input
  if input = [] then throw (.emptyIdentifier field)
  let utf16Units := (chars.flatMap Text.units).length
  if utf16Units > residencyKeyIdentifierMaxUtf16Units then
    throw (.identifierTooLong field utf16Units residencyKeyIdentifierMaxUtf16Units)
  return input

def isDigestByte (byte : Nat) : Bool := (48 ≤ byte && byte ≤ 57) || (97 ≤ byte && byte ≤ 102)

def validateDigest (input : Bytes) : Serializing Bytes := do
  if input.length ≠ residencyKeyDigestBytes then throw (.digestLength input.length residencyKeyDigestBytes)
  let _ ← fromUtf8 .contentDigest input
  match input.findIdx? fun byte => !isDigestByte byte with
  | some offset => throw (.digestAlphabet offset)
  | none => return input

/-- The unescaped alphabet: alphanumeric bytes and `-_.!~*'()`. -/
def isComponentUnescaped (byte : Nat) : Bool :=
  isDigit byte || (65 ≤ byte && byte ≤ 90) || (97 ≤ byte && byte ≤ 122) ||
    [45, 95, 46, 33, 126, 42, 39, 40, 41].contains byte

def encodedComponentLength (input : Bytes) : Nat :=
  (input.map fun byte => if isComponentUnescaped byte then 1 else 3).sum

/-- `push_encoded_component`, without the output so far -/
def encodeComponent (input : Bytes) : Bytes := Percent.encode isComponentUnescaped input

def ObjectResidencyKeyInput.identifiers (input : ObjectResidencyKeyInput) : List Bytes :=
  [input.scopeDomainId, input.accessDomainId, input.confidentialityDomainId, input.encryptionKeyDomainId,
    input.retentionDomainId, input.erasureDomainId]

def keyCapacity (input : ObjectResidencyKeyInput) : Nat :=
  objectResidencyKeyVersion.length + 8 + objectResidencyKeyDigestAlgorithm.length + residencyKeyDigestBytes +
    (input.identifiers.map encodedComponentLength).sum

def pushComponent (output value : Bytes) : Bytes := output ++ [47] ++ encodeComponent value

def serializeObjectResidencyKey (input : ObjectResidencyKeyInput) : Serializing Bytes := do
  let scope ← validateIdentifier .scopeDomainId input.scopeDomainId
  let access ← validateIdentifier .accessDomainId input.accessDomainId
  let confidentiality ← validateIdentifier .confidentialityDomainId input.confidentialityDomainId
  let encryption ← validateIdentifier .encryptionKeyDomainId input.encryptionKeyDomainId
  let retention ← validateIdentifier .retentionDomainId input.retentionDomainId
  let erasure ← validateIdentifier .erasureDomainId input.erasureDomainId
  let digest ← validateDigest input.contentDigest
  let output := [scope, access, confidentiality, encryption, retention, erasure].foldl pushComponent
    objectResidencyKeyVersion
  return output ++ [47] ++ objectResidencyKeyDigestAlgorithm ++ [47] ++ digest

def decodeKey (key : Bytes) : Option ObjectResidencyKeyInput :=
  match key.splitOn 47 with
  | [version, scope, access, confidentiality, encryption, retention, erasure, algorithm, digest] =>
    if version = objectResidencyKeyVersion ∧ algorithm = objectResidencyKeyDigestAlgorithm then do
      let scope ← Percent.decode scope
      let access ← Percent.decode access
      let confidentiality ← Percent.decode confidentiality
      let encryption ← Percent.decode encryption
      let retention ← Percent.decode retention
      let erasure ← Percent.decode erasure
      return ⟨scope, access, confidentiality, encryption, retention, erasure, digest⟩
    else none
  | _ => none

section
variable {input : ObjectResidencyKeyInput}

structure IdentifierOk (identifier : Bytes) : Prop where
  short : identifier.length ≤ residencyKeyIdentifierMaxUtf8Bytes
  small : ∀ byte ∈ identifier, byte < 256

theorem fromUtf8_small {field : ResidencyKeyField} {bytes : Bytes} {chars : List Char}
    (read : fromUtf8 field bytes = .ok chars) : ∀ byte ∈ bytes, byte < 256 := by
  unfold fromUtf8 at read
  cases decoded : Utf8.decode bytes with
  | none => simp [decoded] at read
  | some found =>
    rw [← Utf8.encode_decode decoded]
    intro byte listed
    obtain ⟨char, -, here⟩ := mem_flatMap.mp listed
    exact Utf8.encodeChar_small char byte here

theorem validateIdentifier_ok {field : ResidencyKeyField} {identifier result : Bytes}
    (ran : validateIdentifier field identifier = .ok result) : IdentifierOk identifier ∧ result = identifier := by
  unfold validateIdentifier at ran
  obtain ⟨short, ran⟩ := guard_ok ran
  obtain ⟨chars, read, ran⟩ := bind_ok ran
  obtain ⟨-, ran⟩ := guard_ok ran
  obtain ⟨-, ran⟩ := guard_ok ran
  exact ⟨⟨not_lt.mp short, fromUtf8_small read⟩, (Except.ok.inj ran).symm⟩

structure DigestOk (digest : Bytes) : Prop where
  length : digest.length = residencyKeyDigestBytes
  apart : 47 ∉ digest

theorem validateDigest_ok {digest result : Bytes} (ran : validateDigest digest = .ok result) :
    DigestOk digest ∧ result = digest := by
  unfold validateDigest at ran
  obtain ⟨length, ran⟩ := guard_ok ran
  obtain ⟨chars, -, ran⟩ := bind_ok ran
  cases found : digest.findIdx? (fun byte => !isDigestByte byte) with
  | some offset =>
    rw [found] at ran
    cases ran
  | none =>
    rw [found] at ran
    rw [findIdx?_eq_none_iff] at found
    refine ⟨⟨not_not.mp length, fun there => ?_⟩, (Except.ok.inj ran).symm⟩
    exact absurd (found 47 there) (by decide)

def segments (input : ObjectResidencyKeyInput) : List Bytes :=
  objectResidencyKeyVersion :: input.identifiers.map encodeComponent ++
    [objectResidencyKeyDigestAlgorithm, input.contentDigest]

structure InputOk (input : ObjectResidencyKeyInput) : Prop where
  identifiers : ∀ identifier ∈ input.identifiers, IdentifierOk identifier
  digest : DigestOk input.contentDigest

theorem serialize_ok {key : Bytes} (ran : serializeObjectResidencyKey input = .ok key) :
    InputOk input ∧ key = [47].intercalate (segments input) := by
  unfold serializeObjectResidencyKey at ran
  obtain ⟨_, scope, ran⟩ := bind_ok ran
  obtain ⟨_, access, ran⟩ := bind_ok ran
  obtain ⟨_, confidentiality, ran⟩ := bind_ok ran
  obtain ⟨_, encryption, ran⟩ := bind_ok ran
  obtain ⟨_, retention, ran⟩ := bind_ok ran
  obtain ⟨_, erasure, ran⟩ := bind_ok ran
  obtain ⟨_, digest, ran⟩ := bind_ok ran
  obtain ⟨first, rfl⟩ := validateIdentifier_ok scope
  obtain ⟨second, rfl⟩ := validateIdentifier_ok access
  obtain ⟨third, rfl⟩ := validateIdentifier_ok confidentiality
  obtain ⟨fourth, rfl⟩ := validateIdentifier_ok encryption
  obtain ⟨fifth, rfl⟩ := validateIdentifier_ok retention
  obtain ⟨sixth, rfl⟩ := validateIdentifier_ok erasure
  obtain ⟨last, rfl⟩ := validateDigest_ok digest
  refine ⟨⟨?_, last⟩, ?_⟩
  · simp only [ObjectResidencyKeyInput.identifiers, forall_mem_cons]
    exact ⟨first, second, third, fourth, fifth, sixth, fun _ none => nomatch none⟩
  · rw [← Except.ok.inj ran]
    simp [segments, ObjectResidencyKeyInput.identifiers, pushComponent, List.intercalate]

theorem segments_apart (admitted : InputOk input) : ∀ segment ∈ segments input, 47 ∉ segment := by
  intro segment listed
  rcases mem_append.mp listed with front | back
  · rcases mem_cons.mp front with rfl | encoded
    · decide
    · obtain ⟨identifier, member, rfl⟩ := mem_map.mp encoded
      exact encode_avoids (by rfl) (by decide) (by decide) (admitted.identifiers identifier member).small
  · rcases mem_pair.mp back with rfl | rfl
    · decide
    · exact admitted.digest.apart

theorem decodeComponent {identifier : Bytes} (fine : IdentifierOk identifier) :
    Percent.decode (encodeComponent identifier) = some identifier :=
  decode_encode (by rfl) fine.small

example : encodeComponent (text "a/b %") = text "a%2Fb%20%25" := by decide

theorem decodeKey_segments (admitted : InputOk input) : decodeKey ([47].intercalate (segments input)) = some input := by
  have apart := splitOn_intercalate 47 (segments_apart admitted) (by simp [segments])
  have decoded := fun identifier listed => decodeComponent (admitted.identifiers identifier listed)
  simp only [ObjectResidencyKeyInput.identifiers, forall_mem_cons] at decoded
  obtain ⟨first, second, third, fourth, fifth, sixth, -⟩ := decoded
  unfold decodeKey
  rw [apart]
  simp only [segments, ObjectResidencyKeyInput.identifiers, map_cons, map_nil, cons_append, nil_append]
  rw [first, second, third, fourth, fifth, sixth]
  rfl

theorem encodeComponent_length (identifier : Bytes) :
    (encodeComponent identifier).length = encodedComponentLength identifier := encode_length identifier

theorem segments_length (digest : DigestOk input.contentDigest) :
    ([47].intercalate (segments input)).length = keyCapacity input := by
  have width := digest.length
  simp only [segments, ObjectResidencyKeyInput.identifiers, map_cons, map_nil, cons_append,
    nil_append, List.intercalate, List.intersperse, flatten_cons, flatten_nil, length_append,
    length_cons, length_nil, encodeComponent_length, keyCapacity, sum_cons, sum_nil]
  omega

theorem keyCapacity_bounded (admitted : InputOk input) : keyCapacity input ≤ objectResidencyKeyMaxOutputBytes := by
  have bounded : ∀ identifier ∈ input.identifiers, encodedComponentLength identifier ≤ 3 * 768 := by
    intro identifier listed
    have short : identifier.length ≤ 768 := (admitted.identifiers identifier listed).short
    have encoded := @encode_length_le isComponentUnescaped identifier
    rw [encode_length] at encoded
    unfold encodedComponentLength
    omega
  have fixed : objectResidencyKeyVersion.length + 8 + objectResidencyKeyDigestAlgorithm.length + residencyKeyDigestBytes =
      101 := by decide
  simp only [ObjectResidencyKeyInput.identifiers, forall_mem_cons] at bounded
  simp only [keyCapacity, fixed, ObjectResidencyKeyInput.identifiers, map_cons, map_nil, sum_cons,
    sum_nil, objectResidencyKeyMaxOutputBytes]
  omega

/-- A key tells its whole input, and fills its buffer. -/
theorem residency_keys_decode :
    (∀ first second key, serializeObjectResidencyKey first = .ok key → serializeObjectResidencyKey second = .ok key →
      first = second) ∧
    (∀ input key, serializeObjectResidencyKey input = .ok key → decodeKey key = some input ∧
      key.length = keyCapacity input ∧ key.length ≤ objectResidencyKeyMaxOutputBytes) := by
  have decodes (input : ObjectResidencyKeyInput) (key : Bytes) (ran : serializeObjectResidencyKey input = .ok key) :
      decodeKey key = some input ∧ key.length = keyCapacity input ∧ key.length ≤ objectResidencyKeyMaxOutputBytes := by
    obtain ⟨admitted, rfl⟩ := serialize_ok ran
    have length := segments_length admitted.digest
    exact ⟨decodeKey_segments admitted, length, length ▸ keyCapacity_bounded admitted⟩
  refine ⟨fun first second key one two => ?_, decodes⟩
  have same := (decodes first key one).1
  rw [(decodes second key two).1] at same
  exact (Option.some.inj same).symm

end
end ResidencyKey
