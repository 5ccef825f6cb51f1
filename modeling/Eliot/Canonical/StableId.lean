import Eliot.Collections.Fallible
import Eliot.Text.Basic
import Eliot.Text.Hex

namespace StableId
open Fallible

open List hiding Vector
open Text (isDigit)

def stableIdPrefixMaxBytes : Nat := 64
def stableIdMaxParts : Nat := 32
def stableIdPartMaxBytes : Nat := 4096
def stableIdInputMaxBytes : Nat := 64 * 1024
def stableIdDigestHexBytes : Nat := 48
def stableIdMinBytes : Nat := 1 + 1 + stableIdDigestHexBytes
def stableIdMaxBytes : Nat := stableIdPrefixMaxBytes + 1 + stableIdDigestHexBytes

inductive StableIdUtf8Field where
  | inPrefix
  | inPart (index : Nat)
  | inIdentifier

inductive StableIdError where
  | inputTooLarge (actualBytes maxBytes : Nat)
  | prefixTooLarge (actualBytes maxBytes : Nat)
  | invalidPrefix
  | tooManyParts (actualParts maxParts : Nat)
  | partTooLarge (index actualBytes maxBytes : Nat)
  | interiorNul (index offset : Nat)
  | invalidUtf8 (field : StableIdUtf8Field) (validUpTo : Nat)
  | invalidLength (actualBytes minBytes maxBytes : Nat)
  | invalidAlphabet (offset : Nat)

abbrev Deriving := Except StableIdError

/-- The targets the crate is built for, by their `usize`. -/
inductive PointerWidth where
  | bits32
  | bits64

def PointerWidth.maxUsize : PointerWidth → Nat
  | .bits32 => 2 ^ 32 - 1
  | .bits64 => 2 ^ 64 - 1

def checkedAdd (width : PointerWidth) (first second : Nat) : Option Nat :=
  if first + second ≤ width.maxUsize then some (first + second) else none

/-- `core::str::from_utf8`: the text is its bytes. -/
def fromUtf8 (field : StableIdUtf8Field) (bytes : Bytes) : Deriving Bytes :=
  if (Utf8.decode bytes).isSome then .ok bytes else .error (.invalidUtf8 field (Utf8.validUpTo bytes))

def isAsciiAlphanumeric (byte : Nat) : Bool :=
  isDigit byte || (65 ≤ byte && byte ≤ 90) || (97 ≤ byte && byte ≤ 122)

/-- A byte that a prefix may have behind its first: alphanumeric, or a `.`, `_`, `:`, `@`, slash or hyphen. -/
def isPrefixByte (byte : Nat) : Bool :=
  isAsciiAlphanumeric byte || byte == 46 || byte == 95 || byte == 58 || byte == 64 || byte == 47 || byte == 45

def validatePrefix (prefixBytes : Bytes) : Deriving Bytes := do
  if prefixBytes.length > stableIdPrefixMaxBytes then
    throw (.prefixTooLarge prefixBytes.length stableIdPrefixMaxBytes)
  let prefixText ← fromUtf8 .inPrefix prefixBytes
  match prefixBytes with
  | [] => throw .invalidPrefix
  | first :: remaining => do
    if ¬isAsciiAlphanumeric first ∨ ¬remaining.all isPrefixByte then throw .invalidPrefix
    return prefixText

def validatePart (index : Nat) (part : Bytes) (rejectNul : Bool) : Deriving Unit := do
  if part.length > stableIdPartMaxBytes then
    throw (.partTooLarge index part.length stableIdPartMaxBytes)
  match (if rejectNul then part.findIdx? (· == 0) else none) with
  | some offset => throw (.interiorNul index offset)
  | none => do
    let _ ← fromUtf8 (.inPart index) part
    return ()

def validateParts (parts : List Bytes) : Deriving Unit :=
  parts.zipIdx.forM fun (part, index) => validatePart index part true

def lengthError (actualBytes : Nat) : StableIdError := .invalidLength actualBytes stableIdMinBytes stableIdMaxBytes

/-- `rposition`: the place of the last byte that passes a test. -/
def rposition (test : Nat → Bool) : Bytes → Option Nat
  | [] => none
  | byte :: rest =>
    match rposition test rest with
    | some place => some (place + 1)
    | none => if test byte then some 0 else none

def separate (input : Bytes) : Option (Bytes × Bytes) :=
  (rposition (· == 45) input).map fun separator => (input.take separator, input.drop (separator + 1))

def isDigestByte (byte : Nat) : Bool := (48 ≤ byte && byte ≤ 57) || (97 ≤ byte && byte ≤ 102)

def validateStableId (input : Bytes) : Deriving Bytes := do
  if ¬(stableIdMinBytes ≤ input.length ∧ input.length ≤ stableIdMaxBytes) then throw (lengthError input.length)
  let identifier ← fromUtf8 .inIdentifier input
  match separate input with
  | none => throw (lengthError input.length)
  | some (prefixBytes, digest) => do
    if digest.length ≠ stableIdDigestHexBytes then throw (lengthError input.length)
    let _ ← validatePrefix prefixBytes
    match digest.findIdx? fun byte => !isDigestByte byte with
    | some offset => throw (.invalidAlphabet (prefixBytes.length + 1 + offset))
    | none => return identifier

section
variable (sha256 : Bytes → Vector UInt8 32) (width : PointerWidth)

def addPart (total : Nat) (part : Bytes) : Deriving Nat :=
  match (checkedAdd width total 1).bind fun value => checkedAdd width value part.length with
  | some next => .ok next
  | none => .error (.inputTooLarge width.maxUsize stableIdInputMaxBytes)

def preimageLength (prefixBytes : Bytes) (parts : List Bytes) : Deriving Nat := do
  if parts.length > stableIdMaxParts then throw (.tooManyParts parts.length stableIdMaxParts)
  let total ← parts.foldlM (addPart width) prefixBytes.length
  if total > stableIdInputMaxBytes then throw (.inputTooLarge total stableIdInputMaxBytes)
  return total

def kept (digest : Vector UInt8 32) : Bytes := (digest.toList.take (stableIdDigestHexBytes / 2)).map UInt8.toNat

def formatStableId (prefixText preimage : Bytes) : Bytes :=
  prefixText ++ 45 :: Hex.encode 97 (kept (sha256 preimage))

def preimage (prefixBytes : Bytes) (parts : List Bytes) : Bytes :=
  parts.foldl (fun preimage part => preimage ++ [0] ++ part) prefixBytes

def deriveStableId (prefixBytes : Bytes) (parts : List Bytes) : Deriving Bytes := do
  let _ ← preimageLength width prefixBytes parts
  let prefixText ← validatePrefix prefixBytes
  validateParts parts
  return formatStableId sha256 prefixText (preimage prefixBytes parts)

def validateFramePart (index : Nat) (part : Bytes) : Deriving Unit := do
  if index = stableIdMaxParts then throw (.tooManyParts (index + 1) stableIdMaxParts)
  validatePart index part false

def deriveStableIdFrame (input : Bytes) : Deriving Bytes := do
  if input.length > stableIdInputMaxBytes then throw (.inputTooLarge input.length stableIdInputMaxBytes)
  match input.splitOn 0 with
  | [] => throw .invalidPrefix
  | prefixBytes :: parts => do
    let prefixText ← validatePrefix prefixBytes
    parts.zipIdx.forM fun (part, index) => validateFramePart index part
    return formatStableId sha256 prefixText input

end

theorem fromUtf8_ok {field : StableIdUtf8Field} {bytes result : Bytes} :
    fromUtf8 field bytes = .ok result ↔ (Utf8.decode bytes).isSome ∧ result = bytes := by
  unfold fromUtf8
  by_cases decodes : (Utf8.decode bytes).isSome
  · rw [if_pos decodes]
    simp [decodes, eq_comm]
  · rw [if_neg decodes]
    simp [decodes]

structure PrefixOk (prefixBytes : Bytes) : Prop where
  short : prefixBytes.length ≤ stableIdPrefixMaxBytes
  filled : prefixBytes ≠ []
  plain : ∀ byte ∈ prefixBytes, isPrefixByte byte = true
  head : prefixBytes.head?.any isAsciiAlphanumeric = true

theorem isPrefixByte_alphanumeric {byte : Nat} (letter : isAsciiAlphanumeric byte = true) : isPrefixByte byte = true := by
  simp [isPrefixByte, letter]

theorem isPrefixByte_bounds {byte : Nat} (plain : isPrefixByte byte = true) : 45 ≤ byte ∧ byte ≤ 122 := by
  simp only [isPrefixByte, isAsciiAlphanumeric, isDigit, Bool.or_eq_true, Bool.and_eq_true, beq_iff_eq,
    decide_eq_true_eq] at plain
  omega

theorem PrefixOk.decodes {prefixBytes : Bytes} (fine : PrefixOk prefixBytes) : (Utf8.decode prefixBytes).isSome := by
  apply Utf8.decode_ascii
  intro byte listed
  have bounds := isPrefixByte_bounds (fine.plain byte listed)
  omega

theorem validatePrefix_ok {prefixBytes result : Bytes} :
    validatePrefix prefixBytes = .ok result ↔ PrefixOk prefixBytes ∧ result = prefixBytes := by
  constructor
  · intro ran
    unfold validatePrefix at ran
    obtain ⟨short, ran⟩ := guard_ok ran
    obtain ⟨text, read, ran⟩ := bind_ok ran
    obtain ⟨-, rfl⟩ := fromUtf8_ok.mp read
    cases text with
    | nil => cases ran
    | cons first remaining =>
      obtain ⟨grammar, ran⟩ := guard_ok ran
      rw [not_or, not_not, not_not, all_eq_true] at grammar
      have plain : ∀ byte ∈ first :: remaining, isPrefixByte byte = true :=
        forall_mem_cons.mpr ⟨isPrefixByte_alphanumeric grammar.1, grammar.2⟩
      exact ⟨⟨not_lt.mp short, cons_ne_nil _ _, plain, grammar.1⟩, (Except.ok.inj ran).symm⟩
  · rintro ⟨fine, rfl⟩
    have read := (@fromUtf8_ok .inPrefix result result).mpr ⟨fine.decodes, rfl⟩
    unfold validatePrefix
    rw [if_neg (not_lt.mpr fine.short), read]
    cases result with
    | nil => exact absurd rfl fine.filled
    | cons first remaining =>
      have grammar : ¬(¬isAsciiAlphanumeric first = true ∨ ¬remaining.all isPrefixByte = true) := by
        rw [not_or, not_not, not_not, all_eq_true]
        exact ⟨fine.head, (forall_mem_cons.mp fine.plain).2⟩
      show (if _ then _ else _) = _
      rw [if_neg grammar]
      rfl

structure PartOk (part : Bytes) : Prop where
  short : part.length ≤ stableIdPartMaxBytes
  decodes : (Utf8.decode part).isSome

theorem validatePart_ok {index : Nat} {part : Bytes} {rejectNul : Bool} :
    validatePart index part rejectNul = .ok () ↔ PartOk part ∧ (rejectNul = true → 0 ∉ part) := by
  have nul : (if rejectNul then part.findIdx? (· == 0) else none) = none ↔ (rejectNul = true → 0 ∉ part) := by
    cases rejectNul with
    | false => simp
    | true =>
      simp only [if_true, findIdx?_eq_none_iff, true_implies, beq_eq_false_iff_ne]
      exact ⟨fun none there => none 0 there rfl, fun absent byte there zero => absent (zero ▸ there)⟩
  rw [← nul]
  constructor
  · intro ran
    unfold validatePart at ran
    obtain ⟨short, ran⟩ := guard_ok ran
    cases found : (if rejectNul then part.findIdx? (· == 0) else none) with
    | some offset =>
      rw [found] at ran
      cases ran
    | none =>
      rw [found] at ran
      obtain ⟨text, read, -⟩ := bind_ok ran
      exact ⟨⟨not_lt.mp short, (fromUtf8_ok.mp read).1⟩, rfl⟩
  · rintro ⟨fine, absent⟩
    have read := (@fromUtf8_ok (.inPart index) part part).mpr ⟨fine.decodes, rfl⟩
    unfold validatePart
    rw [if_neg (not_lt.mpr fine.short), absent]
    simp [read, bind, Except.bind, pure, Except.pure]

theorem validateParts_ok {parts : List Bytes} :
    validateParts parts = .ok () ↔ ∀ part ∈ parts, PartOk part ∧ 0 ∉ part := by
  unfold validateParts
  rw [forM_ok]
  constructor
  · intro each part listed
    obtain ⟨index, there⟩ := mem_iff_getElem?.mp listed
    have checked := each (part, index) (mem_zipIdx_iff_getElem?.mpr there)
    obtain ⟨fine, absent⟩ := validatePart_ok.mp checked
    exact ⟨fine, absent rfl⟩
  · intro each numbered listed
    have member := mem_of_getElem? (mem_zipIdx_iff_getElem?.mp listed)
    obtain ⟨fine, absent⟩ := each _ member
    exact validatePart_ok.mpr ⟨fine, fun _ => absent⟩

theorem validateFramePart_ok {index : Nat} {part : Bytes} :
    validateFramePart index part = .ok () ↔ index ≠ stableIdMaxParts ∧ PartOk part := by
  unfold validateFramePart
  by_cases last : index = stableIdMaxParts
  · rw [if_pos last]
    exact iff_of_false (fun same => nomatch same) fun fine => fine.1 last
  · rw [if_neg last]
    show validatePart index part false = .ok () ↔ _
    rw [validatePart_ok]
    simp [last]

theorem frameParts_ok {parts : List Bytes} :
    (parts.zipIdx.forM fun (part, index) => validateFramePart index part) = .ok () ↔
      parts.length ≤ stableIdMaxParts ∧ ∀ part ∈ parts, PartOk part := by
  rw [forM_ok]
  constructor
  · intro each
    constructor
    · by_contra many
      have inside : stableIdMaxParts < parts.length := not_le.mp many
      have checked := each (parts[stableIdMaxParts], stableIdMaxParts)
        (mem_zipIdx_iff_getElem?.mpr (getElem?_eq_getElem inside))
      exact (validateFramePart_ok.mp checked).1 rfl
    · intro part listed
      obtain ⟨index, there⟩ := mem_iff_getElem?.mp listed
      exact (validateFramePart_ok.mp (each (part, index) (mem_zipIdx_iff_getElem?.mpr there))).2
  · rintro ⟨few, each⟩ numbered listed
    have there := mem_zipIdx_iff_getElem?.mp listed
    have inside := (List.getElem?_eq_some_iff.mp there).1
    have before : numbered.2 ≠ stableIdMaxParts := by omega
    exact validateFramePart_ok.mpr ⟨before, each _ (mem_of_getElem? there)⟩

section
variable {width : PointerWidth} {prefixBytes : Bytes} {parts : List Bytes}

theorem intercalate_front (front first : Bytes) (rest : List Bytes) :
    [0].intercalate ((front ++ first) :: rest) = front ++ [0].intercalate (first :: rest) := by
  cases rest with
  | nil => simp [List.intercalate]
  | cons next rest => simp [List.intercalate]

theorem preimage_eq (prefixBytes : Bytes) (parts : List Bytes) :
    preimage prefixBytes parts = [0].intercalate (prefixBytes :: parts) := by
  induction parts generalizing prefixBytes with
  | nil => simp [preimage, List.intercalate]
  | cons part parts ih =>
    have step : preimage prefixBytes (part :: parts) = preimage (prefixBytes ++ [0] ++ part) parts := rfl
    rw [step, ih, intercalate_front]
    simp [List.intercalate]

theorem addPart_ok {total next : Nat} {part : Bytes} (ran : addPart width total part = .ok next) :
    next = total + 1 + part.length := by
  unfold addPart checkedAdd at ran
  by_cases one : total + 1 ≤ width.maxUsize
  · rw [if_pos one, Option.bind_some] at ran
    by_cases both : total + 1 + part.length ≤ width.maxUsize
    · rw [if_pos both] at ran
      exact (Except.ok.inj ran).symm
    · rw [if_neg both] at ran
      cases ran
  · rw [if_neg one] at ran
    cases ran

theorem addParts_ok {total result : Nat} (ran : parts.foldlM (addPart width) total = .ok result) :
    result = total + (parts.map fun part => part.length + 1).sum := by
  induction parts generalizing total with
  | nil => exact (Except.ok.inj ran).symm
  | cons part parts ih =>
    rw [foldlM_cons] at ran
    obtain ⟨next, added, ran⟩ := bind_ok ran
    have sum := addPart_ok added
    rw [ih ran, map_cons, sum_cons]
    omega

theorem addParts_fits {total : Nat} (fits : total + (parts.map fun part => part.length + 1).sum ≤ width.maxUsize) :
    parts.foldlM (addPart width) total = .ok (total + (parts.map fun part => part.length + 1).sum) := by
  induction parts generalizing total with
  | nil => rfl
  | cons part parts ih =>
    rw [map_cons, sum_cons] at fits ⊢
    have one : total + 1 ≤ width.maxUsize := by omega
    have both : total + 1 + part.length ≤ width.maxUsize := by omega
    have added : addPart width total part = .ok (total + 1 + part.length) := by
      simp only [addPart, checkedAdd, if_pos one, Option.bind_some, if_pos both]
    have rest : total + (part.length + 1 + (parts.map fun part => part.length + 1).sum) =
        total + 1 + part.length + (parts.map fun part => part.length + 1).sum := by omega
    rw [foldlM_cons, added, rest]
    exact ih (by omega)

theorem preimage_length (prefixBytes : Bytes) (parts : List Bytes) :
    (preimage prefixBytes parts).length = prefixBytes.length + (parts.map fun part => part.length + 1).sum := by
  induction parts generalizing prefixBytes with
  | nil => rfl
  | cons part parts ih =>
    have step : preimage prefixBytes (part :: parts) = preimage (prefixBytes ++ [0] ++ part) parts := rfl
    rw [step, ih, map_cons, sum_cons, length_append, length_append, length_singleton]
    omega

theorem preimageLength_ok {total : Nat} : preimageLength width prefixBytes parts = .ok total ↔
    parts.length ≤ stableIdMaxParts ∧ total = (preimage prefixBytes parts).length ∧ total ≤ stableIdInputMaxBytes := by
  have enough : stableIdInputMaxBytes ≤ width.maxUsize := by cases width <;> decide
  rw [preimage_length]
  unfold preimageLength
  constructor
  · intro ran
    obtain ⟨few, ran⟩ := guard_ok ran
    obtain ⟨sum, added, ran⟩ := bind_ok ran
    obtain ⟨small, ran⟩ := guard_ok ran
    obtain rfl := Except.ok.inj ran
    exact ⟨not_lt.mp few, addParts_ok added, not_lt.mp small⟩
  · rintro ⟨few, rfl, small⟩
    have added := @addParts_fits width parts prefixBytes.length (by omega)
    rw [if_neg (not_lt.mpr few), added]
    show (if _ then _ else _) = _
    rw [if_neg (not_lt.mpr small)]
    rfl

end

section
variable {sha256 : Bytes → Vector UInt8 32} {width : PointerWidth} {prefixBytes : Bytes} {parts : List Bytes}

structure Framed (prefixBytes : Bytes) (parts : List Bytes) : Prop where
  prefixOk : PrefixOk prefixBytes
  few : parts.length ≤ stableIdMaxParts
  partsOk : ∀ part ∈ parts, PartOk part

theorem deriveStableId_ok {identifier : Bytes} : deriveStableId sha256 width prefixBytes parts = .ok identifier ↔
    Framed prefixBytes parts ∧ (preimage prefixBytes parts).length ≤ stableIdInputMaxBytes ∧
      (∀ part ∈ parts, 0 ∉ part) ∧ identifier = formatStableId sha256 prefixBytes (preimage prefixBytes parts) := by
  unfold deriveStableId
  constructor
  · intro ran
    obtain ⟨total, counted, ran⟩ := bind_ok ran
    obtain ⟨prefixText, checked, ran⟩ := bind_ok ran
    obtain ⟨passed, each, ran⟩ := bind_ok ran
    obtain ⟨few, rfl, small⟩ := preimageLength_ok.mp counted
    obtain ⟨fine, rfl⟩ := validatePrefix_ok.mp checked
    have all := validateParts_ok.mp each
    exact ⟨⟨fine, few, fun part listed => (all part listed).1⟩, small, fun part listed => (all part listed).2,
      (Except.ok.inj ran).symm⟩
  · rintro ⟨framed, small, apart, rfl⟩
    have counted := (@preimageLength_ok width prefixBytes parts _).mpr ⟨framed.few, rfl, small⟩
    have checked := validatePrefix_ok.mpr ⟨framed.prefixOk, rfl⟩
    have each := validateParts_ok.mpr fun part listed => ⟨framed.partsOk part listed, apart part listed⟩
    rw [counted, checked, each]
    rfl

theorem deriveStableIdFrame_ok {input identifier : Bytes} (split : input.splitOn 0 = prefixBytes :: parts) :
    deriveStableIdFrame sha256 input = .ok identifier ↔ Framed prefixBytes parts ∧
      input.length ≤ stableIdInputMaxBytes ∧ identifier = formatStableId sha256 prefixBytes input := by
  unfold deriveStableIdFrame
  rw [split]
  constructor
  · intro ran
    obtain ⟨small, passed⟩ := guard_ok ran
    obtain ⟨prefixText, checked, passed⟩ := bind_ok passed
    obtain ⟨_, each, result⟩ := bind_ok passed
    obtain ⟨fine, rfl⟩ := validatePrefix_ok.mp checked
    obtain ⟨few, all⟩ := frameParts_ok.mp each
    exact ⟨⟨fine, few, all⟩, not_lt.mp small, (Except.ok.inj result).symm⟩
  · rintro ⟨framed, small, rfl⟩
    have checked := validatePrefix_ok.mpr ⟨framed.prefixOk, rfl⟩
    have each := frameParts_ok.mpr ⟨framed.few, framed.partsOk⟩
    rw [if_neg (not_lt.mpr small)]
    show (validatePrefix prefixBytes >>= _) = _
    rw [checked]
    show ((parts.zipIdx.forM fun numbered => validateFramePart numbered.2 numbered.1) >>= _) = _
    rw [each]
    rfl

theorem PrefixOk.apart (fine : PrefixOk prefixBytes) : 0 ∉ prefixBytes := by
  intro there
  have bounds := isPrefixByte_bounds (fine.plain 0 there)
  omega

theorem preimage_split (apart : ∀ segment ∈ prefixBytes :: parts, 0 ∉ segment) :
    (preimage prefixBytes parts).splitOn 0 = prefixBytes :: parts := by
  rw [preimage_eq]
  exact splitOn_intercalate 0 apart (cons_ne_nil _ _)

theorem rposition_last {test : Nat → Bool} {mark : Nat} {back : Bytes} (front : Bytes) (marked : test mark = true)
    (others : ∀ byte ∈ back, test byte = false) : rposition test (front ++ mark :: back) = some front.length := by
  have nowhere : rposition test back = none := by
    induction back with
    | nil => rfl
    | cons byte back ih =>
      obtain ⟨first, rest⟩ := forall_mem_cons.mp others
      rw [rposition, ih rest]
      simp [first]
  induction front with
  | nil =>
    show rposition test (mark :: back) = some 0
    rw [rposition, nowhere]
    simp [marked]
  | cons byte front ih =>
    show rposition test (byte :: (front ++ mark :: back)) = some (front.length + 1)
    rw [rposition, ih]

theorem kept_length (digest : Vector UInt8 32) : (kept digest).length = 24 := by
  simp [kept, stableIdDigestHexBytes]

theorem kept_small (digest : Vector UInt8 32) : ∀ byte ∈ kept digest, byte < 256 := by
  intro byte listed
  obtain ⟨unsigned, -, rfl⟩ := mem_map.mp listed
  exact unsigned.toNat_lt

theorem digest_digits (digest : Vector UInt8 32) : ∀ byte ∈ Hex.encode 97 (kept digest), isDigestByte byte = true := by
  intro byte listed
  have digit := Hex.encode_digits 97 (kept_small digest) byte listed
  simp only [isDigestByte, Bool.or_eq_true, Bool.and_eq_true, decide_eq_true_eq]
  omega

theorem separate_format (prefixBytes preimage : Bytes) :
    separate (formatStableId sha256 prefixBytes preimage) =
      some (prefixBytes, Hex.encode 97 (kept (sha256 preimage))) := by
  have others : ∀ byte ∈ Hex.encode 97 (kept (sha256 preimage)), (byte == 45) = false := by
    intro byte listed
    have digit := digest_digits _ byte listed
    simp only [isDigestByte, Bool.or_eq_true, Bool.and_eq_true, decide_eq_true_eq] at digit
    rw [beq_eq_false_iff_ne]
    omega
  unfold separate formatStableId
  rw [rposition_last prefixBytes (by rfl) others]
  simp

theorem validateStableId_format (fine : PrefixOk prefixBytes) (preimage : Bytes) :
    validateStableId (formatStableId sha256 prefixBytes preimage) = .ok (formatStableId sha256 prefixBytes preimage) := by
  have digits : (Hex.encode 97 (kept (sha256 preimage))).length = stableIdDigestHexBytes := by
    rw [Hex.encode_length, kept_length]
    rfl
  have length : (formatStableId sha256 prefixBytes preimage).length = prefixBytes.length + 49 := by
    unfold formatStableId
    rw [length_append, length_cons, digits]
    rfl
  have bounds : ¬¬(stableIdMinBytes ≤ (formatStableId sha256 prefixBytes preimage).length ∧
      (formatStableId sha256 prefixBytes preimage).length ≤ stableIdMaxBytes) := by
    have short := fine.short
    have filled := length_pos_iff.mpr fine.filled
    rw [length, not_not]
    simp only [stableIdMinBytes, stableIdMaxBytes, stableIdPrefixMaxBytes, stableIdDigestHexBytes] at short ⊢
    omega
  have ascii : ∀ byte ∈ formatStableId sha256 prefixBytes preimage, byte < 0x80 := by
    intro byte listed
    rcases mem_append.mp listed with front | back
    · have plain := isPrefixByte_bounds (fine.plain byte front)
      omega
    · rcases mem_cons.mp back with rfl | digit
      · decide
      · have bounds := digest_digits _ byte digit
        simp only [isDigestByte, Bool.or_eq_true, Bool.and_eq_true, decide_eq_true_eq] at bounds
        omega
  have read := (@fromUtf8_ok .inIdentifier (formatStableId sha256 prefixBytes preimage) _).mpr ⟨Utf8.decode_ascii ascii, rfl⟩
  have checked := validatePrefix_ok.mpr ⟨fine, rfl⟩
  have alphabet : (Hex.encode 97 (kept (sha256 preimage))).findIdx? (fun byte => !isDigestByte byte) = none := by
    rw [findIdx?_eq_none_iff]
    intro byte listed
    rw [digest_digits _ byte listed]
    rfl
  unfold validateStableId
  rw [if_neg bounds, read, separate_format]
  show (if _ then _ else _) = _
  rw [if_neg (not_not.mpr digits), checked, alphabet]
  rfl

theorem format_injective {first second : Bytes} {left right : Bytes}
    (same : formatStableId sha256 first left = formatStableId sha256 second right) :
    first = second ∧ kept (sha256 left) = kept (sha256 right) := by
  have cut := @separate_format sha256 first left
  rw [same, separate_format] at cut
  obtain ⟨rfl, digits⟩ := Prod.mk.inj (Option.some.inj cut)
  exact ⟨rfl, (Hex.encode_injective (by decide) (kept_small _) (kept_small _) digits).symm⟩

def Admitted (sha256 : Bytes → Vector UInt8 32) (width : PointerWidth) (prefixBytes : Bytes) (parts : List Bytes) : Prop :=
  ∃ identifier, deriveStableId sha256 width prefixBytes parts = .ok identifier

theorem deriveStableId_apart {identifier : Bytes} (derived : deriveStableId sha256 width prefixBytes parts = .ok identifier) :
    ∀ segment ∈ prefixBytes :: parts, 0 ∉ segment := by
  obtain ⟨framed, -, apart, -⟩ := deriveStableId_ok.mp derived
  exact forall_mem_cons.mpr ⟨framed.prefixOk.apart, apart⟩

theorem preimage_injective {first second : Bytes} {left right : List Bytes}
    (one : Admitted sha256 width first left) (two : Admitted sha256 width second right)
    (same : preimage first left = preimage second right) : first = second ∧ left = right := by
  obtain ⟨_, derived⟩ := one
  obtain ⟨_, other⟩ := two
  have split := preimage_split (deriveStableId_apart derived)
  rw [same, preimage_split (deriveStableId_apart other)] at split
  obtain ⟨firsts, rests⟩ := List.cons.inj split
  exact ⟨firsts.symm, rests.symm⟩

example : preimage (text "field") [] ≠ preimage (text "field") [[]] := by decide

/-- Both entry points give one identifier, from a preimage that tells the prefix and the parts, and the identifier is
    valid and tells its prefix. -/
theorem stable_ids_self_validating (sha256 : Bytes → Vector UInt8 32) (width : PointerWidth) :
    (∀ prefixBytes parts identifier, deriveStableId sha256 width prefixBytes parts = .ok identifier ↔
      (∀ segment ∈ prefixBytes :: parts, 0 ∉ segment) ∧
        deriveStableIdFrame sha256 ([0].intercalate (prefixBytes :: parts)) = .ok identifier) ∧
    (∀ first left second right, Admitted sha256 width first left → Admitted sha256 width second right →
      preimage first left = preimage second right → first = second ∧ left = right) ∧
    (∀ prefixBytes parts identifier, deriveStableId sha256 width prefixBytes parts = .ok identifier →
      validateStableId identifier = .ok identifier ∧ (separate identifier).map Prod.fst = some prefixBytes) ∧
    (∀ first left second right identifier, deriveStableId sha256 width first left = .ok identifier →
      deriveStableId sha256 width second right = .ok identifier →
      first = second ∧ kept (sha256 (preimage first left)) = kept (sha256 (preimage second right))) := by
  refine ⟨fun prefixBytes parts identifier => ?_, fun _ _ _ _ => preimage_injective, fun prefixBytes parts identifier => ?_,
    fun first left second right identifier => ?_⟩
  · rw [← preimage_eq]
    constructor
    · intro derived
      have apart := deriveStableId_apart derived
      obtain ⟨framed, small, -, same⟩ := deriveStableId_ok.mp derived
      exact ⟨apart, (deriveStableIdFrame_ok (preimage_split apart)).mpr ⟨framed, small, same⟩⟩
    · rintro ⟨apart, derived⟩
      obtain ⟨framed, small, same⟩ := (deriveStableIdFrame_ok (preimage_split apart)).mp derived
      exact deriveStableId_ok.mpr ⟨framed, small, (forall_mem_cons.mp apart).2, same⟩
  · intro derived
    obtain ⟨framed, -, -, rfl⟩ := deriveStableId_ok.mp derived
    exact ⟨validateStableId_format framed.prefixOk _, by rw [separate_format]; rfl⟩
  · intro derived other
    obtain ⟨-, -, -, rfl⟩ := deriveStableId_ok.mp derived
    obtain ⟨-, -, -, same⟩ := deriveStableId_ok.mp other
    exact format_injective same

end
end StableId
