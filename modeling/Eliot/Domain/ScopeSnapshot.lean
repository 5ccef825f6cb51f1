import Eliot.Collections.Fallible
import Eliot.Domain.ScopeResolution

namespace Domain

structure DeterministicScopeMember where
  sourceRevisionRef : Text
  sourceOwnerGeneration : Text
  policyClosureRef : Text
deriving DecidableEq

structure DeterministicScopeAtomResolution where
  atomGenerationRef : Text
  members : List DeterministicScopeMember

abbrev DeterministicScopeAtomResolver := ScopeAtom → DeterministicScopeAtomResolution

structure DeterministicScopeResolutionDraft where
  canonicalExpression : Text
  participantGenerationRefs : List Text
  members : List DeterministicScopeMember

structure DeterministicScopeResolutionError where
  message : Text
deriving DecidableEq

abbrev Resolving := Except DeterministicScopeResolutionError

/-- The order of `localeCompare`: of two strings one is not after the other, and the order is
    transitive; different strings may have the same place in it. -/
structure Collation where
  localeCompare : Text → Text → Int
  total : ∀ left right, localeCompare left right ≤ 0 ∨ localeCompare right left ≤ 0
  trans : ∀ first second third, localeCompare first second ≤ 0 → localeCompare second third ≤ 0 →
    localeCompare first third ≤ 0

def requireCanonicalIdentifier (value label : Text) : Resolving Text :=
  if value.length = 0 ∨ 256 < value.length then
    throw ⟨label ++ text " must contain 1-256 characters"⟩
  else if value ≠ Text.trim value then
    throw ⟨label ++ text " must not contain surrounding whitespace"⟩
  else return value

def applied (name arguments : Text) : Text := name ++ 40 :: arguments ++ [41]

def canonicalAtom : ScopeAtom → Resolving Text
  | .globalLibrary => return text "GLOBAL_LIBRARY"
  | .project projectId => do
    let projectId ← requireCanonicalIdentifier projectId (text "project_id")
    return applied (text "project") (Text.jsonString projectId)
  | .selectedSources sourceIds => do
    let ids ← sourceIds.mapM fun id => requireCanonicalIdentifier id (text "source_id")
    let ids := (Insertion.unique ids).insertionSort (· ≤ ·)
    return applied (text "selected_sources") (Text.jsonItems ids)
  | .sourceClass name => do
    let name ← requireCanonicalIdentifier name (text "source_class")
    return applied (text "source_class") (Text.jsonString name)
  | .tag name => do
    let name ← requireCanonicalIdentifier name (text "tag")
    return applied (text "tag") (Text.jsonString name)

def grouped (word : Text) (operands : List Text) : Text :=
  40 :: (operands.intersperse (32 :: word ++ [32])).flatten ++ [41]

def canonicalizeDeterministicScopeExpression : ScopeExpression → Resolving Text
  | .atom atom => canonicalAtom atom
  | .except left right => do
    let left ← canonicalizeDeterministicScopeExpression left
    let right ← canonicalizeDeterministicScopeExpression right
    return grouped (text "EXCEPT") [left, right]
  | .combine kind left right => do
    let operands ← (flattenCommutative kind (.combine kind left right)).attach.mapM
      fun ⟨operand, _⟩ => canonicalizeDeterministicScopeExpression operand
    return grouped kind.name ((Insertion.unique operands).insertionSort (· ≤ ·))
termination_by expression => sizeOf expression
decreasing_by
  · simp only [ScopeExpression.except.sizeOf_spec]
    omega
  · simp only [ScopeExpression.except.sizeOf_spec]
    omega
  · exact flattenCommutative_smaller (by assumption)

section
variable (collation : Collation)

def normalizeMember (member : DeterministicScopeMember) : Resolving DeterministicScopeMember := do
  let sourceRevisionRef ←
    requireCanonicalIdentifier member.sourceRevisionRef (text "source_revision_ref")
  let sourceOwnerGeneration ←
    requireCanonicalIdentifier member.sourceOwnerGeneration (text "source_owner_generation")
  let policyClosureRef ←
    requireCanonicalIdentifier member.policyClosureRef (text "policy_closure_ref")
  return ⟨sourceRevisionRef, sourceOwnerGeneration, policyClosureRef⟩

def conflicting (sourceRevisionRef : Text) : DeterministicScopeResolutionError :=
  ⟨text "conflicting generation or policy closure for " ++ sourceRevisionRef⟩

def disagree (member other : DeterministicScopeMember) : Bool :=
  other.sourceOwnerGeneration ≠ member.sourceOwnerGeneration ∨
    other.policyClosureRef ≠ member.policyClosureRef

def addMember (byRevision : List (Text × DeterministicScopeMember))
    (rawMember : DeterministicScopeMember) : Resolving (List (Text × DeterministicScopeMember)) := do
  let member ← normalizeMember rawMember
  if (Insertion.get member.sourceRevisionRef byRevision).any (disagree member) then
    throw (conflicting member.sourceRevisionRef)
  return Insertion.put member.sourceRevisionRef member byRevision

def normalizeMembers (members : List DeterministicScopeMember) :
    Resolving (List DeterministicScopeMember) := do
  let byRevision ← members.foldlM addMember []
  return (byRevision.map Prod.snd).insertionSort fun left right =>
    collation.localeCompare left.sourceRevisionRef right.sourceRevisionRef ≤ 0

def assertCompatibleOverlap (left right : List DeterministicScopeMember) : Resolving Unit :=
  let rightByRevision := Insertion.index DeterministicScopeMember.sourceRevisionRef right
  left.forM fun member =>
    if (Insertion.get member.sourceRevisionRef rightByRevision).any (disagree member) then
      throw (conflicting member.sourceRevisionRef)
    else return

def union (left right : List DeterministicScopeMember) :
    Resolving (List DeterministicScopeMember) :=
  normalizeMembers collation (left ++ right)

def hasRevision (members : List DeterministicScopeMember) (member : DeterministicScopeMember) :
    Bool := member.sourceRevisionRef ∈ members.map DeterministicScopeMember.sourceRevisionRef

def intersect (left right : List DeterministicScopeMember) :
    Resolving (List DeterministicScopeMember) := do
  assertCompatibleOverlap left right
  normalizeMembers collation (left.filter (hasRevision right))

def except (left right : List DeterministicScopeMember) :
    Resolving (List DeterministicScopeMember) := do
  assertCompatibleOverlap left right
  normalizeMembers collation (left.filter fun member => !hasRevision right member)

structure IntermediateResolution where
  generations : List Text
  members : List DeterministicScopeMember
deriving DecidableEq

def joinGenerations (left right : List Text) : List Text :=
  (Insertion.unique (left ++ right)).insertionSort (· ≤ ·)

variable (resolver : DeterministicScopeAtomResolver)

def evaluate : ScopeExpression → Resolving IntermediateResolution
  | .atom atom => do
    let resolved := resolver atom
    let generation ←
      requireCanonicalIdentifier resolved.atomGenerationRef (text "atom_generation_ref")
    let members ← normalizeMembers collation resolved.members
    return ⟨[generation], members⟩
  | .combine kind left right => do
    let left ← evaluate left
    let right ← evaluate right
    let members ← match kind with
      | .union => union collation left.members right.members
      | .intersect => intersect collation left.members right.members
    return ⟨joinGenerations left.generations right.generations, members⟩
  | .except left right => do
    let left ← evaluate left
    let right ← evaluate right
    let members ← except collation left.members right.members
    return ⟨joinGenerations left.generations right.generations, members⟩

def resolveDeterministicScopeSnapshotDraft (expression : ScopeExpression) :
    Resolving DeterministicScopeResolutionDraft := do
  let resolved ← evaluate collation resolver expression
  let canonicalExpression ← canonicalizeDeterministicScopeExpression expression
  return ⟨canonicalExpression, resolved.generations, resolved.members⟩

end

section
variable {kind : Commutative} {left right expression : ScopeExpression}

theorem canonicalize_combine {result : Text} :
    canonicalizeDeterministicScopeExpression (.combine kind left right) = .ok result ↔
      ∃ operands, List.Forall₂
          (fun operand result => canonicalizeDeterministicScopeExpression operand = .ok result)
          (flattenCommutative kind (.combine kind left right)) operands ∧
        result = grouped kind.name ((Insertion.unique operands).insertionSort (· ≤ ·)) := by
  have whole : (flattenCommutative kind (.combine kind left right)).attach.mapM
      (fun operand => canonicalizeDeterministicScopeExpression operand.val) =
      (flattenCommutative kind (.combine kind left right)).mapM
        canonicalizeDeterministicScopeExpression := by
    conv => rhs; rw [← List.attach_map_subtype_val (flattenCommutative kind _), List.mapM_map]
    rfl
  rw [canonicalizeDeterministicScopeExpression, whole]
  simp only [← Fallible.mapM_ok]
  cases found : (flattenCommutative kind (.combine kind left right)).mapM
      canonicalizeDeterministicScopeExpression with
  | error error => simp [bind, Except.bind]
  | ok operands => simp [bind, Except.bind, pure, Except.pure, eq_comm]

theorem canonicalize_except {result : Text} :
    canonicalizeDeterministicScopeExpression (.except left right) = .ok result ↔
      ∃ one two, canonicalizeDeterministicScopeExpression left = .ok one ∧
        canonicalizeDeterministicScopeExpression right = .ok two ∧
        result = grouped (text "EXCEPT") [one, two] := by
  rw [canonicalizeDeterministicScopeExpression]
  cases canonicalizeDeterministicScopeExpression left with
  | error error => simp [bind, Except.bind]
  | ok one =>
    cases canonicalizeDeterministicScopeExpression right with
    | error error => simp [bind, Except.bind]
    | ok two => simp [bind, Except.bind, pure, Except.pure, eq_comm]

end
end Domain
