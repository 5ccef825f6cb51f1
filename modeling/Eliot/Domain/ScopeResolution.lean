import Eliot.Domain.SourceOwnership
import Eliot.Domain.Scope
import Mathlib.Data.Finset.Basic

namespace Domain

open List Insertion

structure ScopeUniverse where
  globalSourceRevisionRefs : Finset Text
  projects : Text → Option (Finset Text)
  sourceClasses : Text → Option (Finset Text)
  tags : Text → Option (Finset Text)
  selectedSourceHeads : Text → Option Text

section
variable (library : ScopeUniverse)

def unknownReference (reference : Text) : DomainError := ⟨.scopeReferenceUnknown, reference⟩

def resolveSources : List Text → Finset Text → Except DomainError (Finset Text)
  | [], revisions => return revisions
  | sourceId :: sourceIds, revisions =>
    match library.selectedSourceHeads sourceId with
    | none => throw (unknownReference (text "source:" ++ sourceId))
    | some revision => resolveSources sourceIds (insert revision revisions)

def resolveAtom : ScopeAtom → Except DomainError (Finset Text)
  | .globalLibrary => return library.globalSourceRevisionRefs
  | .project projectId =>
    match library.projects projectId with
    | none => throw (unknownReference (text "project:" ++ projectId))
    | some value => return value
  | .selectedSources sourceIds => resolveSources library sourceIds ∅
  | .sourceClass name =>
    match library.sourceClasses name with
    | none => throw (unknownReference (text "class:" ++ name))
    | some value => return value
  | .tag name =>
    match library.tags name with
    | none => throw (unknownReference (text "tag:" ++ name))
    | some value => return value

def resolveScopeExpression : ScopeExpression → Except DomainError (Finset Text)
  | .atom atom => resolveAtom library atom
  | .combine kind left right => do
    let left ← resolveScopeExpression left
    let right ← resolveScopeExpression right
    match kind with
    | .union => return left ∪ right
    | .intersect => return left ∩ right
  | .except left right => do
    let left ← resolveScopeExpression left
    let right ← resolveScopeExpression right
    return left \ right

end

section
variable {library : ScopeUniverse} {set : Finset Text} {kind : Commutative}
  {left right : ScopeExpression}

def Means (library : ScopeUniverse) (expression : ScopeExpression) (set : Finset Text) : Prop :=
  resolveScopeExpression library expression = .ok set

def Holds (library : ScopeUniverse) (revision : Text) (expression : ScopeExpression) : Prop :=
  ∃ set, Means library expression set ∧ revision ∈ set

def Quantified (kind : Commutative) (holds : ScopeExpression → Prop)
    (operands : List ScopeExpression) : Prop :=
  match kind with
  | .union => ∃ operand ∈ operands, holds operand
  | .intersect => ∀ operand ∈ operands, holds operand

def Together (library : ScopeUniverse) (kind : Commutative) (operands : List ScopeExpression)
    (set : Finset Text) : Prop :=
  (∀ operand ∈ operands, ∃ part, Means library operand part) ∧
    ∀ revision, revision ∈ set ↔ Quantified kind (Holds library revision) operands

variable {expression : ScopeExpression}

theorem Means.unique {other : Finset Text}
    (one : Means library expression set) (two : Means library expression other) : set = other :=
  Except.ok.inj (one.symm.trans two)

theorem Means.holds (means : Means library expression set)
    (revision : Text) : Holds library revision expression ↔ revision ∈ set := by
  constructor
  · rintro ⟨other, same, listed⟩
    rw [means.unique same]
    exact listed
  · exact fun listed => ⟨set, means, listed⟩

theorem means_combine : Means library (.combine kind left right) set ↔
    ∃ one two, Means library left one ∧ Means library right two ∧
      set = match kind with
        | .union => one ∪ two
        | .intersect => one ∩ two := by
  unfold Means
  rw [resolveScopeExpression]
  cases resolveScopeExpression library left with
  | error error => simp [bind, Except.bind]
  | ok one =>
    cases resolveScopeExpression library right with
    | error error => simp [bind, Except.bind]
    | ok two => cases kind <;> simp [bind, Except.bind, pure, Except.pure, eq_comm]

theorem means_except : Means library (.except left right) set ↔
    ∃ one two, Means library left one ∧ Means library right two ∧ set = one \ two := by
  unfold Means
  rw [resolveScopeExpression]
  cases resolveScopeExpression library left with
  | error error => simp [bind, Except.bind]
  | ok one =>
    cases resolveScopeExpression library right with
    | error error => simp [bind, Except.bind]
    | ok two => simp [bind, Except.bind, pure, Except.pure, eq_comm]

theorem together_single :
    Together library kind [expression] set ↔ Means library expression set := by
  unfold Together
  constructor
  · rintro ⟨resolves, same⟩
    obtain ⟨part, means⟩ := resolves expression (mem_singleton_self _)
    have equal : set = part := by
      ext revision
      rw [same, ← means.holds]
      cases kind <;> simp [Quantified]
    exact equal ▸ means
  · intro means
    refine ⟨fun operand listed => ⟨set, mem_singleton.mp listed ▸ means⟩, fun revision => ?_⟩
    rw [← means.holds]
    cases kind <;> simp [Quantified]

theorem together_congr {first second : List ScopeExpression}
    (same : ∀ operand, operand ∈ first ↔ operand ∈ second) :
    Together library kind first set ↔ Together library kind second set := by
  unfold Together Quantified
  simp only [same]

theorem together_combine {rest : List ScopeExpression} :
    Together library kind (.combine kind left right :: rest) set ↔
      Together library kind (left :: right :: rest) set := by
  have resolves : (∃ part, Means library (.combine kind left right) part) ↔
      (∃ part, Means library left part) ∧ ∃ part, Means library right part := by
    simp only [means_combine]
    constructor
    · rintro ⟨part, one, two, first, second, -⟩
      exact ⟨⟨one, first⟩, two, second⟩
    · rintro ⟨⟨one, first⟩, two, second⟩
      exact ⟨_, one, two, first, second, rfl⟩
  have all : (∀ operand ∈ ScopeExpression.combine kind left right :: rest,
      ∃ part, Means library operand part) ↔
      ∀ operand ∈ left :: right :: rest, ∃ part, Means library operand part := by
    simp only [forall_mem_cons, resolves, and_assoc]
  unfold Together
  rw [all, and_congr_right_iff]
  intro each
  obtain ⟨one, first⟩ := each left (by simp)
  obtain ⟨two, second⟩ := each right (by simp)
  have whole : Means library (.combine kind left right) _ :=
    means_combine.mpr ⟨one, two, first, second, rfl⟩
  refine forall_congr' fun revision => ?_
  cases kind with
  | union =>
    simp only [Quantified, exists_mem_cons_iff, whole.holds, first.holds, second.holds,
      Finset.mem_union, or_assoc]
  | intersect =>
    simp only [Quantified, forall_mem_cons, whole.holds, first.holds, second.holds,
      Finset.mem_inter, and_assoc]

theorem together_flatten (expression : ScopeExpression) (rest : List ScopeExpression) :
    Together library kind (expression :: rest) set ↔
      Together library kind (flattenCommutative kind expression ++ rest) set := by
  induction expression generalizing rest with
  | atom atom => rfl
  | except left right _ _ => rfl
  | combine other left right ihLeft ihRight =>
    unfold flattenCommutative
    split
    · rename_i same
      subst same
      have shuffled : Together library other (flattenCommutative other left ++ right :: rest) set ↔
          Together library other (right :: (flattenCommutative other left ++ rest)) set :=
        together_congr (by simp; tauto)
      rw [together_combine, ihLeft, shuffled, ihRight]
      exact together_congr (by simp; tauto)
    · rfl

theorem together_joined (first : ScopeExpression) (rest : List ScopeExpression) :
    Means library (joined kind first rest) set ↔ Together library kind (first :: rest) set := by
  induction rest generalizing first with
  | nil => exact together_single.symm
  | cons next rest ih =>
    rw [← together_combine]
    exact ih (.combine kind first next)

theorem together_map {operands : List ScopeExpression} {change : ScopeExpression → ScopeExpression}
    (same : ∀ operand ∈ operands, ∀ part, Means library (change operand) part ↔
      Means library operand part) :
    Together library kind (operands.map change) set ↔ Together library kind operands set := by
  have holds : ∀ operand ∈ operands, ∀ revision,
      Holds library revision (change operand) ↔ Holds library revision operand := by
    intro operand listed revision
    unfold Holds
    simp only [same operand listed]
  have resolves : (∀ operand ∈ operands.map change, ∃ part, Means library operand part) ↔
      ∀ operand ∈ operands, ∃ part, Means library operand part := by
    rw [forall_mem_map]
    refine forall₂_congr fun operand listed => ?_
    simp only [same operand listed]
  have quantified (revision : Text) :
      Quantified kind (Holds library revision) (operands.map change) ↔
        Quantified kind (Holds library revision) operands := by
    cases kind with
    | union =>
      simp only [Quantified, mem_map, exists_exists_and_eq_and]
      exact exists_congr fun operand => and_congr_right fun listed => holds operand listed revision
    | intersect =>
      simp only [Quantified, forall_mem_map]
      exact forall₂_congr fun operand listed => holds operand listed revision
  unfold Together
  rw [resolves]
  simp only [quantified]

end

section
variable {library : ScopeUniverse} {kind : Commutative} {left right : ScopeExpression}

theorem flattenCommutative_ne_nil (kind : Commutative) (expression : ScopeExpression) :
    flattenCommutative kind expression ≠ [] := by
  induction expression with
  | atom atom => simp [flattenCommutative]
  | except left right _ _ => simp [flattenCommutative]
  | combine other left right ihLeft _ =>
    unfold flattenCommutative
    split
    · simp [ihLeft]
    · simp

theorem normalize_combine (kind : Commutative) (left right : ScopeExpression) :
    ∃ first rest, Insertion.arranged normalizedIdentity
        ((flattenCommutative kind (.combine kind left right)).map normalizeScopeExpression) =
          first :: rest ∧
      normalizeScopeExpression (.combine kind left right) = joined kind first rest := by
  rw [normalizeScopeExpression]
  simp only [attach_map_val]
  cases found : Insertion.arranged normalizedIdentity
      ((flattenCommutative kind (.combine kind left right)).map normalizeScopeExpression) with
  | nil =>
    obtain ⟨operand, rest, shape⟩ := exists_cons_of_ne_nil
      (flattenCommutative_ne_nil kind (.combine kind left right))
    have member := (mem_arranged normalizedIdentity_injective).mpr
      (show normalizeScopeExpression operand ∈ (flattenCommutative kind
        (.combine kind left right)).map normalizeScopeExpression by simp [shape])
    rw [found] at member
    exact absurd member (not_mem_nil)
  | cons first rest => exact ⟨first, rest, rfl, rfl⟩

theorem resolveSources_ok {sourceIds : List Text} {revisions set : Finset Text} :
    resolveSources library sourceIds revisions = .ok set ↔
      (∀ sourceId ∈ sourceIds, (library.selectedSourceHeads sourceId).isSome) ∧
        ∀ revision, revision ∈ set ↔ revision ∈ revisions ∨
          ∃ sourceId ∈ sourceIds, library.selectedSourceHeads sourceId = some revision := by
  induction sourceIds generalizing revisions with
  | nil =>
    simp [resolveSources, pure, Except.pure, Finset.ext_iff, iff_comm]
  | cons sourceId sourceIds ih =>
    unfold resolveSources
    cases found : library.selectedSourceHeads sourceId with
    | none => simp [found, throw, throwThe, MonadExceptOf.throw]
    | some head =>
      simp only [ih, forall_mem_cons, found, Option.isSome_some, true_and, Finset.mem_insert,
        exists_mem_cons_iff, Option.some.injEq]
      refine and_congr_right fun _ => forall_congr' fun revision => ?_
      rw [or_assoc, or_left_comm, eq_comm]

theorem normalizeAtom_means (atom : ScopeAtom) (set : Finset Text) :
    resolveAtom library (normalizeAtom atom) = .ok set ↔ resolveAtom library atom = .ok set := by
  cases atom with
  | selectedSources sourceIds =>
    simp only [normalizeAtom, resolveAtom, resolveSources_ok, mem_insertionSort,
      mem_unique]
  | globalLibrary => rfl
  | project projectId => rfl
  | sourceClass name => rfl
  | tag name => rfl

theorem normalize_means (expression : ScopeExpression) (set : Finset Text) :
    Means library (normalizeScopeExpression expression) set ↔ Means library expression set := by
  induction expression using ScopeExpression.flattened_induction generalizing set with
  | basic atom =>
    rw [normalizeScopeExpression]
    exact normalizeAtom_means atom set
  | except left right ihLeft ihRight =>
    rw [normalizeScopeExpression, means_except, means_except]
    simp only [ihLeft, ihRight]
  | combine kind left right ih =>
    obtain ⟨first, rest, operands, shape⟩ := normalize_combine kind left right
    have members (operand : ScopeExpression) : operand ∈ first :: rest ↔ operand ∈
        (flattenCommutative kind (.combine kind left right)).map normalizeScopeExpression := by
      rw [← operands, mem_arranged normalizedIdentity_injective]
    rw [shape, together_joined, together_congr members, together_map ih]
    rw [← append_nil (flattenCommutative kind _), ← together_flatten]
    exact together_single

def ScopeExpression.leaves : ScopeExpression → List ScopeAtom
  | .atom basic => [basic]
  | .combine _ left right => left.leaves ++ right.leaves
  | .except left right => left.leaves ++ right.leaves

theorem collectAtoms_leaves (pending : List ScopeExpression) :
    collectAtoms pending = pending.flatMap ScopeExpression.leaves := by
  induction pending using collectAtoms.induct with
  | case1 => simp [collectAtoms]
  | case2 atom pending ih => simp [collectAtoms, ih, ScopeExpression.leaves]
  | case3 kind left right pending ih => simp [collectAtoms, ih, ScopeExpression.leaves]
  | case4 left right pending ih => simp [collectAtoms, ih, ScopeExpression.leaves]

theorem flattenCommutative_leaves (kind : Commutative) (expression : ScopeExpression) :
    (flattenCommutative kind expression).flatMap ScopeExpression.leaves = expression.leaves := by
  induction expression with
  | atom atom => simp [flattenCommutative]
  | except left right _ _ => simp [flattenCommutative]
  | combine other left right ihLeft ihRight =>
    unfold flattenCommutative
    split
    · rw [flatMap_append, ihLeft, ihRight]
      rfl
    · simp

theorem joined_leaves (kind : Commutative) (first : ScopeExpression)
    (rest : List ScopeExpression) :
    (joined kind first rest).leaves = (first :: rest).flatMap ScopeExpression.leaves := by
  induction rest generalizing first with
  | nil => simp [joined]
  | cons next rest ih =>
    have shape : joined kind first (next :: rest) = joined kind (.combine kind first next) rest := rfl
    rw [shape, ih]
    simp [ScopeExpression.leaves]

theorem normalize_leaves (expression : ScopeExpression) (atom : ScopeAtom) :
    atom ∈ (normalizeScopeExpression expression).leaves ↔
      ∃ leaf ∈ expression.leaves, normalizeAtom leaf = atom := by
  induction expression using ScopeExpression.flattened_induction with
  | basic leaf =>
    rw [normalizeScopeExpression]
    simp [ScopeExpression.leaves, eq_comm]
  | except left right ihLeft ihRight =>
    rw [normalizeScopeExpression]
    simp only [ScopeExpression.leaves, mem_append, ihLeft, ihRight, or_and_right, exists_or]
  | combine kind left right ih =>
    obtain ⟨first, rest, operands, shape⟩ := normalize_combine kind left right
    rw [shape, joined_leaves, ← operands, ← flattenCommutative_leaves kind]
    simp only [mem_flatMap, mem_arranged normalizedIdentity_injective,
      mem_map, exists_exists_and_eq_and]
    constructor
    · rintro ⟨operand, listed, found⟩
      obtain ⟨leaf, inside, same⟩ := (ih operand listed).mp found
      exact ⟨leaf, ⟨operand, listed, inside⟩, same⟩
    · rintro ⟨leaf, ⟨operand, listed, inside⟩, same⟩
      exact ⟨operand, listed, (ih operand listed).mpr ⟨leaf, inside, same⟩⟩

/-- Normalization preserves meaning: an expression and its normal form resolve alike in every
    universe, so expressions with one identity do, and the atoms of an expression are its
    normalized atoms, each once. -/
theorem normalize_preserves_meaning :
    (∀ library expression set,
      resolveScopeExpression library (normalizeScopeExpression expression) = .ok set ↔
        resolveScopeExpression library expression = .ok set) ∧
    (∀ first second, scopeExpressionIdentity first = scopeExpressionIdentity second →
      ∀ library set, resolveScopeExpression library first = .ok set ↔
        resolveScopeExpression library second = .ok set) ∧
    (∀ expression, (scopeExpressionAtoms expression).Nodup ∧
      ∀ atom, atom ∈ scopeExpressionAtoms expression ↔
        ∃ leaf ∈ expression.leaves, normalizeAtom leaf = atom) := by
  refine ⟨fun library expression set => normalize_means expression set, ?_, fun expression => ?_⟩
  · intro first second same library set
    have equal := normalizedIdentity_injective same
    have meaning : Means library (normalizeScopeExpression first) set ↔ Means library first set :=
      normalize_means first set
    rw [equal, normalize_means] at meaning
    exact meaning.symm
  · have strict := arranged_strict ScopeAtom.json_injective
      (collectAtoms [normalizeScopeExpression expression])
    refine ⟨strict.nodup, fun atom => ?_⟩
    rw [scopeExpressionAtoms, mem_arranged ScopeAtom.json_injective, collectAtoms_leaves,
      flatMap_singleton, normalize_leaves]

/-- Selected sources in another order. -/
theorem normalize_preserves_meaning_reordered :
    resolveScopeExpression ⟨∅, fun _ => none, fun _ => none, fun _ => none, some⟩
        (.atom (.selectedSources [text "b", text "a", text "b"])) = .ok {text "a", text "b"} ↔
      resolveScopeExpression ⟨∅, fun _ => none, fun _ => none, fun _ => none, some⟩
        (.atom (.selectedSources [text "a", text "b"])) = .ok {text "a", text "b"} :=
  normalize_preserves_meaning.2.1 _ _
    (by
      simp only [scopeExpressionIdentity, normalizeScopeExpression]
      decide) _ _

end
end Domain
