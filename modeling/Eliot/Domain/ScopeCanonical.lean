import Eliot.Domain.ScopeResolution

namespace Domain

open List Insertion
open Insertion (arranged Strict)

/-- Expressions that differ only by associativity, commutativity and idempotence at any depth and
    by the order or repetition of selected sources. -/
inductive Same : ScopeExpression → ScopeExpression → Prop where
  | refl (expression : ScopeExpression) : Same expression expression
  | symm {first second : ScopeExpression} (same : Same first second) : Same second first
  | trans {first second third : ScopeExpression} (left : Same first second)
      (right : Same second third) : Same first third
  | combine (kind : Commutative) {first second third fourth : ScopeExpression}
      (left : Same first second) (right : Same third fourth) :
      Same (.combine kind first third) (.combine kind second fourth)
  | except {first second third fourth : ScopeExpression} (left : Same first second)
      (right : Same third fourth) : Same (.except first third) (.except second fourth)
  | comm (kind : Commutative) (first second : ScopeExpression) :
      Same (.combine kind first second) (.combine kind second first)
  | assoc (kind : Commutative) (first second third : ScopeExpression) :
      Same (.combine kind (.combine kind first second) third)
        (.combine kind first (.combine kind second third))
  | idem (kind : Commutative) (expression : ScopeExpression) :
      Same (.combine kind expression expression) expression
  | selected {sourceIds others : List Text} (same : ∀ id, id ∈ sourceIds ↔ id ∈ others) :
      Same (.atom (.selectedSources sourceIds)) (.atom (.selectedSources others))

section
variable {kind other : Commutative} {first expression operand : ScopeExpression}
  {rest : List ScopeExpression}

theorem flattenCommutative_flat (listed : operand ∈ flattenCommutative kind expression) :
    flattenCommutative kind operand = [operand] := by
  induction expression with
  | atom atom =>
    rw [mem_singleton.mp listed]
    rfl
  | except left right _ _ =>
    rw [mem_singleton.mp listed]
    rfl
  | combine other left right ihLeft ihRight =>
    unfold flattenCommutative at listed
    split at listed
    · rcases mem_append.mp listed with member | member
      · exact ihLeft member
      · exact ihRight member
    · rename_i apart
      rw [mem_singleton.mp listed, flattenCommutative, if_neg apart]

theorem flattenCommutative_joined :
    flattenCommutative kind (joined kind first rest) =
      (first :: rest).flatMap (flattenCommutative kind) := by
  induction rest generalizing first with
  | nil => simp [joined]
  | cons next rest ih =>
    have shape : joined kind first (next :: rest) = joined kind (.combine kind first next) rest := rfl
    rw [shape, ih, flatMap_cons, flattenCommutative_combine]
    simp

theorem flatMap_flat {operands : List ScopeExpression}
    (flat : ∀ operand ∈ operands, flattenCommutative kind operand = [operand]) :
    operands.flatMap (flattenCommutative kind) = operands := by
  induction operands with
  | nil => rfl
  | cons operand operands ih =>
    rw [flatMap_cons, flat operand (mem_cons_self ..),
      ih fun next listed => flat next (mem_cons_of_mem _ listed)]
    rfl

theorem joined_combine (more : rest ≠ []) :
    ∃ left right, joined kind first rest = .combine kind left right := by
  rcases eq_nil_or_concat rest with rfl | ⟨front, last, rfl⟩
  · exact absurd rfl more
  · refine ⟨joined kind first front, last, ?_⟩
    rw [joined, concat_eq_append, foldl_append]
    rfl

theorem flattenCommutative_other (apart : other ≠ kind) (more : rest ≠ []) :
    flattenCommutative kind (joined other first rest) = [joined other first rest] := by
  obtain ⟨left, right, shape⟩ := @joined_combine other first rest more
  rw [shape, flattenCommutative, if_neg apart]

end

section
variable {kind : Commutative} {expression other operand : ScopeExpression}

theorem Same.absorb (listed : operand ∈ flattenCommutative kind expression) :
    Same (.combine kind expression operand) expression := by
  induction expression with
  | atom atom =>
    rw [mem_singleton.mp listed]
    exact .idem kind _
  | except left right _ _ =>
    rw [mem_singleton.mp listed]
    exact .idem kind _
  | combine other left right ihLeft ihRight =>
    unfold flattenCommutative at listed
    split at listed
    · rename_i same
      subst same
      rcases mem_append.mp listed with member | member
      · have swap : Same (.combine other (.combine other left right) operand)
            (.combine other (.combine other left operand) right) :=
          .trans (.assoc other left right operand) (.trans
            (.combine other (.refl left) (.comm other right operand))
            (.symm (.assoc other left operand right)))
        exact .trans swap (.combine other (ihLeft member) (.refl right))
      · exact .trans (.assoc other left right operand)
          (.combine other (.refl left) (ihRight member))
    · rw [mem_singleton.mp listed]
      exact .idem kind _

theorem Same.absorb_all
    (all : ∀ operand ∈ flattenCommutative kind other,
      Same (.combine kind expression operand) expression) :
    Same (.combine kind expression other) expression := by
  induction other with
  | atom atom => exact all _ (mem_singleton_self _)
  | except left right _ _ => exact all _ (mem_singleton_self _)
  | combine another left right ihLeft ihRight =>
    unfold flattenCommutative at all
    split at all
    · rename_i same
      subst same
      have one := ihLeft fun operand listed => all operand (mem_append_left _ listed)
      have two := ihRight fun operand listed => all operand (mem_append_right _ listed)
      exact .trans (.symm (.assoc another expression left right))
        (.trans (.combine another one (.refl right)) two)
    · exact all _ (mem_singleton_self _)

theorem Same.of_operands (kind : Commutative) (same : ∀ operand, operand ∈ flattenCommutative kind expression ↔
    operand ∈ flattenCommutative kind other) : Same expression other := by
  have one : Same (.combine kind expression other) expression :=
    .absorb_all fun operand listed => .absorb ((same operand).mpr listed)
  have two : Same (.combine kind other expression) other :=
    .absorb_all fun operand listed => .absorb ((same operand).mp listed)
  exact .trans (.symm one) (.trans (.comm kind expression other) two)

end

section

def canonical : ScopeExpression → ScopeExpression
  | .atom atom => .atom (normalizeAtom atom)
  | .except left right => .except (canonical left) (canonical right)
  | .combine kind left right =>
    match arranged normalizedIdentity
      (flattenCommutative kind (canonical left) ++ flattenCommutative kind (canonical right)) with
    | [] => canonical left
    | first :: rest => joined kind first rest

inductive Canonical : ScopeExpression → Prop where
  | basic {atom : ScopeAtom} (fixed : normalizeAtom atom = atom) : Canonical (.atom atom)
  | except {left right : ScopeExpression} (one : Canonical left) (two : Canonical right) :
      Canonical (.except left right)
  | gathered {kind : Commutative} {first : ScopeExpression} {rest : List ScopeExpression}
      (more : rest ≠ []) (strict : Strict normalizedIdentity (first :: rest))
      (flat : ∀ operand ∈ first :: rest, flattenCommutative kind operand = [operand])
      (parts : ∀ operand ∈ first :: rest, Canonical operand) : Canonical (joined kind first rest)

variable {kind : Commutative} {expression other : ScopeExpression}

theorem Canonical.operands (canonical : Canonical expression) (kind : Commutative) :
    ∃ first rest, flattenCommutative kind expression = first :: rest ∧
      joined kind first rest = expression ∧ Strict normalizedIdentity (first :: rest) ∧
      ∀ operand ∈ first :: rest, Canonical operand := by
  have alone (flat : flattenCommutative kind expression = [expression]) :
      ∃ first rest, flattenCommutative kind expression = first :: rest ∧
        joined kind first rest = expression ∧ Strict normalizedIdentity (first :: rest) ∧
        ∀ operand ∈ first :: rest, Canonical operand :=
    ⟨expression, [], flat, rfl, by simp [Strict], by simpa using canonical⟩
  cases canonical with
  | basic fixed => exact alone rfl
  | except one two => exact alone rfl
  | @gathered own first rest more strict flat parts =>
    by_cases same : own = kind
    · subst same
      exact ⟨first, rest, by rw [flattenCommutative_joined, flatMap_flat flat], rfl, strict, parts⟩
    · exact alone (flattenCommutative_other same more)

theorem Canonical.ext (one : Canonical expression) (kind : Commutative) (two : Canonical other)
    (same : ∀ operand, operand ∈ flattenCommutative kind expression ↔
      operand ∈ flattenCommutative kind other) : expression = other := by
  obtain ⟨first, rest, flat, shape, strict, -⟩ := one.operands kind
  obtain ⟨next, others, flat', shape', strict', -⟩ := two.operands kind
  rw [flat, flat'] at same
  have equal := strict.ext strict' same
  cases equal
  rw [← shape, ← shape']

theorem canonical_arranged (kind : Commutative) (left right : ScopeExpression) :
    ∃ first rest, arranged normalizedIdentity (flattenCommutative kind (canonical left) ++
        flattenCommutative kind (canonical right)) = first :: rest ∧
      canonical (.combine kind left right) = joined kind first rest := by
  rw [canonical]
  cases found : arranged normalizedIdentity (flattenCommutative kind (canonical left) ++
      flattenCommutative kind (canonical right)) with
  | nil =>
    obtain ⟨operand, rest, shape⟩ :=
      exists_cons_of_ne_nil (flattenCommutative_ne_nil kind (canonical left))
    have member := (mem_arranged normalizedIdentity_injective).mpr
      (show operand ∈ flattenCommutative kind (canonical left) ++
        flattenCommutative kind (canonical right) by simp [shape])
    rw [found] at member
    exact absurd member not_mem_nil
  | cons first rest => exact ⟨first, rest, rfl, rfl⟩

theorem normalizeAtom_selected {sourceIds others : List Text}
    (same : ∀ id, id ∈ sourceIds ↔ id ∈ others) :
    normalizeAtom (.selectedSources sourceIds) = normalizeAtom (.selectedSources others) := by
  simp only [normalizeAtom]
  congr 1
  exact sorted_congr (unique_perm same)

theorem mem_normalizeAtom {sourceIds : List Text} {id : Text} :
    id ∈ (Insertion.unique sourceIds).insertionSort (· ≤ ·) ↔ id ∈ sourceIds := by
  rw [mem_insertionSort, mem_unique]

theorem normalizeAtom_idem (atom : ScopeAtom) : normalizeAtom (normalizeAtom atom) = normalizeAtom atom := by
  cases atom with
  | selectedSources sourceIds =>
    exact normalizeAtom_selected fun id => mem_normalizeAtom
  | globalLibrary => rfl
  | project projectId => rfl
  | sourceClass name => rfl
  | tag name => rfl

theorem canonical_canonical (expression : ScopeExpression) : Canonical (canonical expression) := by
  induction expression with
  | atom atom => exact .basic (normalizeAtom_idem atom)
  | except left right one two => exact .except one two
  | combine kind left right one two =>
    obtain ⟨first, rest, operands, shape⟩ := canonical_arranged kind left right
    have inside : ∀ operand ∈ first :: rest,
        flattenCommutative kind operand = [operand] ∧ Canonical operand := by
      intro operand listed
      rw [← operands, mem_arranged normalizedIdentity_injective, mem_append] at listed
      rcases listed with member | member
      · obtain ⟨_, _, flat, _, _, parts⟩ := one.operands kind
        exact ⟨flattenCommutative_flat member, parts operand (flat ▸ member)⟩
      · obtain ⟨_, _, flat, _, _, parts⟩ := two.operands kind
        exact ⟨flattenCommutative_flat member, parts operand (flat ▸ member)⟩
    rw [shape]
    by_cases more : rest = []
    · subst more
      exact (inside first (by simp)).2
    · refine .gathered more ?_ (fun operand listed => (inside operand listed).1)
        fun operand listed => (inside operand listed).2
      rw [← operands]
      exact arranged_strict normalizedIdentity_injective _

theorem mem_canonical_combine {left right operand : ScopeExpression} :
    operand ∈ flattenCommutative kind (canonical (.combine kind left right)) ↔
      operand ∈ flattenCommutative kind (canonical left) ∨
        operand ∈ flattenCommutative kind (canonical right) := by
  obtain ⟨first, rest, operands, shape⟩ := canonical_arranged kind left right
  have flat : ∀ part ∈ first :: rest, flattenCommutative kind part = [part] := by
    intro part listed
    rw [← operands, mem_arranged normalizedIdentity_injective, mem_append] at listed
    rcases listed with member | member <;> exact flattenCommutative_flat member
  rw [shape, flattenCommutative_joined, flatMap_flat flat, ← operands,
    mem_arranged normalizedIdentity_injective, mem_append]

theorem mem_canonical (expression operand : ScopeExpression) :
    operand ∈ flattenCommutative kind (canonical expression) ↔
      ∃ part ∈ flattenCommutative kind expression,
        operand ∈ flattenCommutative kind (canonical part) := by
  induction expression with
  | atom atom => simp [flattenCommutative]
  | except left right _ _ => simp [flattenCommutative]
  | combine own left right one two =>
    by_cases same : own = kind
    · subst same
      rw [mem_canonical_combine, one, two, flattenCommutative_combine]
      simp only [mem_append, or_and_right, exists_or]
    · rw [flattenCommutative.eq_def kind (.combine own left right)]
      simp [same]

theorem Same.canonical (same : Same expression other) : canonical expression = canonical other := by
  induction same with
  | refl expression => rfl
  | symm _ ih => exact ih.symm
  | trans _ _ one two => exact one.trans two
  | combine kind _ _ one two =>
    rw [Domain.canonical, Domain.canonical, one, two]
  | except _ _ one two => rw [Domain.canonical, Domain.canonical, one, two]
  | comm kind first second =>
    refine (canonical_canonical _).ext kind (canonical_canonical _) fun operand => ?_
    rw [mem_canonical_combine, mem_canonical_combine, or_comm]
  | assoc kind first second third =>
    refine (canonical_canonical _).ext kind (canonical_canonical _) fun operand => ?_
    simp only [mem_canonical_combine, or_assoc]
  | idem kind expression =>
    refine (canonical_canonical _).ext kind (canonical_canonical _) fun operand => ?_
    rw [mem_canonical_combine, or_self]
  | selected same =>
    rw [Domain.canonical, Domain.canonical, normalizeAtom_selected same]

theorem same_canonical (expression : ScopeExpression) : Same expression (canonical expression) := by
  induction expression with
  | atom atom =>
    cases atom with
    | selectedSources sourceIds =>
      exact .selected fun id => mem_normalizeAtom.symm
    | globalLibrary => exact .refl _
    | project projectId => exact .refl _
    | sourceClass name => exact .refl _
    | tag name => exact .refl _
  | except left right one two => exact .except one two
  | combine kind left right one two =>
    refine .trans (.combine kind one two) (.of_operands kind fun operand => ?_)
    rw [flattenCommutative_combine, mem_canonical_combine, mem_append]

theorem Canonical.fixed (form : Canonical expression) : Domain.canonical expression = expression := by
  induction form with
  | basic fixed => rw [Domain.canonical, fixed]
  | except _ _ one two => rw [Domain.canonical, one, two]
  | @gathered kind first rest more strict flat parts ih =>
    refine (canonical_canonical _).ext kind (.gathered more strict flat parts) fun operand => ?_
    rw [mem_canonical, flattenCommutative_joined, flatMap_flat flat]
    constructor
    · rintro ⟨part, listed, inside⟩
      rw [ih part listed, flat part listed, mem_singleton] at inside
      exact inside ▸ listed
    · intro listed
      exact ⟨operand, listed, by rw [ih operand listed, flat operand listed]; simp⟩

def Genuine (kind : Commutative) (expression : ScopeExpression) : Prop :=
  ∃ left right, Same expression (.combine kind left right) ∧ ¬Same left right

inductive Clean : ScopeExpression → Prop where
  | atom (atom : ScopeAtom) : Clean (.atom atom)
  | except {left right : ScopeExpression} (one : Clean left) (two : Clean right) :
      Clean (.except left right)
  | combine {kind : Commutative} {left right : ScopeExpression}
      (inner : ∀ operand ∈ flattenCommutative kind (.combine kind left right), Clean operand)
      (settled : (∀ operand ∈ flattenCommutative kind (.combine kind left right),
          ¬Genuine kind operand) ∨
        ∀ first ∈ flattenCommutative kind (.combine kind left right),
          ∀ second ∈ flattenCommutative kind (.combine kind left right), Same first second) :
      Clean (.combine kind left right)

theorem Same.of_canonical (equal : Domain.canonical expression = Domain.canonical other) :
    Same expression other :=
  .trans (same_canonical expression) (equal ▸ .symm (same_canonical other))

theorem genuine_of_canonical {left right : ScopeExpression}
    (shape : Domain.canonical expression = .combine kind left right) : Genuine kind expression := by
  refine ⟨left, right, shape ▸ same_canonical expression, fun same => ?_⟩
  have form := canonical_canonical expression
  rw [shape] at form
  obtain ⟨first, rest, flat, -, strict, parts⟩ := form.operands kind
  have equal : Domain.canonical (.combine kind left right) = Domain.canonical left :=
    (Same.trans (.combine kind (.refl left) (.symm same)) (.idem kind left)).canonical
  rw [form.fixed] at equal
  have inside : ∀ operand ∈ first :: rest, operand ∈ flattenCommutative kind left := by
    intro operand listed
    rw [← flat, equal, mem_canonical] at listed
    obtain ⟨part, member, found⟩ := listed
    have whole : part ∈ first :: rest := by
      rw [← flat, flattenCommutative_combine]
      exact mem_append_left _ member
    rw [(parts part whole).fixed, flattenCommutative_flat member, mem_singleton] at found
    exact found ▸ member
  obtain ⟨last, others, found⟩ := exists_cons_of_ne_nil (flattenCommutative_ne_nil kind right)
  have nodup := strict.nodup
  rw [← flat, flattenCommutative_combine, nodup_append] at nodup
  have listed : last ∈ first :: rest := by
    rw [← flat, flattenCommutative_combine, found]
    simp
  exact nodup.2.2 last (inside last listed) last (by simp [found]) rfl

theorem flat_of_not_genuine (plain : ¬Genuine kind expression) :
    flattenCommutative kind (Domain.canonical expression) = [Domain.canonical expression] := by
  cases shape : Domain.canonical expression with
  | atom atom => rfl
  | except left right => rfl
  | combine other left right =>
    by_cases same : other = kind
    · subst same
      exact absurd (genuine_of_canonical shape) plain
    · rw [flattenCommutative, if_neg same]

theorem Genuine.operands (genuine : Genuine kind expression) (part : ScopeExpression) :
    flattenCommutative kind (Domain.canonical expression) ≠ [part] := by
  obtain ⟨left, right, same, apart⟩ := genuine
  intro alone
  have members (operand : ScopeExpression) : operand = part ↔
      operand ∈ flattenCommutative kind (Domain.canonical left) ∨
        operand ∈ flattenCommutative kind (Domain.canonical right) := by
    rw [← mem_singleton, ← alone, same.canonical, mem_canonical_combine]
  have only (side : ScopeExpression) (inside : ∀ operand ∈
      flattenCommutative kind (Domain.canonical side), operand = part) (operand : ScopeExpression) :
      operand ∈ flattenCommutative kind (Domain.canonical side) ↔ operand = part := by
    refine ⟨inside operand, ?_⟩
    rintro rfl
    obtain ⟨first, others, found⟩ :=
      exists_cons_of_ne_nil (flattenCommutative_ne_nil kind (Domain.canonical side))
    have listed : first ∈ flattenCommutative kind (Domain.canonical side) := by simp [found]
    exact inside first listed ▸ listed
  refine apart (.of_canonical ((canonical_canonical left).ext kind (canonical_canonical right) ?_))
  intro operand
  rw [only left fun operand listed => (members operand).mpr (.inl listed),
    only right fun operand listed => (members operand).mpr (.inr listed)]

theorem Canonical.clean (form : Canonical expression) : Clean expression := by
  induction form with
  | basic fixed => exact .atom _
  | except _ _ one two => exact .except one two
  | @gathered kind first rest more strict flat parts ih =>
    obtain ⟨left, right, shape⟩ := @joined_combine kind first rest more
    have operands : flattenCommutative kind (.combine kind left right) = first :: rest := by
      rw [← shape, flattenCommutative_joined, flatMap_flat flat]
    rw [shape]
    refine .combine (fun operand listed => ih operand (operands ▸ listed)) (.inl ?_)
    intro operand listed genuine
    rw [operands] at listed
    refine genuine.operands operand ?_
    rw [(parts operand listed).fixed, flat operand listed]

theorem Clean.normalize (clean : Clean expression) :
    normalizeScopeExpression expression = Domain.canonical expression := by
  induction clean with
  | atom atom => rw [normalizeScopeExpression, Domain.canonical]
  | except _ _ one two => rw [normalizeScopeExpression, Domain.canonical, one, two]
  | @combine kind left right inner settled ih =>
    obtain ⟨first, rest, operands, shape⟩ := normalize_combine kind left right
    have members (operand : ScopeExpression) : operand ∈ first :: rest ↔
        ∃ part ∈ flattenCommutative kind (.combine kind left right),
          Domain.canonical part = operand := by
      rw [← operands, mem_arranged normalizedIdentity_injective, mem_map]
      exact exists_congr fun part => and_congr_right fun listed => by rw [ih part listed]
    have nonempty := flattenCommutative_ne_nil kind (.combine kind left right)
    rw [shape]
    rcases settled with plain | same
    · -- no operand collapses to the kind, so flattening before and after agree
      have flat : ∀ operand ∈ first :: rest, flattenCommutative kind operand = [operand] := by
        intro operand listed
        obtain ⟨part, member, rfl⟩ := (members operand).mp listed
        exact flat_of_not_genuine (plain part member)
      have form : Canonical (joined kind first rest) := by
        have parts : ∀ operand ∈ first :: rest, Canonical operand := by
          intro operand listed
          obtain ⟨part, -, rfl⟩ := (members operand).mp listed
          exact canonical_canonical part
        by_cases more : rest = []
        · subst more
          exact parts first (by simp)
        · refine .gathered more ?_ flat parts
          rw [← operands]
          exact arranged_strict normalizedIdentity_injective _
      refine form.ext kind (canonical_canonical _) fun operand => ?_
      rw [flattenCommutative_joined, flatMap_flat flat, members, mem_canonical]
      refine exists_congr fun part => and_congr_right fun member => ?_
      rw [flat_of_not_genuine (plain part member), mem_singleton, eq_comm]
    · -- all operands are the same, so one is left
      obtain ⟨part, others, found⟩ := exists_cons_of_ne_nil nonempty
      have chosen : part ∈ flattenCommutative kind (.combine kind left right) := by simp [found]
      have single : ∀ operand, operand ∈ first :: rest ↔ operand ∈ [Domain.canonical part] := by
        intro operand
        rw [members, mem_singleton]
        constructor
        · rintro ⟨other, member, rfl⟩
          exact (same other member part chosen).canonical
        · rintro rfl
          exact ⟨part, chosen, rfl⟩
      have strict := arranged_strict normalizedIdentity_injective
        ((flattenCommutative kind (.combine kind left right)).map normalizeScopeExpression)
      rw [operands] at strict
      cases strict.ext (by simp [Strict]) single
      refine (canonical_canonical part).ext kind (canonical_canonical _) fun operand => ?_
      rw [mem_canonical (.combine kind left right)]
      constructor
      · exact fun listed => ⟨part, chosen, listed⟩
      · rintro ⟨other, member, listed⟩
        rw [(same other member part chosen).canonical] at listed
        exact listed

/-- Normalization is canonical for clean expressions: it is idempotent and keeps the identity, and
    clean expressions that are the same have one identity. -/
theorem normalize_canonical (expression other : ScopeExpression) (clean : Clean expression) :
    (normalizeScopeExpression (normalizeScopeExpression expression) = normalizeScopeExpression expression ∧
      scopeExpressionIdentity (normalizeScopeExpression expression) = scopeExpressionIdentity expression) ∧
    (Clean other → Same expression other →
      scopeExpressionIdentity expression = scopeExpressionIdentity other) := by
  constructor
  · have again : normalizeScopeExpression (normalizeScopeExpression expression) =
        normalizeScopeExpression expression := by
      have form := canonical_canonical expression
      rw [clean.normalize, form.clean.normalize, form.fixed]
    exact ⟨again, by rw [scopeExpressionIdentity, scopeExpressionIdentity, again]⟩
  · intro too same
    rw [scopeExpressionIdentity, scopeExpressionIdentity, clean.normalize, too.normalize, same.canonical]

end

def tagged (name : String) : ScopeExpression := .atom (.tag (text name))

/-- A clean expression in another order. -/
theorem normalize_canonical_swapped :
    scopeExpressionIdentity (.combine .union (tagged "b") (tagged "a")) =
      scopeExpressionIdentity (.combine .union (tagged "a") (tagged "b")) := by
  have clean (first second : String) :
      Clean (.combine .union (tagged first) (tagged second)) := by
    have basic (name : String) : Canonical (tagged name) := .basic rfl
    have plain (name : String) : ¬Genuine .union (tagged name) := fun genuine =>
      genuine.operands (tagged name) (by rw [(basic name).fixed]; rfl)
    refine .combine ?_ (.inl ?_)
    · intro operand listed
      simp only [flattenCommutative, tagged, if_true, mem_append, mem_singleton] at listed
      rcases listed with rfl | rfl <;> exact .atom _
    · intro operand listed
      simp only [flattenCommutative_combine, mem_append] at listed
      rcases listed with member | member <;> rw [mem_singleton.mp member] <;> exact plain _
  exact (normalize_canonical _ _ (clean "b" "a")).2 (clean "a" "b") (.comm _ _ _)

theorem normalize_tagged (name : String) : normalizeScopeExpression (tagged name) = tagged name := by
  rw [tagged, normalizeScopeExpression]
  rfl

theorem normalize_operands {kind : Commutative} {left right first : ScopeExpression}
    {operands normalized rest : List ScopeExpression}
    (flat : flattenCommutative kind (.combine kind left right) = operands)
    (each : operands.map normalizeScopeExpression = normalized)
    (sorted : arranged normalizedIdentity normalized = first :: rest) :
    normalizeScopeExpression (.combine kind left right) = joined kind first rest := by
  obtain ⟨one, others, same, shape⟩ := normalize_combine kind left right
  rw [flat, each, sorted] at same
  cases same
  exact shape

def united : ScopeExpression := .combine .union (tagged "a") (tagged "b")

theorem normalize_united : normalizeScopeExpression united = united :=
  @normalize_operands .union (tagged "a") (tagged "b") (tagged "a") [tagged "a", tagged "b"]
    [tagged "a", tagged "b"] [tagged "b"] rfl
    (by simp only [map_cons, map_nil, normalize_tagged]) (by decide)

/-- An intersection of a union with itself collapses to the union after its surroundings were
    flattened, so normalizing once more changes the result. -/
theorem normalize_not_canonical :
    ¬((∀ expression,
        normalizeScopeExpression (normalizeScopeExpression expression) =
            normalizeScopeExpression expression ∧
          scopeExpressionIdentity (normalizeScopeExpression expression) =
            scopeExpressionIdentity expression) ∧
      ∀ first second, Same first second →
        scopeExpressionIdentity first = scopeExpressionIdentity second) := by
  intro claimed
  have collapsed : normalizeScopeExpression (.combine .intersect united united) = united :=
    @normalize_operands .intersect united united united [united, united] [united, united] [] rfl
      (by simp only [map_cons, map_nil, normalize_united]) (by decide +kernel)
  have once : normalizeScopeExpression
      (.combine .union (.combine .intersect united united) (tagged "c")) =
      .combine .union (tagged "c") united :=
    @normalize_operands .union (.combine .intersect united united) (tagged "c") (tagged "c")
      [.combine .intersect united united, tagged "c"] [united, tagged "c"] [united] rfl
      (by simp only [map_cons, map_nil, collapsed, normalize_tagged]) (by decide)
  have again : normalizeScopeExpression (.combine .union (tagged "c") united) =
      .combine .union united (tagged "c") :=
    @normalize_operands .union (tagged "c") united (tagged "a") [tagged "c", tagged "a", tagged "b"]
      [tagged "c", tagged "a", tagged "b"] [tagged "b", tagged "c"] rfl
      (by simp only [map_cons, map_nil, normalize_tagged]) (by decide)
  have fixed := (claimed.1 (.combine .union (.combine .intersect united united) (tagged "c"))).1
  rw [once, again] at fixed
  exact absurd fixed (by decide)

end Domain
