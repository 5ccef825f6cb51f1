import Eliot.Domain.ScopeText

namespace Domain

open List
open Fallible (bind_ok)

def DeterministicScopeMember.standing (member : DeterministicScopeMember) : Text × Text :=
  (member.sourceOwnerGeneration, member.policyClosureRef)

section
variable (resolver : DeterministicScopeAtomResolver)

def Has : ScopeExpression → Text → Text × Text → Prop
  | .atom atom, revision, standing =>
    ∃ member ∈ (resolver atom).members,
      member.sourceRevisionRef = revision ∧ member.standing = standing
  | .combine .union left right, revision, standing =>
    Has left revision standing ∨ Has right revision standing
  | .combine .intersect left right, revision, standing =>
    (Has left revision standing ∧ ∃ other, Has right revision other) ∨
      (Has right revision standing ∧ ∃ other, Has left revision other)
  | .except left right, revision, standing =>
    Has left revision standing ∧ ¬∃ other, Has right revision other

def Compatible (left right : ScopeExpression) : Prop :=
  ∀ revision one two, Has resolver left revision one → Has resolver right revision two → one = two

def Consistent : ScopeExpression → Prop
  | .atom atom => ∀ member ∈ (resolver atom).members, ∀ other ∈ (resolver atom).members,
      member.sourceRevisionRef = other.sourceRevisionRef → member = other
  | .combine _ left right => Consistent left ∧ Consistent right ∧ Compatible resolver left right
  | .except left right => Consistent left ∧ Consistent right ∧ Compatible resolver left right

def Shared (operands : List ScopeExpression) : Prop :=
  ∀ first ∈ operands, ∀ second ∈ operands, ∀ revision one two,
    Has resolver first revision one → Has resolver second revision two → one ≠ two →
      ∀ operand ∈ operands, ∃ standing, Has resolver operand revision standing

inductive Settled : ScopeExpression → Prop where
  | atom (atom : ScopeAtom) : Settled (.atom atom)
  | except {left right : ScopeExpression} (one : Settled left) (two : Settled right) :
      Settled (.except left right)
  | combine {kind : Commutative} {left right : ScopeExpression}
      (inner : ∀ operand ∈ flattenCommutative kind (.combine kind left right), Settled operand)
      (shared : kind = .intersect →
        Shared resolver (flattenCommutative kind (.combine kind left right))) :
      Settled (.combine kind left right)

end

section
variable {resolver : DeterministicScopeAtomResolver} {kind : Commutative} {revision : Text}
  {standing : Text × Text} {expression left right : ScopeExpression}

def HasTogether (resolver : DeterministicScopeAtomResolver) (kind : Commutative)
    (operands : List ScopeExpression) (revision : Text) (standing : Text × Text) : Prop :=
  (∃ operand ∈ operands, Has resolver operand revision standing) ∧
    (kind = .intersect → ∀ operand ∈ operands, ∃ other, Has resolver operand revision other)

theorem has_alone (expression : ScopeExpression) (standing : Text × Text) :
    Has resolver expression revision standing ↔
      HasTogether resolver kind [expression] revision standing := by
  simp only [HasTogether, mem_singleton, exists_eq_left, forall_eq]
  exact ⟨fun has => ⟨has, fun _ => ⟨standing, has⟩⟩, fun has => has.1⟩

theorem together_of_each {operands : List ScopeExpression} (some : operands ≠ [])
    (each : ∀ operand ∈ operands, ∃ other, Has resolver operand revision other) :
    ∃ other, HasTogether resolver kind operands revision other := by
  obtain ⟨operand, rest, rfl⟩ := exists_cons_of_ne_nil some
  obtain ⟨other, has⟩ := each operand (mem_cons_self ..)
  exact ⟨other, ⟨operand, mem_cons_self .., has⟩, fun _ => each⟩

theorem together_intersect {first second : List ScopeExpression} (some : first ≠ [])
    (more : second ≠ []) :
    HasTogether resolver .intersect (first ++ second) revision standing ↔
      (HasTogether resolver .intersect first revision standing ∧
          ∃ other, HasTogether resolver .intersect second revision other) ∨
        (HasTogether resolver .intersect second revision standing ∧
          ∃ other, HasTogether resolver .intersect first revision other) := by
  constructor
  · rintro ⟨⟨operand, listed, has⟩, each⟩
    have left : ∀ operand ∈ first, ∃ other, Has resolver operand revision other :=
      fun operand listed => each rfl operand (mem_append_left _ listed)
    have right : ∀ operand ∈ second, ∃ other, Has resolver operand revision other :=
      fun operand listed => each rfl operand (mem_append_right _ listed)
    rcases mem_append.mp listed with member | member
    · exact .inl ⟨⟨⟨operand, member, has⟩, fun _ => left⟩, together_of_each more right⟩
    · exact .inr ⟨⟨⟨operand, member, has⟩, fun _ => right⟩, together_of_each some left⟩
  · have both (left : ∀ operand ∈ first, ∃ other, Has resolver operand revision other)
        (right : ∀ operand ∈ second, ∃ other, Has resolver operand revision other) :
        ∀ operand ∈ first ++ second, ∃ other, Has resolver operand revision other := by
      intro operand listed
      rcases mem_append.mp listed with member | member
      · exact left operand member
      · exact right operand member
    rintro (⟨⟨⟨operand, listed, has⟩, left⟩, _, _, right⟩ | ⟨⟨⟨operand, listed, has⟩, right⟩, _, _, left⟩)
    · exact ⟨⟨operand, mem_append_left _ listed, has⟩, fun _ => both (left rfl) (right rfl)⟩
    · exact ⟨⟨operand, mem_append_right _ listed, has⟩, fun _ => both (left rfl) (right rfl)⟩

theorem together_union {first second : List ScopeExpression} :
    HasTogether resolver .union (first ++ second) revision standing ↔
      HasTogether resolver .union first revision standing ∨
        HasTogether resolver .union second revision standing := by
  simp only [HasTogether, reduceCtorEq, false_implies, and_true, mem_append, or_and_right,
    exists_or]

theorem has_flattened (expression : ScopeExpression) (standing : Text × Text) :
    Has resolver expression revision standing ↔
      HasTogether resolver kind (flattenCommutative kind expression) revision standing := by
  induction expression generalizing standing with
  | atom atom => exact has_alone _ _
  | except left right _ _ => exact has_alone _ _
  | combine other left right one two =>
    by_cases same : other = kind
    · subst same
      rw [flattenCommutative_combine]
      cases other with
      | union => rw [together_union, Has, one, two]
      | intersect =>
        rw [together_intersect (flattenCommutative_ne_nil _ left) (flattenCommutative_ne_nil _ right),
          Has]
        simp only [one, two]
    · rw [flattenCommutative, if_neg same]
      exact has_alone _ _

theorem Consistent.functional (consistent : Consistent resolver expression) :
    Compatible resolver expression expression := by
  induction expression with
  | atom atom =>
    rintro revision one two ⟨member, listed, rfl, rfl⟩ ⟨other, another, same, rfl⟩
    rw [consistent member listed other another same.symm]
  | except left right one _ =>
    rintro revision first second ⟨has, -⟩ ⟨other, -⟩
    exact one consistent.1 revision first second has other
  | combine kind left right one two =>
    obtain ⟨first, second, apart⟩ := consistent
    intro revision standing other has another
    cases kind with
    | union =>
      rcases has with has | has <;> rcases another with another | another
      · exact one first _ _ _ has another
      · exact apart _ _ _ has another
      · exact (apart _ _ _ another has).symm
      · exact two second _ _ _ has another
    | intersect =>
      rcases has with ⟨has, -⟩ | ⟨has, -⟩ <;> rcases another with ⟨another, -⟩ | ⟨another, -⟩
      · exact one first _ _ _ has another
      · exact apart _ _ _ has another
      · exact (apart _ _ _ another has).symm
      · exact two second _ _ _ has another

def ConsistentTogether (resolver : DeterministicScopeAtomResolver)
    (operands : List ScopeExpression) : Prop :=
  (∀ operand ∈ operands, Consistent resolver operand) ∧
    ∀ first ∈ operands, ∀ second ∈ operands, Compatible resolver first second

theorem consistent_alone : Consistent resolver expression ↔
    ConsistentTogether resolver [expression] := by
  simp only [ConsistentTogether, mem_singleton, forall_eq]
  exact ⟨fun consistent => ⟨consistent, consistent.functional⟩, fun consistent => consistent.1⟩

theorem Shared.subset {operands others : List ScopeExpression} (shared : Shared resolver operands)
    (part : ∀ operand ∈ others, operand ∈ operands) : Shared resolver others := by
  intro first one second two revision standing other has another apart operand listed
  exact shared first (part _ one) second (part _ two) revision standing other has another apart
    operand (part _ listed)

theorem Compatible.symm (compatible : Compatible resolver left right) :
    Compatible resolver right left :=
  fun revision one two first second => (compatible revision two one second first).symm

theorem has_of_operand {operand : ScopeExpression}
    (listed : operand ∈ flattenCommutative kind expression)
    (has : Has resolver operand revision standing)
    (all : kind = .intersect → ∀ operand ∈ flattenCommutative kind expression,
      ∃ other, Has resolver operand revision other) : Has resolver expression revision standing :=
  (has_flattened expression standing).mpr ⟨⟨operand, listed, has⟩, all⟩

theorem compatible_flattened
    (shared : kind = .intersect → Shared resolver
      (flattenCommutative kind left ++ flattenCommutative kind right)) :
    Compatible resolver left right ↔ ∀ first ∈ flattenCommutative kind left,
      ∀ second ∈ flattenCommutative kind right, Compatible resolver first second := by
  constructor
  · intro compatible first one second two revision standing other has another
    by_contra apart
    have everywhere (intersect : kind = .intersect) : ∀ operand ∈
        flattenCommutative kind left ++ flattenCommutative kind right,
        ∃ standing, Has resolver operand revision standing :=
      shared intersect first (mem_append_left _ one) second (mem_append_right _ two)
        revision standing other has another apart
    have onLeft := has_of_operand one has fun intersect operand listed =>
      everywhere intersect operand (mem_append_left _ listed)
    have onRight := has_of_operand two another fun intersect operand listed =>
      everywhere intersect operand (mem_append_right _ listed)
    exact apart (compatible revision standing other onLeft onRight)
  · intro each revision standing other has another
    obtain ⟨⟨first, one, found⟩, -⟩ := (@has_flattened resolver kind _ left standing).mp has
    obtain ⟨⟨second, two, same⟩, -⟩ := (@has_flattened resolver kind _ right other).mp another
    exact each first one second two revision standing other found same

theorem consistent_flattened
    (shared : kind = .intersect → Shared resolver (flattenCommutative kind expression)) :
    Consistent resolver expression ↔
      ConsistentTogether resolver (flattenCommutative kind expression) := by
  induction expression with
  | atom atom => exact consistent_alone
  | except left right _ _ => exact consistent_alone
  | combine other left right one two =>
    by_cases same : other = kind
    · subst same
      rw [flattenCommutative_combine] at shared ⊢
      have first := one fun intersect => (shared intersect).subset fun _ => mem_append_left _
      have second := two fun intersect => (shared intersect).subset fun _ => mem_append_right _
      rw [Consistent, first, second, compatible_flattened shared]
      constructor
      · rintro ⟨⟨oneEach, onePairs⟩, ⟨twoEach, twoPairs⟩, across⟩
        refine ⟨forall_mem_append.mpr ⟨oneEach, twoEach⟩, ?_⟩
        intro operand listed partner present
        rcases mem_append.mp listed with member | member <;>
          rcases mem_append.mp present with inside | inside
        · exact onePairs operand member partner inside
        · exact across operand member partner inside
        · exact (across partner inside operand member).symm
        · exact twoPairs operand member partner inside
      · rintro ⟨each, pairs⟩
        have halves := forall_mem_append.mp each
        refine ⟨⟨halves.1, ?_⟩, ⟨halves.2, ?_⟩, ?_⟩
        · exact fun operand member partner inside => pairs operand (mem_append_left _ member)
            partner (mem_append_left _ inside)
        · exact fun operand member partner inside => pairs operand (mem_append_right _ member)
            partner (mem_append_right _ inside)
        · exact fun operand member partner inside => pairs operand (mem_append_left _ member)
            partner (mem_append_right _ inside)
    · rw [flattenCommutative, if_neg same]
      exact consistent_alone

end

section
variable {resolver : DeterministicScopeAtomResolver} {expression other : ScopeExpression}

def Faithful (resolver : DeterministicScopeAtomResolver) : Prop :=
  ∀ atom other one, canonicalAtom atom = .ok one → canonicalAtom other = .ok one →
    resolver atom = resolver other

theorem Alike.has (faithful : Faithful resolver) (alike : Alike expression other)
    (revision : Text) (standing : Text × Text) :
    Has resolver expression revision standing ↔ Has resolver other revision standing := by
  induction expression using ScopeExpression.flattened_induction generalizing other standing with
  | basic atom =>
    obtain ⟨same, one, rfl, first, second⟩ := alike.of_atom
    rw [Has, Has, faithful atom same one first second]
  | except left right first second =>
    obtain ⟨one, two, rfl, oneAlike, twoAlike⟩ := alike.of_except
    rw [Has, Has, first oneAlike]
    simp only [second twoAlike]
  | combine kind left right ih =>
    obtain ⟨another, one, two, rfl, forth, back, words⟩ := alike.of_combine
    rw [@has_flattened resolver kind, @has_flattened resolver another]
    constructor
    · rintro ⟨⟨operand, listed, has⟩, each⟩
      obtain ⟨partner, inside, same⟩ := forth operand listed
      refine ⟨⟨partner, inside, (ih operand listed same standing).mp has⟩, fun intersect next found => ?_⟩
      obtain ⟨origin, member, near⟩ := back next found
      rcases words with rfl | all
      · obtain ⟨held, holds⟩ := each intersect origin member
        exact ⟨held, (ih origin member near held).mp holds⟩
      · have holds := (ih operand listed (all operand listed origin member) standing).mp has
        exact ⟨standing, (ih origin member near standing).mp holds⟩
    · rintro ⟨⟨partner, inside, has⟩, each⟩
      obtain ⟨operand, listed, same⟩ := back partner inside
      have holds := (ih operand listed same standing).mpr has
      refine ⟨⟨operand, listed, holds⟩, fun intersect next found => ?_⟩
      rcases words with rfl | all
      · obtain ⟨image, member, near⟩ := forth next found
        obtain ⟨held, kept⟩ := each intersect image member
        exact ⟨held, (ih next found near held).mpr kept⟩
      · exact ⟨standing, (ih operand listed (all operand listed next found) standing).mp holds⟩

theorem Alike.compatible (faithful : Faithful resolver) {first second one two : ScopeExpression}
    (left : Alike first one) (right : Alike second two) :
    Compatible resolver first second ↔ Compatible resolver one two := by
  unfold Compatible
  simp only [left.has faithful, right.has faithful]

theorem Alike.settled (faithful : Faithful resolver) (alike : Alike expression other)
    (settled : Settled resolver expression) : Settled resolver other := by
  induction settled generalizing other with
  | atom atom =>
    obtain ⟨same, one, rfl, -, -⟩ := alike.of_atom
    exact .atom same
  | except _ _ one two =>
    obtain ⟨first, second, rfl, left, right⟩ := alike.of_except
    exact .except (one left) (two right)
  | @combine kind left right inner shared ih =>
    obtain ⟨another, one, two, rfl, forth, back, words⟩ := alike.of_combine
    refine .combine (fun operand listed => ?_) fun intersect => ?_
    · obtain ⟨origin, member, near⟩ := back operand listed
      exact ih origin member near
    · intro first firstListed second secondListed revision standing held has holds apart operand found
      obtain ⟨firstOrigin, firstMember, firstNear⟩ := back first firstListed
      obtain ⟨secondOrigin, secondMember, secondNear⟩ := back second secondListed
      obtain ⟨origin, member, near⟩ := back operand found
      have firstHas := (firstNear.has faithful revision standing).mpr has
      rcases words with rfl | all
      · obtain ⟨kept, keeps⟩ := shared intersect firstOrigin firstMember secondOrigin secondMember
          revision standing held firstHas ((secondNear.has faithful revision held).mpr holds) apart
          origin member
        exact ⟨kept, (near.has faithful revision kept).mp keeps⟩
      · have keeps := ((all firstOrigin firstMember origin member).has faithful revision standing).mp
          firstHas
        exact ⟨standing, (near.has faithful revision standing).mp keeps⟩

theorem Alike.consistent (faithful : Faithful resolver) (alike : Alike expression other)
    (settled : Settled resolver expression) :
    Consistent resolver expression ↔ Consistent resolver other := by
  induction settled generalizing other with
  | atom atom =>
    obtain ⟨same, one, rfl, first, second⟩ := alike.of_atom
    rw [Consistent, Consistent, faithful atom same one first second]
  | except _ _ one two =>
    obtain ⟨first, second, rfl, left, right⟩ := alike.of_except
    rw [Consistent, Consistent, one left, two right, left.compatible faithful right]
  | @combine kind left right inner shared ih =>
    have other := alike.settled faithful (.combine inner shared)
    obtain ⟨another, one, two, rfl, forth, back, words⟩ := alike.of_combine
    cases other with
    | combine innerOther sharedOther =>
      rw [consistent_flattened shared, consistent_flattened sharedOther]
      constructor
      · rintro ⟨each, pairs⟩
        refine ⟨fun operand listed => ?_, fun first listed second found => ?_⟩
        · obtain ⟨origin, member, near⟩ := back operand listed
          exact (ih origin member near).mp (each origin member)
        · obtain ⟨origin, member, near⟩ := back first listed
          obtain ⟨source, inside, close⟩ := back second found
          exact (near.compatible faithful close).mp (pairs origin member source inside)
      · rintro ⟨each, pairs⟩
        refine ⟨fun operand listed => ?_, fun first listed second found => ?_⟩
        · obtain ⟨image, member, near⟩ := forth operand listed
          exact (ih operand listed near).mpr (each image member)
        · obtain ⟨image, member, near⟩ := forth first listed
          obtain ⟨target, inside, close⟩ := forth second found
          exact (near.compatible faithful close).mpr (pairs image member target inside)

theorem Alike.leaves (alike : Alike expression other) :
    ∀ leaf ∈ expression.leaves, ∃ partner ∈ other.leaves, ∃ one,
      canonicalAtom leaf = .ok one ∧ canonicalAtom partner = .ok one := by
  induction expression using ScopeExpression.flattened_induction generalizing other with
  | basic atom =>
    obtain ⟨same, one, rfl, first, second⟩ := alike.of_atom
    intro leaf listed
    rw [mem_singleton.mp listed]
    exact ⟨same, mem_singleton_self _, one, first, second⟩
  | except left right one two =>
    obtain ⟨first, second, rfl, leftAlike, rightAlike⟩ := alike.of_except
    intro leaf listed
    rcases mem_append.mp listed with member | member
    · obtain ⟨partner, inside, found⟩ := one leftAlike leaf member
      exact ⟨partner, mem_append_left _ inside, found⟩
    · obtain ⟨partner, inside, found⟩ := two rightAlike leaf member
      exact ⟨partner, mem_append_right _ inside, found⟩
  | combine kind left right ih =>
    obtain ⟨another, one, two, rfl, forth, -, -⟩ := alike.of_combine
    intro leaf listed
    rw [← flattenCommutative_leaves kind, mem_flatMap] at listed
    obtain ⟨operand, member, inside⟩ := listed
    obtain ⟨image, found, near⟩ := forth operand member
    obtain ⟨partner, present, same⟩ := ih operand member near leaf inside
    refine ⟨partner, ?_, same⟩
    rw [← flattenCommutative_leaves another, mem_flatMap]
    exact ⟨image, found, present⟩

end
end Domain
