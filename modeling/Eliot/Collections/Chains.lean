import Mathlib.Logic.Function.Basic
import Mathlib.Logic.Relation

namespace Chains
variable {Node : Type}

def Points (link : Node → Option Node) (node target : Node) : Prop := link node = some target

structure Forest (link : Node → Option Node) : Prop where
  single : ∀ first second target, Points link first target → Points link second target → first = second
  grounded : ∃ depth : Node → Nat, ∀ node target, Points link node target → depth target < depth node

theorem Forest.empty : Forest fun _ : Node => none := by
  constructor
  · intro first second target points
    cases points
  · exact ⟨fun _ => 0, fun node target points => by cases points⟩

variable {link : Node → Option Node}

theorem Forest.acyclic (forest : Forest link) (node : Node) :
    ¬Relation.TransGen (Points link) node node := by
  obtain ⟨depth, falls⟩ := forest.grounded
  have below {first last : Node} (path : Relation.TransGen (Points link) first last) :
      depth last < depth first := by
    induction path with
    | single points => exact falls _ _ points
    | tail _ points ih => exact Nat.lt_trans (falls _ _ points) ih
  intro circle
  exact Nat.lt_irrefl _ (below circle)

theorem Forest.extend [DecidableEq Node] (forest : Forest link) {node target : Node}
    (fresh : ∀ other, ¬Points link other node) (free : ∀ other, ¬Points link other target)
    (apart : node ≠ target) : Forest (Function.update link node (some target)) := by
  have own : Function.update link node (some target) node = some target := Function.update_self ..
  have rest {other : Node} (different : other ≠ node) :
      Function.update link node (some target) other = link other := Function.update_of_ne different ..
  constructor
  · intro first second aim one two
    unfold Points at one two
    by_cases firstNew : first = node
    · by_cases secondNew : second = node
      · rw [firstNew, secondNew]
      · rw [firstNew, own] at one
        rw [rest secondNew, ← one] at two
        exact absurd two (free second)
    · rw [rest firstNew] at one
      by_cases secondNew : second = node
      · rw [secondNew, own] at two
        rw [← two] at one
        exact absurd one (free first)
      · rw [rest secondNew] at two
        exact forest.single first second aim one two
  · obtain ⟨depth, falls⟩ := forest.grounded
    refine ⟨Function.update depth node (depth target + 1), fun other aim points => ?_⟩
    unfold Points at points
    by_cases new : other = node
    · rw [new, own] at points
      cases points
      rw [new, Function.update_self, Function.update_of_ne apart.symm]
      exact Nat.lt_succ_self _
    · rw [rest new] at points
      have old : aim ≠ node := by
        rintro rfl
        exact fresh other points
      rw [Function.update_of_ne old, Function.update_of_ne new]
      exact falls other aim points

theorem Forest.append [DecidableEq Node] (forest : Forest link) {node target : Node}
    (ended : link node = none) (last : link target = none) (free : ∀ other, ¬Points link other target)
    (apart : node ≠ target) : Forest (Function.update link node (some target)) := by
  have own : Function.update link node (some target) node = some target := Function.update_self ..
  have rest {other : Node} (different : other ≠ node) :
      Function.update link node (some target) other = link other := Function.update_of_ne different ..
  have old {other aim : Node} (points : Points (Function.update link node (some target)) other aim) :
      (other = node ∧ aim = target) ∨ (other ≠ node ∧ Points link other aim) := by
    unfold Points at points
    by_cases new : other = node
    · rw [new, own] at points
      exact .inl ⟨new, (Option.some.inj points).symm⟩
    · rw [rest new] at points
      exact .inr ⟨new, points⟩
  constructor
  · intro first second aim one two
    rcases old one with ⟨firstNew, aimed⟩ | ⟨_, one⟩
    · rcases old two with ⟨secondNew, _⟩ | ⟨_, two⟩
      · rw [firstNew, secondNew]
      · rw [aimed] at two
        exact absurd two (free second)
    · rcases old two with ⟨_, aimed⟩ | ⟨_, two⟩
      · rw [aimed] at one
        exact absurd one (free first)
      · exact forest.single first second aim one two
  · obtain ⟨depth, falls⟩ := forest.grounded
    refine ⟨fun other => if other = target then 0 else depth other + 1, fun other aim new => ?_⟩
    dsimp only
    rcases old new with ⟨rfl, rfl⟩ | ⟨_, points⟩
    · rw [if_pos rfl, if_neg apart]
      omega
    · have notFirst : other ≠ target := by
        rintro rfl
        cases last.symm.trans points
      have notAim : aim ≠ target := by
        rintro rfl
        exact free other points
      rw [if_neg notFirst, if_neg notAim]
      have below := falls other aim points
      omega

end Chains
