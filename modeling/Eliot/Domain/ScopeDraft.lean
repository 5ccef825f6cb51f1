import Eliot.Domain.ScopeEvaluation

namespace Domain

section
variable {collation : Collation} {resolver : DeterministicScopeAtomResolver}
  {expression other : ScopeExpression}

def SameOutcome (one two : Resolving DeterministicScopeResolutionDraft) : Prop :=
  (∃ draft another, one = .ok draft ∧ two = .ok another ∧ draft.members = another.members ∧
      draft.participantGenerationRefs = another.participantGenerationRefs) ∨
    ∃ revision different, one = .error (conflicting revision) ∧
      two = .error (conflicting different)

def Distinguished (collation : Collation) (resolver : DeterministicScopeAtomResolver)
    (expression : ScopeExpression) : Prop :=
  ∀ leaf ∈ expression.leaves, ∀ member ∈ (resolver leaf).members,
    ∀ partner ∈ expression.leaves, ∀ rival ∈ (resolver partner).members,
      Before collation member rival → Before collation rival member →
        member.sourceRevisionRef = rival.sourceRevisionRef

theorem Distinguished.untied (distinguished : Distinguished collation resolver expression) :
    Untied collation (HasMember resolver expression) := by
  intro member rival has another below above
  obtain ⟨leaf, listed, found⟩ := has.origin
  obtain ⟨partner, inside, held⟩ := another.origin
  exact distinguished leaf listed member found partner inside rival held below above

theorem Alike.answers (faithful : Faithful resolver) (alike : Alike expression other) :
    ∀ leaf ∈ other.leaves, ∃ partner ∈ expression.leaves, resolver leaf = resolver partner := by
  intro leaf listed
  obtain ⟨partner, inside, one, first, second⟩ := alike.symm.leaves leaf listed
  exact ⟨partner, inside, faithful leaf partner one first second⟩

theorem Alike.generations (faithful : Faithful resolver) (alike : Alike expression other)
    {first second : List Text} (one : Generations resolver expression first)
    (two : Generations resolver other second) : first = second := by
  refine one.strict.ext two.strict fun generation => ?_
  rw [one.mem, two.mem]
  constructor
  · intro ⟨leaf, listed, same⟩
    obtain ⟨partner, inside, equal⟩ := alike.symm.answers faithful leaf listed
    exact ⟨partner, inside, equal ▸ same⟩
  · intro ⟨leaf, listed, same⟩
    obtain ⟨partner, inside, equal⟩ := alike.answers faithful leaf listed
    exact ⟨partner, inside, equal ▸ same⟩

theorem Alike.members (faithful : Faithful resolver) (alike : Alike expression other)
    (distinguished : Distinguished collation resolver expression)
    {first second : List DeterministicScopeMember}
    (one : Listing collation first (HasMember resolver expression))
    (two : Listing collation second (HasMember resolver other)) : first = second := by
  have same : HasMember resolver other = HasMember resolver expression :=
    funext fun member => propext (alike.has faithful _ _).symm
  rw [same] at two
  exact one.unique two distinguished.untied

theorem draft_ok {resolution : IntermediateResolution} {canonical : Text}
    (evaluated : evaluate collation resolver expression = .ok resolution)
    (written : canonicalizeDeterministicScopeExpression expression = .ok canonical) :
    resolveDeterministicScopeSnapshotDraft collation resolver expression =
      .ok ⟨canonical, resolution.generations, resolution.members⟩ := by
  simp only [resolveDeterministicScopeSnapshotDraft, evaluated, written, bind, Except.bind, pure,
    Except.pure]

theorem draft_error {error : DeterministicScopeResolutionError}
    (failed : evaluate collation resolver expression = .error error) :
    resolveDeterministicScopeSnapshotDraft collation resolver expression = .error error := by
  simp only [resolveDeterministicScopeSnapshotDraft, failed, bind, Except.bind]

end

def catalogue (known : List (Text × DeterministicScopeAtomResolution)) :
    DeterministicScopeAtomResolver := fun atom =>
  match canonicalAtom atom with
  | .ok name => (Insertion.get name known).getD ⟨text "none", []⟩
  | .error _ => ⟨text "none", []⟩

theorem catalogue_faithful (known : List (Text × DeterministicScopeAtomResolution)) :
    Faithful (catalogue known) := by
  intro atom other one first second
  simp only [catalogue, first, second]

def codeUnits : Collation where
  localeCompare left right := if left ≤ right then if right ≤ left then 0 else -1 else 1
  total left right := by
    rcases le_total left right with below | above
    · exact .inl (by rw [if_pos below]; split <;> decide)
    · exact .inr (by rw [if_pos above]; split <;> decide)
  trans first second third below next := by
    have ordered {left right : Text}
        (least : (if left ≤ right then if right ≤ left then (0 : Int) else -1 else 1) ≤ 0) :
        left ≤ right := by
      by_contra above
      rw [if_neg above] at least
      exact absurd least (by decide)
    rw [if_pos ((ordered below).trans (ordered next))]
    split <;> decide

/-- Revision `x` is of another generation under tag `c` than under tag `a`, and not under `b`. -/
def divided : DeterministicScopeAtomResolver := catalogue
  [(text "tag(\"a\")", ⟨text "1", [⟨text "x", text "g1", text "p"⟩]⟩),
    (text "tag(\"b\")", ⟨text "2", []⟩),
    (text "tag(\"c\")", ⟨text "3", [⟨text "x", text "g2", text "p"⟩]⟩)]

def conflictFirst : ScopeExpression :=
  .combine .intersect (.combine .intersect (.atom (.tag (text "a"))) (.atom (.tag (text "c"))))
    (.atom (.tag (text "b")))

def conflictHidden : ScopeExpression :=
  .combine .intersect (.combine .intersect (.atom (.tag (text "a"))) (.atom (.tag (text "b"))))
    (.atom (.tag (text "c")))

def dividedText : Text := text "(tag(\"a\") INTERSECT tag(\"b\") INTERSECT tag(\"c\"))"

theorem canonicalize_atom (atom : ScopeAtom) :
    canonicalizeDeterministicScopeExpression (.atom atom) = canonicalAtom atom := by
  rw [canonicalizeDeterministicScopeExpression]

theorem conflictFirst_text :
    canonicalizeDeterministicScopeExpression conflictFirst = .ok dividedText := by
  refine canonicalize_combine.mpr
    ⟨[text "tag(\"a\")", text "tag(\"c\")", text "tag(\"b\")"], ?_, by decide +kernel⟩
  refine .cons ?_ (.cons ?_ (.cons ?_ .nil)) <;> exact (canonicalize_atom _).trans (by decide +kernel)

theorem conflictHidden_text :
    canonicalizeDeterministicScopeExpression conflictHidden = .ok dividedText := by
  refine canonicalize_combine.mpr
    ⟨[text "tag(\"a\")", text "tag(\"b\")", text "tag(\"c\")"], ?_, by decide +kernel⟩
  refine .cons ?_ (.cons ?_ (.cons ?_ .nil)) <;> exact (canonicalize_atom _).trans (by decide +kernel)

def labelled (first second : String) : ScopeExpression :=
  .combine .union (.atom (.tag (text first))) (.atom (.tag (text second)))

end Domain
