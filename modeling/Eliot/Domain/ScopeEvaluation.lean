import Eliot.Domain.ScopeAgreement

namespace Domain

open List Insertion
open Fallible (bind_ok)

section
variable {collation : Collation} {members seen : List DeterministicScopeMember}
  {member : DeterministicScopeMember} {entries : List (Text × DeterministicScopeMember)}

def Admitted (members : List DeterministicScopeMember) : Prop :=
  ∀ member ∈ members, normalizeMember member = .ok member

def Functional (members : List DeterministicScopeMember) : Prop :=
  ∀ member ∈ members, ∀ other ∈ members,
    member.sourceRevisionRef = other.sourceRevisionRef → member = other

theorem disagree_iff {other : DeterministicScopeMember}
    (same : other.sourceRevisionRef = member.sourceRevisionRef) :
    disagree member other = true ↔ other ≠ member := by
  obtain ⟨revision, generation, closure⟩ := member
  obtain ⟨another, held, kept⟩ := other
  cases same
  simp only [disagree, decide_eq_true_eq, ne_eq, DeterministicScopeMember.mk.injEq, true_and]
  tauto

structure Indexed (entries : List (Text × DeterministicScopeMember))
    (seen : List DeterministicScopeMember) : Prop where
  keys : (entries.map Prod.fst).Nodup
  entry : ∀ revision member, (revision, member) ∈ entries ↔
    member ∈ seen ∧ member.sourceRevisionRef = revision

theorem Indexed.get (indexed : Indexed entries seen) {revision : Text} :
    Insertion.get revision entries = some member ↔
      member ∈ seen ∧ member.sourceRevisionRef = revision := by
  rw [← mem_iff_get indexed.keys, indexed.entry]

theorem addMember_conflict (indexed : Indexed entries seen)
    (admitted : normalizeMember member = .ok member) {other : DeterministicScopeMember}
    (listed : other ∈ seen) (same : other.sourceRevisionRef = member.sourceRevisionRef)
    (apart : other ≠ member) :
    addMember entries member = .error (conflicting member.sourceRevisionRef) := by
  have found := indexed.get.mpr ⟨listed, same⟩
  have clash : disagree member other = true := (disagree_iff same).mpr apart
  simp [addMember, admitted, bind, Except.bind, found, clash, throw, throwThe,
    MonadExceptOf.throw]

theorem addMember_ok (indexed : Indexed entries seen)
    (admitted : normalizeMember member = .ok member)
    (agree : ∀ other ∈ seen, other.sourceRevisionRef = member.sourceRevisionRef → other = member) :
    ∃ after, addMember entries member = .ok after ∧ Indexed after (seen ++ [member]) := by
  have calm : (Insertion.get member.sourceRevisionRef entries).any (disagree member) = false := by
    cases found : Insertion.get member.sourceRevisionRef entries with
    | none => rfl
    | some other =>
      obtain ⟨listed, same⟩ := indexed.get.mp found
      have equal := agree other listed same
      simpa using mt (disagree_iff same).mp (not_not.mpr equal)
  refine ⟨Insertion.put member.sourceRevisionRef member entries, ?_, ?_, ?_⟩
  · simp [addMember, admitted, bind, Except.bind, calm, pure, Except.pure]
  · rw [keys_put]
    exact nodup_add indexed.keys
  · intro revision found
    have keys : ((Insertion.put member.sourceRevisionRef member entries).map Prod.fst).Nodup := by
      rw [keys_put]
      exact nodup_add indexed.keys
    rw [mem_iff_get keys, get_put]
    by_cases same : revision = member.sourceRevisionRef
    · rw [if_pos same]
      simp only [Option.some.injEq, mem_append, mem_singleton]
      constructor
      · rintro rfl
        exact ⟨.inr rfl, same.symm⟩
      · rintro ⟨listed | rfl, equal⟩
        · exact (agree found listed (equal.trans same)).symm
        · rfl
    · rw [if_neg same, indexed.get]
      simp only [mem_append, mem_singleton]
      constructor
      · rintro ⟨listed, equal⟩
        exact ⟨.inl listed, equal⟩
      · rintro ⟨listed | rfl, equal⟩
        · exact ⟨listed, equal⟩
        · exact absurd equal.symm same

theorem addMembers (indexed : Indexed entries seen) (admitted : Admitted members)
    (functional : Functional seen) :
    (Functional (seen ++ members) →
      ∃ after, members.foldlM addMember entries = .ok after ∧ Indexed after (seen ++ members)) ∧
    (¬Functional (seen ++ members) →
      ∃ revision, members.foldlM addMember entries = .error (conflicting revision)) := by
  induction members generalizing entries seen with
  | nil =>
    rw [append_nil]
    exact ⟨fun _ => ⟨entries, rfl, indexed⟩, fun apart => absurd functional apart⟩
  | cons member members ih =>
    have own := admitted member (mem_cons_self ..)
    have others : Admitted members := fun other listed => admitted other (mem_cons_of_mem _ listed)
    have shape : seen ++ member :: members = (seen ++ [member]) ++ members := by simp
    by_cases agree : ∀ other ∈ seen, other.sourceRevisionRef = member.sourceRevisionRef → other = member
    · obtain ⟨after, added, next⟩ := addMember_ok indexed own agree
      have grown : Functional (seen ++ [member]) := by
        intro first one second two same
        rcases mem_append.mp one with one | one <;> rcases mem_append.mp two with two | two
        · exact functional first one second two same
        · cases mem_singleton.mp two
          exact agree first one same
        · cases mem_singleton.mp one
          exact (agree second two same.symm).symm
        · rw [mem_singleton.mp one, mem_singleton.mp two]
      rw [foldlM_cons, added, shape]
      exact ih next others grown
    · push Not at agree
      obtain ⟨other, listed, same, apart⟩ := agree
      have clash := addMember_conflict indexed own listed same apart
      refine ⟨fun whole => ?_, fun _ => ⟨member.sourceRevisionRef, ?_⟩⟩
      · exact absurd (whole other (by simp [listed]) member (by simp) same) apart
      · rw [foldlM_cons, clash]
        rfl

abbrev Before (collation : Collation) (left right : DeterministicScopeMember) : Prop :=
  collation.localeCompare left.sourceRevisionRef right.sourceRevisionRef ≤ 0

theorem before_total (collation : Collation) : Std.Total (Before collation) :=
  ⟨fun left right => collation.total left.sourceRevisionRef right.sourceRevisionRef⟩

theorem before_trans (collation : Collation) :
    IsTrans DeterministicScopeMember (Before collation) :=
  ⟨fun first second third => collation.trans first.sourceRevisionRef second.sourceRevisionRef
    third.sourceRevisionRef⟩

structure Listing (collation : Collation) (members : List DeterministicScopeMember)
    (holds : DeterministicScopeMember → Prop) : Prop where
  mem : ∀ member, member ∈ members ↔ holds member
  distinct : (members.map DeterministicScopeMember.sourceRevisionRef).Nodup
  sorted : members.Pairwise (Before collation)

theorem Listing.functional {holds : DeterministicScopeMember → Prop}
    (listing : Listing collation members holds) : Functional members := by
  intro member listed other found same
  exact inj_on_of_nodup_map listing.distinct listed found same

def Untied (collation : Collation) (holds : DeterministicScopeMember → Prop) : Prop :=
  ∀ left right, holds left → holds right → Before collation left right →
    Before collation right left → left.sourceRevisionRef = right.sourceRevisionRef

theorem Listing.unique {holds : DeterministicScopeMember → Prop}
    {others : List DeterministicScopeMember} (listing : Listing collation members holds)
    (another : Listing collation others holds) (untied : Untied collation holds) :
    members = others := by
  have perm : members.Perm others := by
    rw [perm_ext_iff_of_nodup listing.distinct.of_map another.distinct.of_map]
    exact fun member => (listing.mem member).trans (another.mem member).symm
  refine perm.eq_of_pairwise ?_ listing.sorted another.sorted
  intro left right first second below above
  have held := (listing.mem left).mp first
  have same := untied left right held ((another.mem right).mp second) below above
  exact another.functional left ((another.mem left).mpr held) right second same

theorem normalizeMembers_spec (admitted : Admitted members) :
    (Functional members → ∃ result, normalizeMembers collation members = .ok result ∧
      Listing collation result (· ∈ members)) ∧
    (¬Functional members →
      ∃ revision, normalizeMembers collation members = .error (conflicting revision)) := by
  have start : Indexed [] [] := ⟨nodup_nil, by simp⟩
  obtain ⟨fits, clashes⟩ := addMembers start admitted (by simp [Functional])
  rw [nil_append] at fits clashes
  constructor
  · intro functional
    obtain ⟨entries, added, indexed⟩ := fits functional
    refine ⟨_, by simp only [normalizeMembers, added, bind, Except.bind]; rfl, ?_, ?_, ?_⟩
    · intro member
      simp only [mem_insertionSort, mem_map, Prod.exists, exists_eq_right, indexed.entry]
      simp
    · have revisions : (entries.map Prod.snd).map DeterministicScopeMember.sourceRevisionRef =
          entries.map Prod.fst := by
        rw [map_map]
        refine map_congr_left fun entry listed => ?_
        exact ((indexed.entry entry.1 entry.2).mp listed).2
      have perm := (perm_insertionSort (fun left right : DeterministicScopeMember =>
        collation.localeCompare left.sourceRevisionRef right.sourceRevisionRef ≤ 0)
        (entries.map Prod.snd)).map DeterministicScopeMember.sourceRevisionRef
      rw [revisions] at perm
      exact perm.nodup_iff.mpr indexed.keys
    · have := before_total collation
      have := before_trans collation
      exact pairwise_insertionSort (Before collation) (entries.map Prod.snd)
  · intro apart
    obtain ⟨revision, failed⟩ := clashes apart
    exact ⟨revision, by simp only [normalizeMembers, failed, bind, Except.bind]⟩

def Agree (left right : List DeterministicScopeMember) : Prop :=
  ∀ member ∈ left, ∀ other ∈ right,
    other.sourceRevisionRef = member.sourceRevisionRef → other = member

theorem clash_iff {right : List DeterministicScopeMember} (functional : Functional right) :
    (Insertion.get member.sourceRevisionRef
        (Insertion.index DeterministicScopeMember.sourceRevisionRef right)).any
          (disagree member) = true ↔
      ∃ other ∈ right, other.sourceRevisionRef = member.sourceRevisionRef ∧ other ≠ member := by
  have found {other : DeterministicScopeMember} :
      Insertion.get member.sourceRevisionRef
        (Insertion.index DeterministicScopeMember.sourceRevisionRef right) = some other ↔
      other ∈ right ∧ other.sourceRevisionRef = member.sourceRevisionRef :=
    get_index functional
  rw [Option.any_eq_true]
  constructor
  · intro ⟨other, known, clash⟩
    obtain ⟨listed, same⟩ := found.mp known
    exact ⟨other, listed, same, (disagree_iff same).mp clash⟩
  · intro ⟨other, listed, same, apart⟩
    exact ⟨other, found.mpr ⟨listed, same⟩, (disagree_iff same).mpr apart⟩

theorem assertCompatibleOverlap_spec {left right : List DeterministicScopeMember}
    (functional : Functional right) :
    (Agree left right → assertCompatibleOverlap left right = .ok ()) ∧
    (¬Agree left right →
      ∃ revision, assertCompatibleOverlap left right = .error (conflicting revision)) := by
  induction left with
  | nil => exact ⟨fun _ => rfl, fun apart => absurd (by simp [Agree]) apart⟩
  | cons member left ih =>
    have shape : assertCompatibleOverlap (member :: left) right =
        (if (Insertion.get member.sourceRevisionRef (Insertion.index
            DeterministicScopeMember.sourceRevisionRef right)).any (disagree member) then
          throw (conflicting member.sourceRevisionRef) else return) >>=
          fun _ => assertCompatibleOverlap left right := by
      simp only [assertCompatibleOverlap, forM_eq_forM, forM_cons]
    rw [shape]
    by_cases clash : (Insertion.get member.sourceRevisionRef (Insertion.index
        DeterministicScopeMember.sourceRevisionRef right)).any (disagree member) = true
    · rw [if_pos clash]
      obtain ⟨other, listed, same, apart⟩ := (clash_iff functional).mp clash
      constructor
      · intro agree
        exact absurd (agree member (mem_cons_self ..) other listed same) apart
      · exact fun _ => ⟨member.sourceRevisionRef, rfl⟩
    · rw [if_neg clash]
      have own : ∀ other ∈ right,
          other.sourceRevisionRef = member.sourceRevisionRef → other = member := by
        intro other listed same
        by_contra apart
        exact clash ((clash_iff functional).mpr ⟨other, listed, same, apart⟩)
      have split : Agree (member :: left) right ↔ Agree left right :=
        ⟨fun agree => (forall_mem_cons.mp agree).2,
          fun agree => forall_mem_cons.mpr ⟨own, agree⟩⟩
      rw [split]
      exact ih

end

section
variable {collation : Collation} {left right : List DeterministicScopeMember}
  {onLeft onRight : DeterministicScopeMember → Prop}

def Comes (collation : Collation) (ran : Resolving (List DeterministicScopeMember))
    (agree : Prop) (wanted : DeterministicScopeMember → Prop) : Prop :=
  (agree → ∃ result, ran = .ok result ∧ Listing collation result wanted) ∧
    (¬agree → ∃ revision, ran = .error (conflicting revision))

theorem Comes.congr {ran : Resolving (List DeterministicScopeMember)} {agree other : Prop}
    {wanted exact : DeterministicScopeMember → Prop} (comes : Comes collation ran agree wanted)
    (same : agree ↔ other) (equal : other → ∀ member, wanted member ↔ exact member) :
    Comes collation ran other exact := by
  constructor
  · intro agreed
    obtain ⟨result, found, listing⟩ := comes.1 (same.mpr agreed)
    refine ⟨result, found, ?_, listing.distinct, listing.sorted⟩
    exact fun member => (listing.mem member).trans (equal agreed member)
  · exact fun apart => comes.2 (mt same.mp apart)

theorem normalizeMembers_comes {members : List DeterministicScopeMember}
    (admitted : Admitted members) :
    Comes collation (normalizeMembers collation members) (Functional members) (· ∈ members) :=
  normalizeMembers_spec admitted

theorem functional_append (first : Functional left) (second : Functional right) :
    Functional (left ++ right) ↔ Agree left right := by
  constructor
  · intro whole member listed other found same
    exact whole other (mem_append_right _ found) member (mem_append_left _ listed) same
  · intro agree member listed other found same
    rcases mem_append.mp listed with one | one <;> rcases mem_append.mp found with two | two
    · exact first member one other two same
    · exact (agree member one other two same.symm).symm
    · exact agree other two member one same
    · exact second member one other two same

theorem union_comes (first : Functional left) (second : Functional right)
    (admitted : Admitted left) (more : Admitted right) :
    Comes collation (union collation left right) (Agree left right)
      fun member => member ∈ left ∨ member ∈ right := by
  have both : Admitted (left ++ right) := forall_mem_append.mpr ⟨admitted, more⟩
  exact (normalizeMembers_comes both).congr (functional_append first second)
    fun _ member => mem_append

theorem filtered_comes (first : Functional left) (second : Functional right)
    (admitted : Admitted left) (keep : DeterministicScopeMember → Bool) :
    Comes collation
      (assertCompatibleOverlap left right >>= fun _ => normalizeMembers collation (left.filter keep))
      (Agree left right) fun member => member ∈ left ∧ keep member = true := by
  have overlap : (Agree left right → assertCompatibleOverlap left right = .ok ()) ∧ _ :=
    assertCompatibleOverlap_spec second
  obtain ⟨passes, fails⟩ := overlap
  have kept : Admitted (left.filter keep) :=
    fun member listed => admitted member (mem_of_mem_filter listed)
  have still : Functional (left.filter keep) := fun member listed other found =>
    first member (mem_of_mem_filter listed) other (mem_of_mem_filter found)
  constructor
  · intro agree
    obtain ⟨result, ran, listing⟩ := (normalizeMembers_comes kept).1 still
    refine ⟨result, by rw [passes agree]; exact ran, ?_⟩
    exact ⟨fun member => (listing.mem member).trans mem_filter, listing.distinct,
      listing.sorted⟩
  · intro apart
    obtain ⟨revision, failed⟩ := fails apart
    exact ⟨revision, by rw [failed]; rfl⟩

theorem hasRevision_iff {member : DeterministicScopeMember} :
    hasRevision right member = true ↔
      ∃ other ∈ right, other.sourceRevisionRef = member.sourceRevisionRef := by
  simp [hasRevision]

end

section
variable {collation : Collation} {resolver : DeterministicScopeAtomResolver}
  {expression left right : ScopeExpression}

def DeterministicScopeAtomResolution.Valid (answer : DeterministicScopeAtomResolution) : Prop :=
  requireCanonicalIdentifier answer.atomGenerationRef (text "atom_generation_ref") =
      .ok answer.atomGenerationRef ∧
    Admitted answer.members

def HasMember (resolver : DeterministicScopeAtomResolver) (expression : ScopeExpression)
    (member : DeterministicScopeMember) : Prop :=
  Has resolver expression member.sourceRevisionRef member.standing

theorem member_ext {member other : DeterministicScopeMember}
    (revision : member.sourceRevisionRef = other.sourceRevisionRef)
    (standing : member.standing = other.standing) : member = other := by
  obtain ⟨one, two, three⟩ := member
  obtain ⟨four, five, six⟩ := other
  simp only [DeterministicScopeMember.standing, Prod.mk.injEq] at standing
  obtain ⟨generation, closure⟩ := standing
  have first : one = four := revision
  rw [first, generation, closure]

theorem HasMember.origin {member : DeterministicScopeMember}
    (has : HasMember resolver expression member) :
    ∃ leaf ∈ expression.leaves, member ∈ (resolver leaf).members := by
  induction expression with
  | atom atom =>
    obtain ⟨found, listed, revision, standing⟩ := has
    have same := member_ext revision standing
    exact ⟨atom, mem_singleton_self _, same ▸ listed⟩
  | except left right one _ =>
    obtain ⟨leaf, listed, found⟩ := one has.1
    exact ⟨leaf, mem_append_left _ listed, found⟩
  | combine kind left right one two =>
    have sides : HasMember resolver left member ∨ HasMember resolver right member := by
      cases kind with
      | union => exact has
      | intersect => exact has.imp And.left And.left
    rcases sides with has | has
    · obtain ⟨leaf, listed, found⟩ := one has
      exact ⟨leaf, mem_append_left _ listed, found⟩
    · obtain ⟨leaf, listed, found⟩ := two has
      exact ⟨leaf, mem_append_right _ listed, found⟩

structure Generations (resolver : DeterministicScopeAtomResolver) (expression : ScopeExpression)
    (generations : List Text) : Prop where
  mem : ∀ generation, generation ∈ generations ↔
    ∃ leaf ∈ expression.leaves, (resolver leaf).atomGenerationRef = generation
  strict : Insertion.Strict id generations

theorem joinGenerations_spec {whole : ScopeExpression} {first second : List Text}
    (leaves : whole.leaves = left.leaves ++ right.leaves)
    (one : Generations resolver left first) (two : Generations resolver right second) :
    Generations resolver whole (joinGenerations first second) := by
  constructor
  · intro generation
    simp only [joinGenerations, mem_insertionSort, mem_unique, mem_append,
      one.mem, two.mem, leaves, or_and_right, exists_or]
  · exact sorted_strict (nodup_unique _)

structure Resolved (collation : Collation) (resolver : DeterministicScopeAtomResolver)
    (expression : ScopeExpression) (resolution : IntermediateResolution) : Prop where
  generations : Generations resolver expression resolution.generations
  members : Listing collation resolution.members (HasMember resolver expression)

theorem Resolved.admitted {resolution : IntermediateResolution}
    (resolved : Resolved collation resolver expression resolution)
    (valid : ∀ leaf ∈ expression.leaves, (resolver leaf).Valid) : Admitted resolution.members := by
  intro member listed
  obtain ⟨leaf, inside, found⟩ := HasMember.origin ((resolved.members.mem member).mp listed)
  exact (valid leaf inside).2 member found

theorem agree_iff {first second : IntermediateResolution}
    (one : Resolved collation resolver left first) (two : Resolved collation resolver right second) :
    Agree first.members second.members ↔ Compatible resolver left right := by
  constructor
  · intro agree revision standing other has another
    let member : DeterministicScopeMember := ⟨revision, standing.1, standing.2⟩
    let opposite : DeterministicScopeMember := ⟨revision, other.1, other.2⟩
    have listed : member ∈ first.members := (one.members.mem member).mpr has
    have found : opposite ∈ second.members := (two.members.mem opposite).mpr another
    have same := agree member listed opposite found rfl
    exact (congrArg DeterministicScopeMember.standing same).symm
  · intro compatible member listed other found same
    have has := (one.members.mem member).mp listed
    have another := (two.members.mem other).mp found
    rw [HasMember, same] at another
    exact member_ext same (compatible _ _ _ has another).symm

theorem mem_side {resolution : IntermediateResolution}
    (resolved : Resolved collation resolver expression resolution) {revision : Text} :
    (∃ other ∈ resolution.members, other.sourceRevisionRef = revision) ↔
      ∃ standing, Has resolver expression revision standing := by
  constructor
  · intro ⟨other, listed, same⟩
    exact ⟨other.standing, same ▸ (resolved.members.mem other).mp listed⟩
  · intro ⟨standing, has⟩
    exact ⟨⟨revision, standing.1, standing.2⟩, (resolved.members.mem _).mpr has, rfl⟩

def Decided (collation : Collation) (resolver : DeterministicScopeAtomResolver)
    (expression : ScopeExpression) : Prop :=
  (Consistent resolver expression → ∃ resolution,
      evaluate collation resolver expression = .ok resolution ∧
        Resolved collation resolver expression resolution) ∧
    (¬Consistent resolver expression → ∃ revision,
      evaluate collation resolver expression = .error (conflicting revision))

theorem decided_atom {atom : ScopeAtom} (valid : (resolver atom).Valid) :
    Decided collation resolver (.atom atom) := by
  obtain ⟨generation, admitted⟩ := valid
  have normal : Comes collation _ (Functional (resolver atom).members) _ :=
    normalizeMembers_comes admitted
  obtain ⟨fits, clashes⟩ := normal
  constructor
  · intro consistent
    obtain ⟨members, normalized, listing⟩ := fits consistent
    refine ⟨⟨[(resolver atom).atomGenerationRef], members⟩, ?_, ⟨?_, ?_⟩, ?_, ?_, ?_⟩
    · simp only [evaluate, generation, bind, Except.bind, normalized, pure, Except.pure]
    · intro found
      simp [ScopeExpression.leaves, eq_comm]
    · exact pairwise_singleton _ _
    · intro member
      rw [listing.mem, HasMember, Has]
      constructor
      · exact fun listed => ⟨member, listed, rfl, rfl⟩
      · rintro ⟨other, listed, revision, standing⟩
        exact member_ext revision standing ▸ listed
    · exact listing.distinct
    · exact listing.sorted
  · intro apart
    obtain ⟨revision, failed⟩ := clashes apart
    exact ⟨revision, by simp only [evaluate, generation, bind, Except.bind, failed]⟩

theorem decided_operation {whole : ScopeExpression}
    {operation : List DeterministicScopeMember → List DeterministicScopeMember →
      Resolving (List DeterministicScopeMember)}
    (runs : evaluate collation resolver whole = (do
      let left ← evaluate collation resolver left
      let right ← evaluate collation resolver right
      let members ← operation left.members right.members
      return ⟨joinGenerations left.generations right.generations, members⟩))
    (leaves : whole.leaves = left.leaves ++ right.leaves)
    (checks : Consistent resolver whole ↔
      Consistent resolver left ∧ Consistent resolver right ∧ Compatible resolver left right)
    (comes : ∀ first second, Resolved collation resolver left first →
      Resolved collation resolver right second →
      Comes collation (operation first.members second.members) (Compatible resolver left right)
        (HasMember resolver whole))
    (one : Decided collation resolver left) (two : Decided collation resolver right) :
    Decided collation resolver whole := by
  by_cases first : Consistent resolver left
  · obtain ⟨onLeft, leftRan, leftResolved⟩ := one.1 first
    by_cases second : Consistent resolver right
    · obtain ⟨onRight, rightRan, rightResolved⟩ := two.1 second
      obtain ⟨fits, clashes⟩ := comes onLeft onRight leftResolved rightResolved
      constructor
      · intro consistent
        obtain ⟨-, -, compatible⟩ := checks.mp consistent
        obtain ⟨members, ran, listing⟩ := fits compatible
        refine ⟨⟨joinGenerations onLeft.generations onRight.generations, members⟩, ?_, ?_, listing⟩
        · rw [runs, leftRan, rightRan]
          simp only [bind, Except.bind, ran, pure, Except.pure]
        · exact joinGenerations_spec leaves leftResolved.generations rightResolved.generations
      · intro apart
        have incompatible : ¬Compatible resolver left right :=
          fun compatible => apart (checks.mpr ⟨first, second, compatible⟩)
        obtain ⟨revision, failed⟩ := clashes incompatible
        refine ⟨revision, ?_⟩
        rw [runs, leftRan, rightRan]
        simp only [bind, Except.bind, failed]
    · obtain ⟨revision, failed⟩ := two.2 second
      refine ⟨fun consistent => absurd (checks.mp consistent).2.1 second, fun _ => ⟨revision, ?_⟩⟩
      rw [runs, leftRan, failed]
      rfl
  · obtain ⟨revision, failed⟩ := one.2 first
    refine ⟨fun consistent => absurd (checks.mp consistent).1 first, fun _ => ⟨revision, ?_⟩⟩
    rw [runs, failed]
    rfl

theorem evaluate_decided (expression : ScopeExpression)
    (valid : ∀ leaf ∈ expression.leaves, (resolver leaf).Valid) :
    Decided collation resolver expression := by
  induction expression with
  | atom atom => exact decided_atom (valid atom (mem_singleton_self _))
  | except left right one two =>
    have validLeft : ∀ leaf ∈ left.leaves, (resolver leaf).Valid :=
      fun leaf listed => valid leaf (mem_append_left _ listed)
    have validRight : ∀ leaf ∈ right.leaves, (resolver leaf).Valid :=
      fun leaf listed => valid leaf (mem_append_right _ listed)
    refine decided_operation rfl rfl Iff.rfl (fun first second onLeft onRight => ?_)
      (one validLeft) (two validRight)
    refine (filtered_comes onLeft.members.functional onRight.members.functional
      (onLeft.admitted validLeft) _).congr (agree_iff onLeft onRight) fun _ member => ?_
    rw [onLeft.members.mem, Bool.not_eq_true', ← Bool.not_eq_true, hasRevision_iff,
      mem_side onRight]
    exact Iff.rfl
  | combine kind left right one two =>
    have validLeft : ∀ leaf ∈ left.leaves, (resolver leaf).Valid :=
      fun leaf listed => valid leaf (mem_append_left _ listed)
    have validRight : ∀ leaf ∈ right.leaves, (resolver leaf).Valid :=
      fun leaf listed => valid leaf (mem_append_right _ listed)
    cases kind with
    | union =>
      refine decided_operation rfl rfl Iff.rfl (fun first second onLeft onRight => ?_)
        (one validLeft) (two validRight)
      refine (union_comes onLeft.members.functional onRight.members.functional
        (onLeft.admitted validLeft) (onRight.admitted validRight)).congr
        (agree_iff onLeft onRight) fun _ member => ?_
      rw [onLeft.members.mem, onRight.members.mem]
      exact Iff.rfl
    | intersect =>
      refine decided_operation rfl rfl Iff.rfl (fun first second onLeft onRight => ?_)
        (one validLeft) (two validRight)
      refine (filtered_comes onLeft.members.functional onRight.members.functional
        (onLeft.admitted validLeft) _).congr (agree_iff onLeft onRight)
        fun compatible member => ?_
      rw [onLeft.members.mem, hasRevision_iff, mem_side onRight]
      constructor
      · exact fun has => .inl has
      · rintro (has | ⟨has, other, another⟩)
        · exact has
        · -- of compatible operands both give a revision the same standing
          have same := compatible _ _ _ another has
          rw [same] at another
          exact ⟨another, _, has⟩

end
end Domain
