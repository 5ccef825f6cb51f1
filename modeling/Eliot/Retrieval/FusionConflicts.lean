import Eliot.Collections.Fallible
import Eliot.Retrieval.Fusion

namespace Retrieval

open List Insertion Fallible
open Text (jsonString jsonArray)
open Sorting (either Compares Leads compares_nat compares_dual)
open Grouping (gather mem_gather keys_gather ofKey mem_ofKey at2 put2 at2_put2 Whole)

section

/-- A text in the order of `localeCompare`. -/
structure Collated (runtime : Runtime) where
  value : Text

variable {runtime : Runtime}

instance : LinearOrder (Collated runtime) where
  le left right := runtime.localeCompare left.value right.value ≤ 0
  lt left right := runtime.localeCompare left.value right.value < 0
  le_refl left := le_of_eq ((runtime.same _ _).mpr rfl)
  le_trans _ _ _ := runtime.trans _ _ _
  lt_iff_le_not_ge left right := by
    have swap := runtime.swap left.value right.value
    constructor <;> intro below
    · exact ⟨below.le, not_le.mpr (swap.mp below)⟩
    · exact swap.mpr (not_le.mp below.2)
  le_antisymm left right below above := by
    have least : ¬runtime.localeCompare left.value right.value < 0 := fun less =>
      absurd above (not_le.mpr ((runtime.swap _ _).mp less))
    have level := le_antisymm below (not_lt.mp least)
    exact congrArg Collated.mk ((runtime.same _ _).mp level)
  le_total left right := by
    rcases le_or_gt (runtime.localeCompare left.value right.value) 0 with below | above
    · exact .inl below
    · exact .inr ((runtime.swap _ _).mpr above).le
  toDecidableLE left right := inferInstanceAs (Decidable (runtime.localeCompare left.value right.value ≤ 0))
  toDecidableLT left right := inferInstanceAs (Decidable (runtime.localeCompare left.value right.value < 0))

theorem compares_locale (left right : Text) :
    Compares (runtime.localeCompare left right : ℚ) (Collated.mk left : Collated runtime) ⟨right⟩ := by
  constructor
  · exact Int.cast_lt_zero
  · rw [Int.cast_eq_zero, runtime.same, Collated.mk.injEq]

/-- What `compareRepresentatives` compares. -/
def representativeKey (runtime : Runtime) (candidate : LocatorCandidate) :
    Nat ×ₗ Collated runtime ×ₗ Collated runtime ×ₗ ℚᵒᵈ ×ₗ Collated runtime ×ₗ Collated runtime :=
  toLex (candidate.rank, toLex (⟨candidate.candidateId⟩, toLex (⟨candidate.indexGeneration⟩,
    toLex (OrderDual.toDual candidate.rawScore, toLex (⟨candidate.preview⟩, ⟨metadataKey runtime candidate⟩)))))

theorem compares_representatives (left right : LocatorCandidate) :
    Compares (compareRepresentatives runtime left right) (representativeKey runtime left)
      (representativeKey runtime right) :=
  (compares_nat _ _).either <| (compares_locale _ _).either <| (compares_locale _ _).either <|
    (compares_dual _ _).either <| (compares_locale _ _).either (compares_locale _ _)

theorem representatives_le (left right : LocatorCandidate) :
    compareRepresentatives runtime left right ≤ 0 ↔
      representativeKey runtime left ≤ representativeKey runtime right :=
  (compares_representatives left right).le

end

section
variable {candidates : List LocatorCandidate}

def Compatible (candidates : List LocatorCandidate) : Prop :=
  ∀ left ∈ candidates, ∀ right ∈ candidates, ∀ first second, authoritativeContentDigest left = some first →
    authoritativeContentDigest right = some second → first = second

theorem compatible_perm {others : List LocatorCandidate}
    (same : ∀ candidate, candidate ∈ candidates ↔ candidate ∈ others) :
    Compatible candidates ↔ Compatible others := by
  unfold Compatible
  simp only [same]

theorem compatible_digests : Compatible candidates ↔
    (Insertion.unique (candidates.filterMap authoritativeContentDigest)).length ≤ 1 := by
  have listed (digest : Text) : digest ∈ Insertion.unique (candidates.filterMap authoritativeContentDigest) ↔
      ∃ candidate ∈ candidates, authoritativeContentDigest candidate = some digest := by
    rw [mem_unique, mem_filterMap]
  have distinct := nodup_unique (candidates.filterMap authoritativeContentDigest)
  generalize Insertion.unique (candidates.filterMap authoritativeContentDigest) = digests at listed distinct
  constructor
  · intro compatible
    match digests, distinct, listed with
    | [], _, _ => simp
    | [_], _, _ => simp
    | first :: second :: _, distinct, listed =>
      obtain ⟨left, one, found⟩ := (listed first).mp (by simp)
      obtain ⟨right, two, known⟩ := (listed second).mp (by simp)
      have same := compatible left one right two first second found known
      simp [same] at distinct
  · intro short left one right two first second found known
    have head := (listed first).mpr ⟨left, one, found⟩
    have next := (listed second).mpr ⟨right, two, known⟩
    match digests, short with
    | [], _ => cases head
    | [only], _ => rw [mem_singleton.mp head, mem_singleton.mp next]

theorem requireCompatibleAuthority_ok : requireCompatibleAuthority candidates = .ok () ↔ Compatible candidates := by
  rw [compatible_digests]
  unfold requireCompatibleAuthority
  cases candidates with
  | nil => simp [Insertion.unique, pure, Except.pure]
  | cons first rest =>
    simp only [head?_cons]
    split
    · rename_i many
      simp only [throw, throwThe, MonadExceptOf.throw, reduceCtorEq, false_iff, not_le]
      exact many
    · rename_i few
      simp only [pure, Except.pure, true_iff]
      exact not_lt.mp few

theorem identityKey_eq {left right : LocatorCandidate} : identityKey left = identityKey right ↔
    left.sourceRevisionRef = right.sourceRevisionRef ∧ left.canonicalSectionId = right.canonicalSectionId := by
  constructor
  · intro same
    have arrays : jsonArray ([left.sourceRevisionRef, left.canonicalSectionId].map jsonString) ++ [] =
        jsonArray ([right.sourceRevisionRef, right.canonicalSectionId].map jsonString) ++ [] := by
      rw [append_nil, append_nil]
      exact same
    have items := (Text.jsonArray_unique arrays).1
    simpa using items
  · rintro ⟨source, section'⟩
    rw [identityKey, identityKey, source, section']

end

variable {state : Recorded}

section

def RankedLists.groups (lanes : RankedLists) : List (RetrievalLane × Text × List LocatorCandidate) :=
  lanes.entries.flatMap fun ranked => (gather identityKey ranked.2).map fun entry => (ranked.1, entry)

def RankedLists.rows (lanes : RankedLists) (lane : RetrievalLane) (key : Text) : List LocatorCandidate :=
  ofKey identityKey key ((Insertion.get lane lanes.entries).getD [])

variable {runtime : Runtime} {lanes : RankedLists} {lane : RetrievalLane} {key : Text}
  {rows : List LocatorCandidate}

theorem mem_groups : (lane, key, rows) ∈ lanes.groups ↔ rows ≠ [] ∧ rows = lanes.rows lane key := by
  unfold RankedLists.groups RankedLists.rows
  simp only [mem_flatMap, mem_map, Prod.mk.injEq]
  constructor
  · rintro ⟨⟨name, candidates⟩, listed, ⟨found, group⟩, grouped, rfl, rfl, rfl⟩
    rw [(mem_iff_get lanes.distinct).mp listed]
    exact mem_gather.mp grouped
  · rintro ⟨filled, rfl⟩
    cases found : Insertion.get lane lanes.entries with
    | none =>
      rw [found] at filled
      exact absurd rfl filled
    | some candidates =>
      rw [found] at filled
      exact ⟨(lane, candidates), (mem_iff_get lanes.distinct).mpr found,
        (key, ofKey identityKey key candidates), mem_gather.mpr ⟨filled, rfl⟩, rfl, rfl⟩

theorem mem_rows {candidate : LocatorCandidate} : candidate ∈ lanes.rows lane key ↔
    (∃ candidates, (lane, candidates) ∈ lanes.entries ∧ candidate ∈ candidates) ∧ identityKey candidate = key := by
  unfold RankedLists.rows
  rw [mem_ofKey]
  refine and_congr_left fun _ => ?_
  simp only [mem_iff_get lanes.distinct]
  cases Insertion.get lane lanes.entries <;> simp

abbrev Recorded := Identities × List (LocatorCandidate × DropReason)

def keepGroup (runtime : Runtime) (state : Recorded) (group : RetrievalLane × Text × List LocatorCandidate) :
    Recorded :=
  match sortRepresentatives runtime group.2.2 with
  | [] => state
  | best :: duplicates =>
    (put2 group.2.1 group.1 best state.1,
      state.2 ++ duplicates.map fun duplicate => (duplicate, .duplicateIdentityInList))

theorem recordIdentity_eq (state : Recorded) (group : RetrievalLane × Text × List LocatorCandidate) :
    recordIdentity runtime group.1 state group.2 =
      requireCompatibleAuthority group.2.2 >>= fun _ => .ok (keepGroup runtime state group) := by
  unfold recordIdentity keepGroup
  cases sortRepresentatives runtime group.2.2 <;> rfl

theorem collectIdentities_eq : collectIdentities runtime lanes =
    lanes.groups.foldlM (fun state group => recordIdentity runtime group.1 state group.2) ([], []) := by
  unfold collectIdentities RankedLists.groups
  generalize (([], []) : Recorded) = state
  induction lanes.entries generalizing state with
  | nil => rfl
  | cons ranked entries ih =>
    rw [flatMap_cons, foldlM_append, foldlM_cons, foldlM_map]
    exact congrArg _ (funext ih)

theorem collectIdentities_ok : collectIdentities runtime lanes = .ok state ↔
    (∀ group ∈ lanes.groups, Compatible group.2.2) ∧ lanes.groups.foldl (keepGroup runtime) ([], []) = state := by
  rw [collectIdentities_eq, foldlM_checked recordIdentity_eq]
  simp only [requireCompatibleAuthority_ok]

theorem keepGroup_at {group : RetrievalLane × Text × List LocatorCandidate}
    (filled : group.2.2 ≠ []) :
    at2 (keepGroup runtime state group).1 key lane =
      if key = group.2.1 ∧ lane = group.1 then (sortRepresentatives runtime group.2.2).head?
      else at2 state.1 key lane := by
  unfold keepGroup
  cases sorted : sortRepresentatives runtime group.2.2 with
  | nil => exact absurd (List.Perm.nil_eq (sorted ▸ perm_insertionSort _ group.2.2)).symm filled
  | cons best duplicates => exact at2_put2

theorem keepGroups_at {groups : List (RetrievalLane × Text × List LocatorCandidate)}
    (listed : ∀ group ∈ groups, group.2.2 ≠ [] ∧ group.2.2 = lanes.rows group.1 group.2.1) :
    at2 (groups.foldl (keepGroup runtime) state).1 key lane =
      if ∃ group ∈ groups, key = group.2.1 ∧ lane = group.1 then
        (sortRepresentatives runtime (lanes.rows lane key)).head?
      else at2 state.1 key lane := by
  induction groups generalizing state with
  | nil => simp
  | cons group groups ih =>
    obtain ⟨⟨filled, own⟩, rest⟩ := forall_mem_cons.mp listed
    have either : (∃ other ∈ group :: groups, key = other.2.1 ∧ lane = other.1) ↔
        (key = group.2.1 ∧ lane = group.1) ∨ ∃ other ∈ groups, key = other.2.1 ∧ lane = other.1 := by simp
    rw [foldl_cons, ih rest, keepGroup_at filled]
    simp only [either]
    by_cases later : ∃ other ∈ groups, key = other.2.1 ∧ lane = other.1
    · rw [if_pos later, if_pos (.inr later)]
    · rw [if_neg later]
      by_cases here : key = group.2.1 ∧ lane = group.1
      · rw [if_pos here, if_pos (.inl here), own, here.1, here.2]
      · rw [if_neg here, if_neg fun some => some.elim here later]

theorem keepGroups_whole {groups : List (RetrievalLane × Text × List LocatorCandidate)}
    (whole : Whole state.1) : Whole (groups.foldl (keepGroup runtime) state).1 := by
  induction groups generalizing state with
  | nil => exact whole
  | cons group groups ih =>
    refine ih ?_
    unfold keepGroup
    split
    · exact whole
    · exact whole.put2

theorem collected (collects : collectIdentities runtime lanes = .ok state) :
    Whole state.1 ∧ ∀ key lane, at2 state.1 key lane =
      (sortRepresentatives runtime (lanes.rows lane key)).head? := by
  obtain ⟨-, rfl⟩ := collectIdentities_ok.mp collects
  refine ⟨keepGroups_whole Whole.nil, fun key lane => ?_⟩
  rw [keepGroups_at fun group listed => mem_groups.mp listed]
  split
  · rfl
  · rename_i absent
    have empty : lanes.rows lane key = [] := by
      by_contra filled
      exact absent ⟨_, mem_groups.mpr ⟨filled, rfl⟩, rfl, rfl⟩
    rw [empty]
    rfl

end

section
variable {runtime : Runtime} {options : FusionOptions} {lanes : RankedLists}

theorem sortLanes_mem {byLane : List (RetrievalLane × LocatorCandidate)} {candidate : LocatorCandidate} :
    candidate ∈ (sortLanes runtime byLane).map Prod.snd ↔ candidate ∈ byLane.map Prod.snd :=
  ((perm_insertionSort _ byLane).map Prod.snd).mem_iff

def aggregated (runtime : Runtime) (options : FusionOptions)
    (identity : Text × List (RetrievalLane × LocatorCandidate)) :
    Option Aggregate :=
  (sortLanes runtime identity.2).foldl (addContribution runtime options) none

theorem aggregateIdentity_eq (identity : Text × List (RetrievalLane × LocatorCandidate)) :
    aggregateIdentity runtime options identity = requireCompatibleAuthority
      ((sortLanes runtime identity.2).map Prod.snd) >>=
      fun _ => .ok (aggregated runtime options identity) := rfl

theorem aggregates_ok {identities : Identities} {aggregates : List (Option Aggregate)} :
    identities.mapM (aggregateIdentity runtime options) = .ok aggregates ↔
      (∀ identity ∈ identities, Compatible (identity.2.map Prod.snd)) ∧
        identities.map (aggregated runtime options) = aggregates := by
  rw [mapM_checked aggregateIdentity_eq]
  simp only [requireCompatibleAuthority_ok, compatible_perm fun _ => @sortLanes_mem runtime _ _]

def ranked (runtime : Runtime) (options : FusionOptions) (identities : Identities) : List Aggregate :=
  (identities.map (aggregated runtime options)).reduceOption.insertionSort fun left right =>
    compareAggregates runtime left right ≤ 0

theorem orderAggregates_ok {identities : Identities} {ordered : List Aggregate} :
    orderAggregates runtime options identities = .ok ordered ↔
      (∀ identity ∈ identities, Compatible (identity.2.map Prod.snd)) ∧ ranked runtime options identities =
        ordered := by
  unfold orderAggregates ranked
  constructor
  · intro orders
    obtain ⟨aggregates, mapped, sorted⟩ := bind_ok orders
    obtain ⟨compatible, rfl⟩ := aggregates_ok.mp mapped
    exact ⟨compatible, Except.ok.inj sorted⟩
  · rintro ⟨compatible, rfl⟩
    rw [aggregates_ok.mpr ⟨compatible, rfl⟩]
    rfl

theorem reciprocalRankFuse_ok {fusion : Fusion} : reciprocalRankFuse runtime options lanes = .ok fusion ↔
    ∃ state, collectIdentities runtime lanes = .ok state ∧
      (∀ identity ∈ state.1, Compatible (identity.2.map Prod.snd)) ∧
      (let scan := scanAggregates options (ranked runtime options state.1)
       ⟨scan.selected.map (presentAggregate state.1), state.2 ++ scan.dropped⟩) = fusion := by
  unfold reciprocalRankFuse
  constructor
  · intro fuses
    obtain ⟨state, collects, rest⟩ := bind_ok fuses
    obtain ⟨ordered, orders, scans⟩ := bind_ok rest
    obtain ⟨compatible, rfl⟩ := orderAggregates_ok.mp orders
    exact ⟨state, collects, compatible, Except.ok.inj scans⟩
  · rintro ⟨state, collects, compatible, rfl⟩
    rw [collects]
    simp only [bind, Except.bind, orderAggregates_ok.mpr ⟨compatible, rfl⟩, pure, Except.pure]

def Fronts (runtime : Runtime) (lanes : RankedLists) (lane : RetrievalLane) (candidate : LocatorCandidate) : Prop :=
  ∃ before after, lanes.rows lane (identityKey candidate) = before ++ candidate :: after ∧
    (∀ other ∈ before, compareRepresentatives runtime candidate other < 0) ∧
    ∀ other ∈ after, compareRepresentatives runtime candidate other ≤ 0

theorem fronts_head {lane : RetrievalLane} {candidate : LocatorCandidate} : Fronts runtime lanes lane candidate ↔
    (sortRepresentatives runtime (lanes.rows lane (identityKey candidate))).head? = some candidate := by
  unfold sortRepresentatives
  rw [Sorting.head_leads representatives_le]
  unfold Fronts Leads
  simp only [representatives_le, (compares_representatives _ _).1]

def RankedLists.Lists (lanes : RankedLists) (lane : RetrievalLane) (candidate : LocatorCandidate) : Prop :=
  ∃ rows, (lane, rows) ∈ lanes.entries ∧ candidate ∈ rows

def Differ (left right : LocatorCandidate) : Prop :=
  left.sourceRevisionRef = right.sourceRevisionRef ∧ left.canonicalSectionId = right.canonicalSectionId ∧
    ∃ first second, authoritativeContentDigest left = some first ∧ authoritativeContentDigest right = some second ∧
      first ≠ second

def Conflicting (lanes : RankedLists) : Prop :=
  ∃ lane left other right, lanes.Lists lane left ∧ lanes.Lists other right ∧ Differ left right

def Throws (runtime : Runtime) (options : FusionOptions) (lanes : RankedLists) : Prop :=
  ∃ error, reciprocalRankFuse runtime options lanes = .error error

theorem not_compatible {candidates : List LocatorCandidate} {key : Text}
    (keyed : ∀ candidate ∈ candidates, identityKey candidate = key) :
    ¬Compatible candidates ↔ ∃ left ∈ candidates, ∃ right ∈ candidates, Differ left right := by
  unfold Compatible Differ
  push Not
  constructor
  · rintro ⟨left, one, right, two, first, second, found, known, differ⟩
    have same := identityKey_eq.mp ((keyed left one).trans (keyed right two).symm)
    exact ⟨left, one, right, two, same.1, same.2, first, second, found, known, differ⟩
  · rintro ⟨left, one, right, two, -, -, first, second, found, known, differ⟩
    exact ⟨left, one, right, two, first, second, found, known, differ⟩

theorem collects_iff : (∃ state, collectIdentities runtime lanes = .ok state) ↔
    ¬∃ lane left right, lanes.Lists lane left ∧ lanes.Lists lane right ∧ Differ left right := by
  constructor
  · rintro ⟨state, collects⟩ ⟨lane, left, right, one, two, differ⟩
    have same := identityKey_eq.mpr ⟨differ.1, differ.2.1⟩
    have here : left ∈ lanes.rows lane (identityKey left) := mem_rows.mpr ⟨one, rfl⟩
    have there : right ∈ lanes.rows lane (identityKey left) := mem_rows.mpr ⟨two, same.symm⟩
    have grouped := mem_groups.mpr ⟨ne_nil_of_mem here, rfl⟩
    have compatible := (collectIdentities_ok.mp collects).1 _ grouped
    exact (not_compatible fun _ listed => (mem_rows.mp listed).2).mpr ⟨left, here, right, there, differ⟩ compatible
  · intro clear
    refine ⟨_, collectIdentities_ok.mpr ⟨fun ⟨lane, key, rows⟩ grouped => ?_, rfl⟩⟩
    obtain ⟨-, rfl⟩ := mem_groups.mp grouped
    by_contra conflict
    obtain ⟨left, one, right, two, differ⟩ := (not_compatible fun _ listed => (mem_rows.mp listed).2).mp conflict
    exact clear ⟨lane, left, right, (mem_rows.mp one).1, (mem_rows.mp two).1, differ⟩

theorem mem_identity (collects : collectIdentities runtime lanes = .ok state)
    {identity : Text × List (RetrievalLane × LocatorCandidate)} (listed : identity ∈ state.1)
      {candidate : LocatorCandidate} :
    candidate ∈ identity.2.map Prod.snd ↔ identityKey candidate = identity.1 ∧ ∃ lane,
      Fronts runtime lanes lane candidate := by
  obtain ⟨whole, held⟩ := collected collects
  have found := (mem_iff_get whole.distinct).mp listed
  have entry (lane : RetrievalLane) : (lane, candidate) ∈ identity.2 ↔
      (sortRepresentatives runtime (lanes.rows lane identity.1)).head? = some candidate := by
    rw [whole.get_some found, held]
  simp only [mem_map, Prod.exists, exists_eq_right, entry]
  constructor
  · rintro ⟨lane, head⟩
    have member := (perm_insertionSort _ _).mem_iff.mp (mem_of_mem_head? head)
    have own := (mem_rows.mp member).2
    exact ⟨own, lane, fronts_head.mpr (own ▸ head)⟩
  · rintro ⟨own, lane, fronts⟩
    exact ⟨lane, own ▸ fronts_head.mp fronts⟩

theorem throws_iff : Throws runtime options lanes ↔
    (∃ lane left right, lanes.Lists lane left ∧ lanes.Lists lane right ∧ Differ left right) ∨
      ∃ lane left other right, Fronts runtime lanes lane left ∧ Fronts runtime lanes other right ∧
        Differ left right := by
  unfold Throws
  rw [error_iff, ← not_iff_not, not_not, not_or, ← collects_iff]
  constructor
  · rintro ⟨fusion, fuses⟩
    obtain ⟨state, collects, compatible, -⟩ := reciprocalRankFuse_ok.mp fuses
    refine ⟨⟨state, collects⟩, fun ⟨lane, left, other, right, one, two, differ⟩ => ?_⟩
    have same := identityKey_eq.mpr ⟨differ.1, differ.2.1⟩
    obtain ⟨whole, held⟩ := collected collects
    have known : (Insertion.get (identityKey left) state.1).isSome :=
      whole.isSome.mpr ⟨lane, left, by rw [held, fronts_head.mp one]⟩
    obtain ⟨byLane, found⟩ := Option.isSome_iff_exists.mp known
    have listed := (mem_iff_get whole.distinct).mpr found
    have keyed : ∀ candidate ∈ byLane.map Prod.snd, identityKey candidate = identityKey left :=
        fun candidate member =>
      ((mem_identity collects listed).mp member).1
    refine (not_compatible keyed).mpr ⟨left, ?_, right, ?_, differ⟩ (compatible _ listed)
    · exact (mem_identity collects listed).mpr ⟨rfl, lane, one⟩
    · exact (mem_identity collects listed).mpr ⟨same.symm, other, two⟩
  · rintro ⟨⟨state, collects⟩, clear⟩
    refine ⟨_, reciprocalRankFuse_ok.mpr ⟨state, collects, fun identity listed => ?_, rfl⟩⟩
    by_contra conflict
    have keyed : ∀ candidate ∈ identity.2.map Prod.snd, identityKey candidate = identity.1 :=
        fun candidate member =>
      ((mem_identity collects listed).mp member).1
    obtain ⟨left, one, right, two, differ⟩ := (not_compatible keyed).mp conflict
    obtain ⟨-, lane, first⟩ := (mem_identity collects listed).mp one
    obtain ⟨-, other, second⟩ := (mem_identity collects listed).mp two
    exact clear ⟨lane, left, other, right, first, second, differ⟩

theorem fronts_lists {lane : RetrievalLane} {candidate : LocatorCandidate}
    (fronts : Fronts runtime lanes lane candidate) :
    lanes.Lists lane candidate := by
  obtain ⟨before, after, split, -⟩ := fronts
  exact (mem_rows.mp (split ▸ mem_append_right before (mem_cons_self ..))).1

end

theorem plain_le (left right : Text) :
    (if left < right then (-1 : Int) else if right < left then 1 else 0) ≤ 0 ↔ left ≤ right := by
  rcases lt_trichotomy left right with below | level | above
  · simp [below, below.le]
  · simp [level]
  · simp [above, above.not_gt, above.not_ge]

/-- The order of code units, which `localeCompare` has on lower case letters. -/
def plainRuntime : Runtime where
  localeCompare left right := if left < right then -1 else if right < left then 1 else 0
  numberJson _ := []
  same left right := by
    rcases lt_trichotomy left right with below | level | above
    · simp [below, below.ne]
    · simp [level]
    · simp [above, above.not_gt, above.ne']
  swap left right := by
    rcases lt_trichotomy left right with below | level | above
    · simp [below, below.not_gt]
    · simp [level]
    · simp [above, above.not_gt]
  trans first second third := by
    rw [plain_le, plain_le, plain_le]
    exact le_trans

def sampleCandidate (name : Nat) (lane : RetrievalLane) (rank : Nat) (digest : Option Nat) : LocatorCandidate where
  candidateId := [name]
  lane := lane
  sourceRevisionRef := [114]
  canonicalSectionId := [115]
  preview := []
  rawScore := 0
  rank := rank
  indexGeneration := [103]
  metadata := digest.elim [] fun unit => [(Text.prose "content_sha256" rfl, .text (List.replicate 64 unit))]

def sampleOptions : FusionOptions := ⟨60, fun _ => none, 8, none, none, none⟩

def hiddenConflict : RankedLists where
  entries := [(.sem, [sampleCandidate 97 .sem 1 none, sampleCandidate 98 .sem 2 (some 97)]),
    (.lex, [sampleCandidate 99 .lex 1 (some 98)])]
  distinct := by decide

end Retrieval
