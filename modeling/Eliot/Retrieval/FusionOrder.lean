import Eliot.Retrieval.FusionConflicts
import Mathlib.Data.List.ReduceOption

namespace Retrieval

open List Insertion
open Sorting (Compares compares_dual)
open Grouping (at2 Whole)

section
variable {runtime : Runtime} {options : FusionOptions} {identities : Identities}

theorem name_injective : Function.Injective RetrievalLane.name := by
  intro first second
  cases first <;> cases second <;> simp [RetrievalLane.name, Text.prose]

theorem sortLanes_congr {byLane moved : List (RetrievalLane × LocatorCandidate)}
    (distinct : (byLane.map Prod.fst).Nodup)
    (perm : byLane.Perm moved) : sortLanes runtime byLane = sortLanes runtime moved := by
  have agrees (left right : RetrievalLane × LocatorCandidate) : runtime.localeCompare left.1.name right.1.name ≤ 0 ↔
      (Collated.mk left.1.name : Collated runtime) ≤ ⟨right.1.name⟩ := Iff.rfl
  refine Sorting.sort_congr agrees (fun left one right two same => ?_) perm
  exact inj_on_of_nodup_map distinct one two (name_injective (congrArg Collated.value same))

theorem addContribution_none (entry : RetrievalLane × LocatorCandidate) :
    addContribution runtime options none entry =
    some ⟨entry.2, contribution options entry, some (contribution options entry), [entry.1]⟩ := by
  simp [addContribution, Insertion.add]

theorem addContributions {entries : List (RetrievalLane × LocatorCandidate)} (filled : entries ≠ []) :
    ∃ aggregate, entries.foldl (addContribution runtime options) none = some aggregate ∧
      aggregate.candidate ∈ entries.map Prod.snd ∧ aggregate.score = (entries.map (contribution options)).sum := by
  induction entries using List.reverseRecOn with
  | nil => exact absurd rfl filled
  | append_singleton entries entry ih =>
    rw [foldl_append, foldl_cons, foldl_nil, map_append, map_append, sum_append]
    rcases eq_nil_or_concat entries with rfl | ⟨_, _, rfl⟩
    · exact ⟨_, addContribution_none entry, by simp, by simp⟩
    · obtain ⟨aggregate, folded, member, score⟩ := ih (by simp)
      rw [folded]
      unfold addContribution
      simp only [Option.getD_some]
      split
      · exact ⟨_, rfl, by simp, by simp [score]⟩
      · exact ⟨_, rfl, mem_append_left _ member, by simp [score]⟩

theorem aggregated_some {identity : Text × List (RetrievalLane × LocatorCandidate)} (filled : identity.2 ≠ []) :
    ∃ aggregate, aggregated runtime options identity = some aggregate ∧
      aggregate.candidate ∈ identity.2.map Prod.snd ∧ aggregate.score =
        (identity.2.map (contribution options)).sum := by
  have perm : (sortLanes runtime identity.2).Perm identity.2 := perm_insertionSort _ _
  have some : sortLanes runtime identity.2 ≠ [] := fun empty => filled (List.Perm.nil_eq (empty ▸ perm)).symm
  obtain ⟨aggregate, folded, member, score⟩ := @addContributions runtime options _ some
  exact ⟨aggregate, folded, (perm.map Prod.snd).mem_iff.mp member, score.trans (perm.map _).sum_eq⟩

/-- What `compareAggregates` compares. -/
def aggregateKey (runtime : Runtime) (aggregate : Aggregate) :
    ℚᵒᵈ ×ₗ Collated runtime ×ₗ Collated runtime ×ₗ Collated runtime ×ₗ Collated runtime :=
  toLex (OrderDual.toDual aggregate.score, toLex (⟨aggregate.candidate.candidateId⟩,
    toLex (⟨aggregate.candidate.sourceRevisionRef⟩, toLex (⟨aggregate.candidate.canonicalSectionId⟩,
      ⟨aggregate.candidate.indexGeneration⟩))))

theorem compares_aggregates (left right : Aggregate) :
    Compares (compareAggregates runtime left right) (aggregateKey runtime left) (aggregateKey runtime right) :=
  (compares_dual _ _).either <| (compares_locale _ _).either <| (compares_locale _ _).either <|
    (compares_locale _ _).either (compares_locale _ _)

theorem aggregateKey_identity {left right : Aggregate}
    (same : aggregateKey runtime left = aggregateKey runtime right) :
    identityKey left.candidate = identityKey right.candidate := by
  unfold aggregateKey at same
  simp only [toLex_inj, Prod.mk.injEq, Collated.mk.injEq] at same
  exact identityKey_eq.mpr ⟨same.2.2.1, same.2.2.2.1⟩

structure Keyed (identities : Identities) : Prop where
  whole : Whole identities
  own : ∀ identity ∈ identities, ∀ candidate ∈ identity.2.map Prod.snd, identityKey candidate = identity.1

theorem Keyed.mem_ranked (keyed : Keyed identities) {aggregate : Aggregate} :
    aggregate ∈ ranked runtime options identities ↔
      ∃ identity ∈ identities, aggregated runtime options identity = some aggregate ∧ identity.1 =
        identityKey aggregate.candidate := by
  unfold ranked
  rw [mem_insertionSort, reduceOption_mem_iff, mem_map]
  refine exists_congr fun identity => and_congr_right fun listed => ?_
  rw [iff_self_and]
  intro found
  have filled := keyed.whole.filled identity.1 identity.2 ((mem_iff_get keyed.whole.distinct).mp listed)
  obtain ⟨other, known, member, -⟩ := @aggregated_some runtime options _ filled
  rw [found] at known
  obtain rfl := Option.some.inj known
  exact (keyed.own identity listed _ member).symm

theorem Keyed.ranked_inj (keyed : Keyed identities) {left right : Aggregate}
    (one : left ∈ ranked runtime options identities)
    (two : right ∈ ranked runtime options identities)
      (same : identityKey left.candidate = identityKey right.candidate) :
    left = right := by
  obtain ⟨first, listed, found, own⟩ := keyed.mem_ranked.mp one
  obtain ⟨second, there, known, also⟩ := keyed.mem_ranked.mp two
  have equal := inj_on_of_nodup_map keyed.whole.distinct listed there (own.trans (same.trans also.symm))
  rw [equal, known] at found
  exact (Option.some.inj found).symm

theorem aggregates_distinct (identities : List (Text × List (RetrievalLane × LocatorCandidate)))
    (keyed : ∀ identity ∈ identities, ∀ aggregate, aggregated runtime options identity = some aggregate →
      identityKey aggregate.candidate = identity.1) (distinct : (identities.map Prod.fst).Nodup) :
    ((identities.map (aggregated runtime options)).reduceOption.map fun aggregate =>
      identityKey aggregate.candidate).Nodup := by
  induction identities with
  | nil => exact nodup_nil
  | cons identity identities ih =>
    obtain ⟨own, rest⟩ := forall_mem_cons.mp keyed
    rw [map_cons, nodup_cons] at distinct
    have tail := ih rest distinct.2
    rw [map_cons]
    cases found : aggregated runtime options identity with
    | none => exact tail
    | some aggregate =>
      rw [reduceOption_cons_of_some, map_cons, nodup_cons]
      refine ⟨fun listed => ?_, tail⟩
      obtain ⟨other, member, same⟩ := mem_map.mp listed
      obtain ⟨another, there, known⟩ := mem_map.mp (reduceOption_mem_iff.mp member)
      have equal : another.1 = identity.1 := (rest another there other known).symm.trans
          (same.trans (own aggregate found))
      exact distinct.1 (equal ▸ mem_map_of_mem there)

theorem Keyed.ranked_strict (keyed : Keyed identities) :
    ((ranked runtime options identities).map fun aggregate => identityKey aggregate.candidate).Nodup ∧
      (ranked runtime options identities).Pairwise fun higher lower =>
        compareAggregates runtime higher lower < 0 := by
  have agrees (left right : Aggregate) : compareAggregates runtime left right ≤ 0 ↔
      aggregateKey runtime left ≤ aggregateKey runtime right := (compares_aggregates left right).le
  have own : ∀ identity ∈ identities, ∀ aggregate, aggregated runtime options identity = some aggregate →
      identityKey aggregate.candidate = identity.1 := fun identity listed aggregate found => by
    have filled := keyed.whole.filled identity.1 identity.2 ((mem_iff_get keyed.whole.distinct).mp listed)
    obtain ⟨other, known, member, -⟩ := @aggregated_some runtime options _ filled
    rw [found] at known
    obtain rfl := Option.some.inj known
    exact keyed.own identity listed _ member
  have apart := aggregates_distinct identities own keyed.whole.distinct
  have perm : (ranked runtime options identities).Perm (identities.map (aggregated runtime options)).reduceOption :=
    perm_insertionSort _ _
  refine ⟨(perm.map _).nodup_iff.mpr apart, ?_⟩
  have distinct : ((identities.map (aggregated runtime options)).reduceOption.map
      (aggregateKey runtime)).Nodup := by
    refine (nodup_map_iff_inj_on (List.Nodup.of_map _ apart)).mpr fun left one right two same => ?_
    exact keyed.ranked_inj (perm.mem_iff.mpr one) (perm.mem_iff.mpr two) (aggregateKey_identity same)
  exact (Sorting.sort_strict agrees distinct).imp fun below => (compares_aggregates _ _).1.mpr below

theorem ranked_congr {others : Identities} (keyed : Keyed identities) (also : Keyed others)
    (same : ∀ key lane, at2 identities key lane = at2 others key lane) :
    ranked runtime options identities = ranked runtime options others := by
  have agrees (left right : Aggregate) : compareAggregates runtime left right ≤ 0 ↔
      aggregateKey runtime left ≤ aggregateKey runtime right := (compares_aggregates left right).le
  have half {first second : Identities} (one : Keyed first) (two : Keyed second)
      (same : ∀ key lane, at2 first key lane = at2 second key lane) {aggregate : Aggregate}
      (listed : aggregate ∈ ranked runtime options first) : aggregate ∈ ranked runtime options second := by
    obtain ⟨⟨key, byLane⟩, member, found, own⟩ := one.mem_ranked.mp listed
    have held := (mem_iff_get one.whole.distinct).mp member
    obtain ⟨moved, there, perm⟩ := one.whole.agree two.whole same held
    refine two.mem_ranked.mpr ⟨(key, moved), (mem_iff_get two.whole.distinct).mpr there, ?_, own⟩
    rw [← found, aggregated, aggregated, sortLanes_congr (one.whole.inner key byLane held) perm]
  have members (aggregate : Aggregate) :
      aggregate ∈ ranked runtime options identities ↔ aggregate ∈ ranked runtime options others :=
    ⟨half keyed also same, half also keyed fun key lane => (same key lane).symm⟩
  have perm := (perm_ext_iff_of_nodup (List.Nodup.of_map _ keyed.ranked_strict.1)
    (List.Nodup.of_map _ also.ranked_strict.1)).mpr members
  refine perm.eq_of_pairwise ?_ keyed.ranked_strict.2 also.ranked_strict.2
  intro left right _ _ below above
  rw [(compares_aggregates _ _).1] at below above
  exact absurd below (lt_asymm above)

end

section
variable {runtime : Runtime} {options : FusionOptions} {lanes others : RankedLists}

def Reordered (lanes others : RankedLists) : Prop :=
  (∀ lane rows, (lane, rows) ∈ lanes.entries → ∃ moved, (lane, moved) ∈ others.entries ∧ rows.Perm moved) ∧
    ∀ lane rows, (lane, rows) ∈ others.entries → ∃ moved, (lane, moved) ∈ lanes.entries ∧ rows.Perm moved

def Distinguished (runtime : Runtime) (lanes : RankedLists) : Prop :=
  ∀ lane left right, lanes.Lists lane left → lanes.Lists lane right → identityKey left = identityKey right →
    compareRepresentatives runtime left right = 0 → left = right

theorem Reordered.rows (same : Reordered lanes others) (lane : RetrievalLane) (key : Text) :
    (lanes.rows lane key).Perm (others.rows lane key) := by
  unfold RankedLists.rows
  have both {first second : RankedLists} (moves : ∀ lane rows, (lane, rows) ∈ first.entries →
      ∃ moved, (lane, moved) ∈ second.entries ∧ rows.Perm moved) {rows : List LocatorCandidate}
      (found : Insertion.get lane first.entries = some rows) :
      ∃ moved, Insertion.get lane second.entries = some moved ∧ rows.Perm moved := by
    obtain ⟨moved, there, perm⟩ := moves lane rows ((mem_iff_get first.distinct).mpr found)
    exact ⟨moved, (mem_iff_get second.distinct).mp there, perm⟩
  cases found : Insertion.get lane lanes.entries with
  | some rows =>
    obtain ⟨moved, there, perm⟩ := both same.1 found
    rw [there]
    exact perm.filter _
  | none =>
    cases there : Insertion.get lane others.entries with
    | none => exact List.Perm.refl _
    | some rows =>
      obtain ⟨moved, back, -⟩ := both same.2 there
      rw [found] at back
      cases back

theorem Reordered.lists (same : Reordered lanes others) {lane : RetrievalLane} {candidate : LocatorCandidate} :
    lanes.Lists lane candidate ↔ others.Lists lane candidate := by
  have rows := (same.rows lane (identityKey candidate)).mem_iff (a := candidate)
  rw [mem_rows, mem_rows] at rows
  simpa [RankedLists.Lists] using rows

theorem Reordered.sort (same : Reordered lanes others) (told : Distinguished runtime lanes)
    (lane : RetrievalLane) (key : Text) :
    sortRepresentatives runtime (lanes.rows lane key) = sortRepresentatives runtime (others.rows lane key) := by
  refine Sorting.sort_congr representatives_le (fun left one right two level => ?_) (same.rows lane key)
  have first := mem_rows.mp one
  have second := mem_rows.mp two
  exact told lane left right first.1 second.1 (first.2.trans second.2.symm)
    ((compares_representatives _ _).2.mpr level)

theorem Reordered.throws (same : Reordered lanes others) (told : Distinguished runtime lanes) :
    Throws runtime options lanes ↔ Throws runtime options others := by
  rw [throws_iff, throws_iff]
  simp only [fronts_head, same.lists, same.sort told]

theorem keyed_collected {state : Recorded} (collects : collectIdentities runtime lanes = .ok state) :
    Keyed state.1 :=
  ⟨(collected collects).1, fun _ listed _ member => ((mem_identity collects listed).mp member).1⟩

theorem lexical_congr {first second : Recorded} (one : Keyed first.1) (two : Keyed second.1)
    (held : ∀ key lane, at2 first.1 key lane = at2 second.1 key lane) (key : Text) :
    (Insertion.get key first.1).bind fullLexicalResolutionCandidate =
      (Insertion.get key second.1).bind fullLexicalResolutionCandidate := by
  cases found : Insertion.get key first.1 with
  | some byLane =>
    obtain ⟨moved, there, -⟩ := one.whole.agree two.whole held found
    have lane (lane : RetrievalLane) : Insertion.get lane byLane = Insertion.get lane moved := by
      simpa [at2, found, there] using held key lane
    rw [there, Option.bind_some, Option.bind_some, fullLexicalResolutionCandidate, fullLexicalResolutionCandidate,
      lane, lane]
  | none =>
    cases there : Insertion.get key second.1 with
    | none => rfl
    | some byLane =>
      obtain ⟨moved, back, -⟩ := two.whole.agree one.whole (fun key lane => (held key lane).symm) there
      rw [found] at back
      cases back

theorem Reordered.fused (same : Reordered lanes others) (told : Distinguished runtime lanes) :
    (reciprocalRankFuse runtime options lanes).toOption.map Fusion.fused =
      (reciprocalRankFuse runtime options others).toOption.map Fusion.fused := by
  have throws : Throws runtime options lanes ↔ Throws runtime options others := same.throws told
  unfold Throws at throws
  cases fuses : reciprocalRankFuse runtime options lanes with
  | error error =>
    obtain ⟨other, thrown⟩ := throws.mp ⟨error, fuses⟩
    rw [thrown]
    rfl
  | ok fusion =>
    cases also : reciprocalRankFuse runtime options others with
    | error error =>
      obtain ⟨other, thrown⟩ := throws.mpr ⟨error, also⟩
      rw [fuses] at thrown
      cases thrown
    | ok other =>
      obtain ⟨first, collects, -, rfl⟩ := reciprocalRankFuse_ok.mp fuses
      obtain ⟨second, recollects, -, rfl⟩ := reciprocalRankFuse_ok.mp also
      have one := keyed_collected collects
      have two := keyed_collected recollects
      have held (key : Text) (lane : RetrievalLane) : at2 first.1 key lane = at2 second.1 key lane := by
        rw [(collected collects).2, (collected recollects).2, same.sort told]
      have present : presentAggregate first.1 = presentAggregate second.1 := by
        funext entry
        rw [presentAggregate, presentAggregate, lexical_congr one two held]
      simp only [Except.toOption, Option.map_some, ranked_congr one two held, present]

end

section
variable {options : FusionOptions}

def ofSource (source : Text) (entries : List Aggregate) : Nat :=
  entries.countP fun entry => entry.candidate.sourceRevisionRef = source

def ofFamily (options : FusionOptions) (family : Text) (entries : List Aggregate) : Nat :=
  entries.countP fun entry => familyOf options entry.candidate = family

def LeftOut (options : FusionOptions) (before selected : List Aggregate) (entry : Aggregate) : Prop :=
  diversityScanLimit options ≤ before.length ∨
    options.maxPerSourceRevision ≤ ofSource entry.candidate.sourceRevisionRef selected ∨
    ∃ cap, options.maxPerFamily = some cap ∧ cap ≤ ofFamily options (familyOf options entry.candidate) selected

structure ScannedTo (options : FusionOptions) (before : List Aggregate) (scan : Scan) : Prop where
  counted : scan.scanned ≤ before.length ∧
    (scan.scanned < diversityScanLimit options → scan.scanned = before.length)
  sources : ∀ source, (Insertion.get source scan.perSource).getD 0 = ofSource source scan.selected
  families : options.maxPerFamily ≠ none →
    ∀ family, (Insertion.get family scan.perFamily).getD 0 = ofFamily options family scan.selected
  sublist : scan.selected.Sublist before
  sourceCap : ∀ entry ∈ scan.selected,
    (ofSource entry.candidate.sourceRevisionRef scan.selected : Int) ≤ options.maxPerSourceRevision
  familyCap : ∀ cap, options.maxPerFamily = some cap → ∀ entry ∈ scan.selected,
    (ofFamily options (familyOf options entry.candidate) scan.selected : Int) ≤ cap

theorem count_put {name wanted : Text} {counts : List (Text × Nat)} {count : Nat} :
    (Insertion.get wanted (Insertion.put name (count + 1) counts)).getD 0 =
      if wanted = name then count + 1 else (Insertion.get wanted counts).getD 0 := by
  rw [get_put]
  split <;> rfl

variable {before : List Aggregate}

theorem scan_cases {scan : Scan} (scanned : ScannedTo options before scan)
    (entry : Aggregate) :
    (LeftOut options before scan.selected entry ∧ (scanAggregate options scan entry).selected = scan.selected ∧
      (scanAggregate options scan entry).perSource = scan.perSource ∧
      (scanAggregate options scan entry).perFamily = scan.perFamily) ∨
    (ofSource entry.candidate.sourceRevisionRef scan.selected < options.maxPerSourceRevision ∧
      (∀ cap, options.maxPerFamily = some cap → ofFamily options
        (familyOf options entry.candidate) scan.selected < cap) ∧
      (scanAggregate options scan entry).selected = scan.selected ++ [entry] ∧
      (scanAggregate options scan entry).perSource = Insertion.put entry.candidate.sourceRevisionRef
        (ofSource entry.candidate.sourceRevisionRef scan.selected + 1) scan.perSource ∧
      (options.maxPerFamily ≠ none → (scanAggregate options scan entry).perFamily =
        Insertion.put (familyOf options entry.candidate)
          (ofFamily options (familyOf options entry.candidate) scan.selected + 1) scan.perFamily)) := by
  unfold scanAggregate
  by_cases limit : (scan.scanned : Int) ≥ diversityScanLimit options
  · rw [if_pos limit]
    refine .inl ⟨.inl ?_, rfl, rfl, rfl⟩
    have counted := scanned.counted.1
    omega
  · rw [if_neg limit]
    simp only [scanned.sources]
    by_cases full : (ofSource entry.candidate.sourceRevisionRef scan.selected : Int) ≥ options.maxPerSourceRevision
    · rw [if_pos full]
      exact .inl ⟨.inr (.inl full), rfl, rfl, rfl⟩
    · rw [if_neg full]
      cases caps : options.maxPerFamily with
      | none => exact .inr ⟨not_le.mp full, fun cap none => (by cases none), rfl, rfl, fun some => absurd rfl some⟩
      | some cap =>
        simp only [scanned.families (by rw [caps]; simp)]
        by_cases crowded : (ofFamily options (familyOf options entry.candidate) scan.selected : Int) ≥ cap
        · rw [if_pos crowded]
          exact .inl ⟨.inr (.inr ⟨cap, caps, crowded⟩), rfl, rfl, rfl⟩
        · rw [if_neg crowded]
          refine .inr ⟨not_le.mp full, fun other same => ?_, rfl, rfl, fun _ => rfl⟩
          rw [← Option.some.inj same]
          exact not_le.mp crowded

theorem scan_counted {scan : Scan} (scanned : ScannedTo options before scan)
    (entry : Aggregate) :
    (scanAggregate options scan entry).scanned ≤ (before ++ [entry]).length ∧
      ((scanAggregate options scan entry).scanned < diversityScanLimit options →
        (scanAggregate options scan entry).scanned = (before ++ [entry]).length) := by
  have counted := scanned.counted
  have scans : (scanAggregate options scan entry).scanned =
      if (scan.scanned : Int) ≥ diversityScanLimit options then scan.scanned else scan.scanned + 1 := by
    unfold scanAggregate
    split
    · rfl
    · dsimp only
      split
      · rfl
      · split
        · rfl
        · split <;> rfl
  rw [scans, length_append, length_singleton]
  split <;> omega

theorem ScannedTo.nil : ScannedTo options [] ⟨[], [], 0, [], []⟩ where
  counted := ⟨le_refl _, fun _ => rfl⟩
  sources _ := rfl
  families _ _ := rfl
  sublist := List.Sublist.refl _
  sourceCap _ none := nomatch none
  familyCap _ _ _ none := nomatch none

theorem ScannedTo.step {scan : Scan} (scanned : ScannedTo options before scan)
    (entry : Aggregate) :
    ScannedTo options (before ++ [entry]) (scanAggregate options scan entry) := by
  have counted := scan_counted scanned entry
  rcases scan_cases scanned entry with ⟨-, selected, sources, families⟩ | ⟨room, space, selected, sources, families⟩
  · refine ⟨counted, ?_, ?_, ?_, ?_, ?_⟩
    all_goals rw [selected]
    · rw [sources]
      exact scanned.sources
    · rw [families]
      exact scanned.families
    · exact scanned.sublist.trans (sublist_append_left _ _)
    · exact scanned.sourceCap
    · exact scanned.familyCap
  · have source (name : Text) : ofSource name (scan.selected ++ [entry]) =
        if name = entry.candidate.sourceRevisionRef then ofSource name scan.selected + 1 else ofSource name scan.selected := by
      unfold ofSource
      rw [countP_append, countP_singleton]
      by_cases same : name = entry.candidate.sourceRevisionRef
      · simp [same]
      · simp [same, Ne.symm same]
    have family (name : Text) : ofFamily options name (scan.selected ++ [entry]) =
        if name = familyOf options entry.candidate then ofFamily options name scan.selected + 1
        else ofFamily options name scan.selected := by
      unfold ofFamily
      rw [countP_append, countP_singleton]
      by_cases same : name = familyOf options entry.candidate
      · simp [same]
      · simp [same, Ne.symm same]
    refine ⟨counted, fun name => ?_, fun capped name => ?_, ?_, fun other listed => ?_,
      fun cap capped other listed => ?_⟩
    all_goals rw [selected]
    · rw [sources, count_put, source]
      split
      · rename_i same
        rw [same]
      · exact scanned.sources name
    · rw [families capped, count_put, family]
      split
      · rename_i same
        rw [same]
      · exact scanned.families capped name
    · exact scanned.sublist.append (List.Sublist.refl _)
    · rw [source]
      split
      · rename_i same
        rw [same]
        omega
      · rename_i apart
        rw [selected] at listed
        rcases mem_append.mp listed with listed | listed
        · exact scanned.sourceCap other listed
        · exact absurd (by rw [mem_singleton.mp listed]) apart
    · rw [family]
      have below := space cap capped
      split
      · rename_i same
        rw [same]
        omega
      · rename_i apart
        rw [selected] at listed
        rcases mem_append.mp listed with listed | listed
        · exact scanned.familyCap cap capped other listed
        · exact absurd (by rw [mem_singleton.mp listed]) apart

theorem ScannedTo.run {scan : Scan} (scanned : ScannedTo options before scan)
    (rest : List Aggregate) :
    ScannedTo options (before ++ rest) (rest.foldl (scanAggregate options) scan) ∧
      scan.selected <+: (rest.foldl (scanAggregate options) scan).selected := by
  induction rest generalizing before scan with
  | nil => simpa using scanned
  | cons entry rest ih =>
    obtain ⟨whole, later⟩ := ih (scanned.step entry)
    rw [append_assoc, singleton_append] at whole
    refine ⟨whole, List.IsPrefix.trans ?_ later⟩
    rcases scan_cases scanned entry with ⟨-, selected, -⟩ | ⟨-, -, selected, -⟩
    · exact selected ▸ prefix_refl _
    · exact selected ▸ prefix_append _ _

theorem scanned_all (options : FusionOptions) (ordered : List Aggregate) :
    ScannedTo options ordered (scanAggregates options ordered) :=
  (ScannedTo.nil.run ordered).1

theorem scanned_at {before after : List Aggregate} {entry : Aggregate} :
    ∃ higher lower, (scanAggregates options (before ++ entry :: after)).selected = higher ++ lower ∧
      higher.Sublist before ∧
      (entry ∈ lower ∨ LeftOut options before higher entry) := by
  have front := scanned_all options before
  have split : scanAggregates options (before ++ entry :: after) =
      after.foldl (scanAggregate options) (scanAggregate options (scanAggregates options before) entry) := by
    rw [scanAggregates, foldl_append, foldl_cons]
    rfl
  obtain ⟨lower, rest⟩ := ((front.step entry).run after).2
  rw [split, ← rest]
  rcases scan_cases front entry with ⟨reason, selected, -⟩ | ⟨-, -, selected, -⟩
  · exact ⟨_, lower, by rw [selected], front.sublist, .inr reason⟩
  · refine ⟨_, entry :: lower, ?_, front.sublist, .inl (mem_cons_self ..)⟩
    rw [selected, append_assoc, singleton_append]

end

section
variable {runtime : Runtime} {options : FusionOptions} {lanes others : RankedLists}

def resultsOfSource (source : Text) (results : List FusedCandidate) : Nat :=
  results.countP fun result => result.candidate.sourceRevisionRef = source

def resultsOfFamily (options : FusionOptions) (family : Text) (results : List FusedCandidate) : Nat :=
  results.countP fun result => familyOf options result.candidate = family

structure Descending (runtime : Runtime) (lanes : RankedLists) (ordered : List Aggregate) : Prop where
  strict : ordered.Pairwise fun higher lower => compareAggregates runtime higher lower < 0
  distinct : (ordered.map fun aggregate => identityKey aggregate.candidate).Nodup
  listed : ∀ lane candidate, lanes.Lists lane candidate →
    ∃ aggregate ∈ ordered, identityKey aggregate.candidate = identityKey candidate
  known : ∀ aggregate ∈ ordered, ∃ lane, lanes.Lists lane aggregate.candidate

structure Diverse (runtime : Runtime) (options : FusionOptions) (lanes : RankedLists)
    (fused : List FusedCandidate) : Prop where
  distinct : (fused.map fun result => identityKey result.candidate).Nodup
  descending : fused.Pairwise fun higher lower => lower.fusedScore ≤ higher.fusedScore
  sourceCap : ∀ result ∈ fused,
    (resultsOfSource result.candidate.sourceRevisionRef fused : Int) ≤ options.maxPerSourceRevision
  familyCap : ∀ cap, options.maxPerFamily = some cap → ∀ result ∈ fused,
    (resultsOfFamily options (familyOf options result.candidate) fused : Int) ≤ cap
  omitted : ∃ ordered, Descending runtime lanes ordered ∧
    ∀ before entry after, ordered = before ++ entry :: after →
      (∃ result ∈ fused, result.candidate = entry.candidate ∧ result.fusedScore = entry.score) ∨
      diversityScanLimit options ≤ before.length ∨
      ∃ higher lower, fused = higher ++ lower ∧
        (∀ result ∈ higher, ∃ other ∈ before, result.candidate = other.candidate ∧ result.fusedScore =
          other.score) ∧
        (options.maxPerSourceRevision ≤ resultsOfSource entry.candidate.sourceRevisionRef higher ∨
          ∃ cap, options.maxPerFamily = some cap ∧
            cap ≤ resultsOfFamily options (familyOf options entry.candidate) higher)

theorem collected_descending {state : Recorded} (collects : collectIdentities runtime lanes = .ok state) :
    Descending runtime lanes (ranked runtime options state.1) := by
  have keyed := keyed_collected collects
  refine ⟨keyed.ranked_strict.2, keyed.ranked_strict.1, fun lane candidate listed => ?_, fun aggregate member => ?_⟩
  · have row : candidate ∈ lanes.rows lane (identityKey candidate) := mem_rows.mpr ⟨listed, rfl⟩
    obtain ⟨first, head⟩ : ∃ first, (sortRepresentatives runtime
        (lanes.rows lane (identityKey candidate))).head? = some first := by
      cases sorted : sortRepresentatives runtime (lanes.rows lane (identityKey candidate)) with
      | nil =>
        have there := (perm_insertionSort (fun left right =>
            compareRepresentatives runtime left right ≤ 0) _).mem_iff.mpr row
        rw [sortRepresentatives] at sorted
        rw [sorted] at there
        cases there
      | cons first rest => exact ⟨first, rfl⟩
    obtain ⟨byLane, found⟩ := Option.isSome_iff_exists.mp
      (keyed.whole.isSome.mpr ⟨lane, first, by rw [(collected collects).2, head]⟩)
    obtain ⟨aggregate, some, inside, -⟩ :=
      @aggregated_some runtime options (identityKey candidate, byLane) (keyed.whole.filled _ _ found)
    have member := (mem_iff_get keyed.whole.distinct).mpr found
    have own := keyed.own _ member _ inside
    exact ⟨aggregate, keyed.mem_ranked.mpr ⟨_, member, some, own.symm⟩, own⟩
  · obtain ⟨identity, listed, found, own⟩ := keyed.mem_ranked.mp member
    have filled := keyed.whole.filled identity.1 identity.2 ((mem_iff_get keyed.whole.distinct).mp listed)
    obtain ⟨other, some, inside, -⟩ := @aggregated_some runtime options identity filled
    rw [found] at some
    obtain rfl := Option.some.inj some
    obtain ⟨-, lane, fronts⟩ := (mem_identity collects listed).mp inside
    exact ⟨lane, fronts_lists fronts⟩

theorem fused_diverse {fusion : Fusion} (fuses : reciprocalRankFuse runtime options lanes = .ok fusion) :
    Diverse runtime options lanes fusion.fused := by
  obtain ⟨state, collects, -, rfl⟩ := reciprocalRankFuse_ok.mp fuses
  have descending := @collected_descending runtime options lanes state collects
  generalize ranked runtime options state.1 = ordered at descending
  have scanned := scanned_all options ordered
  have source (name : Text) (entries : List Aggregate) :
      resultsOfSource name (entries.map (presentAggregate state.1)) = ofSource name entries := by
    rw [resultsOfSource, countP_map]
    rfl
  have family (name : Text) (entries : List Aggregate) :
      resultsOfFamily options name (entries.map (presentAggregate state.1)) = ofFamily options name entries := by
    rw [resultsOfFamily, countP_map]
    rfl
  refine ⟨?_, ?_, fun result chosen => ?_, fun cap capped result chosen => ?_, ordered, descending, ?_⟩
  · rw [map_map]
    exact descending.distinct.sublist (scanned.sublist.map _)
  · rw [pairwise_map]
    refine (descending.strict.sublist scanned.sublist).imp fun {higher lower} below => ?_
    have key := ((compares_aggregates higher lower).1.mp below).le
    unfold aggregateKey at key
    rw [Prod.Lex.toLex_le_toLex] at key
    rcases key with strict | ⟨level, -⟩
    · exact (OrderDual.toDual_lt_toDual.mp strict).le
    · exact le_of_eq (OrderDual.toDual_inj.mp level).symm
  · obtain ⟨entry, selected, rfl⟩ := mem_map.mp chosen
    rw [source]
    exact scanned.sourceCap entry selected
  · obtain ⟨entry, selected, rfl⟩ := mem_map.mp chosen
    rw [family]
    exact scanned.familyCap cap capped entry selected
  · rintro before entry after rfl
    obtain ⟨higher, lower, selected, sublist, placed⟩ := @scanned_at options before after entry
    dsimp only
    rw [selected, map_append]
    rcases placed with chosen | limit | full
    · exact .inl ⟨_, mem_append_right _ (mem_map_of_mem chosen), rfl, rfl⟩
    · exact .inr (.inl limit)
    · refine .inr (.inr ⟨_, _, rfl, fun result listed => ?_, ?_⟩)
      · obtain ⟨other, member, rfl⟩ := mem_map.mp listed
        exact ⟨other, sublist.subset member, rfl, rfl⟩
      · simpa only [source, family] using full

end

def sampleLanes : RankedLists where
  entries := [(.sem, [sampleCandidate 97 .sem 1 none, sampleCandidate 98 .sem 2 (some 97)]),
    (.lex, [sampleCandidate 99 .lex 1 (some 97)])]
  distinct := by decide

def sampleMoved : RankedLists where
  entries := [(.lex, [sampleCandidate 99 .lex 1 (some 97)]),
    (.sem, [sampleCandidate 98 .sem 2 (some 97), sampleCandidate 97 .sem 1 none])]
  distinct := by decide

end Retrieval
