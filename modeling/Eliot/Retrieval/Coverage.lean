import Mathlib.Algebra.BigOperators.Group.List.Basic
import Eliot.Collections.Fallible
import Eliot.Retrieval.Exhaustive

namespace Retrieval

open List
open Fallible (bind_ok guard_ok)
open Text (decimal)

theorem padStart_number (width value : Nat) :
    Text.number (padStart width 48 (decimal value)) = value := by
  have zeros (count : Nat) (digits : Text) :
      Text.number (List.replicate count 48 ++ digits) = Text.number digits := by
    unfold Text.number
    rw [reverse_append, map_append, reverse_replicate, map_replicate]
    exact Nat.ofDigits_append_replicate_zero _
  rw [padStart, zeros, Text.number_decimal]

theorem shardIdFor_injective (planId : Text) : Function.Injective (shardIdFor planId) := by
  intro first second same
  unfold shardIdFor at same
  have digits := append_cancel_left same
  rw [← padStart_number 4 first, digits, padStart_number]

section
variable {planId : Text} {groups : List (List ExhaustiveSectionDescriptor)}
  {current : List ExhaustiveSectionDescriptor} {packing : Packing}

def groupBytes (group : List ExhaustiveSectionDescriptor) : Int :=
  (group.map (·.uncompressedBytes)).sum

def Fits (group : List ExhaustiveSectionDescriptor) : Prop :=
  groupBytes group ≤ hardBytes ∧ group.length ≤ maxShardSections

structure Packed (planId : Text) (groups : List (List ExhaustiveSectionDescriptor))
    (current : List ExhaustiveSectionDescriptor) (packing : Packing) : Prop where
  refs : packing.shards.map (·.sectionObjectRefs) = groups.map (·.map (·.sectionRef))
  ids : packing.shards.map (·.shardId) = (List.range groups.length).map (shardIdFor planId)
  filled : ∀ group ∈ groups, group ≠ [] ∧ Fits group
  currentRefs : packing.currentRefs = current.map (·.sectionRef)
  bytes : packing.currentBytes = groupBytes current
  fits : Fits current

theorem Packed.closed (packed : Packed planId groups current packing) (open' : current ≠ []) :
    Packed planId (groups ++ [current]) [] (closeShard planId packing) := by
  have some : ¬packing.currentRefs.length = 0 := by
    rw [packed.currentRefs, length_map]
    exact mt eq_nil_of_length_eq_zero open'
  have count : packing.shards.length = groups.length := by
    simpa using congrArg List.length packed.refs
  unfold closeShard
  rw [if_neg some]
  constructor
  · simp [packed.refs, packed.currentRefs]
  · simp [packed.ids, count, range_succ]
  · intro group listed
    rcases mem_append.mp listed with listed | listed
    · exact packed.filled group listed
    · exact mem_singleton.mp listed ▸ ⟨open', packed.fits⟩
  · rfl
  · rfl
  · exact ⟨by decide, by decide⟩

theorem Packed.added {descriptor : ExhaustiveSectionDescriptor} (packed : Packed planId groups current packing)
    (small : descriptor.uncompressedBytes ≤ hardBytes) : ∃ groups' current',
      groups'.flatten ++ current' = groups.flatten ++ current ++ [descriptor] ∧
        Packed planId groups' current' (addSection planId packing descriptor) := by
  have join {groups : List (List ExhaustiveSectionDescriptor)} {current : List ExhaustiveSectionDescriptor}
      {packing : Packing} (packed : Packed planId groups current packing)
      (room : Fits (current ++ [descriptor])) : Packed planId groups (current ++ [descriptor])
        { shards := packing.shards
          currentRefs := packing.currentRefs ++ [descriptor.sectionRef]
          currentRevisions :=
            if descriptor.sourceRevisionRef ∈ packing.currentRevisions then packing.currentRevisions
            else packing.currentRevisions ++ [descriptor.sourceRevisionRef]
          currentBytes := packing.currentBytes + descriptor.uncompressedBytes } := by
    refine ⟨packed.refs, packed.ids, packed.filled, ?_, ?_, room⟩
    · rw [map_append, packed.currentRefs]
      rfl
    · simp [packed.bytes, groupBytes]
  unfold addSection
  cases full : overflows packing descriptor with
  | true =>
    have open' : current ≠ [] := by
      rintro rfl
      simp [overflows, packed.currentRefs] at full
    refine ⟨groups ++ [current], [descriptor], by simp, ?_⟩
    exact join (packed.closed open') ⟨by simpa [groupBytes] using small, by simp [maxShardSections]⟩
  | false =>
    refine ⟨groups, current ++ [descriptor], by simp, ?_⟩
    by_cases fresh : current = []
    · subst fresh
      exact join packed ⟨by simpa [groupBytes] using small, by simp [maxShardSections]⟩
    · have positive : 0 < current.length := length_pos_of_ne_nil fresh
      have room := full
      simp only [overflows, packed.bytes, packed.currentRefs, Bool.and_eq_false_iff, Bool.or_eq_false_iff,
        decide_eq_false_iff_not, length_map] at room
      refine join packed ⟨?_, ?_⟩
      · simp only [groupBytes, map_append, sum_append, map_cons, map_nil,
          sum_cons, sum_nil, add_zero] at room ⊢
        omega
      · rw [length_append, length_singleton]
        omega

theorem Packed.run {sections : List ExhaustiveSectionDescriptor} (packed : Packed planId groups current packing)
    (small : ∀ descriptor ∈ sections, descriptor.uncompressedBytes ≤ hardBytes) : ∃ groups' current',
      groups'.flatten ++ current' = groups.flatten ++ current ++ sections ∧
        Packed planId groups' current' (sections.foldl (addSection planId) packing) := by
  induction sections generalizing groups current packing with
  | nil => exact ⟨groups, current, by simp, packed⟩
  | cons descriptor sections ih =>
    obtain ⟨more, next, same, added⟩ := packed.added (small descriptor mem_cons_self)
    obtain ⟨groups', current', whole, ran⟩ :=
      ih added fun other listed => small other (mem_cons_of_mem _ listed)
    refine ⟨groups', current', ?_, ran⟩
    rw [whole, same, append_assoc _ [descriptor], singleton_append]

theorem packSections_packed {sections : List ExhaustiveSectionDescriptor}
    (small : ∀ descriptor ∈ sections, descriptor.uncompressedBytes ≤ hardBytes) : ∃ groups packing,
      groups.flatten = sections ∧ packSections planId sections = packing.shards ∧
        Packed planId groups [] packing := by
  have start : Packed planId [] [] ⟨[], [], [], 0⟩ :=
    ⟨rfl, rfl, fun _ none => absurd none not_mem_nil, rfl, rfl, by decide, by decide⟩
  obtain ⟨groups, current, whole, packed⟩ := start.run small
  by_cases done : current = []
  · subst done
    refine ⟨groups, _, by simpa using whole, ?_, packed⟩
    rw [packSections, closeShard, if_pos (by simp [packed.currentRefs])]
  · exact ⟨groups ++ [current], _, by simpa using whole, rfl, packed.closed done⟩

end

section
variable {input : PlanExhaustiveScanInput} {plan : ExactScanPlan} {members seen : List Text}
  {sections : List ExhaustiveSectionDescriptor}

theorem checkSections_ok (passed : checkSections members seen sections = .ok ()) :
    (sections.map (·.sectionRef)).Nodup ∧ ∀ descriptor ∈ sections,
      descriptor.sectionRef ∉ seen ∧ descriptor.uncompressedBytes ≤ hardBytes := by
  induction sections generalizing seen with
  | nil => exact ⟨nodup_nil, fun _ none => absurd none not_mem_nil⟩
  | cons descriptor sections ih =>
    rw [checkSections] at passed
    obtain ⟨-, passed⟩ := guard_ok passed
    obtain ⟨-, passed⟩ := guard_ok passed
    obtain ⟨-, passed⟩ := guard_ok passed
    obtain ⟨fresh, passed⟩ := guard_ok passed
    obtain ⟨small, passed⟩ := guard_ok passed
    obtain ⟨apart, rest⟩ := ih passed
    refine ⟨?_, forall_mem_cons.mpr ⟨⟨fresh, not_lt.mp small⟩, fun other listed => ?_⟩⟩
    · rw [map_cons, nodup_cons]
      refine ⟨fun again => ?_, apart⟩
      obtain ⟨other, listed, same⟩ := mem_map.mp again
      exact (rest other listed).1 (same ▸ mem_cons_self)
    · exact ⟨fun early => (rest other listed).1 (mem_cons_of_mem _ early), (rest other listed).2⟩

theorem checkMembers_ok (passed : checkMembers members sections = .ok ()) :
    ∀ member ∈ members, ∃ descriptor ∈ sections, descriptor.sourceRevisionRef = member := by
  induction members with
  | nil => exact fun _ none => absurd none not_mem_nil
  | cons member members ih =>
    obtain ⟨_, covered, passed⟩ := bind_ok passed
    refine forall_mem_cons.mpr ⟨?_, ih passed⟩
    by_cases there : sections.any fun descriptor => descriptor.sourceRevisionRef = member
    · simpa using there
    · dsimp only at covered
      rw [if_pos there] at covered
      cases covered

theorem planExhaustiveScan_ok (planned : planExhaustiveScan input = .ok plan) :
    (input.sections.map (·.sectionRef)).Nodup ∧
      (∀ descriptor ∈ input.sections, descriptor.uncompressedBytes ≤ hardBytes) ∧
      (∀ member ∈ input.scope.memberSourceRevisionRefs,
        ∃ descriptor ∈ input.sections, descriptor.sourceRevisionRef = member) ∧
      plan.planId = planIdFor input ∧ plan.shards = packSections (planIdFor input) input.sections := by
  obtain ⟨scope, framed, planned⟩ := bind_ok planned
  obtain ⟨probes, -, planned⟩ := bind_ok planned
  obtain ⟨-, planned⟩ := guard_ok planned
  obtain ⟨-, planned⟩ := guard_ok planned
  obtain ⟨_, sectioned, planned⟩ := bind_ok planned
  obtain ⟨_, covered, planned⟩ := bind_ok planned
  obtain ⟨-, planned⟩ := guard_ok planned
  have same : scope = input.scope := by
    unfold checkScope at framed
    obtain ⟨-, framed⟩ := guard_ok framed
    obtain ⟨-, framed⟩ := guard_ok framed
    cases framed
    rfl
  subst same
  cases planned
  obtain ⟨apart, each⟩ := checkSections_ok sectioned
  refine ⟨apart, fun descriptor listed => (each descriptor listed).2, fun member listed => ?_, rfl, rfl⟩
  exact checkMembers_ok covered member (by simpa using listed)

end

variable {outcome : ExhaustiveShardOutcome}

section
variable {Input : Type} {verify : Verifier Input} {probes : List Text} {shardId : Text}
  {moment : Nat → Moment Input}

structure Scanned (shardId : Text) (refs : List Text) (found : Nat)
    (outcomes : List ExhaustiveSectionOutcome) (result : ExhaustiveShardOutcome) : Prop where
  shard : result.shardId = shardId
  scanned : result.scannedSections = result.sectionOutcomes.length
  outcomes : ∃ more, result.sectionOutcomes = outcomes ++ more ∧
    result.matchCount = found + (more.map (·.matchCount)).sum ∧
    (result.isSettled = true → more.map (·.sectionRef) = refs)

theorem scanSections_scanned (refs : List Text) (found : Nat) (outcomes : List ExhaustiveSectionOutcome) :
    Scanned shardId refs found outcomes
      (scanSections verify probes shardId moment refs found outcomes) := by
  have stopped (reason : Text) (refs : List Text) (found : Nat) (outcomes : List ExhaustiveSectionOutcome) :
      Scanned shardId refs found outcomes (unsettled shardId reason found outcomes) :=
    ⟨rfl, rfl, [], by simp [unsettled], by simp [unsettled], fun settled => by cases settled⟩
  induction refs generalizing found outcomes with
  | nil => exact ⟨rfl, rfl, [], by simp [scanSections], by simp [scanSections], fun _ => rfl⟩
  | cons sectionRef refs ih =>
    have step (status : ExhaustiveSectionStatus) (count : Nat) (failure : Option Text) :
        Scanned shardId (sectionRef :: refs) found outcomes (scanSections verify probes shardId moment
          refs (found + count) (outcomes ++ [⟨sectionRef, status, count, failure⟩])) := by
      obtain ⟨shard, scanned, more, grown, counted, settled⟩ :=
        ih (found + count) (outcomes ++ [⟨sectionRef, status, count, failure⟩])
      refine ⟨shard, scanned, ⟨sectionRef, status, count, failure⟩ :: more, ?_, ?_, fun whole => ?_⟩
      · rw [grown, append_assoc, singleton_append]
      · rw [counted, map_cons, sum_cons, Nat.add_assoc]
      · rw [map_cons, settled whole]
    rw [scanSections]
    dsimp only
    split
    · exact stopped _ _ _ _
    split
    · exact stopped _ _ _ _
    split
    · exact step _ _ _
    · split
      · exact step .noMatch 0 none
      · exact step .failedClosed 0 _
    · exact stopped _ _ _ _

theorem executeExhaustiveShard_scanned {shard : ExactScanShard}
    (ran : executeExhaustiveShard verify probes moment shard = .ok outcome) :
    Scanned shard.shardId shard.sectionObjectRefs 0 [] outcome := by
  unfold executeExhaustiveShard at ran
  obtain ⟨-, ran⟩ := guard_ok ran
  obtain ⟨checked, -, ran⟩ := bind_ok ran
  cases ran
  exact scanSections_scanned _ _ _

end

section
variable {plan : ExactScanPlan} {outcomes : List ExhaustiveShardOutcome} {result : ExhaustiveMergeResult}
  {denominator : List Text}

theorem fileOutcomes_ok {byShard filed : List ExhaustiveShardOutcome}
    (apart : (byShard.map (·.shardId)).Nodup)
    (passed : fileOutcomes denominator byShard outcomes = .ok filed) :
    filed = byShard ++ outcomes ∧ (filed.map (·.shardId)).Nodup ∧
      ∀ outcome ∈ outcomes, outcome.shardId ∈ denominator := by
  induction outcomes generalizing byShard with
  | nil =>
    cases passed
    exact ⟨by simp, apart, fun _ none => absurd none not_mem_nil⟩
  | cons outcome outcomes ih =>
    rw [fileOutcomes] at passed
    obtain ⟨known, passed⟩ := guard_ok passed
    obtain ⟨fresh, passed⟩ := guard_ok passed
    have apart : ((byShard ++ [outcome]).map (·.shardId)).Nodup := by
      rw [map_append, nodup_append]
      refine ⟨apart, nodup_singleton _, fun first there second other => ?_⟩
      obtain ⟨one, listed, rfl⟩ := mem_map.mp there
      obtain rfl := mem_singleton.mp other
      simp only [any_eq_true, decide_eq_true_eq, not_exists, not_and] at fresh
      exact fresh one listed
    obtain ⟨whole, distinct, each⟩ := ih apart passed
    refine ⟨by rw [whole]; simp, distinct, forall_mem_cons.mpr ⟨not_not.mp known, each⟩⟩

def settledOf (byShard : List ExhaustiveShardOutcome) (shardId : Text) : Option ExhaustiveShardOutcome :=
  (byShard.find? fun outcome => outcome.shardId = shardId).filter (·.isSettled)

theorem tally_settled (byShard : List ExhaustiveShardOutcome) (ids : List Text) (tally : Tally) :
    let settled := ids.filterMap (settledOf byShard)
    let final := ids.foldl (tallyShard byShard) tally
    final.settled = tally.settled + settled.length ∧
      final.scanned = tally.scanned + (settled.map (·.scannedSections)).sum ∧
      final.matchCount = tally.matchCount + (settled.map (·.matchCount)).sum := by
  induction ids generalizing tally with
  | nil => simp
  | cons id ids ih =>
    obtain ⟨count, scanned, found⟩ := ih (tallyShard byShard tally id)
    simp only [foldl_cons, count, scanned, found]
    cases there : byShard.find? fun outcome => outcome.shardId = id with
    | none => simp [tallyShard, settledOf, there]
    | some outcome =>
      cases done : outcome.isSettled with
      | false => simp [tallyShard, settledOf, there, done]
      | true =>
        simp only [tallyShard, there, done, settledOf, Option.filter_some, if_true,
          filterMap_cons, map_cons, sum_cons, length_cons]
        omega

theorem mergeExhaustiveShards_ok (merged : mergeExhaustiveShards plan outcomes = .ok result) :
    let ids := plan.shards.map (·.shardId)
    let settled := ids.filterMap (settledOf outcomes)
    ids.Nodup ∧ (outcomes.map (·.shardId)).Nodup ∧ (∀ outcome ∈ outcomes, outcome.shardId ∈ ids) ∧
      result.totalScannedSections = (settled.map (·.scannedSections)).sum ∧
      result.totalMatches = (settled.map (·.matchCount)).sum ∧
      (result.coverageClaim = .complete → settled.length = ids.length) := by
  unfold mergeExhaustiveShards at merged
  obtain ⟨-, merged⟩ := guard_ok merged
  obtain ⟨distinct, merged⟩ := guard_ok merged
  obtain ⟨filed, passed, merged⟩ := bind_ok merged
  cases merged
  have start : (([] : List ExhaustiveShardOutcome).map (·.shardId)).Nodup := nodup_nil
  obtain ⟨whole, apart, known⟩ := fileOutcomes_ok start passed
  rw [nil_append] at whole
  subst whole
  obtain ⟨count, scanned, found⟩ := tally_settled filed (plan.shards.map (·.shardId)) ⟨[], 0, 0, 0⟩
  have nodup : (plan.shards.map (·.shardId)).Nodup := by
    rw [← dedup_eq_self]
    exact (dedup_sublist _).eq_of_length (not_not.mp distinct)
  refine ⟨nodup, apart, known, by simpa using scanned, by simpa using found, fun complete => ?_⟩
  dsimp only at complete
  split at complete
  · rename_i all
    rw [count] at all
    simpa using all
  · split at complete <;> cases complete

theorem settledOf_some {id : Text}
    (apart : (outcomes.map (·.shardId)).Nodup) : settledOf outcomes id = some outcome ↔
      outcome ∈ outcomes ∧ outcome.shardId = id ∧ outcome.isSettled = true := by
  unfold settledOf
  rw [Option.filter_eq_some_iff]
  constructor
  · rintro ⟨found, settled⟩
    exact ⟨mem_of_find?_eq_some found, by simpa using find?_some found, settled⟩
  · rintro ⟨listed, rfl, settled⟩
    refine ⟨?_, settled⟩
    cases found : outcomes.find? fun other => other.shardId = outcome.shardId with
    | none => simpa using find?_eq_none.mp found outcome listed
    | some other =>
      have same : other.shardId = outcome.shardId := by simpa using find?_some found
      rw [inj_on_of_nodup_map apart (mem_of_find?_eq_some found) listed same]

theorem flatMap_filterMap {α β γ : Type} {values : List α} {change : α → Option β}
    {left : β → List γ} {right : α → List γ}
    (each : ∀ value ∈ values, ∃ next, change value = some next ∧ left next = right value) :
    (values.filterMap change).flatMap left = values.flatMap right := by
  induction values with
  | nil => rfl
  | cons value values ih =>
    obtain ⟨⟨next, changed, same⟩, rest⟩ := forall_mem_cons.mp each
    rw [filterMap_cons_some changed, flatMap_cons, flatMap_cons, same, ih rest]

theorem settled_perm {ids : List Text} (distinct : ids.Nodup) (apart : (outcomes.map (·.shardId)).Nodup)
    (known : ∀ outcome ∈ outcomes, outcome.shardId ∈ ids) :
    (ids.filterMap (settledOf outcomes)).Perm (outcomes.filter (·.isSettled)) := by
  rw [perm_ext_iff_of_nodup]
  · intro outcome
    rw [mem_filterMap, mem_filter]
    constructor
    · rintro ⟨id, -, found⟩
      obtain ⟨listed, -, settled⟩ := (settledOf_some apart).mp found
      exact ⟨listed, settled⟩
    · rintro ⟨listed, settled⟩
      exact ⟨_, known outcome listed, (settledOf_some apart).mpr ⟨listed, rfl, settled⟩⟩
  · refine List.Nodup.filterMap (fun id other outcome first second => ?_) distinct
    obtain ⟨-, rfl, -⟩ := (settledOf_some apart).mp first
    obtain ⟨-, rfl, -⟩ := (settledOf_some apart).mp second
    rfl
  · exact (List.Nodup.of_map _ apart).filter _

end

section

def settledSections (outcomes : List ExhaustiveShardOutcome) : List ExhaustiveSectionOutcome :=
  (outcomes.filter (·.isSettled)).flatMap (·.sectionOutcomes)

def bytesOf (sections : List ExhaustiveSectionDescriptor) (sectionRef : Text) : Int :=
  ((sections.find? fun descriptor => descriptor.sectionRef = sectionRef).map (·.uncompressedBytes)).getD 0

def Produced (plan : ExactScanPlan) (outcome : ExhaustiveShardOutcome) : Prop :=
  ∃ shard ∈ plan.shards, ∃ (Input : Type) (verify : Verifier Input) (probes : List Text)
    (moment : Nat → Moment Input), executeExhaustiveShard verify probes moment shard = .ok outcome

variable {input : PlanExhaustiveScanInput} {plan : ExactScanPlan}

theorem Produced.scanned (produced : Produced plan outcome) :
    ∃ shard ∈ plan.shards, Scanned shard.shardId shard.sectionObjectRefs 0 [] outcome := by
  obtain ⟨shard, listed, Input, verify, probes, moment, ran⟩ := produced
  exact ⟨shard, listed, executeExhaustiveShard_scanned ran⟩

theorem Produced.totals (produced : Produced plan outcome) :
    outcome.scannedSections = outcome.sectionOutcomes.length ∧
      outcome.matchCount = (outcome.sectionOutcomes.map (·.matchCount)).sum := by
  obtain ⟨shard, -, -, scanned, more, grown, counted, -⟩ := produced.scanned
  rw [nil_append] at grown
  subst grown
  exact ⟨scanned, by rw [counted, Nat.zero_add]⟩

theorem bytesOf_group {sections group : List ExhaustiveSectionDescriptor}
    (apart : (sections.map (·.sectionRef)).Nodup) (inside : ∀ descriptor ∈ group, descriptor ∈ sections) :
    (group.map (·.sectionRef)).map (bytesOf sections) = group.map (·.uncompressedBytes) := by
  rw [map_map]
  refine map_congr_left fun descriptor listed => ?_
  unfold bytesOf
  cases found : sections.find? fun other => other.sectionRef = descriptor.sectionRef with
  | none => simpa using find?_eq_none.mp found descriptor (inside descriptor listed)
  | some other =>
    have same : other.sectionRef = descriptor.sectionRef := by simpa using find?_some found
    obtain rfl : other = descriptor :=
      inj_on_of_nodup_map apart (mem_of_find?_eq_some found) (inside descriptor listed) same
    simp [found]

theorem plan_partition (planned : planExhaustiveScan input = .ok plan) :
    plan.shards.flatMap (·.sectionObjectRefs) = input.sections.map (·.sectionRef) ∧
      (plan.shards.map (·.shardId)).Nodup ∧
      ∀ shard ∈ plan.shards, shard.sectionObjectRefs ≠ [] ∧
        (shard.sectionObjectRefs.map (bytesOf input.sections)).sum ≤ hardBytes ∧
        shard.sectionObjectRefs.length ≤ maxShardSections := by
  obtain ⟨apart, small, -, -, shards⟩ := planExhaustiveScan_ok planned
  obtain ⟨groups, packing, whole, packs, packed⟩ := @packSections_packed (planIdFor input) _ small
  rw [shards, packs]
  refine ⟨?_, ?_, fun shard listed => ?_⟩
  · rw [flatMap_def, packed.refs, ← map_flatten, whole]
  · rw [packed.ids]
    exact nodup_range.map (shardIdFor_injective _)
  · have refs : shard.sectionObjectRefs ∈ groups.map (·.map (·.sectionRef)) := by
      rw [← packed.refs]
      exact mem_map_of_mem listed
    obtain ⟨group, there, same⟩ := mem_map.mp refs
    obtain ⟨some, bytes, count⟩ := packed.filled group there
    rw [← same, bytesOf_group apart, length_map]
    · exact ⟨by simpa using some, bytes, count⟩
    · exact fun descriptor inside => whole ▸ mem_flatten.mpr ⟨group, there, inside⟩

theorem merge_complete {outcomes : List ExhaustiveShardOutcome} {result : ExhaustiveMergeResult}
    (produced : ∀ outcome ∈ outcomes, Produced plan outcome)
    (merged : mergeExhaustiveShards plan outcomes = .ok result)
    (complete : result.coverageClaim = .complete) :
    ((settledSections outcomes).map (·.sectionRef)).Perm (plan.shards.flatMap (·.sectionObjectRefs)) ∧
      result.totalScannedSections = (settledSections outcomes).length ∧
      result.totalMatches = ((settledSections outcomes).map (·.matchCount)).sum := by
  obtain ⟨distinct, apart, known, scanned, found, all⟩ := mergeExhaustiveShards_ok merged
  have perm := settled_perm distinct apart known
  have each (shard : ExactScanShard) (listed : shard ∈ plan.shards) : ∃ outcome,
      settledOf outcomes shard.shardId = some outcome ∧
        outcome.sectionOutcomes.map (·.sectionRef) = shard.sectionObjectRefs := by
    obtain ⟨outcome, there⟩ := Option.isSome_iff_exists.mp
      (filterMap_length_eq_length.mp (all complete) _ (mem_map_of_mem listed))
    obtain ⟨given, named, settled⟩ := (settledOf_some apart).mp there
    obtain ⟨own, planned, shardId, -, more, grown, -, refs⟩ := (produced outcome given).scanned
    obtain rfl : own = shard := inj_on_of_nodup_map distinct planned listed (shardId.symm.trans named)
    exact ⟨outcome, there, by rw [grown, nil_append, refs settled]⟩
  have totals (outcome : ExhaustiveShardOutcome)
      (listed : outcome ∈ (plan.shards.map (·.shardId)).filterMap (settledOf outcomes)) :
      outcome.scannedSections = outcome.sectionOutcomes.length ∧
        outcome.matchCount = (outcome.sectionOutcomes.map (·.matchCount)).sum :=
    (produced outcome (mem_filter.mp (perm.mem_iff.mp listed)).1).totals
  refine ⟨?_, ?_, ?_⟩
  · refine (((perm.flatMap_right _).map _).symm.trans (.of_eq ?_))
    rw [map_flatMap, filterMap_map]
    exact flatMap_filterMap each
  · rw [scanned, settledSections, (perm.flatMap_right _).length_eq.symm, length_flatMap]
    exact congrArg List.sum (map_congr_left fun outcome listed => (totals outcome listed).1)
  · rw [found, settledSections, ← ((perm.flatMap_right _).map _).sum_eq, map_flatMap,
      flatMap_def, sum_flatten, map_map]
    exact congrArg List.sum (map_congr_left fun outcome listed => (totals outcome listed).2)

/-- A plan partitions its inventory over all of its scope, and a complete merge of what its shards came
    to has exactly one outcome for each section of it. -/
theorem coverage_earned (planned : planExhaustiveScan input = .ok plan) :
    plan.shards.flatMap (·.sectionObjectRefs) = input.sections.map (·.sectionRef) ∧
      (∀ shard ∈ plan.shards, shard.sectionObjectRefs ≠ [] ∧
        (shard.sectionObjectRefs.map (bytesOf input.sections)).sum ≤ hardBytes ∧
        shard.sectionObjectRefs.length ≤ maxShardSections) ∧
      (∀ member ∈ input.scope.memberSourceRevisionRefs,
        ∃ descriptor ∈ input.sections, descriptor.sourceRevisionRef = member) ∧
      (plan.shards.map (·.shardId)).Nodup ∧
      ∀ (outcomes : List ExhaustiveShardOutcome) (result : ExhaustiveMergeResult),
        (∀ outcome ∈ outcomes, Produced plan outcome) → mergeExhaustiveShards plan outcomes = .ok result →
          result.coverageClaim = .complete →
            (∀ descriptor ∈ input.sections, (settledSections outcomes).countP
              (fun outcome => outcome.sectionRef = descriptor.sectionRef) = 1) ∧
            ((settledSections outcomes).map (·.sectionRef)).Perm (input.sections.map (·.sectionRef)) ∧
            result.totalScannedSections = input.sections.length ∧
            result.totalMatches = ((settledSections outcomes).map (·.matchCount)).sum := by
  obtain ⟨order, distinct, bounds⟩ := plan_partition planned
  obtain ⟨apart, -, members, -⟩ := planExhaustiveScan_ok planned
  refine ⟨order, bounds, members, distinct, fun outcomes result produced merged complete => ?_⟩
  obtain ⟨perm, scanned, found⟩ := merge_complete produced merged complete
  rw [order] at perm
  refine ⟨fun descriptor listed => ?_, perm, ?_, found⟩
  · have once := (perm.count_eq descriptor.sectionRef).trans
      (count_eq_one_of_mem apart (mem_map_of_mem listed))
    rw [count_eq_countP, countP_map] at once
    rw [← once]
    exact countP_congr fun outcome _ => by simp
  · rw [scanned, ← length_map, perm.length_eq, length_map]

def sampleInput : PlanExhaustiveScanInput where
  scope := ⟨text "scope", 1, text "digest", [text "revision"]⟩
  probes := [text "needle"]
  sections := [⟨text "s", text "revision", text "item", List.replicate 64 97, text "g", 0, 5, 5⟩]
  planId := some (text "plan")

def sampleShard : ExactScanShard where
  shardId := text "exhaustive-shard-plan:0000"
  sourceRevisionRefs := [text "revision"]
  sectionObjectRefs := [text "s"]
  targetUncompressedBytes := targetBytes
  hardUncompressedBytes := hardBytes
  maxSections := maxShardSections

def samplePlan : ExactScanPlan where
  planId := text "plan"
  scopeSnapshot := sampleInput.scope
  probes := [text "needle"]
  shards := [sampleShard]
  coverageDenominatorRef := text "coverage-denominator:scope:r1:digest"
  outputManifestRef := text "exhaustive-manifest:plan"

def sampleOutcome : ExhaustiveShardOutcome where
  shardId := text "exhaustive-shard-plan:0000"
  disposition := .settled (text "exhaustive-partial:exhaustive-shard-plan:0000")
  scannedSections := 1
  matchCount := 2
  sectionOutcomes := [⟨text "s", .matched, 2, none⟩]

theorem sample_earned : ∃ result, mergeExhaustiveShards samplePlan [sampleOutcome] = .ok result ∧
    result.coverageClaim = .complete ∧ result.totalScannedSections = 1 ∧ result.totalMatches = 2 := by
  have planned : planExhaustiveScan sampleInput = .ok samplePlan := by decide +kernel
  have ran : executeExhaustiveShard (fun _ _ => .ok [[0, 7]]) [text "needle"]
      (fun _ => ⟨false, .ok (), false⟩) sampleShard = .ok sampleOutcome := by decide +kernel
  have produced : ∀ outcome ∈ [sampleOutcome], Produced samplePlan outcome :=
    forall_mem_singleton.mpr ⟨sampleShard, mem_singleton_self _, Unit, _, _, _, ran⟩
  have complete : (mergeExhaustiveShards samplePlan [sampleOutcome]).toOption.map (·.coverageClaim) =
      some .complete := by decide +kernel
  cases merged : mergeExhaustiveShards samplePlan [sampleOutcome] with
  | error error =>
    rw [merged] at complete
    cases complete
  | ok result =>
    rw [merged] at complete
    have claim : result.coverageClaim = .complete := Option.some.inj complete
    obtain ⟨-, -, -, -, merges⟩ := coverage_earned planned
    obtain ⟨-, -, scanned, found⟩ := merges _ result produced merged claim
    exact ⟨result, rfl, claim, scanned, found⟩

end

end Retrieval
