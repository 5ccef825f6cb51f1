import Eliot.Collections.Fallible
import Eliot.Retrieval.Evidence

namespace Retrieval
open Fallible

open List hiding count
open Occurrences (find find_some find_none count count_find count_pos)

section
variable {α β : Type} {code other : ExactVerificationErrorCode}

structure Never (code : ExactVerificationErrorCode) (verifying : Verifying α) : Prop where
  differs : ∀ message, verifying ≠ .error ⟨code, message⟩

theorem never_ok (value : α) : Never code (.ok value) := ⟨fun _ same => nomatch same⟩

theorem never_pure (value : α) : Never code (pure value) := never_ok value

theorem never_fail (differ : other ≠ code) (message : Text) : Never code (failExact other message : Verifying α) :=
  ⟨fun _ same => differ (congrArg ExactVerificationError.code (Except.error.inj same))⟩

theorem Never.bind {first : Verifying α} {rest : α → Verifying β} (never : Never code first)
    (later : ∀ value, Never code (rest value)) : Never code (first >>= rest) := by
  refine ⟨fun message same => ?_⟩
  cases first with
  | ok value => exact (later value).differs message same
  | error error => exact never.differs message (congrArg _ (Except.error.inj same))

theorem never_ite {condition : Prop} [Decidable condition] {first second : Verifying α} (one : Never code first)
    (two : Never code second) : Never code (if condition then first else second) := by
  split
  · exact one
  · exact two

theorem Never.mapM {step : α → Verifying β} (never : ∀ value, Never code (step value)) (values : List α) :
    Never code (values.mapM step) := by
  induction values with
  | nil => exact never_pure []
  | cons value values ih =>
    rw [mapM_cons]
    exact (never value).bind fun _ => ih.bind fun _ => never_pure _

variable {tools : EvidenceTools}

theorem requireByteRange_never (start stop objectSize : Int) :
    Never .probeAbsent (requireByteRange start stop objectSize) := by
  unfold requireByteRange
  repeat' first
    | exact never_pure _
    | exact never_fail (by decide) _
    | apply never_ite

theorem scanLines_never {startLine endLine objectSize : Int} (bytes : Bytes) (index line : Int) (start : Option Int) :
    Never .probeAbsent (scanLines startLine endLine objectSize bytes index line start) := by
  induction bytes generalizing index line start with
  | nil =>
    unfold scanLines
    split
    · exact never_fail (by decide) _
    · exact never_ite (never_fail (by decide) _) (requireByteRange_never ..)
  | cons byte rest ih =>
    unfold scanLines
    refine never_ite ((never_fail (by decide) _).bind fun _ => ?_) ?_
    all_goals
      refine never_ite (ih ..) ?_
      split
      · exact requireByteRange_never ..
      · exact ih ..

theorem resolveAnchorToRange_never (anchor : EvidenceAnchor) (coordinateMap : Option AdmittedCoordinateMap)
    (objectSize : Int) (pinnedBytes : Option Bytes) :
    Never .probeAbsent (resolveAnchorToRange tools anchor coordinateMap objectSize pinnedBytes) := by
  have lines (bytes : Bytes) (startLine endLine : Int) :
      Never .probeAbsent (locateLineRange bytes startLine endLine objectSize) := by
    unfold locateLineRange
    repeat' first
      | exact scanLines_never ..
      | exact never_fail (by decide) _
      | apply never_ite
  unfold resolveAnchorToRange
  repeat' first
    | exact requireByteRange_never ..
    | exact lines ..
    | exact never_fail (by decide) _
    | apply never_ite
    | split

theorem checkPinned_never (input : VerifyPinnedExactInput) : Never .probeAbsent (checkPinned tools input) := by
  have authority (handle : EvidenceHandle) : Never .probeAbsent (checkAuthority handle input) := by
    unfold checkAuthority
    repeat' first
      | exact never_pure _
      | exact never_fail (by decide) _
      | apply never_ite
  have excerpt (handle : EvidenceHandle) : Never .probeAbsent (checkExcerpt tools handle input) := by
    unfold checkExcerpt
    repeat' first
      | exact never_pure _
      | exact never_fail (by decide) _
      | apply never_ite
  have window (range : ByteRange) : Never .probeAbsent (checkWindow input range) := by
    unfold checkWindow
    repeat' first
      | exact never_pure _
      | exact never_fail (by decide) _
      | apply never_ite
      | refine Never.bind ?_ fun _ => ?_
      | split
  unfold checkPinned
  split
  · exact never_fail (by decide) _
  · exact (authority _).bind fun _ => (excerpt _).bind fun _ => (resolveAnchorToRange_never ..).bind fun range =>
      (window range).bind fun _ => never_pure _

theorem verifyRegexProbes_never (excerpt : Text) (probes : List BoundedRegexProbe) :
    Never .probeAbsent (verifyRegexProbes tools excerpt probes) := by
  have one (probe : BoundedRegexProbe) : Never .probeAbsent (verifyRegexProbe tools excerpt probe) := by
    unfold verifyRegexProbe
    repeat' first
      | exact never_pure _
      | exact never_fail (by decide) _
      | apply never_ite
      | refine Never.bind ?_ fun _ => ?_
      | split
  unfold verifyRegexProbes
  have all := Never.mapM one probes
  exact never_ite ((never_fail (by decide) _).bind fun _ => all) all

theorem requireTokenizer_never (tokenizer : Option Text) (table : Option ReviewedProjectionTable) (length : Int) :
    Never .probeAbsent (requireTokenizer tokenizer table length) := by
  unfold requireTokenizer
  repeat' first
    | exact never_pure _
    | exact never_fail (by decide) _
    | apply never_ite
    | refine Never.bind ?_ fun _ => ?_
    | split

end

section
variable {excerpt probe : Text} {probes : List Text}

theorem probeOffsets_counts (filled : probe ≠ []) {turns start : Nat} {offsets : List Nat}
    (inside : start ≤ excerpt.length) (enough : excerpt.length - start < turns) (below : offsets.length ≤ maxRegexMatches) :
    (offsets.length + count probe (excerpt.drop start) ≤ maxRegexMatches →
      ∃ found, probeOffsets excerpt probe turns start offsets = .ok found ∧
        found.length = offsets.length + count probe (excerpt.drop start)) ∧
    (maxRegexMatches < offsets.length + count probe (excerpt.drop start) →
      ∃ message, probeOffsets excerpt probe turns start offsets = .error ⟨.rangeInvalid, message⟩) := by
  have long := length_pos_iff.mpr filled
  induction turns generalizing start offsets with
  | zero => omega
  | succ turns ih =>
    unfold probeOffsets indexOfFrom
    rw [count_find filled]
    cases found : find probe (excerpt.drop start) with
    | none => exact ⟨fun _ => ⟨offsets, rfl, rfl⟩, fun above => absurd above (by dsimp only; omega)⟩
    | some place =>
      obtain ⟨-, stops⟩ := find_some found
      rw [length_drop] at stops
      have next : start + (place + probe.length) = place + start + probe.length := by omega
      simp only [Option.map_some, length_append, length_singleton, drop_drop, next]
      by_cases above : offsets.length + 1 > maxRegexMatches
      · rw [if_pos above]
        exact ⟨fun fits => by omega, fun _ => ⟨_, rfl⟩⟩
      · rw [if_neg above]
        have step := @ih (place + start + probe.length)
          (offsets ++ [Text.utf8Bytes (excerpt.take (place + start))]) (by omega) (by omega)
          (by rw [length_append, length_singleton]; omega)
        rw [length_append, length_singleton] at step
        refine ⟨fun fits => ?_, fun excess => step.2 (by omega)⟩
        obtain ⟨offsets, done, total⟩ := step.1 (by omega)
        exact ⟨offsets, done, by omega⟩

theorem verifyExactProbe_counts (filled : probe ≠ []) (short : Text.utf8Bytes probe ≤ maxExactProbeBytes) :
    (count probe excerpt = 0 → ∃ message, verifyExactProbe excerpt probe = .error ⟨.probeAbsent, message⟩) ∧
    (maxRegexMatches < count probe excerpt →
      ∃ message, verifyExactProbe excerpt probe = .error ⟨.rangeInvalid, message⟩) ∧
    (0 < count probe excerpt → count probe excerpt ≤ maxRegexMatches →
      ∃ found, verifyExactProbe excerpt probe = .ok found ∧ found.byteOffsets.length = count probe excerpt) := by
  have long : ¬probe.length = 0 := fun none => filled (length_eq_zero_iff.mp none)
  have loop := @probeOffsets_counts excerpt probe filled (excerpt.length + 1) 0 [] (Nat.zero_le _) (by omega) (Nat.zero_le _)
  rw [drop_zero, length_nil, Nat.zero_add] at loop
  unfold verifyExactProbe
  rw [if_neg long, if_neg (not_lt.mpr short)]
  refine ⟨fun absent => ?_, fun above => ?_, fun occurs fits => ?_⟩
  · obtain ⟨found, done, length⟩ := loop.1 (by omega)
    rw [done]
    refine ⟨text "exact probe is absent from pinned bytes", ?_⟩
    simp only [bind, Except.bind, length, absent, if_true]
    rfl
  · obtain ⟨message, failed⟩ := loop.2 above
    rw [failed]
    exact ⟨message, rfl⟩
  · obtain ⟨found, done, length⟩ := loop.1 fits
    rw [done]
    refine ⟨⟨probe, found⟩, ?_, length⟩
    have some : ¬found.length = 0 := by omega
    simp only [bind, Except.bind, some, if_false]
    rfl

def FirstAbsent (excerpt : Text) (probes : List Text) : Prop :=
  ∃ before probe after, probes = before ++ probe :: after ∧ ¬probe <:+: excerpt ∧
    ∀ other ∈ before, other <:+: excerpt ∧ count other excerpt ≤ maxRegexMatches

def totalMatches (excerpt : Text) (probes : List Text) : Nat := (probes.map fun probe => count probe excerpt).sum

theorem totalMatches_zero (filled : ∀ probe ∈ probes, probe ≠ []) :
    totalMatches excerpt probes = 0 ↔ ∀ probe ∈ probes, ¬probe <:+: excerpt := by
  induction probes with
  | nil => simp [totalMatches]
  | cons probe probes ih =>
    obtain ⟨fill, filled⟩ := forall_mem_cons.mp filled
    have sum : totalMatches excerpt (probe :: probes) = count probe excerpt + totalMatches excerpt probes := rfl
    rw [forall_mem_cons, ← ih filled, ← count_pos fill, sum]
    omega

theorem firstAbsent_cons : FirstAbsent excerpt (probe :: probes) ↔ ¬probe <:+: excerpt ∨
    (probe <:+: excerpt ∧ count probe excerpt ≤ maxRegexMatches) ∧ FirstAbsent excerpt probes := by
  constructor
  · rintro ⟨before, other, after, split, absent, found⟩
    cases before with
    | nil =>
      obtain ⟨rfl, -⟩ := List.cons.inj split
      exact .inl absent
    | cons head before =>
      obtain ⟨rfl, rest⟩ := List.cons.inj split
      obtain ⟨here, later⟩ := forall_mem_cons.mp found
      exact .inr ⟨here, before, other, after, rest, absent, later⟩
  · rintro (absent | ⟨here, before, other, after, rfl, absent, found⟩)
    · exact ⟨[], probe, probes, rfl, absent, fun _ none => nomatch none⟩
    · exact ⟨probe :: before, other, after, rfl, absent, forall_mem_cons.mpr ⟨here, found⟩⟩

theorem mapM_probes (filled : ∀ probe ∈ probes, probe ≠ [])
    (short : ∀ probe ∈ probes, Text.utf8Bytes probe ≤ maxExactProbeBytes) :
    (∀ found, probes.mapM (verifyExactProbe excerpt) = .ok found →
      (found.map fun found => found.byteOffsets.length).sum = totalMatches excerpt probes ∧ ¬FirstAbsent excerpt probes) ∧
    ((∃ message, probes.mapM (verifyExactProbe excerpt) = .error ⟨.probeAbsent, message⟩) ↔ FirstAbsent excerpt probes) := by
  induction probes with
  | nil =>
    have none : ¬FirstAbsent excerpt [] := fun ⟨_, _, _, split, _⟩ => by simp at split
    refine ⟨fun found done => ?_, ?_⟩
    · cases done
      exact ⟨rfl, none⟩
    · simp [none, pure, Except.pure]
  | cons probe probes ih =>
    obtain ⟨fill, filled⟩ := forall_mem_cons.mp filled
    obtain ⟨bound, short⟩ := forall_mem_cons.mp short
    obtain ⟨absent, above, found⟩ := @verifyExactProbe_counts excerpt probe fill bound
    obtain ⟨sums, fails⟩ := ih filled short
    have occurs := @count_pos _ _ probe excerpt fill
    rw [firstAbsent_cons, mapM_cons]
    rcases Nat.eq_zero_or_pos (count probe excerpt) with zero | some
    · obtain ⟨message, failed⟩ := absent zero
      have missing : ¬probe <:+: excerpt := fun there => by have many := occurs.mpr there; omega
      rw [failed]
      exact ⟨fun _ done => (nomatch done), ⟨fun _ => .inl missing, fun _ => ⟨message, rfl⟩⟩⟩
    · have there := occurs.mp some
      rcases Nat.lt_or_ge maxRegexMatches (count probe excerpt) with many | few
      · obtain ⟨message, failed⟩ := above many
        rw [failed]
        refine ⟨fun _ done => (nomatch done), ⟨fun ⟨_, same⟩ => (nomatch same), fun first => ?_⟩⟩
        rcases first with missing | ⟨⟨-, bounded⟩, -⟩
        · exact absurd there missing
        · omega
      · obtain ⟨one, done, length⟩ := found some few
        rw [done]
        have only : (¬probe <:+: excerpt ∨ (probe <:+: excerpt ∧ count probe excerpt ≤ maxRegexMatches) ∧
            FirstAbsent excerpt probes) ↔ FirstAbsent excerpt probes :=
          ⟨fun first => first.elim (absurd there) And.right, fun first => .inr ⟨⟨there, few⟩, first⟩⟩
        rw [only]
        cases rest : probes.mapM (verifyExactProbe excerpt) with
        | error error =>
          rw [rest] at fails
          exact ⟨fun _ done => (nomatch done), fails⟩
        | ok others =>
          obtain ⟨sum, none⟩ := sums others rest
          refine ⟨fun all done => ?_, ⟨fun ⟨_, same⟩ => (nomatch same), fun first => absurd first none⟩⟩
          obtain rfl := Except.ok.inj done
          refine ⟨?_, none⟩
          rw [map_cons, sum_cons, length, sum]
          rfl

structure Checked (probes : List Text) : Prop where
  filled : ∀ probe ∈ probes, probe ≠ []
  short : ∀ probe ∈ probes, Text.utf8Bytes probe ≤ maxExactProbeBytes
  few : probes.length ≤ maxExactProbes

theorem forM_checked {Code : Type} {code : Code}
    (checks : (probes.forM fun probe => do
      if probe.length = 0 then failWith code (text "empty probes never match pinned evidence")
      if Text.utf8Bytes probe > maxProbeBytes then
        failWith code (text "a single exact probe exceeds its byte bound") :
          Except (ExhaustiveError Code) Unit) = .ok ()) :
    ∀ probe ∈ probes, probe ≠ [] ∧ Text.utf8Bytes probe ≤ maxExactProbeBytes := by
  induction probes with
  | nil => exact fun _ none => nomatch none
  | cons probe probes ih =>
    obtain ⟨passed, first, rest⟩ := bind_ok checks
    refine forall_mem_cons.mpr ⟨?_, ih rest⟩
    obtain ⟨filled, first⟩ := guard_ok first
    have short : ¬Text.utf8Bytes probe > maxProbeBytes := fun long => by
      rw [if_pos long] at first
      cases first
    exact ⟨fun empty => filled (by rw [empty]; rfl), not_lt.mp short⟩

theorem checkExecuteProbes_ok {checked : List Text} (checks : checkExecuteProbes probes = .ok checked) :
    checked = probes ∧ Checked probes := by
  unfold checkExecuteProbes checkProbesWith at checks
  obtain ⟨bounds, checks⟩ := guard_ok checks
  obtain ⟨passed, each, same⟩ := bind_ok checks
  have all := forM_checked each
  rw [not_or] at bounds
  exact ⟨(Except.ok.inj same).symm, fun probe listed => (all probe listed).1, fun probe listed => (all probe listed).2,
    not_lt.mp bounds.2⟩

end

section
variable {tools : EvidenceTools} {input : VerifyPinnedExactInput} {probes : List Text}

def Admits (tools : EvidenceTools) (input : VerifyPinnedExactInput) : Prop :=
  ∃ pinned, checkPinned tools input = .ok pinned

def Misses (tools : EvidenceTools) (input : VerifyPinnedExactInput) (probes : List Text) : Prop :=
  Admits tools input ∧ FirstAbsent input.materialized.exactExcerpt probes

theorem probeAbsent_name (code : ExactVerificationErrorCode) :
    code.name = text "EXACT_PROBE_ABSENT" ↔ code = .probeAbsent := by
  cases code <;> decide

theorem verifyExactProbes_eq (checked : Checked probes) (excerpt : Text) :
    verifyExactProbes excerpt probes = probes.mapM (verifyExactProbe excerpt) := by
  unfold verifyExactProbes
  rw [if_neg (not_lt.mpr checked.few)]

theorem verified_ok (checked : Checked probes) {receipt : ExactVerificationReceipt}
    (verified : verifyPinnedExactEvidence tools input probes = .ok receipt) :
    (receipt.probeMatches.map fun found => found.byteOffsets.length).sum =
        totalMatches input.materialized.exactExcerpt probes ∧ ¬Misses tools input probes := by
  unfold verifyPinnedExactEvidence at verified
  obtain ⟨pinned, -, verified⟩ := bind_ok verified
  obtain ⟨probeMatches, found, verified⟩ := bind_ok verified
  obtain ⟨regexMatches, -, verified⟩ := bind_ok verified
  obtain ⟨table, -, verified⟩ := bind_ok verified
  rw [verifyExactProbes_eq checked] at found
  obtain ⟨sum, absent⟩ := (mapM_probes checked.filled checked.short).1 probeMatches found
  dsimp only at verified
  split at verified
  · cases verified
  · obtain rfl := Except.ok.inj verified
    exact ⟨sum, fun misses => absent misses.2⟩

theorem verified_absent (checked : Checked probes) :
    (∃ message, verifyPinnedExactEvidence tools input probes = .error ⟨.probeAbsent, message⟩) ↔
      Misses tools input probes := by
  have probing := (@mapM_probes input.materialized.exactExcerpt probes checked.filled checked.short).2
  rw [← verifyExactProbes_eq checked] at probing
  unfold verifyPinnedExactEvidence Misses Admits
  cases pins : checkPinned tools input with
  | error error =>
    refine ⟨fun ⟨message, same⟩ => ?_, fun ⟨⟨_, pinned⟩, _⟩ => nomatch pinned⟩
    exact absurd (pins.trans (congrArg _ (Except.error.inj same))) ((checkPinned_never input).differs message)
  | ok pinned =>
    obtain ⟨handle, range⟩ := pinned
    rw [and_iff_right ⟨(handle, range), rfl⟩, ← probing]
    cases verifyExactProbes input.materialized.exactExcerpt probes with
    | error error =>
      exact ⟨fun ⟨message, same⟩ => ⟨message, congrArg _ (Except.error.inj same)⟩,
        fun ⟨message, same⟩ => ⟨message, congrArg _ (Except.error.inj same)⟩⟩
    | ok found =>
      refine iff_of_false (fun ⟨message, same⟩ => Never.differs ?_ message same) fun ⟨_, same⟩ => nomatch same
      refine (never_ok _).bind fun _ => (never_ok _).bind fun _ => (verifyRegexProbes_never ..).bind fun _ =>
        (requireTokenizer_never ..).bind fun _ => ?_
      split
      · exact never_fail (by decide) _
      · exact never_pure _

theorem exactVerifier_ok (checked : Checked probes) {offsets : List (List Nat)}
    (verified : exactVerifier tools input probes = .ok offsets) :
    (offsets.map List.length).sum = totalMatches input.materialized.exactExcerpt probes ∧ ¬Misses tools input probes := by
  unfold exactVerifier at verified
  cases receipts : verifyPinnedExactEvidence tools input probes with
  | error error => simp [receipts] at verified
  | ok receipt =>
    rw [receipts] at verified
    obtain rfl := Except.ok.inj verified
    rw [map_map]
    exact verified_ok checked receipts

theorem exactVerifier_error (checked : Checked probes) {failure : VerifyFailure}
    (failed : exactVerifier tools input probes = .error failure) :
    ∃ code, failure = .verification code ∧ (code = text "EXACT_PROBE_ABSENT" ↔ Misses tools input probes) := by
  unfold exactVerifier at failed
  have absent := @verified_absent tools input probes checked
  cases receipts : verifyPinnedExactEvidence tools input probes with
  | ok receipt => simp [receipts] at failed
  | error error =>
    rw [receipts] at failed absent
    obtain rfl := Except.error.inj failed
    refine ⟨_, rfl, ?_⟩
    rw [probeAbsent_name, ← absent]
    constructor
    · intro same
      exact ⟨error.message, by rw [← same]⟩
    · rintro ⟨message, same⟩
      rw [Except.error.inj same]

end

section
variable {tools : EvidenceTools} {probes : List Text} {shardId : Text} {moment : Nat → Moment VerifyPinnedExactInput}

def Judged (tools : EvidenceTools) (probes : List Text) (input : VerifyPinnedExactInput)
    (entry : ExhaustiveSectionOutcome) : Prop :=
  (entry.status = .noMatch ↔ Misses tools input probes) ∧
    entry.matchCount = if entry.status = .matched then totalMatches input.materialized.exactExcerpt probes else 0

structure Walked (tools : EvidenceTools) (probes : List Text) (moment : Nat → Moment VerifyPinnedExactInput)
    (found : Nat) (outcomes : List ExhaustiveSectionOutcome) : Prop where
  judged : ∀ place entry, outcomes[place]? = some entry → (moment place).aborted = false ∧
    ∃ input, (moment place).read = .ok input ∧ Judged tools probes input entry
  counted : found = (outcomes.map (·.matchCount)).sum

theorem Walked.add {found : Nat} {outcomes : List ExhaustiveSectionOutcome} (walked : Walked tools probes moment found outcomes)
    {entry : ExhaustiveSectionOutcome} {input : VerifyPinnedExactInput} (live : (moment outcomes.length).aborted = false)
    (read : (moment outcomes.length).read = .ok input) (judged : Judged tools probes input entry) :
    Walked tools probes moment (found + entry.matchCount) (outcomes ++ [entry]) := by
  refine ⟨fun place other there => ?_, by simp [walked.counted]⟩
  rcases Nat.lt_or_ge place outcomes.length with before | after
  · rw [getElem?_append_left before] at there
    exact walked.judged place other there
  · rw [getElem?_append_right after] at there
    obtain ⟨zero, rfl⟩ : place - outcomes.length = 0 ∧ entry = other := by
      cases difference : place - outcomes.length <;> simp_all
    have same : place = outcomes.length := by omega
    exact same ▸ ⟨live, input, read, judged⟩

/-- What a scan of `size` sections comes to: it stops at the first section that is not read, or behind the last one. -/
structure WalkedUpTo (tools : EvidenceTools) (probes : List Text) (moment : Nat → Moment VerifyPinnedExactInput) (size : Nat)
    (outcome : ExhaustiveShardOutcome) : Prop where
  walked : Walked tools probes moment outcome.matchCount outcome.sectionOutcomes
  within : outcome.sectionOutcomes.length ≤ size
  stopped : outcome.sectionOutcomes.length < size → (moment outcome.sectionOutcomes.length).aborted = true ∨
    ∃ error, (moment outcome.sectionOutcomes.length).read = .error error

theorem scanSections_walked (checked : Checked probes) (refs : List Text) {found : Nat}
    {outcomes : List ExhaustiveSectionOutcome} (walked : Walked tools probes moment found outcomes) :
    WalkedUpTo tools probes moment (outcomes.length + refs.length)
      (scanSections (exactVerifier tools) probes shardId moment refs found outcomes) := by
  induction refs generalizing found outcomes with
  | nil => exact ⟨walked, Nat.le_refl _, fun less => absurd less (Nat.lt_irrefl _)⟩
  | cons sectionRef rest ih =>
    have next {entry : ExhaustiveSectionOutcome} (more : Walked tools probes moment (found + entry.matchCount)
        (outcomes ++ [entry])) : WalkedUpTo tools probes moment (outcomes.length + (sectionRef :: rest).length)
          (scanSections (exactVerifier tools) probes shardId moment rest (found + entry.matchCount)
            (outcomes ++ [entry])) := by
      have length : (outcomes ++ [entry]).length + rest.length = outcomes.length + (sectionRef :: rest).length := by
        rw [length_append, length_singleton, length_cons]
        omega
      exact length ▸ ih more
    have stops (reason : Text) (stopped : (moment outcomes.length).aborted = true ∨
        ∃ error, (moment outcomes.length).read = .error error) :
        WalkedUpTo tools probes moment (outcomes.length + (sectionRef :: rest).length)
          (unsettled shardId reason found outcomes) :=
      ⟨walked, Nat.le_add_right _ _, fun _ => stopped⟩
    cases live : (moment outcomes.length).aborted with
    | true =>
      rw [scanSections, if_pos live]
      exact stops _ (.inl live)
    | false =>
      have awake : ¬(moment outcomes.length).aborted = true := fun aborted => nomatch live.symm.trans aborted
      rw [scanSections, if_neg awake]
      cases read : (moment outcomes.length).read with
      | error error => exact stops _ (.inr ⟨error, read⟩)
      | ok input =>
        dsimp only
        cases verified : exactVerifier tools input probes with
        | ok offsets =>
          obtain ⟨sum, missed⟩ := exactVerifier_ok checked verified
          exact @next ⟨sectionRef, .matched, _, none⟩
            (walked.add live read ⟨iff_of_false (fun same => nomatch same) missed, sum⟩)
        | error failure =>
          obtain ⟨code, rfl, absent⟩ := exactVerifier_error checked verified
          dsimp only
          split
          · rename_i same
            exact @next ⟨sectionRef, .noMatch, 0, none⟩ (walked.add live read ⟨iff_of_true rfl (absent.mp same), rfl⟩)
          · rename_i differs
            exact @next ⟨sectionRef, .failedClosed, 0, some code⟩ (walked.add live read
              ⟨iff_of_false (fun same => nomatch same) fun misses => differs (absent.mpr misses), rfl⟩)

def Reached (moment : Nat → Moment VerifyPinnedExactInput) (sections : List Text) (place : Nat) : Prop :=
  place < sections.length ∧
    ∀ earlier ≤ place, (moment earlier).aborted = false ∧ ∃ input, (moment earlier).read = .ok input

theorem WalkedUpTo.reached {sections : List Text} {outcome : ExhaustiveShardOutcome}
    (scanned : WalkedUpTo tools probes moment sections.length outcome) (place : Nat) :
    place < outcome.sectionOutcomes.length ↔ Reached moment sections place := by
  constructor
  · intro inside
    refine ⟨lt_of_lt_of_le inside scanned.within, fun earlier before => ?_⟩
    have there : earlier < outcome.sectionOutcomes.length := by omega
    obtain ⟨live, input, read, -⟩ := scanned.walked.judged earlier _ (getElem?_eq_getElem there)
    exact ⟨live, input, read⟩
  · rintro ⟨inside, passed⟩
    by_contra outside
    have cut : outcome.sectionOutcomes.length ≤ place := not_lt.mp outside
    obtain ⟨live, input, read⟩ := passed _ cut
    rcases scanned.stopped (by omega) with aborted | ⟨error, failed⟩
    · exact absurd (aborted.symm.trans live) (by decide)
    · exact nomatch failed.symm.trans read

def owedMatches (probes : List Text) (moment : Nat → Moment VerifyPinnedExactInput)
    (judged : ExhaustiveSectionOutcome × Nat) : Nat :=
  match (moment judged.2).read with
  | .ok input =>
    if judged.1.status = .failedClosed then 0 else totalMatches input.materialized.exactExcerpt probes
  | .error _ => 0

structure Exact (probes : List Text) (moment : Nat → Moment VerifyPinnedExactInput) (outcome : ExhaustiveShardOutcome) :
    Prop where
  misses : ∀ place entry input, outcome.sectionOutcomes[place]? = some entry → (moment place).read = .ok input →
    entry.status = .noMatch → ∀ probe ∈ probes, ¬probe <:+: input.materialized.exactExcerpt
  counts : outcome.isSettled = true →
    outcome.matchCount = (outcome.sectionOutcomes.zipIdx.map (owedMatches probes moment)).sum

theorem Walked.counts (filled : ∀ probe ∈ probes, probe ≠ []) {found : Nat} {outcomes : List ExhaustiveSectionOutcome}
    (walked : Walked tools probes moment found outcomes)
    (misses : ∀ place entry input, outcomes[place]? = some entry → (moment place).read = .ok input →
      entry.status = .noMatch → ∀ probe ∈ probes, ¬probe <:+: input.materialized.exactExcerpt) :
    found = (outcomes.zipIdx.map (owedMatches probes moment)).sum := by
  rw [walked.counted]
  congr 1
  apply ext_getElem?
  intro place
  rw [getElem?_map, getElem?_map, getElem?_zipIdx, Option.map_map]
  cases there : outcomes[place]? with
  | none => rfl
  | some entry =>
    obtain ⟨-, input, read, -, count⟩ := walked.judged place entry there
    have owed : owedMatches probes moment (entry, place) =
        if entry.status = .failedClosed then 0 else totalMatches input.materialized.exactExcerpt probes := by
      simp only [owedMatches, read]
    show some entry.matchCount = some (owedMatches probes moment (entry, 0 + place))
    rw [Nat.zero_add, owed, count]
    cases status : entry.status with
    | matched => rfl
    | failedClosed => rfl
    | noMatch =>
      have none := (totalMatches_zero filled).mpr (misses place entry input there read status)
      rw [none]
      rfl

/-- A scan is exact just when no section that it takes for a miss has another probe in it. -/
theorem exhaustive_misses_exact {shard : ExactScanShard} {outcome : ExhaustiveShardOutcome}
    (executed : executeExhaustiveShard (exactVerifier tools) probes moment shard = .ok outcome) :
    Exact probes moment outcome ↔
      ∀ place input, Reached moment shard.sectionObjectRefs place → (moment place).read = .ok input →
        Misses tools input probes → ∀ probe ∈ probes, ¬probe <:+: input.materialized.exactExcerpt := by
  unfold executeExhaustiveShard at executed
  obtain ⟨-, passed⟩ := guard_ok executed
  obtain ⟨same, bounds, scans⟩ := bind_ok passed
  obtain ⟨rfl, checked⟩ := checkExecuteProbes_ok bounds
  obtain rfl := Except.ok.inj scans
  have scanned := @scanSections_walked tools same shard.shardId moment checked shard.sectionObjectRefs 0 []
    ⟨fun _ _ none => (nomatch none), rfl⟩
  rw [length_nil, Nat.zero_add] at scanned
  constructor
  · intro exact place input reached read missed
    have inside := (scanned.reached place).mpr reached
    obtain ⟨-, other, also, noMatch, -⟩ := scanned.walked.judged place _ (getElem?_eq_getElem inside)
    obtain rfl := Except.ok.inj (also.symm.trans read)
    exact exact.misses place _ other (getElem?_eq_getElem inside) read (noMatch.mpr missed)
  · intro absent
    refine ⟨?misses, fun _ => scanned.walked.counts checked.filled ?misses⟩
    · intro place entry input there read status
      obtain ⟨-, other, also, noMatch, -⟩ := scanned.walked.judged place entry there
      obtain rfl := Except.ok.inj (also.symm.trans read)
      have inside := (List.getElem?_eq_some_iff.mp there).1
      exact absent place other ((scanned.reached place).mp inside) read (noMatch.mp status)
/-- A section whose pinned text is `alpha`. -/
def alphaInput : VerifyPinnedExactInput where
  handle := some {
    handleRef := ⟨text "evidence-1", 1⟩
    sourceNamespaceId := text "namespace-1"
    sourceOwnerGeneration := text "1"
    sourceRevisionRef := text "revision-1"
    scopeSnapshotRef := ⟨text "scope-1", 1⟩
    anchor := .normalizedByteRange 0 5
    excerptSha256 := text "8ed3f6ad685b959ead7022518e1af76cd816f8e8ec7ccdda1ed4018e8f2223f8"
    excerptByteLength := 5
    coordinateMapRef := none
    objectResidencyKeyDigest := text "residency-1"
    terminalState := .live }
  scope := {
    snapshotId := text "scope-1"
    revision := 1
    digest := text "8ed3f6ad685b959ead7022518e1af76cd816f8e8ec7ccdda1ed4018e8f2223f8"
    memberSourceRevisionRefs := [text "revision-1"]
    sourceOwnerGenerations := fun revision => if revision = text "revision-1" then some (text "1") else none }
  source := {
    sourceRevisionRef := text "revision-1"
    sourceNamespaceId := text "namespace-1"
    sourceOwnerGeneration := text "1"
    contentSha256 := text "8ed3f6ad685b959ead7022518e1af76cd816f8e8ec7ccdda1ed4018e8f2223f8"
    objectResidencyKeyDigest := text "residency-1"
    purgeState := .live }
  materialized := {
    exactExcerpt := text "alpha"
    excerptSha256 := text "8ed3f6ad685b959ead7022518e1af76cd816f8e8ec7ccdda1ed4018e8f2223f8"
    excerptByteLength := 5
    sourceObjectSize := 5
    sourceObjectSha256 := text "8ed3f6ad685b959ead7022518e1af76cd816f8e8ec7ccdda1ed4018e8f2223f8" }
  pinnedObjectBytes := some (Text.encode (text "alpha"))
  coordinateMap := none
  regexProbes := []
  tokenizer := none
  reviewedProjectionTable := none
  priorReceipts := []
  revokedMidRead := false

def alphaTools : EvidenceTools where
  sha256Hex _ := text "8ed3f6ad685b959ead7022518e1af76cd816f8e8ec7ccdda1ed4018e8f2223f8"
  numberText _ := []
  compile _ _ := none

def alphaShard : ExactScanShard :=
  ⟨text "shard-1", [text "revision-1"], [text "section-1"], targetBytes, hardBytes, maxShardSections⟩

def alphaMoment : Nat → Moment VerifyPinnedExactInput := fun _ => ⟨false, .ok alphaInput, false⟩

theorem exhaustive_misses_exact_alpha :
    Exact [text "alpha"] alphaMoment
        ⟨text "shard-1", .settled (text "exhaustive-partial:shard-1"), 1, 1, [⟨text "section-1", .matched, 1, none⟩]⟩ ↔
      ∀ place input, Reached alphaMoment alphaShard.sectionObjectRefs place → (alphaMoment place).read = .ok input →
        Misses alphaTools input [text "alpha"] → ∀ probe ∈ [text "alpha"], ¬probe <:+: input.materialized.exactExcerpt :=
  exhaustive_misses_exact (by decide +kernel)

/-- With the probes `alpha` and `beta`, the section `alpha` is reported as a miss. -/
theorem exhaustive_hides_alpha : ∃ outcome,
    executeExhaustiveShard (exactVerifier alphaTools) [text "alpha", text "beta"] alphaMoment alphaShard = .ok outcome ∧
      outcome.isSettled = true ∧ ¬Exact [text "alpha", text "beta"] alphaMoment outcome := by
  refine ⟨⟨text "shard-1", .settled (text "exhaustive-partial:shard-1"), 1, 0, [⟨text "section-1", .noMatch, 0, none⟩]⟩,
    by decide +kernel, rfl, fun exact => ?_⟩
  exact exact.misses 0 _ alphaInput rfl rfl rfl (text "alpha") (by decide) (infix_refl _)

end
end Retrieval
