import Eliot.Citations.Labels

namespace Citations
open Text List

theorem citationKey_injective {first second : Text} {left right : Nat}
    (same : citationKey first left = citationKey second right) : first = second ∧ left = right := by
  have split := congrArg splitLast same
  unfold citationKey at split
  rw [splitLast_append _ _ (colon_not_mem_decimal left),
    splitLast_append _ _ (colon_not_mem_decimal right)] at split
  obtain ⟨revision, block⟩ := Prod.mk.inj (Option.some.inj split)
  exact ⟨revision, by rw [← number_decimal left, block, number_decimal]⟩

def Citation.passage (citation : Citation) : Text × Nat := (citation.revisionId, citation.block)

def Resolved.passage (resolved : Resolved) : Text × Nat :=
  (resolved.source.revisionId, resolved.parsed.block)

def citationOf (citations : List Citation) (passage : Text × Nat) : Option Citation :=
  citations.find? (·.passage = passage)

def labelOf (citations : List Citation) (passage : Text × Nat) : Text :=
  ((citationOf citations passage).map (·.label)).getD []

structure Scan.Sound (sources : List LabelSource) (scan : Scan) : Prop where
  cites : ∀ citation ∈ scan.citations, Cites sources citation
  apart : scan.citations.Pairwise fun first second => first.passage ≠ second.passage
  seen : ∀ revisionId block, scan.seen (citationKey revisionId block) =
    (citationOf scan.citations (revisionId, block)).map (·.label)

variable {citations : List Citation} {passage : Text × Nat}

theorem citationOf_append {citation : Citation}
    (found : citationOf citations passage = some citation) (more : List Citation) :
    citationOf (citations ++ more) passage = some citation := by
  unfold citationOf at found ⊢
  rw [find?_append, found, Option.some_or]

theorem citationOf_snoc (citations : List Citation) (citation : Citation) (passage : Text × Nat) :
    citationOf (citations ++ [citation]) passage =
      (citationOf citations passage).or (if citation.passage = passage then some citation else none) := by
  unfold citationOf
  rw [find?_append, find?_singleton]
  simp

theorem citationOf_none :
    citationOf citations passage = none ↔ ∀ citation ∈ citations, citation.passage ≠ passage := by
  simp [citationOf]

variable {resolved : List Resolved}

section
variable {sources : List LabelSource} {scan : Scan}

theorem cite_sound (sound : scan.Sound sources) {resolved : Resolved}
    (resolves : ResolvesTo sources resolved.atom resolved) :
    (scan.cite resolved).Sound sources ∧
      ∃ more citation, (scan.cite resolved).citations = scan.citations ++ more ∧
        citationOf (scan.cite resolved).citations resolved.passage = some citation ∧
        (scan.cite resolved).parts = scan.parts ++ [citation.label] := by
  have seen := sound.seen resolved.source.revisionId resolved.parsed.block
  unfold Scan.cite
  cases found : citationOf scan.citations resolved.passage with
  | some citation =>
    have known : scan.seen (citationKey resolved.source.revisionId resolved.parsed.block) =
        some citation.label := by
      rw [seen]
      exact congrArg (Option.map (·.label)) found
    simp only [known]
    exact ⟨⟨sound.cites, sound.apart, sound.seen⟩, [], citation, by simp, found, rfl⟩
  | none =>
    have unknown : scan.seen (citationKey resolved.source.revisionId resolved.parsed.block) =
        none := by
      rw [seen]
      exact congrArg (Option.map (·.label)) found
    simp only [unknown]
    have absent := citationOf_none.mp found
    refine ⟨⟨?_, ?_, ?_⟩, [resolved.citation], resolved.citation, rfl, ?_, rfl⟩
    · intro citation member
      rcases mem_append.mp member with member | member
      · exact sound.cites citation member
      · rw [mem_singleton.mp member]
        exact ⟨resolved.reference, resolves.1, rfl⟩
    · refine pairwise_append.mpr ⟨sound.apart, pairwise_singleton _ _, ?_⟩
      intro first member second last
      rw [mem_singleton.mp last]
      exact absent first member
    · intro revisionId block
      simp only [setKey, citationOf_snoc]
      split
      · rename_i same
        obtain ⟨rfl, rfl⟩ := citationKey_injective same
        have here : citationOf scan.citations
          (resolved.source.revisionId, resolved.parsed.block) = none := found
        simp [here, Citation.passage, Resolved.citation]
      · rename_i other
        have distinct : resolved.citation.passage ≠ (revisionId, block) := by
          rintro same
          cases same
          exact other rfl
        rw [sound.seen, if_neg distinct, Option.or_none]
    · simp only [citationOf_snoc, found, Option.none_or]
      exact if_pos rfl

theorem cite_all_sound (sound : scan.Sound sources)
    (resolves : ∀ one ∈ resolved, ResolvesTo sources one.atom one) :
    (resolved.foldl Scan.cite scan).Sound sources ∧
      ∃ more cited, (resolved.foldl Scan.cite scan).citations = scan.citations ++ more ∧
        List.Forall₂ (fun one citation => citationOf (resolved.foldl Scan.cite scan).citations
          (Resolved.passage one) = some citation) resolved cited ∧
        (resolved.foldl Scan.cite scan).parts = scan.parts ++ cited.map (·.label) := by
  induction resolved generalizing scan with
  | nil => exact ⟨sound, [], [], by simp, .nil, by simp⟩
  | cons one rest ih =>
    obtain ⟨next, more, citation, grown, found, written⟩ :=
      cite_sound sound (resolves one mem_cons_self)
    obtain ⟨last, others, cited, further, each, texts⟩ :=
      ih next fun one member => resolves one (mem_cons_of_mem _ member)
    refine ⟨last, more ++ others, citation :: cited, ?_, .cons ?_ each, ?_⟩
    · rw [foldl_cons, further, grown, append_assoc]
    · rw [foldl_cons, further]
      exact citationOf_append found others
    · rw [foldl_cons, texts, written, map_cons, append_assoc, singleton_append]

theorem cite_frame (resolved : Resolved) (scan : Scan) :
    (scan.cite resolved).code = scan.code ∧
      (scan.cite resolved).invalidLabels = scan.invalidLabels := by
  simp only [Scan.cite]
  split <;> exact ⟨rfl, rfl⟩

theorem cite_all_frame (resolved : List Resolved) (scan : Scan) :
    (resolved.foldl Scan.cite scan).code = scan.code ∧
      (resolved.foldl Scan.cite scan).invalidLabels = scan.invalidLabels := by
  induction resolved generalizing scan with
  | nil => exact ⟨rfl, rfl⟩
  | cons one rest ih =>
    obtain ⟨code, count⟩ := ih (scan.cite one)
    obtain ⟨sameCode, sameCount⟩ := cite_frame one scan
    exact ⟨code.trans sameCode, count.trans sameCount⟩

end

section
variable {sources : List LabelSource} {answer : Text}

theorem codeRanges_sorted (answer : Text) :
    (codeRanges answer).Pairwise fun first second => first.start ≤ second.start := by
  let le (first second : CodeRange) : Bool := first.start ≤ second.start
  have trans : ∀ first second third, le first second → le second third → le first third := by
    intro first second third before after
    simp only [le, decide_eq_true_eq] at *
    omega
  have total : ∀ first second, (le first second || le second first) = true := by
    intro first second
    simp only [le, Bool.or_eq_true, decide_eq_true_eq]
    omega
  have sorted := pairwise_mergeSort trans total
    (fencedRanges answer ++ inlineCodeRanges answer (fencedRanges answer))
  exact sorted.imp fun h => by simpa [le] using h

theorem mem_codeRanges {range : CodeRange} : range ∈ codeRanges answer ↔
    range ∈ fencedRanges answer ++ inlineCodeRanges answer (fencedRanges answer) :=
  mem_mergeSort

def Scan.Points (answer : Text) (bound : Nat) (scan : Scan) : Prop :=
  ∃ passed, codeRanges answer = passed ++ scan.code ∧ ∀ range ∈ passed, range.stop ≤ bound

theorem Scan.Points.advance {scan : Scan} {bound position : Nat}
    (points : scan.Points answer bound) (later : bound ≤ position) :
    (scan.advance position).Points answer position := by
  obtain ⟨passed, whole, before⟩ := points
  refine ⟨passed ++ scan.code.takeWhile (·.stop ≤ position), ?_, ?_⟩
  · rw [append_assoc, Scan.advance, takeWhile_append_dropWhile, whole]
  · intro range member
    rcases mem_append.mp member with member | member
    · exact (before range member).trans later
    · simpa using mem_takeWhile_imp member

theorem Scan.Points.inside_iff {scan : Scan} {bound position : Nat}
    (points : scan.Points answer bound) (later : bound ≤ position) :
    (scan.advance position).inside position = true ↔ InCode answer position := by
  obtain ⟨passed, whole, before⟩ := points.advance later
  have sorted := codeRanges_sorted answer
  rw [whole] at sorted
  have ahead := (pairwise_append.mp sorted).2.1
  have stopped := head?_dropWhile_not (fun range : CodeRange => range.stop ≤ position) scan.code
  simp only [InCode, ← mem_codeRanges, whole, Scan.inside, Scan.advance]
  simp only [Scan.advance] at ahead
  cases rest : scan.code.dropWhile (·.stop ≤ position) with
  | nil =>
    simp only [head?_nil, Option.any_none, Bool.false_eq_true, append_nil, false_iff]
    rintro ⟨range, member, -, after⟩
    exact absurd (before range member) (by omega)
  | cons range others =>
    rw [rest] at ahead
    simp only [rest, head?_cons, decide_eq_false_iff_not, not_le] at stopped
    simp only [head?_cons, Option.any_some, decide_eq_true_eq]
    constructor
    · intro start
      exact ⟨range, mem_append_right _ mem_cons_self, start, stopped⟩
    · rintro ⟨other, member, start, after⟩
      rcases mem_append.mp member with member | member
      · exact absurd (before other member) (by omega)
      · rcases mem_cons.mp member with rfl | member
        · exact start
        · exact ((pairwise_cons.mp ahead).1 other member).trans start

def replacementOf (sources : List LabelSource) (citations : List Citation)
    (found : Regex.Found Nat) : Text :=
  match resolveToken (scopeMaps sources) sources found.token with
  | none => []
  | some resolved => (resolved.map fun one => labelOf citations one.passage).flatten

structure Scan.Extends (sources : List LabelSource) (answer : Text)
    (founds : List (Regex.Found Nat)) (before after : Scan) : Prop where
  grown : before.citations <+: after.citations
  cited : ∀ found ∈ prose answer founds, ∀ resolved,
    resolveToken (scopeMaps sources) sources found.token = some resolved →
    ∀ one ∈ resolved, ∃ citation, citationOf after.citations one.passage = some citation
  counted : after.invalidLabels = before.invalidLabels + (prose answer founds).countP
    fun found => (resolveToken (scopeMaps sources) sources found.token).isNone
  written : (after.parts ++ [answer.drop after.last]).flatten = before.parts.flatten ++
    splice answer (replacementOf sources after.citations) before.last (prose answer founds)

theorem labelOf_prefix {before after : List Citation} (grown : before <+: after)
    {citation : Citation}
    (found : citationOf before passage = some citation) :
    labelOf after passage = citation.label := by
  obtain ⟨more, rfl⟩ := grown
  simp [labelOf, citationOf_append found more]

theorem forall₂_mem {cited : List Citation}
    {relation : Resolved → Citation → Prop} (each : List.Forall₂ relation resolved cited) :
    ∀ one ∈ resolved, ∃ citation ∈ cited, relation one citation := by
  induction each with
  | nil => simp
  | cons head _ ih =>
    intro one member
    rcases mem_cons.mp member with rfl | member
    · exact ⟨_, mem_cons_self, head⟩
    · obtain ⟨citation, present, related⟩ := ih one member
      exact ⟨citation, mem_cons_of_mem _ present, related⟩

theorem labels_flatten
    {cited : List Citation} (grown : List Citation) (more : citations <+: grown)
    (each : List.Forall₂ (fun one citation => citationOf citations (Resolved.passage one) =
      some citation) resolved cited) :
    cited.map (·.label) = resolved.map fun one => labelOf grown one.passage := by
  induction each with
  | nil => rfl
  | cons head _ ih => rw [map_cons, map_cons, ih, labelOf_prefix more head]

theorem step_in_code {scan : Scan} {found : Regex.Found Nat} {bound : Nat}
    (points : scan.Points answer bound) (later : bound ≤ found.start)
    (code : InCode answer found.start) :
    scan.step (scopeMaps sources) sources answer found = scan.advance found.start := by
  have inside := (points.inside_iff later).mpr code
  simp [Scan.step, inside]

theorem step_in_prose {scan : Scan} {found : Regex.Found Nat} {bound : Nat}
    (points : scan.Points answer bound) (later : bound ≤ found.start)
    (outside : ¬InCode answer found.start) :
    scan.step (scopeMaps sources) sources answer found =
      match resolveToken (scopeMaps sources) sources found.token with
      | none => (scan.advance found.start).reject answer found
      | some resolved =>
        { resolved.foldl Scan.cite ((scan.advance found.start).keep answer found.start) with
          last := found.stop } := by
  have inside : (scan.advance found.start).inside found.start = false := by
    rw [← Bool.not_eq_true]
    exact mt (points.inside_iff later).mp outside
  exact if_neg (by simp [inside])

theorem scan_sound (founds : List (Regex.Found Nat)) {scan : Scan} {bound : Nat}
    (located : Regex.Located answer bound founds) (points : scan.Points answer bound)
    (sound : scan.Sound sources) :
    (founds.foldl (Scan.step (scopeMaps sources) sources answer) scan).Sound sources ∧
      Scan.Extends sources answer founds scan
        (founds.foldl (Scan.step (scopeMaps sources) sources answer) scan) := by
  induction founds generalizing scan bound with
  | nil =>
    refine ⟨sound, ⟨prefix_rfl, by simp [prose], by simp [prose], ?_⟩⟩
    simp [prose, splice]
  | cons found rest ih =>
    obtain ⟨later, -, located⟩ := located
    rw [foldl_cons]
    by_cases code : InCode answer found.start
    · rw [step_in_code points later code]
      have skipped : prose answer (found :: rest) = prose answer rest := by
        simp [prose, code]
      have same : (scan.advance found.start).Sound sources := ⟨sound.cites, sound.apart, sound.seen⟩
      obtain ⟨final, extends'⟩ :=
        ih (located.weaken (Nat.le_add_right _ _)) (points.advance later) same
      refine ⟨final, ⟨extends'.grown, ?_, ?_, ?_⟩⟩
      · rw [skipped]
        exact extends'.cited
      · rw [skipped]
        exact extends'.counted
      · rw [skipped]
        exact extends'.written
    · rw [step_in_prose points later code]
      have kept : prose answer (found :: rest) = found :: prose answer rest := by
        simp [prose, code]
      obtain ⟨passed, whole, before⟩ := points.advance later
      have after : ∀ range ∈ passed, range.stop ≤ found.stop :=
        fun range member => (before range member).trans (Nat.le_add_right _ _)
      cases token : resolveToken (scopeMaps sources) sources found.token with
      | none =>
        have points : ((scan.advance found.start).reject answer found).Points answer found.stop :=
          ⟨passed, whole, after⟩
        obtain ⟨final, extends'⟩ := ih located points ⟨sound.cites, sound.apart, sound.seen⟩
        refine ⟨final, ⟨extends'.grown, ?_, ?_, ?_⟩⟩
        · rw [kept]
          intro other member resolved known
          rcases mem_cons.mp member with rfl | member
          · rw [token] at known
            cases known
          · exact extends'.cited other member resolved known
        · rw [kept, countP_cons_of_pos (by simp [token]), extends'.counted]
          simp only [Scan.reject, Scan.keep, Scan.advance]
          omega
        · rw [kept, splice, extends'.written]
          simp [Scan.reject, Scan.keep, Scan.advance, replacementOf, token]
      | some resolved =>
        have each := (resolveToken_some token).2
        have kept' : ((scan.advance found.start).keep answer found.start).Sound sources :=
          ⟨sound.cites, sound.apart, sound.seen⟩
        obtain ⟨cites, more, cited, grown, passages, written⟩ := cite_all_sound kept' each
        obtain ⟨sameCode, sameCount⟩ := cite_all_frame resolved
          ((scan.advance found.start).keep answer found.start)
        simp only
        set middle := resolved.foldl Scan.cite ((scan.advance found.start).keep answer found.start)
        have points : Scan.Points answer found.stop { middle with last := found.stop } :=
          ⟨passed, by rw [whole]; exact congrArg _ sameCode.symm, after⟩
        obtain ⟨final, extends'⟩ := ih located points ⟨cites.cites, cites.apart, cites.seen⟩
        set last := rest.foldl (Scan.step (scopeMaps sources) sources answer)
          { middle with last := found.stop }
        have further : middle.citations <+: last.citations := extends'.grown
        refine ⟨final, ⟨?_, ?_, ?_, ?_⟩⟩
        · exact List.IsPrefix.trans ⟨more, grown.symm⟩ further
        · rw [kept]
          intro other member others known one present
          rcases mem_cons.mp member with rfl | member
          · rw [token] at known
            cases known
            obtain ⟨citation, -, here⟩ := forall₂_mem passages one present
            obtain ⟨extra, shape⟩ := further
            exact ⟨citation, by rw [← shape]; exact citationOf_append here extra⟩
          · exact extends'.cited other member others known one present
        · rw [kept, countP_cons_of_neg (by simp [token]), extends'.counted]
          exact congrArg (· + _) sameCount
        · have here : replacementOf sources last.citations found = (cited.map (·.label)).flatten := by
            rw [labels_flatten _ further passages]
            simp only [replacementOf, token]
          rw [kept, splice, extends'.written, here]
          simp [written, Scan.keep, Scan.advance]

theorem labelOf_found {citation : Citation}
    (found : citationOf citations passage = some citation) :
    citation ∈ citations ∧ citation.passage = passage ∧
      labelOf citations passage = citation.label :=
  ⟨mem_of_find?_eq_some found, by simpa using find?_some found,
    by simp [labelOf, found]⟩

theorem cited_references
    (each : ∀ one ∈ resolved, ∃ citation, citationOf citations one.passage = some citation) :
    ∃ cited, List.Forall₂ CitesPassage (resolved.map (·.reference)) cited ∧
      (∀ citation ∈ cited, citation ∈ citations) ∧
      (resolved.map fun one => labelOf citations one.passage) = cited.map (·.label) := by
  induction resolved with
  | nil => exact ⟨[], .nil, by simp, rfl⟩
  | cons one rest ih =>
    obtain ⟨citation, found⟩ := each one mem_cons_self
    obtain ⟨member, passage, label⟩ := labelOf_found found
    obtain ⟨cited, references, members, labels⟩ :=
      ih fun one present => each one (mem_cons_of_mem _ present)
    obtain ⟨revision, block⟩ := Prod.mk.inj passage
    refine ⟨citation :: cited, .cons ⟨revision, block⟩ references, ?_, ?_⟩
    · intro other present
      rcases mem_cons.mp present with rfl | present
      · exact member
      · exact members other present
    · rw [map_cons, map_cons, label, labels]

end

/-- Citations are exact and distinct, every label match in prose is deleted and counted or
    replaced by the one label of each passage it names, and nothing else changes. -/
theorem resolveCitations_sound (answer : Text) (sources : List LabelSource) :
    (∀ citation ∈ (resolveCitations answer sources).citations, Cites sources citation) ∧
    (resolveCitations answer sources).citations.Pairwise (fun first second =>
      ¬(first.revisionId = second.revisionId ∧ first.block = second.block)) ∧
    splice answer (·.token) 0 (proseLabels answer) = answer ∧
    (resolveCitations answer sources).invalidLabels =
      (proseLabels answer).countP (fun found => ¬Resolvable sources found.token) ∧
    ∃ replacement : Regex.Found Nat → Text,
      (resolveCitations answer sources).text =
        splice answer replacement 0 (proseLabels answer) ∧
      ∀ found ∈ proseLabels answer,
        ¬Resolvable sources found.token ∧ replacement found = [] ∨
        ∃ references cited, Resolves sources found.token references ∧
          List.Forall₂ CitesPassage references cited ∧
          (∀ citation ∈ cited, citation ∈ (resolveCitations answer sources).citations) ∧
          replacement found = (cited.map (·.label)).flatten := by
  have located := label.matchAll_located answer
  have start : Scan.Sound sources ⟨codeRanges answer, fun _ => none, [], [], 0, 0, []⟩ :=
    ⟨by simp, .nil, by simp [citationOf]⟩
  have points : Scan.Points answer 0 ⟨codeRanges answer, fun _ => none, [], [], 0, 0, []⟩ :=
    ⟨[], rfl, by simp⟩
  obtain ⟨sound, ⟨_, cited, counted, written⟩⟩ := scan_sound _ located points start
  refine ⟨sound.cites, ?_, ?_, ?_, replacementOf sources _, written, ?_⟩
  · refine sound.apart.imp fun {first second} apart same => apart ?_
    rw [Citation.passage, Citation.passage, same.1, same.2]
  · exact splice_token (located.filter fun found => ¬InCode answer found.start)
  · refine counted.trans ?_
    rw [Nat.zero_add]
    refine countP_congr fun found _ => ?_
    simp [resolvable_iff]
  · intro found member
    cases token : resolveToken (scopeMaps sources) sources found.token with
    | none => exact .inl ⟨resolveToken_none token, by simp [replacementOf, token]⟩
    | some resolved =>
      obtain ⟨citations, references, members, labels⟩ :=
        cited_references (cited found member resolved token)
      refine .inr ⟨_, citations, (resolveToken_some token).1, references, members, ?_⟩
      simp only [replacementOf, token, ← labels]

end Citations
