import Eliot.Citations.CodeShape
import Eliot.Citations.Soundness

namespace Citations
open Text

def insideCode (text : Text) (position : Nat) : Bool :=
  let fences := fencedRanges text
  (fences ++ inlineCodeRanges text fences).any fun range =>
    range.start ≤ position && position < range.stop

/-- `[R${revisionId}:${block}]` -/
def persistentToken (revisionId : Text) (block : Nat) : Text :=
  bracketed (82 :: citationKey revisionId block)

structure Rewrite where
  parts : List Text
  last : Nat

def Rewrite.replace (rewrite : Rewrite) (text : Text) (found : Regex.Found Nat) (token : Text) : Rewrite :=
  ⟨rewrite.parts ++ [slice text rewrite.last found.start, token], found.stop⟩

def Rewrite.finish (rewrite : Rewrite) (text : Text) : Text :=
  (rewrite.parts ++ [text.drop rewrite.last]).flatten

/-- `/^\[S(\d+):(\d+)\]$/` -/
def compactLabel : Regex Nat :=
  .all [unit 91, unit 83, .capture digits, unit colon, .capture digits, unit 93, .finish]

/-- `/\[(?:S\d+[^\]\n[]*|R[^:\]\n[]*:[^\]\n[]*|block\s+[^\]\n[]*)\]/g` -/
def refCandidate : Regex Nat :=
  let some : Regex Nat := .star (.one labelUnit)
  .all [unit 91,
    .alt (.all [unit 83, digits, some])
      (.alt (.all [unit 82, .star (.one fun unit => labelUnit unit && unit != colon), unit colon,
          some])
        (.all ((text "block").map unit ++ [(Regex.one isSpace).plus, some]))),
    unit 93]

def declaredBlock (label : Text) : Option Nat :=
  (compactLabel.exec label).bind fun once => once.captures[1]?.bind fun digits =>
    if maxSafeInteger < number digits ∨ number digits < 1 then none else some (number digits)

/-- `[block ${block}]` -/
def blockToken (block : Nat) : Text := bracketed (text "block " ++ decimal block)

def knownReferences (labels : List Text) (revisionId : Text) : Text → Option Nat :=
  labels.foldl (fun known label =>
    match declaredBlock label with
    | none => known
    | some block =>
      setKey (setKey (setKey known label block) (persistentToken revisionId block) block)
        (blockToken block) block) fun _ => none

structure CleanedText where
  text : Text
  invalidReferences : Nat
deriving DecidableEq

structure Cleaning extends Rewrite where
  invalid : Nat

/-- One candidate of a text; `token` is what a recognised reference is replaced by. -/
def Cleaning.step (known : Text → Option Nat) (token : Nat → Text) (text : Text) (cleaning : Cleaning)
    (found : Regex.Found Nat) : Cleaning :=
  if insideCode text found.start then cleaning
  else match known found.token with
    | none => { cleaning with invalid := cleaning.invalid + 1 }
    | some block => { cleaning with toRewrite := cleaning.toRewrite.replace text found (token block) }

def cleanDistillText (text : Text) (labels : List Text) (revisionId : Text) (preserveReferences : Bool) :
    CleanedText :=
  let token := fun block => if preserveReferences then persistentToken revisionId block else []
  let cleaning := (refCandidate.matchAll text).foldl
    (Cleaning.step (knownReferences labels revisionId) token text) ⟨⟨[], 0⟩, 0⟩
  ⟨cleaning.finish text, cleaning.invalid⟩

section
variable {text : Text} {sources : List LabelSource}

theorem insideCode_iff {position : Nat} : insideCode text position = true ↔ InCode text position := by
  simp only [insideCode, InCode, List.any_eq_true, Bool.and_eq_true, decide_eq_true_eq]

theorem inlineCodeRanges_shape (text : Text) :
    InlineShape text (fencedRanges text) 0 (inlineCodeRanges text (fencedRanges text)) :=
  inlineFrom_shape (fencedRanges_shape text).1 (fencedRanges_shape text).2 fun _ => .inr (.inl rfl)

theorem codeRanges_bounds {range : CodeRange} (member : range ∈ codeRanges text) :
    range.start < range.stop ∧ range.stop ≤ text.length := by
  rcases List.mem_append.mp (mem_codeRanges.mp member) with fence | inline
  · have shape := (fencedRanges_shape text).1 range fence
    exact ⟨shape.nonempty, shape.within⟩
  · have shape := inlineCodeRanges_shape text
    obtain ⟨count, quoted⟩ := shape.quoted range inline
    have between := quoted.between
    exact ⟨by omega, (shape.after range inline).2⟩

theorem codeRanges_apart (text : Text) : Apart (codeRanges text) := by
  have inline := inlineCodeRanges_shape text
  have whole : (fencedRanges text ++ inlineCodeRanges text (fencedRanges text)).Pairwise
      fun first second => first.stop ≤ second.start ∨ second.stop ≤ first.start := by
    refine List.pairwise_append.mpr ⟨(fencedRanges_shape text).2.imp .inl, inline.apart.imp .inl, ?_⟩
    exact fun fence listed range member => (inline.outside range member fence listed).symm
  have either : (codeRanges text).Pairwise
      fun first second => first.stop ≤ second.start ∨ second.stop ≤ first.start :=
    (List.mergeSort_perm _ _).symm.pairwise whole fun apart => apart.symm
  refine ((codeRanges_sorted text).and either).imp_of_mem fun {first second} left right both => ?_
  have spans := (codeRanges_bounds right).1
  rcases both with ⟨order, before | after⟩
  · exact before
  · have := (codeRanges_bounds left).1
    omega

theorem step_code (scan : Scan) (found : Regex.Found Nat) :
    (scan.step (scopeMaps sources) sources text found).code = (scan.advance found.start).code := by
  unfold Scan.step
  dsimp only
  split
  · rfl
  split
  · rfl
  · exact (cite_all_frame _ _).1

theorem fold_points (sources : List LabelSource) {before after : List (Regex.Found Nat)} {found : Regex.Found Nat} {scan : Scan}
    {bound : Nat} (located : Regex.Located text bound (before ++ found :: after))
    (points : scan.Points text bound) : ∃ reached, reached ≤ found.start ∧
      (before.foldl (Scan.step (scopeMaps sources) sources text) scan).Points text reached := by
  induction before generalizing scan bound with
  | nil => exact ⟨bound, located.1, points⟩
  | cons first before ih =>
    obtain ⟨later, -, located⟩ := located
    obtain ⟨passed, whole, ended⟩ := points.advance later
    refine ih (located.weaken (Nat.le_add_right _ _)) ⟨passed, ?_, ended⟩
    rw [step_code]
    exact whole

/-- The code ranges of a text, and the pointer into them at each label. -/
theorem codeRanges_agree (text : Text) :
    Apart (fencedRanges text) ∧ Apart (inlineCodeRanges text (fencedRanges text)) ∧
    Apart (codeRanges text) ∧
    (∀ range ∈ codeRanges text, range.start < range.stop ∧ range.stop ≤ text.length) ∧
    (∀ range ∈ inlineCodeRanges text (fencedRanges text), (∃ count, Quoted text range count) ∧
      ∀ fence ∈ fencedRanges text, range.stop ≤ fence.start ∨ fence.stop ≤ range.start) ∧
    ∀ sources before found after, label.matchAll text = before ++ found :: after →
      ((before.foldl (Scan.step (scopeMaps sources) sources text)
        ⟨codeRanges text, fun _ => none, [], [], 0, 0, []⟩).advance found.start).inside found.start =
          insideCode text found.start := by
  have inline := inlineCodeRanges_shape text
  refine ⟨(fencedRanges_shape text).2, inline.apart, codeRanges_apart text, fun range => codeRanges_bounds,
    fun range member => ⟨inline.quoted range member, inline.outside range member⟩,
    fun sources before found after split => ?_⟩
  have located := label.matchAll_located text
  rw [split] at located
  have start : Scan.Points text 0 ⟨codeRanges text, fun _ => none, [], [], 0, 0, []⟩ :=
    ⟨[], rfl, by simp⟩
  obtain ⟨reached, earlier, points⟩ := fold_points sources located start
  rw [Bool.eq_iff_iff, points.inside_iff earlier, insideCode_iff]

end
end Citations
