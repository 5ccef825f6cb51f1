import Eliot.Citations.Warnings

namespace Citations
open Text List

def TextRange.Clear (range : TextRange) (fence : CodeRange) : Prop :=
  range.stop ≤ fence.start ∨ fence.stop ≤ range.start

namespace BlockScan

variable {analyzed : Text} {fences : List CodeRange} {scan : BlockScan} {line : Text} {next : Option Text}
  {lineStart lineEnd offset : Nat}

def labelsAlone (analyzed : Text) (fences : List CodeRange) (scan : BlockScan) (line : Text) (next : Option Text)
    (lineStart lineEnd : Nat) : Bool :=
  let markdownLine := withoutReturn line
  !(fences.any fun range => lineStart < range.stop && range.start < lineEnd) &&
    !(!scan.inTable && hasUnescapedPipe markdownLine && isTableDelimiter (next.getD [])) &&
    !(scan.inTable && trim markdownLine != [] && hasUnescapedPipe markdownLine) &&
    cleanStatement (slice analyzed lineStart (lineStart + line.length)) == [] && hasLabel line

def behindFence (analyzed : Text) (fences : List CodeRange) (scan : BlockScan) (line : Text) (next : Option Text)
    (lineStart lineEnd : Nat) : Bool :=
  scan.labelsAlone analyzed fences line next lineStart lineEnd && scan.current.isNone &&
    scan.blocks.getLast?.any fun last => fences.any fun fence => last.stop ≤ fence.start && fence.stop ≤ lineStart

def noneBehindFence (analyzed : Text) (fences : List CodeRange) (scan : BlockScan) (offset : Nat) :
    List Text → Bool
  | [] => true
  | line :: lines =>
    let lineEnd := offset + line.length + if lines.isEmpty then 0 else 1
    !scan.behindFence analyzed fences line lines.head? offset lineEnd &&
      noneBehindFence analyzed fences (scan.step analyzed fences line lines.head? offset lineEnd) lineEnd lines

inductive Does (scan after : BlockScan) (alone : Prop) (lineStart lineEnd : Nat) : Prop where
  | closed (same : after.all = scan.all) (behind : after.current = none)
  | opened (kind : StatementKind) (added : after.all = scan.all ++ [⟨⟨lineStart, lineEnd⟩, kind⟩])
      (behind : ∀ block ∈ after.current, block.stop = lineEnd)
  | extended (before : scan.current.isSome) (longer : after.all = extendLast scan.all lineEnd)
      (behind : ∀ block ∈ after.current, block.stop = lineEnd)
  | joined (alone : alone) (before : scan.current = none) (longer : after.all = extendLast scan.all lineEnd)
      (behind : after.current = none)

theorem extended_does {current : StatementBlock} {alone : Prop} (opened : scan.current = some current) :
    Does scan { scan with current := some { current with stop := lineEnd } } alone lineStart lineEnd := by
  refine .extended (by rw [opened]; rfl) (extend_current opened) ?_
  intro block member
  cases member
  rfl

theorem opened_does (kind : StatementKind) {alone : Prop} (table : Bool) :
    Does scan { scan.flush with current := some ⟨⟨lineStart, lineEnd⟩, kind⟩, inTable := table } alone
      lineStart lineEnd := by
  refine .opened kind ?_ ?_
  · rw [← scan.flush_all]
    simp [all, flush]
  · intro block member
    cases member
    rfl

theorem pushed_does (kind : StatementKind) {alone : Prop} (table : Bool) :
    Does scan { scan.flush with blocks := scan.flush.blocks ++ [⟨⟨lineStart, lineEnd⟩, kind⟩], inTable := table }
      alone lineStart lineEnd := by
  refine .opened kind ?_ ?_
  · rw [← scan.flush_all]
    simp [all, flush]
  · intro block member
    cases member

theorem proseLine_does (analyzed : Text) (scan : BlockScan) (line : Text) (lineStart lineEnd : Nat) :
    Does scan (proseLine analyzed scan line lineStart lineEnd)
      (cleanStatement (slice analyzed lineStart (lineStart + line.length)) = [] ∧ hasLabel line = true)
      lineStart lineEnd := by
  unfold proseLine
  dsimp only
  by_cases hidden : cleanStatement (slice analyzed lineStart (lineStart + line.length)) = []
  · rw [if_pos hidden]
    by_cases labelled : hasLabel line = true
    · rw [if_pos labelled]
      cases opened : scan.current with
      | none => exact .joined ⟨hidden, labelled⟩ opened (by simp [all, opened]) rfl
      | some current => exact extended_does opened
    · rw [if_neg labelled]
      exact .closed scan.flush_all rfl
  · rw [if_neg hidden]
    split
    · rename_i continued
      cases opened : scan.current with
      | none => simp [opened] at continued
      | some current => exact extended_does opened
    · split
      · exact opened_does .list scan.inTable
      · rename_i kind _ _
        exact pushed_does kind scan.inTable
      · split
        · rename_i opened
          refine .opened .prose (by simp [all, opened]) ?_
          intro block member
          cases member
          rfl
        · rename_i current opened
          by_cases listed : scan.current.any (·.kind == .list) = true
          · rw [if_pos listed]
            exact opened_does .prose scan.inTable
          · rw [if_neg listed]
            exact extended_does opened

theorem step_does (analyzed : Text) (scan : BlockScan) (line : Text) (next : Option Text)
    (free : ∀ fence ∈ fences, fence.stop ≤ lineStart ∨ lineEnd ≤ fence.start) :
    Does scan (scan.step analyzed fences line next lineStart lineEnd)
      (scan.labelsAlone analyzed fences line next lineStart lineEnd = true) lineStart lineEnd := by
  have flushed := scan.flush_all
  unfold step
  dsimp only
  split_ifs with fenced header row delimiter
  · obtain ⟨fence, member, meets⟩ := any_eq_true.mp fenced
    have apart := free fence member
    simp only [Bool.and_eq_true, decide_eq_true_eq] at meets
    omega
  · exact .closed flushed rfl
  · exact .closed flushed rfl
  · exact pushed_does .table scan.flush.inTable
  · have does := proseLine_does analyzed { scan with inTable := false } line lineStart lineEnd
    cases does with
    | closed same behind => exact .closed same behind
    | opened kind added behind => exact .opened kind added behind
    | extended before longer behind => exact .extended before longer behind
    | joined alone before longer behind =>
      refine .joined ?_ before longer behind
      rw [labelsAlone, Bool.eq_false_iff.mpr fenced, Bool.eq_false_iff.mpr header, Bool.eq_false_iff.mpr row,
        alone.1, alone.2]
      rfl

theorem step_closed (analyzed : Text) (scan : BlockScan) (line : Text) (next : Option Text)
    (fenced : (fences.any fun range => lineStart < range.stop && range.start < lineEnd) = true) :
    (scan.step analyzed fences line next lineStart lineEnd).all = scan.all ∧
      (scan.step analyzed fences line next lineStart lineEnd).current = none := by
  rw [step, if_pos fenced]
  exact ⟨scan.flush_all, rfl⟩

variable {blocks : List StatementBlock}

theorem mem_extendLast {stop : Nat} {block : StatementBlock}
    (member : block ∈ extendLast blocks stop) :
    block ∈ blocks ∨ ∃ last, blocks.getLast? = some last ∧ block = { last with stop := stop } := by
  unfold extendLast at member
  cases ending : blocks.getLast? with
  | none =>
    rw [ending] at member
    exact .inl member
  | some last =>
    rw [ending] at member
    rcases mem_append.mp member with earlier | new
    · exact .inl (mem_of_mem_dropLast earlier)
    · exact .inr ⟨last, rfl, mem_singleton.mp new⟩

def Clears (fences : List CodeRange) (blocks : List StatementBlock) : Prop :=
  ∀ block ∈ blocks, ∀ fence ∈ fences, block.Clear fence

structure Clean (fences : List CodeRange) (scan : BlockScan) (offset : Nat) : Prop where
  clears : Clears fences scan.all
  ends : ∀ block ∈ scan.current, block.stop = offset

theorem clean_closed (clears : Clears fences scan.all) (closed : scan.current = none) : Clean fences scan offset := by
  refine ⟨clears, ?_⟩
  intro block member
  rw [closed] at member
  cases member

theorem getLast?_all {current : StatementBlock} (opened : scan.current = some current) :
    scan.all.getLast? = some current := by
  rw [all, opened]
  exact getLast?_concat

theorem free_of_not_fenced
    (fenced : ¬ (fences.any fun range => lineStart < range.stop && range.start < lineEnd) = true) :
    ∀ fence ∈ fences, fence.stop ≤ lineStart ∨ lineEnd ≤ fence.start := by
  intro fence member
  by_contra meets
  refine fenced (any_eq_true.mpr ⟨fence, member, ?_⟩)
  simp only [Bool.and_eq_true, decide_eq_true_eq]
  omega

theorem step_clean (filled : ∀ fence ∈ fences, fence.start < fence.stop) (clean : Clean fences scan lineStart)
    (safe : scan.behindFence analyzed fences line next lineStart lineEnd = false) :
    Clean fences (scan.step analyzed fences line next lineStart lineEnd) lineEnd := by
  by_cases fenced : (fences.any fun range => lineStart < range.stop && range.start < lineEnd) = true
  · obtain ⟨same, closed⟩ := step_closed analyzed scan line next fenced
    exact clean_closed (same ▸ clean.clears) closed
  have free := free_of_not_fenced fenced
  cases step_does analyzed scan line next free with
  | closed same behind => exact clean_closed (same ▸ clean.clears) behind
  | opened kind added behind =>
    refine ⟨?_, behind⟩
    intro block member fence fenceMember
    rw [added] at member
    rcases mem_append.mp member with earlier | new
    · exact clean.clears block earlier fence fenceMember
    · rw [mem_singleton.mp new]
      exact (free fence fenceMember).symm
  | extended before longer behind =>
    refine ⟨?_, behind⟩
    obtain ⟨current, opened⟩ := Option.isSome_iff_exists.mp before
    intro block member fence fenceMember
    rw [longer] at member
    rcases mem_extendLast member with earlier | ⟨last, ending, rfl⟩
    · exact clean.clears block earlier fence fenceMember
    · rw [getLast?_all opened] at ending
      cases ending
      have stop := clean.ends current opened
      have old := clean.clears current (mem_of_getLast? (getLast?_all opened)) fence fenceMember
      have fit := filled fence fenceMember
      have apart := free fence fenceMember
      unfold TextRange.Clear at old ⊢
      dsimp only
      omega
  | joined alone before longer behind =>
    refine clean_closed ?_ behind
    intro block member fence fenceMember
    rw [longer] at member
    rcases mem_extendLast member with earlier | ⟨last, ending, rfl⟩
    · exact clean.clears block earlier fence fenceMember
    · have old := clean.clears last (mem_of_getLast? ending) fence fenceMember
      have apart := free fence fenceMember
      have between : ¬ (last.stop ≤ fence.start ∧ fence.stop ≤ lineStart) := by
        intro crossed
        rw [all, before, Option.toList_none, append_nil] at ending
        rw [behindFence, alone, before, ending, Option.any_some] at safe
        have found := any_eq_false.mp safe fence fenceMember
        simp only [Bool.and_eq_true, decide_eq_true_eq] at found
        exact found crossed
      unfold TextRange.Clear at old ⊢
      dsimp only
      omega

def Covers (fences : List CodeRange) (blocks : List StatementBlock) : Prop :=
  ∃ block ∈ blocks, ∃ fence ∈ fences, fence.start < block.stop ∧ block.start < fence.stop

theorem not_clears (covers : Covers fences blocks) : ¬ Clears fences blocks := by
  obtain ⟨block, member, fence, fenceMember, cover⟩ := covers
  intro clears
  have clear := clears block member fence fenceMember
  unfold TextRange.Clear at clear
  omega

theorem extendLast_covers {stop : Nat} (within : ∀ block ∈ blocks, block.stop ≤ stop)
    (covers : Covers fences blocks) : Covers fences (extendLast blocks stop) := by
  obtain ⟨block, member, fence, fenceMember, before, behind⟩ := covers
  unfold extendLast
  cases blocks using List.reverseRecOn with
  | nil => cases member
  | append_singleton blocks last =>
    rw [getLast?_concat, dropLast_concat]
    rcases mem_append.mp member with earlier | new
    · exact ⟨block, mem_append_left _ earlier, fence, fenceMember, before, behind⟩
    · have longer := within block member
      rw [mem_singleton] at new
      subst new
      exact ⟨_, mem_append_right _ (mem_singleton.mpr rfl), fence, fenceMember, by dsimp only; omega, behind⟩

theorem Moves.covers {before after : List StatementBlock} (moves : Moves before after lineStart lineEnd)
    (order : lineStart ≤ lineEnd) (ordered : Ranges.Ordered 0 lineStart (spans before))
    (covers : Covers fences before) : Covers fences after := by
  rcases moves with rfl | rfl | ⟨-, kind, rfl⟩
  · exact covers
  · refine extendLast_covers ?_ covers
    intro block member
    have bound := ordered.laid.bounds _ (mem_map_of_mem member)
    exact Nat.le_trans bound.2.2 order
  · obtain ⟨block, member, rest⟩ := covers
    exact ⟨block, mem_append_left _ member, rest⟩

theorem step_joined (alone : scan.labelsAlone analyzed fences line next lineStart lineEnd = true)
    (closed : scan.current = none) :
    (scan.step analyzed fences line next lineStart lineEnd).all = extendLast scan.all lineEnd := by
  simp only [labelsAlone, Bool.and_eq_true, Bool.not_eq_true', beq_iff_eq] at alone
  obtain ⟨⟨⟨⟨fenced, header⟩, row⟩, hidden⟩, labelled⟩ := alone
  have missed {condition : Bool} (missed : condition = false) : ¬ condition = true := by rw [missed]; decide
  rw [step, if_neg (missed fenced)]
  dsimp only
  rw [if_neg (missed header), if_neg (missed row), proseLine]
  dsimp only
  rw [if_pos hidden, if_pos labelled, closed]
  simp [all, closed]

theorem step_covers (filled : ∀ fence ∈ fences, fence.start < fence.stop) (order : lineStart ≤ lineEnd)
    (ordered : Ranges.Ordered 0 lineStart (spans scan.all))
    (behind : scan.behindFence analyzed fences line next lineStart lineEnd = true) :
    Covers fences (scan.step analyzed fences line next lineStart lineEnd).all := by
  rw [behindFence, Bool.and_eq_true, Bool.and_eq_true] at behind
  obtain ⟨⟨alone, closed⟩, crossed⟩ := behind
  have closed : scan.current = none := Option.isNone_iff_eq_none.mp closed
  rw [step_joined alone closed, all, closed, Option.toList_none, append_nil, extendLast]
  cases ending : scan.blocks.getLast? with
  | none => simp [ending] at crossed
  | some last =>
    rw [ending, Option.any_some] at crossed
    obtain ⟨fence, fenceMember, between⟩ := any_eq_true.mp crossed
    simp only [Bool.and_eq_true, decide_eq_true_eq] at between
    have member : last ∈ scan.all := mem_append_left _ (mem_of_getLast? ending)
    have bound : 0 ≤ last.start ∧ last.start < last.stop ∧ last.stop ≤ lineStart :=
      ordered.laid.bounds _ (mem_map_of_mem member)
    have fit := filled fence fenceMember
    refine ⟨_, mem_append_right _ (mem_singleton.mpr rfl), fence, fenceMember, ?_, ?_⟩
    · dsimp only
      omega
    · dsimp only
      omega

variable {text : Text} {lines : List Text}

theorem scanLines_covers (shape : Lines text offset lines) (ordered : Ranges.Ordered 0 offset (spans scan.all))
    (covers : Covers fences scan.all) : Covers fences (scanLines analyzed fences scan offset lines).blocks := by
  induction lines generalizing scan offset with
  | nil => exact covers
  | cons line lines ih =>
    have moves : Moves scan.all (scan.step analyzed fences line lines.head? offset _).all offset _ :=
      step_moves (Nat.le_add_right (offset + line.length) (if lines.isEmpty then 0 else 1))
    exact ih shape.next (moves.ordered (by omega) ordered) (moves.covers (by omega) ordered covers)

theorem scanLines_clears (filled : ∀ fence ∈ fences, fence.start < fence.stop) (shape : Lines text offset lines)
    (ordered : Ranges.Ordered 0 offset (spans scan.all)) (clean : Clean fences scan offset) :
    Clears fences (scanLines analyzed fences scan offset lines).blocks ↔
      noneBehindFence analyzed fences scan offset lines = true := by
  induction lines generalizing scan offset with
  | nil =>
    have clears : Clears fences scan.flush.blocks := clean.clears
    exact iff_of_true clears rfl
  | cons line lines ih =>
    have moves : Moves scan.all (scan.step analyzed fences line lines.head? offset _).all offset _ :=
      step_moves (Nat.le_add_right (offset + line.length) (if lines.isEmpty then 0 else 1))
    have later := moves.ordered (by omega) ordered
    rw [scanLines, noneBehindFence]
    cases behind : scan.behindFence analyzed fences line lines.head? offset _ with
    | true =>
      have covers := step_covers filled (by omega) ordered behind
      exact iff_of_false (not_clears (scanLines_covers shape.next later covers)) Bool.false_ne_true
    | false => exact ih shape.next later (step_clean filled clean behind)

end BlockScan

def noneBehindFence (text : Text) : Bool :=
  BlockScan.noneBehindFence (maskRanges text (fencedRanges text)) (fencedRanges text) ⟨[], none, false⟩ 0
    (text.splitOn 10)

def answerBlocks (text : Text) : List StatementBlock :=
  statementBlocks text (maskRanges text (fencedRanges text)) (fencedRanges text)

theorem answerBlocks_clear (text : Text) :
    (∀ block ∈ answerBlocks text, ∀ fence ∈ fencedRanges text, block.Clear fence) ↔ noneBehindFence text = true := by
  refine BlockScan.scanLines_clears ?_ (splitOn_lines text) (Ranges.ordered_nil (Nat.le_refl 0)) ⟨?_, ?_⟩
  · intro fence member
    exact ((fencedRanges_shape text).1 fence member).nonempty
  · intro block member
    cases member
  · intro block member
    cases member

theorem Clear.within {range whole : TextRange} {fence : CodeRange} (clear : whole.Clear fence)
    (start : whole.start ≤ range.start) (stop : range.stop ≤ whole.stop) : range.Clear fence := by
  unfold TextRange.Clear at clear ⊢
  omega

section

variable (language : Language) (text : Text) (citations : List Citation) (quotes : Text → Option Text)

def unitOf (block : StatementBlock) (sentence : TextRange) : Option FactualStatement :=
  let fences := fencedRanges text
  factualStatement language (maskRanges text fences)
    (resolvedLabels text citations (fences ++ inlineCodeRanges text fences)) block.kind sentence

variable {language text citations} {unit : FactualStatement}

theorem mem_factualStatements :
    unit ∈ factualStatements language text citations ↔ ∃ block ∈ answerBlocks text,
      ∃ sentence ∈ sentenceRanges language (maskRanges text (fencedRanges text)) block,
        unitOf language text citations block sentence = some unit := by
  rw [factualStatements]
  simp only [mem_flatMap, mem_filterMap]
  rfl

theorem unit_within_block {block : StatementBlock} {sentence : TextRange}
    (member : block ∈ answerBlocks text)
    (listed : sentence ∈ sentenceRanges language (maskRanges text (fencedRanges text)) block)
    (asked : unitOf language text citations block sentence = some unit) :
    unit.toTextRange = sentence ∧ block.start ≤ unit.start ∧ unit.stop ≤ block.stop := by
  rw [unitOf] at asked
  have same : unit.toTextRange = sentence := factualStatement_span language asked
  rw [answerBlocks] at member
  have blocks := statementBlocks_ordered text (maskRanges text (fencedRanges text)) (fencedRanges text)
  have filled : 0 ≤ block.start ∧ block.start < block.stop ∧ block.stop ≤ text.length :=
    blocks.laid.bounds _ (mem_map_of_mem member)
  have sentences := sentenceRanges_ordered language (maskRanges text (fencedRanges text)) filled.2.1
  have inside : block.start ≤ sentence.start ∧ sentence.start < sentence.stop ∧ sentence.stop ≤ block.stop :=
    sentences.laid.bounds _ (mem_map_of_mem listed)
  subst same
  exact ⟨rfl, inside.1, inside.2.2⟩

variable (language)

def Supported (quotes : Text → Option Text) (unit : FactualStatement) : Prop :=
  unit.labels ≠ [] ∧ (unit.numeric = true → numbersIn language unit.text (selectedQuotes quotes unit.labels) = true)

variable {language}

theorem answerWarning_none (member : unit ∈ factualStatements language text citations) :
    answerWarning language text quotes unit = none ↔ Supported language quotes unit := by
  rw [answerWarning_eq quotes member, Supported]
  by_cases labelled : unit.labels = []
  · rw [if_pos labelled]
    exact iff_of_false (by simp) (fun supported => supported.1 labelled)
  · rw [if_neg labelled]
    cases unit.numeric with
    | false => simp [labelled]
    | true =>
      cases numbersIn language unit.text (selectedQuotes quotes unit.labels) <;> simp [labelled]

theorem warning_of_unit (member : unit ∈ factualStatements language text citations)
    (warned : ¬ Supported language quotes unit) :
    ∃ warning ∈ answerWarnings language text citations quotes, warning.toTextRange = unit.toTextRange := by
  rw [← answerWarning_none quotes member, ← ne_eq, Option.ne_none_iff_exists'] at warned
  obtain ⟨warning, found⟩ := warned
  exact ⟨warning, mem_filterMap.mpr ⟨unit, member, found⟩, answerWarning_span quotes found⟩

theorem unit_of_warning {warning : AnswerWarning} (member : warning ∈ answerWarnings language text citations quotes) :
    ∃ unit ∈ factualStatements language text citations,
      warning.toTextRange = unit.toTextRange ∧ ¬ Supported language quotes unit := by
  obtain ⟨unit, listed, found⟩ := mem_filterMap.mp member
  refine ⟨unit, listed, answerWarning_span quotes found, ?_⟩
  intro supported
  rw [(answerWarning_none quotes listed).mpr supported] at found
  cases found

variable (language text citations)

/-- The blocks of an answer are clear of its fences exactly when no labels stand alone behind one, and then its
    warnings are. In any answer they are exactly when every sentence over a fence is exempt or supported. -/
theorem answerWarnings_clear :
    (noneBehindFence text = true ↔
      ∀ block ∈ answerBlocks text, ∀ fence ∈ fencedRanges text, block.Clear fence) ∧
    (noneBehindFence text = true →
      ∀ warning ∈ answerWarnings language text citations quotes, ∀ fence ∈ fencedRanges text,
        warning.Clear fence) ∧
    ((∀ warning ∈ answerWarnings language text citations quotes, ∀ fence ∈ fencedRanges text,
        warning.Clear fence) ↔
      ∀ block ∈ answerBlocks text,
        ∀ sentence ∈ sentenceRanges language (maskRanges text (fencedRanges text)) block,
          (∃ fence ∈ fencedRanges text, ¬ sentence.Clear fence) →
            ∀ unit, unitOf language text citations block sentence = some unit → Supported language quotes unit) := by
  refine ⟨(answerBlocks_clear text).symm, ?_, ?_, ?_⟩
  · intro none warning member fence fenceMember
    obtain ⟨unit, listed, span, -⟩ := unit_of_warning quotes member
    obtain ⟨block, blockMember, sentence, sentenceMember, asked⟩ := mem_factualStatements.mp listed
    obtain ⟨-, start, stop⟩ := unit_within_block blockMember sentenceMember asked
    rw [span]
    exact Clear.within ((answerBlocks_clear text).mpr none block blockMember fence fenceMember) start stop
  · intro clear block blockMember sentence sentenceMember covers unit asked
    obtain ⟨fence, fenceMember, covered⟩ := covers
    have listed := mem_factualStatements.mpr ⟨block, blockMember, sentence, sentenceMember, asked⟩
    have same := (unit_within_block blockMember sentenceMember asked).1
    by_contra warned
    obtain ⟨warning, member, span⟩ := warning_of_unit quotes listed warned
    rw [← same, ← span] at covered
    exact covered (clear warning member fence fenceMember)
  · intro supported warning member fence fenceMember
    obtain ⟨unit, listed, span, warned⟩ := unit_of_warning quotes member
    obtain ⟨block, blockMember, sentence, sentenceMember, asked⟩ := mem_factualStatements.mp listed
    have same := (unit_within_block blockMember sentenceMember asked).1
    by_contra covered
    rw [span, same] at covered
    exact warned (supported block blockMember sentence sentenceMember ⟨fence, fenceMember, covered⟩ unit asked)

end

def lineSegments : Text → List Text
  | [] => []
  | unit :: rest =>
    if unit = 10 then [10] :: lineSegments rest
    else match lineSegments rest with
      | [] => [[unit]]
      | segment :: segments => (unit :: segment) :: segments

theorem lineSegments_flatten (text : Text) : (lineSegments text).flatten = text := by
  induction text with
  | nil => rfl
  | cons unit rest ih =>
    rw [lineSegments]
    split
    · rename_i feed
      rw [flatten_cons, ih, feed]
      rfl
    · split
      · rename_i none
        rw [none, flatten_nil] at ih
        rw [← ih]
        rfl
      · rename_i segment segments some
        rw [some, flatten_cons] at ih
        rw [flatten_cons, cons_append, ih]

def plainLanguage : Language where
  unicode := .plain
  letterOrNumber := Numbers.isAlphanumeric
  punctuationOrSymbol code := 32 < code && code < 127 && !Numbers.isAlphanumeric code
  toLowerCase := List.map fun unit => if 65 ≤ unit && unit ≤ 90 then unit + 32 else unit
  segment := lineSegments
  partition := lineSegments_flatten

def sampleCitation : Citation := ⟨[], [], 1, 1, 2, [], false, text "[S1:1]"⟩

def codeInside : Text := text "Claim 5 here.\n```\ncode\n```\n[S1:1]"

def codeBefore : Text := text "Claim 5 here.\n```\ncode\n```\nNext 6 words.\n[S1:1]"

/-- The sentence before the fence gets the label behind it, and the warning covers the fence. -/
theorem codeInside_warned : ¬ ∀ (language : Language) (answer : Text) (citations : List Citation)
    (quotes : Text → Option Text), ∀ warning ∈ answerWarnings language answer citations quotes,
      ∀ fence ∈ fencedRanges answer, warning.Clear fence := by
  intro clear
  have warned : ⟨⟨0, 33⟩, .unsupportedNumber⟩ ∈
      answerWarnings plainLanguage codeInside [sampleCitation] (fun _ => none) := by decide +kernel
  have fenced : (⟨14, 27⟩ : CodeRange) ∈ fencedRanges codeInside := by decide +kernel
  have apart := clear plainLanguage codeInside [sampleCitation] (fun _ => none) _ warned _ fenced
  unfold TextRange.Clear at apart
  dsimp only at apart
  omega

theorem codeBefore_clear : noneBehindFence codeBefore = true ∧
    ∀ warning ∈ answerWarnings plainLanguage codeBefore [sampleCitation] (fun _ => none),
      ∀ fence ∈ fencedRanges codeBefore, warning.Clear fence :=
  ⟨by decide +kernel,
    (answerWarnings_clear plainLanguage codeBefore [sampleCitation] (fun _ => none)).2.1 (by decide +kernel)⟩

end Citations
