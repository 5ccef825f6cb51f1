import Eliot.Citations.CodeShape
import Eliot.Citations.Statements
import Eliot.Numbers.Coverage
import Eliot.Text.Preferred
import Eliot.Text.Ranges

namespace Citations
open Text List
open Regex (Found Located)
open Ranges (Ordered)

def TextRange.span (range : TextRange) : Nat × Nat := (range.start, range.stop)

theorem cleanStatement_nil : cleanStatement [] = [] := by decide

theorem signals_filled {language : Language} {analyzed : Text} {start stop : Nat}
    (signal : signals language analyzed start stop = true) : start < stop := by
  by_contra behind
  have nothing : slice analyzed start stop = [] := by
    rw [slice, Nat.sub_eq_zero_of_le (Nat.le_of_not_lt behind), take_zero]
  rw [signals, nothing, cleanStatement_nil] at signal
  cases signal

namespace BlockScan

def all (scan : BlockScan) : List StatementBlock := scan.blocks ++ scan.current.toList

theorem flush_all (scan : BlockScan) : scan.flush.all = scan.all := append_nil _

def spans (blocks : List StatementBlock) : List (Nat × Nat) := blocks.map (·.span)

theorem extendLast_ordered {blocks : List StatementBlock} {high stop : Nat}
    (ordered : Ordered 0 high (spans blocks)) (order : high ≤ stop) :
    Ordered 0 stop (spans (extendLast blocks stop)) := by
  unfold extendLast
  cases blocks using List.reverseRecOn with
  | nil => exact ordered.raise order
  | append_singleton blocks last =>
    rw [getLast?_concat, dropLast_concat, spans, map_append]
    rw [spans, map_append] at ordered
    exact ordered.extend order

def Moves (before after : List StatementBlock) (lineStart lineEnd : Nat) : Prop :=
  after = before ∨ after = extendLast before lineEnd ∨
    lineStart < lineEnd ∧ ∃ kind, after = before ++ [⟨⟨lineStart, lineEnd⟩, kind⟩]

theorem Moves.ordered {before after : List StatementBlock} {lineStart lineEnd : Nat}
    (moves : Moves before after lineStart lineEnd) (order : lineStart ≤ lineEnd)
    (ordered : Ordered 0 lineStart (spans before)) : Ordered 0 lineEnd (spans after) := by
  rcases moves with rfl | rfl | ⟨filled, kind, rfl⟩
  · exact ordered.raise order
  · exact extendLast_ordered ordered order
  · rw [spans, map_append]
    exact ordered.push (Nat.le_refl _) filled

variable {analyzed : Text} {scan : BlockScan} {line : Text} {lineStart lineEnd : Nat}

theorem extend_current {current : StatementBlock} (open' : scan.current = some current) :
    BlockScan.all { scan with current := some { current with stop := lineEnd } } = extendLast scan.all lineEnd := by
  simp [all, open', extendLast]

theorem proseLine_moves (analyzed : Text) (scan : BlockScan) (fits : lineStart + line.length ≤ lineEnd) :
    Moves scan.all (proseLine analyzed scan line lineStart lineEnd).all lineStart lineEnd := by
  unfold proseLine
  dsimp only
  by_cases hidden : cleanStatement (slice analyzed lineStart (lineStart + line.length)) = []
  · rw [if_pos hidden]
    by_cases labelled : hasLabel line = true
    · rw [if_pos labelled]
      cases opened : scan.current with
      | none => exact .inr (.inl (by simp [all, opened]))
      | some current => exact .inr (.inl (extend_current opened))
    · rw [if_neg labelled]
      exact .inl scan.flush_all
  · rw [if_neg hidden]
    have filled : lineStart < lineEnd := by
      have some : line.length ≠ 0 := by
        intro none
        apply hidden
        rw [none, Nat.add_zero, slice, Nat.sub_self, take_zero, cleanStatement_nil]
      omega
    have flushed := scan.flush_all
    split
    · rename_i continued
      cases opened : scan.current with
      | none => simp [opened] at continued
      | some current => exact .inr (.inl (extend_current opened))
    · split
      · exact .inr (.inr ⟨filled, .list, by rw [← flushed]; simp [all, flush]⟩)
      · rename_i kind _ _
        exact .inr (.inr ⟨filled, kind, by rw [← flushed]; simp [all, flush]⟩)
      · split
        · rename_i opened
          exact .inr (.inr ⟨filled, .prose, by simp [all, opened]⟩)
        · rename_i current opened
          by_cases listed : scan.current.any (·.kind == .list) = true
          · rw [if_pos listed]
            exact .inr (.inr ⟨filled, .prose, by rw [← flushed]; simp [all, flush]⟩)
          · rw [if_neg listed]
            exact .inr (.inl (extend_current opened))

theorem step_moves {fences : List CodeRange} {next : Option Text} (fits : lineStart + line.length ≤ lineEnd) :
    Moves scan.all (scan.step analyzed fences line next lineStart lineEnd).all lineStart lineEnd := by
  have flushed := scan.flush_all
  unfold step
  dsimp only
  split_ifs with fenced header row delimiter
  · exact .inl flushed
  · exact .inl flushed
  · exact .inl flushed
  · have filled : lineStart < lineEnd := by
      have some : line.length ≠ 0 := by
        intro none
        rw [length_eq_zero_iff.mp none] at row
        simp [withoutReturn, hasUnescapedPipe] at row
      omega
    exact .inr (.inr ⟨filled, .table, by rw [← flushed]; simp [all, flush]⟩)
  · exact proseLine_moves analyzed { scan with inTable := false } fits

theorem scanLines_ordered {text : Text} {fences : List CodeRange} {offset : Nat} {lines : List Text}
    (shape : Lines text offset lines) (ordered : Ordered 0 offset (spans scan.all)) :
    Ordered 0 text.length (spans (scanLines analyzed fences scan offset lines).blocks) := by
  induction lines generalizing scan offset with
  | nil =>
    have all : scan.flush.blocks = scan.all := rfl
    rw [scanLines, all]
    exact ordered.raise shape.within
  | cons line lines ih =>
    rw [scanLines]
    exact ih shape.next ((step_moves (Nat.le_add_right _ _)).ordered (by omega) ordered)

end BlockScan

theorem statementBlocks_ordered (text analyzed : Text) (fences : List CodeRange) :
    Ordered 0 text.length ((statementBlocks text analyzed fences).map (·.span)) :=
  BlockScan.scanLines_ordered (splitOn_lines text) (Ranges.ordered_nil (Nat.le_refl 0))

section

variable {language : Language} {analyzed : Text} {sentences : List TextRange} {base start stop : Nat}

theorem extendSentence_ordered {high : Nat} (ordered : Ordered base high (sentences.map (·.span)))
    (order : high ≤ stop) : Ordered base stop ((extendSentence sentences stop).map (·.span)) := by
  unfold extendSentence
  cases sentences using List.reverseRecOn with
  | nil => exact ordered.raise order
  | append_singleton sentences last =>
    rw [getLast?_concat, dropLast_concat, map_append]
    rw [map_append] at ordered
    exact ordered.extend order

theorem leadingLabels_le {segment : Text} {prefixEnd : Nat} {labels : List (Found Nat)}
    (located : Located segment prefixEnd labels) : leadingLabels segment prefixEnd labels ≤ segment.length := by
  induction labels generalizing prefixEnd with
  | nil => exact located
  | cons label labels ih =>
    rw [leadingLabels]
    split
    · exact located.le_length
    · exact ih located.2.2

theorem addSentence_ordered (ordered : Ordered base start (sentences.map (·.span))) (filled : start < stop) :
    Ordered base stop ((addSentence language analyzed base sentences start stop).map (·.span)) := by
  unfold addSentence
  dsimp only
  generalize given : (if (sentences.getLast?.any (base ≤ ·.start)) = true then
    leadingLabels (slice analyzed start stop) 0 (label.matchAll (slice analyzed start stop)) else 0) = prefixEnd
  have fits : start + prefixEnd ≤ stop := by
    have length : (slice analyzed start stop).length ≤ stop - start := length_take_le _ _
    split at given
    · have bound := leadingLabels_le (label.matchAll_located (slice analyzed start stop))
      omega
    · omega
  have moved : Ordered base (start + prefixEnd)
      ((if 0 < prefixEnd then extendSentence sentences (start + prefixEnd) else sentences).map (·.span)) := by
    split
    · exact extendSentence_ordered ordered (Nat.le_add_right _ _)
    · exact ordered.raise (Nat.le_add_right _ _)
  by_cases signal : signals language analyzed (start + prefixEnd) stop = true
  · rw [if_pos signal, map_append]
    exact moved.push (Nat.le_refl _) (signals_filled signal)
  · rw [if_neg signal]
    exact extendSentence_ordered moved fits

section

variable {text : Text} {labels : List (Found Nat)} {place later : Nat}

theorem boundary_le (labels : List (Found Nat)) (place : Nat) : boundary labels place ≤ place := by
  unfold boundary
  split
  · rename_i label found
    have inside := find?_some found
    simp only [Bool.and_eq_true, decide_eq_true_eq] at inside
    omega
  · exact Nat.le_refl _

theorem boundary_mono (located : Located text 0 labels) (order : place ≤ later) :
    boundary labels place ≤ boundary labels later := by
  have below := boundary_le labels place
  cases found : labels.find? (fun label => label.start < later && later < label.stop) with
  | none =>
    have same : boundary labels later = later := by rw [boundary, found]
    omega
  | some label =>
    have same : boundary labels later = label.start := by rw [boundary, found]
    have inside := find?_some found
    simp only [Bool.and_eq_true, decide_eq_true_eq] at inside
    by_cases within : label.start < place
    · cases first : labels.find? (fun label => label.start < place && place < label.stop) with
      | none =>
        have outside := find?_eq_none.mp first label (mem_of_find?_eq_some found)
        simp only [Bool.and_eq_true, decide_eq_true_eq] at outside
        omega
      | some other =>
        have start : boundary labels place = other.start := by rw [boundary, first]
        have holds := find?_some first
        simp only [Bool.and_eq_true, decide_eq_true_eq] at holds
        rcases located.apart (mem_of_find?_eq_some found) (mem_of_find?_eq_some first) with
          rfl | apart | apart
        · omega
        · omega
        · omega
    · omega

end

theorem segmentSentences_ordered (language : Language) (analyzed : Text) {text : Text} {labels : List (Found Nat)}
    (located : Located text 0 labels) {index : Nat} {segments : List Text} (ordered : Ordered base (base + boundary labels index)
      (sentences.map (·.span))) :
    Ordered base (base + boundary labels (index + segments.flatten.length))
      ((segmentSentences language analyzed base labels sentences index segments).map (·.span)) := by
  induction segments generalizing sentences index with
  | nil => exact ordered
  | cons segment segments ih =>
    have order := boundary_mono located (Nat.le_add_right index segment.length)
    rw [segmentSentences, flatten_cons, length_append, ← Nat.add_assoc]
    refine ih ?_
    split
    · exact ordered.raise (by omega)
    · rename_i filled
      exact addSentence_ordered ordered (Nat.lt_of_not_le filled)

theorem withoutMarker_length (text : Text) : (withoutMarker text).length = text.length := by
  unfold withoutMarker
  split
  · rename_i once found
    have shorter := (Regex.exec_suffix found).length_le
    rw [length_append, length_replicate]
    omega
  · rfl

theorem unwrapped_length (text : Text) : (unwrapped text).length = text.length := by
  fun_induction unwrapped text with
  | case1 => rfl
  | case2 text filled line newline ih =>
    have first : (Blocks.firstLine text).length = line.length + newline.length := length_append
    have fits := (Blocks.firstLine_prefix text).length_le
    have size : (if keepsBreak line = true then newline else List.replicate newline.length 32).length =
        newline.length := by
      split
      · rfl
      · exact length_replicate
    rw [length_append, length_append, size, ih, length_drop]
    omega

theorem sentenceRanges_ordered (language : Language) (analyzed : Text) {block : StatementBlock}
    (filled : block.start < block.stop) :
    Ordered block.start block.stop ((sentenceRanges language analyzed block).map (·.span)) := by
  unfold sentenceRanges
  split
  · exact Ranges.ordered_singleton (Nat.le_refl _) filled
  · have length : (slice analyzed block.start block.stop).length ≤ block.stop - block.start :=
      length_take_le _ _
    dsimp only
    generalize same : (if block.kind = .list then unwrapped (withoutMarker (slice analyzed block.start block.stop))
      else slice analyzed block.start block.stop) = text
    have size : text.length ≤ block.stop - block.start := by
      rw [← same]
      split
      · rwa [unwrapped_length, withoutMarker_length]
      · exact length
    have start : Ordered block.start (block.start + boundary (label.matchAll text) 0)
        (([] : List TextRange).map (·.span)) := Ranges.ordered_nil (Nat.le_add_right _ _)
    have ordered : Ordered block.start
        (block.start + boundary (label.matchAll text) (0 + (language.segment text).flatten.length))
        ((segmentSentences language analyzed block.start (label.matchAll text) [] 0 (language.segment text)).map
          (·.span)) :=
      segmentSentences_ordered language analyzed (label.matchAll_located text) start
    have last := boundary_le (label.matchAll text) (0 + (language.segment text).flatten.length)
    rw [language.partition, Nat.zero_add] at last
    rw [language.partition, Nat.zero_add] at ordered
    exact ordered.raise (by omega)

end

section

variable (language : Language) (text : Text) (citations : List Citation) (quotes : Text → Option Text)
variable {unit : FactualStatement}

theorem factualStatement_span {analyzed : Text} {resolved : List (Found Nat)} {kind : StatementKind}
    {statement : TextRange}
    (found : factualStatement language analyzed resolved kind statement = some unit) :
    unit.toTextRange = statement := by
  unfold factualStatement at found
  dsimp only at found
  split_ifs at found
  cases found
  rfl

theorem units_ordered {analyzed : Text} {resolved : List (Found Nat)} {blocks : List StatementBlock} {low high : Nat}
    (ordered : Ordered low high (blocks.map (·.span))) :
    Ordered low high ((blocks.flatMap fun block => (sentenceRanges language analyzed block).filterMap
      (factualStatement language analyzed resolved block.kind)).map (·.span)) := by
  induction blocks generalizing low with
  | nil => exact ordered
  | cons block blocks ih =>
    obtain ⟨before, filled, -, behind⟩ := ordered.laid
    have fewer : (((sentenceRanges language analyzed block).filterMap
        (factualStatement language analyzed resolved block.kind)).map (·.span)).Sublist
        ((sentenceRanges language analyzed block).map (·.span)) := by
      induction sentenceRanges language analyzed block with
      | nil => exact List.Sublist.refl _
      | cons statement statements shorter =>
        rw [filterMap_cons]
        split
        · exact shorter.cons _
        · rename_i unit found
          rw [map_cons, map_cons, factualStatement_span language found]
          exact shorter.cons_cons _
    have sentences := (sentenceRanges_ordered language analyzed filled).sublist fewer
    rw [flatMap_cons, map_append]
    exact (sentences.lower before).append (ih ⟨behind⟩)

theorem factualStatements_ordered :
    Ordered 0 text.length ((factualStatements language text citations).map (·.span)) :=
  units_ordered language (statementBlocks_ordered _ _ _)

def FactualStatement.numeric (unit : FactualStatement) : Bool := (points unit.text).any isDigit

theorem numbersIn_nil (content : Text) :
    numbersIn language content [] = !(points content).any isDigit := by
  have supported : Numbers.numbersSupported language.unicode (points content) [] = true ↔ _ :=
    Numbers.numbersSupported_nil (points content)
  have none : points [] = [] := rfl
  rw [numbersIn, none, Bool.eq_iff_iff, supported]
  simp

variable {language text}

theorem factualStatement_within {citations : List Citation}
    (member : unit ∈ factualStatements language text citations) :
    unit.start < unit.stop ∧ unit.stop ≤ text.length := by
  have laid := (factualStatements_ordered language text citations).laid
  exact (laid.bounds _ (mem_map_of_mem member)).2

theorem answerWarning_eq {citations : List Citation}
    (member : unit ∈ factualStatements language text citations) :
    answerWarning language text quotes unit =
      if unit.labels = [] then some ⟨unit.toTextRange, .missingCitation⟩
      else if unit.numeric && !numbersIn language unit.text (selectedQuotes quotes unit.labels) then
        some ⟨unit.toTextRange, .unsupportedNumber⟩
      else none := by
  have within := factualStatement_within member
  have inside : ¬ (text.length < unit.stop ∨ unit.stop ≤ unit.start) := by omega
  rw [answerWarning, if_neg inside, numbersIn_nil, ← FactualStatement.numeric]
  by_cases labelled : unit.labels = []
  · rw [if_pos labelled, if_pos labelled]
  · rw [if_neg labelled, if_neg labelled]
    cases unit.numeric <;> simp

theorem answerWarning_span {warning : AnswerWarning}
    (found : answerWarning language text quotes unit = some warning) : warning.toTextRange = unit.toTextRange := by
  unfold answerWarning at found
  split_ifs at found <;> cases found <;> rfl

variable (language text)

theorem answerWarnings_ordered :
    Ordered 0 text.length ((answerWarnings language text citations quotes).map (·.span)) := by
  have fewer : ((answerWarnings language text citations quotes).map (·.span)).Sublist
      ((factualStatements language text citations).map (·.span)) := by
    rw [answerWarnings]
    induction factualStatements language text citations with
    | nil => exact List.Sublist.refl _
    | cons unit units shorter =>
      rw [filterMap_cons]
      split
      · exact shorter.cons _
      · rename_i warning found
        rw [map_cons, map_cons, answerWarning_span quotes found]
        exact shorter.cons_cons _
  exact (factualStatements_ordered language text citations).sublist fewer

theorem warnings_counted (kind : WarningKind) (rule : FactualStatement → Bool) {units : List FactualStatement}
    (same : ∀ unit ∈ units, ((answerWarning language text quotes unit).any (·.kind == kind)) = rule unit) :
    ((units.filterMap (answerWarning language text quotes)).filter (·.kind == kind)).length =
      (units.filter rule).length := by
  induction units with
  | nil => rfl
  | cons unit units ih =>
    have first := same unit mem_cons_self
    have rest := ih fun unit member => same unit (mem_cons_of_mem _ member)
    rw [filterMap_cons, filter_cons, ← first]
    cases answerWarning language text quotes unit with
    | none => exact rest
    | some warning =>
      rw [Option.any_some, filter_cons]
      split
      · exact congrArg (· + 1) rest
      · exact rest

theorem unsupported_counted (units : List FactualStatement) :
    (units.filter fun unit => !numbersIn language unit.text [] &&
        !numbersIn language unit.text (selectedQuotes quotes unit.labels)).length =
      (units.filter fun unit => !unit.labels.isEmpty && (unit.numeric &&
        !numbersIn language unit.text (selectedQuotes quotes unit.labels))).length +
        (units.filter fun unit => unit.labels.isEmpty && unit.numeric).length := by
  induction units with
  | nil => rfl
  | cons unit units ih =>
    have numeric : numbersIn language unit.text [] = !unit.numeric := numbersIn_nil language unit.text
    rw [filter_cons, filter_cons, filter_cons, numeric]
    cases labelled : unit.labels with
    | nil =>
      have empty : selectedQuotes quotes [] = [] := rfl
      rw [empty, numeric]
      cases unit.numeric <;> simp <;> omega
    | cons label labels =>
      cases unit.numeric <;>
        cases numbersIn language unit.text (selectedQuotes quotes (label :: labels)) <;> simp <;> omega

/-- The warnings of an answer are in order, apart and within it, and they count what the two gates count. -/
theorem answerWarnings_agree :
    (∀ warning ∈ answerWarnings language text citations quotes,
      warning.start < warning.stop ∧ warning.stop ≤ text.length) ∧
    (answerWarnings language text citations quotes).Pairwise (fun earlier later =>
      earlier.start < later.start ∧ earlier.stop ≤ later.start) ∧
    ((answerWarnings language text citations quotes).filter (·.kind == .missingCitation)).length =
      uncitedStatements language text citations ∧
    unsupportedNumericStatements language text citations quotes =
      ((answerWarnings language text citations quotes).filter (·.kind == .unsupportedNumber)).length +
        ((factualStatements language text citations).filter fun unit =>
          unit.labels.isEmpty && unit.numeric).length := by
  have laid := (answerWarnings_ordered language text citations quotes).laid
  have inside : ∀ warning ∈ answerWarnings language text citations quotes,
      warning.start < warning.stop ∧ warning.stop ≤ text.length := by
    intro warning member
    exact (laid.bounds _ (mem_map_of_mem member)).2
  refine ⟨inside, ?_, ?_, ?_⟩
  · have apart := pairwise_map.mp laid.pairwise
    refine apart.imp_of_mem ?_
    intro earlier later member _ order
    have filled := (inside earlier member).1
    have order : earlier.stop ≤ later.start := order
    omega
  · refine warnings_counted language text quotes .missingCitation _ ?_
    intro unit member
    rw [answerWarning_eq quotes member]
    cases labels : unit.labels with
    | nil => rfl
    | cons label labels =>
      rw [if_neg (cons_ne_nil _ _)]
      split <;> rfl
  · have cited : ((answerWarnings language text citations quotes).filter (·.kind == .unsupportedNumber)).length =
        ((factualStatements language text citations).filter fun unit => !unit.labels.isEmpty && (unit.numeric &&
          !numbersIn language unit.text (selectedQuotes quotes unit.labels))).length := by
      refine warnings_counted language text quotes .unsupportedNumber _ ?_
      intro unit member
      rw [answerWarning_eq quotes member]
      cases labels : unit.labels with
      | nil => rfl
      | cons label labels =>
        rw [if_neg (cons_ne_nil _ _)]
        split
        · rename_i unsupported
          rw [unsupported]
          rfl
        · rename_i supported
          rw [Bool.not_eq_true] at supported
          rw [supported]
          rfl
    rw [cited]
    exact unsupported_counted language quotes _

end

end Citations
