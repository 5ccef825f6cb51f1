import Eliot.Blocks.Lines
import Eliot.Citations.Wording

namespace Citations
open Text
open Regex (optional unguarded Found)

structure TextRange where
  start : Nat
  stop : Nat
deriving DecidableEq

inductive StatementKind where
  | prose | heading | list | table
deriving DecidableEq

structure StatementBlock extends TextRange where
  kind : StatementKind

def maskRange (text : Text) (range : CodeRange) : Text :=
  text.zipIdx.map fun (unit, place) =>
    if range.start ≤ place ∧ place < range.stop ∧ unit ≠ 10 ∧ unit ≠ 13 then 32 else unit

def maskRanges (text : Text) (ranges : List CodeRange) : Text := ranges.foldl maskRange text

/-- ` {0,3}` -/
def indent : Regex Nat := (unit 32).upTo 3

/-- `/^ {0,3}\|?\s*:?-{3,}:?\s*(?:\|\s*:?-{3,}:?\s*)+\|?\s*$/` -/
def tableDelimiter : Regex Nat :=
  let cell : Regex Nat :=
    .all [.star space, optional (unit 58), (unit 45).times 3, .star (unit 45), optional (unit 58), .star space]
  .all [indent, optional (unit 124), cell, (Regex.seq (unit 124) cell).plus, optional (unit 124), .star space,
    .finish]

def isTableDelimiter (line : Text) : Bool := tableDelimiter.test line

def hasUnescapedPipe (line : Text) : Bool :=
  (List.range line.length).any fun place => (line)[place]? == some 124 &&
    ((line.take place).reverse.takeWhile (· == backslash)).length % 2 == 0

/-- `/^ {0,3}#{1,6}(?:\s+|$)/` -/
def headingLine : Regex Nat := .all [indent, unit 35, (unit 35).upTo 5, .alt space.plus .finish]

/-- `/^ {0,3}(?:[-+*]|\d+[.)])\s+/` -/
def itemLine : Regex Nat := .all [indent, itemSign, space.plus]

def blockKind (line : Text) : Option StatementKind :=
  if headingLine.test line then some .heading
  else if itemLine.test line then some .list
  else none

/-- `line.replace(/\r$/, "")` -/
def withoutReturn (line : Text) : Text := if line.getLast? = some 13 then line.dropLast else line

/-- `/\[(?:S\d+|R)[^\]\n]*\]/`, which may match anywhere. -/
def hasLabel (line : Text) : Bool :=
  let opened : Regex Nat := .all [unit 91, .alt (.seq (unit 83) digits) (unit 82),
    .star (.one fun unit => unit != 93 && unit != 10), unit 93]
  line.tails.any opened.test

/-- `/^(?: {2,}|\t)\S/` -/
def indentedLine : Regex Nat :=
  .seq (.alt (.all [unit 32, unit 32, .star (unit 32)]) (unit 9)) (.one (!isSpace ·))

/-- `/^\s*(?:(?:[-+*]|\d+[.)]|#{1,6})\s+|>|`{3,}|~{3,})/` -/
def markedLine : Regex Nat :=
  .seq (.star space) (.alt (.seq (.alt itemSign (.seq (unit 35) ((unit 35).upTo 5))) space.plus)
    (.alt (unit 62) (.alt (.seq ((unit 96).times 3) (.star (unit 96)))
      (.seq ((unit 126).times 3) (.star (unit 126))))))

structure BlockScan where
  blocks : List StatementBlock
  current : Option StatementBlock
  inTable : Bool

namespace BlockScan

def flush (scan : BlockScan) : BlockScan :=
  { scan with blocks := scan.blocks ++ scan.current.toList, current := none }

def extendLast (blocks : List StatementBlock) (stop : Nat) : List StatementBlock :=
  match blocks.getLast? with
  | none => blocks
  | some last => blocks.dropLast ++ [{ last with stop := stop }]

def proseLine (analyzed : Text) (scan : BlockScan) (line : Text) (lineStart lineEnd : Nat) : BlockScan :=
  let visible := cleanStatement (slice analyzed lineStart (lineStart + line.length))
  let kind := blockKind (withoutReturn line)
  let listed := scan.current.any (·.kind == .list)
  if visible = [] then
    if hasLabel line then
      match scan.current with
      | some current => { scan with current := some { current with stop := lineEnd } }
      | none => { scan with blocks := extendLast scan.blocks lineEnd }
    else scan.flush
  else if listed && kind.isNone && indentedLine.test line && !markedLine.test line then
    { scan with current := scan.current.map fun current => { current with stop := lineEnd } }
  else match kind with
    | some .list => { scan.flush with current := some ⟨⟨lineStart, lineEnd⟩, .list⟩ }
    | some kind => { scan.flush with blocks := scan.flush.blocks ++ [⟨⟨lineStart, lineEnd⟩, kind⟩] }
    | none =>
      match scan.current with
      | none => { scan with current := some ⟨⟨lineStart, lineEnd⟩, .prose⟩ }
      | some current =>
        if listed then { scan.flush with current := some ⟨⟨lineStart, lineEnd⟩, .prose⟩ }
        else { scan with current := some { current with stop := lineEnd } }

def step (analyzed : Text) (fences : List CodeRange) (scan : BlockScan) (line : Text) (next : Option Text)
    (lineStart lineEnd : Nat) : BlockScan :=
  if fences.any fun range => lineStart < range.stop && range.start < lineEnd then
    { scan.flush with inTable := false }
  else
    let markdownLine := withoutReturn line
    if !scan.inTable && hasUnescapedPipe markdownLine && isTableDelimiter (next.getD []) then
      { scan.flush with inTable := true }
    else if scan.inTable && trim markdownLine != [] && hasUnescapedPipe markdownLine then
      if isTableDelimiter markdownLine then scan.flush
      else { scan.flush with blocks := scan.flush.blocks ++ [⟨⟨lineStart, lineEnd⟩, .table⟩] }
    else proseLine analyzed { scan with inTable := false } line lineStart lineEnd

def scanLines (analyzed : Text) (fences : List CodeRange) (scan : BlockScan) (offset : Nat) :
    List Text → BlockScan
  | [] => scan.flush
  | line :: lines =>
    let lineEnd := offset + line.length + if lines.isEmpty then 0 else 1
    scanLines analyzed fences (scan.step analyzed fences line lines.head? offset lineEnd) lineEnd lines

end BlockScan

def statementBlocks (text analyzed : Text) (fences : List CodeRange) : List StatementBlock :=
  (BlockScan.scanLines analyzed fences ⟨[], none, false⟩ 0 (text.splitOn 10)).blocks

section

/-- `replace(/^ {0,3}(?:[-+*]|\d+[.)])[ \t]+/, …)` by as many spaces -/
def withoutMarker (text : Text) : Text :=
  match (Regex.all [indent, itemSign, blank.plus]).exec text with
  | some once => List.replicate (text.length - once.rest.length) 32 ++ once.rest
  | none => text

/-- `["'”’»)\]*_~`>]` -/
def closesLine (unit : Nat) : Bool :=
  unit == 34 || unit == 39 || unit == 0x201d || unit == 0x2019 || unit == 0xbb || unit == 41 || unit == 93 ||
    unit == 42 || unit == 95 || unit == 126 || unit == 96 || unit == 62

/-- `/[.!?…]/` somewhere, or `/["'”’»)\]*_~`>][ \t]*$/` -/
def keepsBreak (line : Text) : Bool :=
  line.any (fun unit => unit == 46 || unit == 33 || unit == 63 || unit == 0x2026) ||
    (line.rdropWhile fun unit => unit == 32 || unit == 9).getLast?.any closesLine

def unwrapped (text : Text) : Text :=
  if _filled : text = [] then []
  else
    let line := Blocks.bodyOf text
    let newline := Blocks.lineEnd (text.dropWhile (!Blocks.isLineEnd ·))
    line ++ (if keepsBreak line then newline else List.replicate newline.length 32) ++
      unwrapped (text.drop (Blocks.firstLine text).length)
termination_by text.length
decreasing_by
  have filled := List.length_pos_iff.mpr (Blocks.firstLine_filled _filled)
  have fits := List.length_pos_iff.mpr _filled
  rw [List.length_drop]
  omega

def boundary (labels : List (Found Nat)) (place : Nat) : Nat :=
  match labels.find? fun label => label.start < place && place < label.stop with
  | some label => label.start
  | none => place

def leadingLabels (segment : Text) (prefixEnd : Nat) : List (Found Nat) → Nat
  | [] => prefixEnd
  | label :: labels =>
    if trim (slice segment prefixEnd label.start) ≠ [] then prefixEnd
    else leadingLabels segment label.stop labels

variable (language : Language) (analyzed : Text)

def signals (start stop : Nat) : Bool := hasStatementSignal language (cleanStatement (slice analyzed start stop))

def extendSentence (sentences : List TextRange) (stop : Nat) : List TextRange :=
  match sentences.getLast? with
  | none => sentences
  | some previous => sentences.dropLast ++ [{ previous with stop := stop }]

def addSentence (base : Nat) (sentences : List TextRange) (start stop : Nat) : List TextRange :=
  let segmentText := slice analyzed start stop
  let prefixEnd := if sentences.getLast?.any (base ≤ ·.start) then
    leadingLabels segmentText 0 (label.matchAll segmentText) else 0
  let given := if 0 < prefixEnd then extendSentence sentences (start + prefixEnd) else sentences
  if signals language analyzed (start + prefixEnd) stop then given ++ [⟨start + prefixEnd, stop⟩]
  else extendSentence given stop

def segmentSentences (base : Nat) (labels : List (Found Nat)) (sentences : List TextRange) (index : Nat) :
    List Text → List TextRange
  | [] => sentences
  | segment :: segments =>
    let start := base + boundary labels index
    let stop := base + boundary labels (index + segment.length)
    segmentSentences base labels
      (if stop ≤ start then sentences else addSentence language analyzed base sentences start stop)
      (index + segment.length) segments

def sentenceRanges (block : StatementBlock) : List TextRange :=
  if block.kind = .table then [⟨block.start, block.stop⟩]
  else
    let raw := slice analyzed block.start block.stop
    let text := if block.kind = .list then unwrapped (withoutMarker raw) else raw
    segmentSentences language analyzed block.start (label.matchAll text) [] 0 (language.segment text)

end

section

def sectionHeadings : List Text :=
  ["answer", "background", "conclusion", "conclusions", "discussion", "evidence", "inference", "key points",
    "methods", "method", "overview", "results", "sources", "summary", "takeaways", "обзор", "ответ", "вывод",
    "выводы", "кратко", "методы", "обсуждение", "основное", "результаты", "источники"].map text

structure FactualStatement extends TextRange where
  text : Text
  labels : List Text

variable (language : Language)

/-- `content.toLowerCase().replace(/[\p{P}\p{S}]+/gu, " ").replace(/\s+/g, " ").trim()`, by its code points -/
def headingText (content : Text) : Text :=
  trim (blanked (unguarded space.plus)
    (blanked (unguarded (Regex.one language.punctuationOrSymbol).plus) (points (language.toLowerCase content))))

def resolvedLabels (text : Text) (citations : List Citation) (code : List CodeRange) : List (Found Nat) :=
  (label.matchAll text).filter fun found => citations.any (·.label == found.token) &&
    !code.any fun range => range.start ≤ found.start && found.start < range.stop

def factualStatement (analyzed : Text) (resolved : List (Found Nat)) (kind : StatementKind) (statement : TextRange) :
    Option FactualStatement :=
  let content := cleanStatement (slice analyzed statement.start statement.stop)
  if !hasStatementSignal language content then none
  else if kind = .heading ∧ headingText language content ∈ sectionHeadings then none
  else if isExplicitInferenceOrAbstention language content then none
  else
    let labels := (resolved.filter fun found => statement.start ≤ found.start && found.stop ≤ statement.stop).map
      (·.token)
    some ⟨statement, content, labels.eraseDups⟩

def factualStatements (text : Text) (citations : List Citation) : List FactualStatement :=
  let fences := fencedRanges text
  let code := fences ++ inlineCodeRanges text fences
  let analyzed := maskRanges text fences
  let resolved := resolvedLabels text citations code
  (statementBlocks text analyzed fences).flatMap fun block =>
    (sentenceRanges language analyzed block).filterMap (factualStatement language analyzed resolved block.kind)

def uncitedStatements (text : Text) (citations : List Citation) : Nat :=
  ((factualStatements language text citations).filter (·.labels.isEmpty)).length

/-- `numbersSupported` of two texts, which it takes by their code points. -/
def numbersIn (text quote : Text) : Bool := Numbers.numbersSupported language.unicode (points text) (points quote)

def selectedQuotes (quotes : Text → Option Text) (labels : List Text) : Text :=
  [10].intercalate (labels.map fun label => (quotes label).getD [])

def unsupportedNumericStatements (text : Text) (citations : List Citation) (quotes : Text → Option Text) : Nat :=
  ((factualStatements language text citations).filter fun unit =>
    !numbersIn language unit.text [] && !numbersIn language unit.text (selectedQuotes quotes unit.labels)).length

inductive WarningKind where
  | missingCitation | unsupportedNumber
deriving DecidableEq

structure AnswerWarning extends TextRange where
  kind : WarningKind
deriving DecidableEq

def answerWarning (text : Text) (quotes : Text → Option Text) (unit : FactualStatement) : Option AnswerWarning :=
  if text.length < unit.stop ∨ unit.stop ≤ unit.start then none
  else if unit.labels = [] then some ⟨⟨unit.start, unit.stop⟩, .missingCitation⟩
  else if numbersIn language unit.text [] then none
  else if !numbersIn language unit.text (selectedQuotes quotes unit.labels) then
    some ⟨⟨unit.start, unit.stop⟩, .unsupportedNumber⟩
  else none

def answerWarnings (text : Text) (citations : List Citation) (quotes : Text → Option Text) : List AnswerWarning :=
  (factualStatements language text citations).filterMap (answerWarning language text quotes)

end

end Citations
