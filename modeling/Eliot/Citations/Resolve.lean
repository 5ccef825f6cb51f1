import Eliot.Citations.CodeRanges

namespace Citations
open Text

structure Block where
  id : Nat
  start : Nat
  stop : Nat

structure LabelSource where
  sourceId : Text
  revisionId : Text
  title : Text
  blocks : List Block
  aliasName : Text

structure Citation where
  revisionId : Text
  sourceId : Text
  block : Nat
  start : Nat
  stop : Nat
  sourceTitle : Text
  deleted : Bool
  label : Text

structure ResolvedAnswer where
  text : Text
  citations : List Citation
  invalidLabels : Nat
  invalidLabelExamples : Option (List Text)

def unit (wanted : Nat) : Regex Nat := .one (· == wanted)
def digits : Regex Nat := (Regex.one isDigit).plus
def hex (count : Nat) : Regex Nat := (Regex.one isHexDigit).times count

/-- `/^[0-9a-fA-F]{8}-[0-9a-fA-F]{4}-[0-9a-fA-F]{4}-[0-9a-fA-F]{4}-[0-9a-fA-F]{12}$/` -/
def uuid : Regex Nat :=
  .all [hex 8, unit 45, hex 4, unit 45, hex 4, unit 45, hex 4, unit 45, hex 12, .finish]

def labelUnit (unit : Nat) : Bool := unit != 93 && unit != 10 && unit != 91

/-- `/\[(?:S\d+:[^\]\n[]*|R[^:\]\n[]*:[^\]\n[]*|S\d+)\]/g` -/
def label : Regex Nat :=
  let some : Regex Nat := .star (.one labelUnit)
  .all [unit 91,
    .alt (.all [unit 83, digits, unit colon, some])
      (.alt (.all [unit 82, .star (.one fun unit => labelUnit unit && unit != colon), unit colon,
          some])
        (.all [unit 83, digits])),
    unit 93]

/-- `/^\d+$/` -/
def onlyDigits : Regex Nat := .all [digits, .finish]

/-- `/^(S\d+:\d+)\s*[-\u2013\u2014]\s*(S\d+:\d+)$/u` -/
def adjacentPair : Regex Nat :=
  let compact : Regex Nat := .capture (.all [unit 83, digits, unit colon, digits])
  let spaces : Regex Nat := .star (.one isSpace)
  .all [compact, spaces, .one fun unit => unit == 45 || unit == 0x2013 || unit == 0x2014, spaces,
    compact, .finish]

def setKey {Key Value : Type} [DecidableEq Key] (map : Key → Option Value) (key : Key)
    (value : Value) : Key → Option Value :=
  fun wanted => if key = wanted then some value else map wanted

structure ScopeMaps where
  aliasGroups : Text → Option (List Nat)
  revisionGroups : Text → Option (List Nat)
  blockMaps : List (Nat → Option Block)

def blockMap (source : LabelSource) : Nat → Option Block :=
  source.blocks.foldl (fun byId block => setKey byId block.id block) fun _ => none

def groups (name : LabelSource → Text) (sources : List LabelSource) : Text → Option (List Nat) :=
  sources.zipIdx.foldl
    (fun map entry => setKey map (name entry.1) ((map (name entry.1)).getD [] ++ [entry.2]))
    fun _ => none

def scopeMaps (sources : List LabelSource) : ScopeMaps where
  aliasGroups := groups (·.aliasName) sources
  revisionGroups := groups (·.revisionId) sources
  blockMaps := sources.map blockMap

structure ParsedLabel where
  sourceIndex : Nat
  block : Nat
  start : Nat
  stop : Nat

def lookup (maps : ScopeMaps) (group : Option (List Nat)) (block : Nat) : Option ParsedLabel :=
  match group with
  | some [sourceIndex] =>
    match maps.blockMaps[sourceIndex]?.bind (· block) with
    | some row => some ⟨sourceIndex, block, row.start, row.stop⟩
    | none => none
  | _ => none

def parseToken (token : Text) (maps : ScopeMaps) : Option ParsedLabel :=
  match splitLast (slice token 2 (token.length - 1)) with
  | none => none
  | some (head, tail) =>
    if ¬onlyDigits.test tail then none
    else if maxSafeInteger < number tail ∨ number tail < 1 then none
    else if token[1]? = some 83 then
      if ¬onlyDigits.test head then none
      else lookup maps (maps.aliasGroups (83 :: head)) (number tail)
    else if token[1]? = some 82 then
      if ¬uuid.test head then none
      else lookup maps (maps.revisionGroups head) (number tail)
    else none

def bracketed (content : Text) : Text := 91 :: content ++ [93]

def splitGroupToken (token : Text) : Option (List Text) :=
  if (inner token).contains 44 then
    some (((inner token).splitOn 44).map fun part => bracketed (trim part))
  else none

def splitAdjacentPairToken (token : Text) : Option (List Text) :=
  match adjacentPair.exec (inner token) with
  | some ⟨[first, second], _⟩ => some [bracketed first, bracketed second]
  | _ => none

structure Resolved where
  parsed : ParsedLabel
  source : LabelSource
  atom : Text

def Resolved.citation (resolved : Resolved) : Citation where
  revisionId := resolved.source.revisionId
  sourceId := resolved.source.sourceId
  block := resolved.parsed.block
  start := resolved.parsed.start
  stop := resolved.parsed.stop
  sourceTitle := resolved.source.title
  deleted := false
  label := resolved.atom

def resolveAtoms (maps : ScopeMaps) (sources : List LabelSource) : List Text → List Resolved
  | [] => []
  | atom :: atoms =>
    match parseToken atom maps with
    | none => []
    | some parsed =>
      match sources[parsed.sourceIndex]? with
      | none => []
      | some source => ⟨parsed, source, atom⟩ :: resolveAtoms maps sources atoms

def atomsOf (token : Text) : List Text :=
  ((splitGroupToken token).or (splitAdjacentPairToken token)).getD [token]

def invalidAdjacentPair (token : Text) (resolved : List Resolved) : Bool :=
  (splitGroupToken token).isNone && (splitAdjacentPairToken token).isSome &&
    match resolved with
    | [first, second] =>
      first.parsed.sourceIndex != second.parsed.sourceIndex ||
        second.parsed.block != first.parsed.block + 1
    | _ => true

def resolveToken (maps : ScopeMaps) (sources : List LabelSource) (token : Text) :
    Option (List Resolved) :=
  let resolved := resolveAtoms maps sources (atomsOf token)
  if resolved.length ≠ (atomsOf token).length ∨ invalidAdjacentPair token resolved = true then none
  else some resolved

/-- `${revisionId}:${block}` -/
def citationKey (revisionId : Text) (block : Nat) : Text := revisionId ++ colon :: decimal block

structure Scan where
  code : List CodeRange
  seen : Text → Option Text
  citations : List Citation
  parts : List Text
  last : Nat
  invalidLabels : Nat
  invalidExamples : List Text

def Scan.keep (scan : Scan) (answer : Text) (position : Nat) : Scan :=
  { scan with parts := scan.parts ++ [slice answer scan.last position] }

def Scan.reject (scan : Scan) (answer : Text) (found : Regex.Found Nat) : Scan :=
  let sample := ((codePoints found.token).take 160).flatten
  { scan.keep answer found.start with
    invalidLabels := scan.invalidLabels + 1
    invalidExamples :=
      if scan.invalidExamples.length < 8 && !scan.invalidExamples.contains sample then
        scan.invalidExamples ++ [sample]
      else scan.invalidExamples
    last := found.stop }

def Scan.cite (scan : Scan) (resolved : Resolved) : Scan :=
  let key := citationKey resolved.source.revisionId resolved.parsed.block
  match scan.seen key with
  | some outToken => { scan with parts := scan.parts ++ [outToken] }
  | none =>
    { scan with
      seen := setKey scan.seen key resolved.atom
      citations := scan.citations ++ [resolved.citation]
      parts := scan.parts ++ [resolved.atom] }

def Scan.advance (scan : Scan) (position : Nat) : Scan :=
  { scan with code := scan.code.dropWhile (·.stop ≤ position) }

def Scan.inside (scan : Scan) (position : Nat) : Bool :=
  scan.code.head?.any (·.start ≤ position)

def Scan.step (maps : ScopeMaps) (sources : List LabelSource) (answer : Text) (scan : Scan)
    (found : Regex.Found Nat) : Scan :=
  let scan := scan.advance found.start
  if scan.inside found.start then scan
  else
    match resolveToken maps sources found.token with
    | none => scan.reject answer found
    | some resolved =>
      { resolved.foldl Scan.cite (scan.keep answer found.start) with last := found.stop }

def codeRanges (answer : Text) : List CodeRange :=
  let fences := fencedRanges answer
  (fences ++ inlineCodeRanges answer fences).mergeSort fun first second =>
    first.start ≤ second.start

def resolveCitations (answer : Text) (sources : List LabelSource) : ResolvedAnswer :=
  let scan := (label.matchAll answer).foldl (Scan.step (scopeMaps sources) sources answer)
    ⟨codeRanges answer, fun _ => none, [], [], 0, 0, []⟩
  { text := (scan.parts ++ [answer.drop scan.last]).flatten
    citations := scan.citations
    invalidLabels := scan.invalidLabels
    invalidLabelExamples :=
      if scan.invalidExamples.isEmpty then none else some scan.invalidExamples }

structure Reference where
  index : Nat
  source : LabelSource
  block : Block

def OnlyNamed (name : LabelSource → Text) (sources : List LabelSource) (index : Nat)
    (source : LabelSource) : Prop :=
  sources[index]? = some source ∧
    ∀ other rival, sources[other]? = some rival → name rival = name source → other = index

def InBlockMap (source : LabelSource) (block : Block) : Prop :=
  ∃ before after, source.blocks = before ++ block :: after ∧ ∀ later ∈ after, later.id ≠ block.id

def Names (sources : List LabelSource) (atom : Text) (reference : Reference) : Prop :=
  InBlockMap reference.source reference.block ∧
    0 < reference.block.id ∧ reference.block.id ≤ maxSafeInteger ∧
    ∃ head tail, onlyDigits.test tail = true ∧ number tail = reference.block.id ∧
      ((inner atom = 83 :: head ++ colon :: tail ∧ onlyDigits.test head = true ∧
          reference.source.aliasName = 83 :: head ∧
          OnlyNamed (·.aliasName) sources reference.index reference.source) ∨
        (inner atom = 82 :: head ++ colon :: tail ∧ uuid.test head = true ∧
          reference.source.revisionId = head ∧
          OnlyNamed (·.revisionId) sources reference.index reference.source))

/-- What a whole label stands for: every atom of a group, both ends of a dash pair over two
    consecutive blocks of one source, or one single label. -/
inductive Resolves (sources : List LabelSource) (token : Text) : List Reference → Prop where
  | group {atoms : List Text} {references : List Reference}
      (split : splitGroupToken token = some atoms)
      (named : List.Forall₂ (Names sources) atoms references) : Resolves sources token references
  | pair {first second : Text} {left right : Reference} (whole : splitGroupToken token = none)
      (split : splitAdjacentPairToken token = some [first, second])
      (start : Names sources first left) (stop : Names sources second right)
      (same : left.index = right.index) (next : right.block.id = left.block.id + 1) :
      Resolves sources token [left, right]
  | single {reference : Reference} (whole : splitGroupToken token = none)
      (apart : splitAdjacentPairToken token = none) (named : Names sources token reference) :
      Resolves sources token [reference]

def Resolvable (sources : List LabelSource) (token : Text) : Prop :=
  ∃ references, Resolves sources token references

def InCode (answer : Text) (position : Nat) : Prop :=
  ∃ range ∈ fencedRanges answer ++ inlineCodeRanges answer (fencedRanges answer),
    range.start ≤ position ∧ position < range.stop

instance (answer : Text) (position : Nat) : Decidable (InCode answer position) :=
  inferInstanceAs (Decidable (∃ range ∈ _, _))

def prose (answer : Text) (founds : List (Regex.Found Nat)) : List (Regex.Found Nat) :=
  founds.filter fun found => ¬InCode answer found.start

def proseLabels (answer : Text) : List (Regex.Found Nat) := prose answer (label.matchAll answer)

def splice (answer : Text) (replacement : Regex.Found Nat → Text) :
    Nat → List (Regex.Found Nat) → Text
  | last, [] => answer.drop last
  | last, found :: rest =>
    slice answer last found.start ++ replacement found ++ splice answer replacement found.stop rest

def Cites (sources : List LabelSource) (citation : Citation) : Prop :=
  ∃ reference, Names sources citation.label reference ∧
    citation = {
      revisionId := reference.source.revisionId
      sourceId := reference.source.sourceId
      block := reference.block.id
      start := reference.block.start
      stop := reference.block.stop
      sourceTitle := reference.source.title
      deleted := false
      label := citation.label }

def CitesPassage (reference : Reference) (citation : Citation) : Prop :=
  citation.revisionId = reference.source.revisionId ∧ citation.block = reference.block.id

theorem splice_token {answer : Text} {last : Nat} {founds : List (Regex.Found Nat)}
    (located : Regex.Located answer last founds) :
    splice answer (·.token) last founds = answer.drop last := by
  induction founds generalizing last with
  | nil => rfl
  | cons found rest ih =>
    obtain ⟨after, token, later⟩ := located
    have split : answer.drop found.start = found.token ++ answer.drop found.stop := by
      conv_lhs => rw [← List.take_append_drop found.token.length (answer.drop found.start), token]
      rw [List.drop_drop, Regex.Found.stop]
    have front : answer.drop last = slice answer last found.start ++ answer.drop found.start := by
      conv_lhs => rw [← List.take_append_drop (found.start - last) (answer.drop last)]
      rw [List.drop_drop, Nat.add_sub_cancel' after, slice]
    rw [splice, ih later, front, split, List.append_assoc]

end Citations
