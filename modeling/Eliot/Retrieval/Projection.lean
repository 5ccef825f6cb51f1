import Eliot.Json.Value
import Eliot.Retrieval.Structure

namespace Structural
open Text List
open Json (canonicalJson)

structure ProjectionItem where
  itemKey : Text
  canonicalSectionId : Text
  sourceRevisionRef : Text
  projectMembershipIds : List Text
  headingPath : List Text
  documentContextHeader : Text
  sectionText : Text
  normalizedOffsetMapRef : Text
  contentSha256 : Text
  instructionTaint : Text
  projectionGeneration : Text

structure ProjectionSpan where
  itemKey : Text
  canonicalSectionId : Text
  normalizedStartByte : Nat
  normalizedEndByte : Nat

structure MarkdownProjectionResult where
  items : List ProjectionItem
  spans : List ProjectionSpan
  itemSetDigest : Text
  markdownSha256 : Text

/-- `sourceRevision` is what `SourceRevisionSchema` makes of the revision: its reference, or why it is refused. -/
structure MarkdownProjectionInput where
  sourceRevision : Except String Text
  title : Text
  sourceClass : Text
  markdown : Text
  instructionTaint : Text
  projectMembershipIds : List Text
  projectionGeneration : Text
  targetItemUtf8Bytes : Option Int
  maxItemUtf8Bytes : Option Int

structure Tools where
  sha256 : Text → Text
  projectionItemSchema : ProjectionItem → Projecting Unit

def refuse (condition : Prop) [Decidable condition] (code : ProjectionErrorCode) (message : String) : Projecting Unit :=
  if condition then fail code message else .ok ()

def boundedUtf8Length (value : Text) (limit : Nat) : Nat :=
  if limit < value.length ∨ limit < utf8Bytes value then limit + 1 else utf8Bytes value

/-- `IDENTIFIER` -/
def isIdentifier (value : Text) : Bool :=
  let plain unit := isDigit unit || (65 ≤ unit && unit ≤ 90) || (97 ≤ unit && unit ≤ 122)
  value.head?.any plain && value.length ≤ 256 && value.all fun unit => plain unit || unit ∈ [46, 95, 58, 64, 47, 45]

def assertIdentifier (value : Text) (label : String) : Projecting Unit :=
  refuse (¬ isIdentifier value) .inputInvalid (label ++ " is invalid")

def boundedInteger (value : Int) (label : String) (minimum maximum : Nat) : Projecting Nat := do
  refuse (value < minimum ∨ maximum < value) .inputInvalid (label ++ " is outside its allowed range")
  return value.toNat

def splitPoints (maxBytes : Nat) (line : TextPiece) : (current : Text) → (byteStart bytes : Nat) → List Text →
    List TextPiece
  | current, byteStart, bytes, [] =>
    if bytes = 0 then [] else [{ line with text := current, start := byteStart, stop := byteStart + bytes }]
  | current, byteStart, bytes, character :: rest =>
    let width := utf8Bytes character
    if 0 < bytes ∧ maxBytes < bytes + width then
      { line with text := current, start := byteStart, stop := byteStart + bytes } ::
        splitPoints maxBytes line character (byteStart + bytes) width rest
    else splitPoints maxBytes line (current ++ character) byteStart (bytes + width) rest

def splitOversizedLine (maxBytes : Nat) (line : TextPiece) : Projecting (List TextPiece) :=
  if utf8Bytes line.text ≤ maxBytes then .ok [line]
  else do
    let pieces := splitPoints maxBytes line [] line.start 0 (codePoints line.text)
    refuse (∃ piece ∈ pieces, maxBytes < utf8Bytes piece.text) .itemTooLarge
      "an oversized line could not be split on UTF-8 boundaries"
    return pieces

def pieces (lines : List TextPiece) (maxBytes : Nat) : Projecting (List TextPiece) :=
  (lines.mapM (splitOversizedLine maxBytes)).map flatten

/-- `/(?:\r?\n){2}$/u` -/
def endsBlank (content : Text) : Bool := [10, 10].isSuffixOf content || [10, 13, 10].isSuffixOf content

def shouldFlush (targetBytes maxBytes : Nat) (current piece : TextPiece) : Bool :=
  piece.startsHeading ||
    jsonArray (current.headingPath.map jsonString) != jsonArray (piece.headingPath.map jsonString) ||
    maxBytes < utf8Bytes current.text + utf8Bytes piece.text ||
    (targetBytes ≤ utf8Bytes current.text && endsBlank current.text)

def join (current piece : TextPiece) : TextPiece :=
  { current with text := current.text ++ piece.text, stop := piece.stop }

def chunkPieces (targetBytes maxBytes : Nat) : (current : Option TextPiece) → List TextPiece →
    Projecting (List TextPiece)
  | current, [] => .ok current.toList
  | current, piece :: input =>
    if piece.text = [] then chunkPieces targetBytes maxBytes current input
    else if maxBytes < utf8Bytes piece.text then fail .itemTooLarge "projection piece exceeds hard item size"
    else
      match current with
      | none => chunkPieces targetBytes maxBytes (some piece) input
      | some chunk =>
        if shouldFlush targetBytes maxBytes chunk piece then do
          let chunks ← chunkPieces targetBytes maxBytes (some piece) input
          return chunk :: chunks
        else chunkPieces targetBytes maxBytes (some (join chunk piece)) input

def headerPrefix (result : Text) : List Text → Text
  | [] => result
  | character :: rest =>
    if maxContextBytes < utf8Bytes (result ++ character) then result else headerPrefix (result ++ character) rest

def contextHeader (title : Text) (headingPath : List Text) : Text :=
  let candidate := [32, 0x203a, 32].intercalate ((trim title :: headingPath).filter (· ≠ []))
  if utf8Bytes candidate ≤ maxContextBytes then candidate else headerPrefix [] (codePoints candidate)

section
variable (tools : Tools) (input : MarkdownProjectionInput)

def projectionItemKey (canonicalSectionId : Text) : Text :=
  text "projection-" ++ (tools.sha256 (canonicalJson (.object [(text "canonical_section_id", .text canonicalSectionId),
    (text "projection_generation", .text input.projectionGeneration)]))).take 48

def projectionItem (sourceRevisionRef : Text) (membershipIds : List Text) (chunk : TextPiece) : ProjectionItem :=
  let canonicalSectionId := text "section-" ++ (tools.sha256 (canonicalJson (.object [
    (text "source_revision_ref", .text sourceRevisionRef), (text "start", .number chunk.start),
    (text "end", .number chunk.stop), (text "heading_path", .array (chunk.headingPath.map .text))]))).take 48
  { itemKey := projectionItemKey tools input canonicalSectionId
    canonicalSectionId := canonicalSectionId
    sourceRevisionRef := sourceRevisionRef
    projectMembershipIds := membershipIds
    headingPath := chunk.headingPath
    documentContextHeader := contextHeader input.title chunk.headingPath
    sectionText := chunk.text
    normalizedOffsetMapRef := text "normalized-bytes:" ++ decimal chunk.start ++ colon :: decimal chunk.stop
    contentSha256 := tools.sha256 chunk.text
    instructionTaint := input.instructionTaint
    projectionGeneration := input.projectionGeneration }

def spanOf (item : ProjectionItem) (chunk : TextPiece) : ProjectionSpan :=
  ⟨item.itemKey, item.canonicalSectionId, chunk.start, chunk.stop⟩

def projectChunk (sourceRevisionRef : Text) (membershipIds : List Text) (chunk : TextPiece) :
    Projecting (ProjectionItem × ProjectionSpan) := do
  refuse (chunk.stop ≤ chunk.start ∨ chunk.stop - chunk.start ≠ utf8Bytes chunk.text) .offsetInvalid
    "projection offsets are not an exact UTF-8 range"
  let item := projectionItem tools input sourceRevisionRef membershipIds chunk
  tools.projectionItemSchema item
  return (item, spanOf item chunk)

def itemSet (projected : List (ProjectionItem × ProjectionSpan)) : Json.Value :=
  .array (projected.map fun one => .object [(text "item_key", .text one.1.itemKey),
    (text "canonical_section_id", .text one.1.canonicalSectionId), (text "content_sha256", .text one.1.contentSha256),
    (text "start", .number one.2.normalizedStartByte), (text "end", .number one.2.normalizedEndByte)])

def projectNormalizedMarkdown : Projecting MarkdownProjectionResult := do
  let sourceRevisionRef ← input.sourceRevision.mapError fun cause =>
    ⟨.inputInvalid, "source revision failed strict validation: " ++ cause⟩
  assertIdentifier input.projectionGeneration "projection_generation"
  assertIdentifier input.sourceClass "source_class"
  refuse (input.markdown = []) .documentEmpty "normalized Markdown is empty"
  let targetBytes ← boundedInteger (input.targetItemUtf8Bytes.getD (32 * 1024)) "target_item_utf8_bytes" 1024 (256 * 1024)
  let maxBytes ← boundedInteger (input.maxItemUtf8Bytes.getD (64 * 1024)) "max_item_utf8_bytes" targetBytes (256 * 1024)
  let effectiveByteCeiling := maxBytes * maxItems
  refuse (effectiveByteCeiling < input.markdown.length ∨
    effectiveByteCeiling < boundedUtf8Length input.markdown effectiveByteCeiling) .itemLimitExceeded
    "projection has more bytes than its item ceiling permits"
  let membershipIds := input.projectMembershipIds.dedup.insertionSort fun first second => first ≤ second
  membershipIds.forM fun value => assertIdentifier value "project membership ID"
  let parsed ← parseNormalizedMarkdownStructure input.markdown maxItems
  let cut ← pieces parsed.lines maxBytes
  let chunks ← (chunkPieces targetBytes maxBytes none cut).map (filter fun chunk => chunk.text ≠ [])
  refuse (chunks = []) .documentEmpty "normalized Markdown has no projectable text"
  refuse (maxItems < chunks.length) .itemLimitExceeded "projection exceeds its item-count ceiling"
  let projected ← chunks.mapM (projectChunk tools input sourceRevisionRef membershipIds)
  return ⟨projected.map Prod.fst, projected.map Prod.snd, tools.sha256 (canonicalJson (itemSet projected)),
    tools.sha256 input.markdown⟩

end
section
variable {Part : Type} {start stop : Part → Nat} {first total : Nat} {parts : List Part}

theorem covers_append {back : List Part} : Covers start stop first (parts ++ back) total ↔
    ∃ middle, Covers start stop first parts middle ∧ Covers start stop middle back total := by
  induction parts generalizing first with
  | nil => simp [Covers]
  | cons part parts ih => simp [Covers, ih, and_assoc]

theorem covers_map {Value : Type} {change : Value → Part} {values : List Value} :
    Covers start stop first (values.map change) total ↔
      Covers (fun value => start (change value)) (fun value => stop (change value)) first values total := by
  induction values generalizing first with
  | nil => rfl
  | cons value values ih => simp [Covers, ih]

theorem Covers.apart (covers : Covers start stop first parts total) :
    parts.Pairwise fun earlier later => stop earlier ≤ start later := by
  induction parts generalizing first with
  | nil => exact Pairwise.nil
  | cons part parts ih =>
    exact pairwise_cons.mpr ⟨fun later listed => (covers.2.2.mem listed).1, ih covers.2.2⟩

theorem Covers.unique {part other : Part} (covers : Covers start stop first parts total) (listed : part ∈ parts)
    (listed' : other ∈ parts) (below : start part < stop other) (above : start other < stop part) : part = other := by
  have both : Std.Symm fun part other : Part => start part < stop other → start other < stop part → part = other :=
    ⟨fun _ _ same below above => (same above below).symm⟩
  have agree : parts.Pairwise fun part other => start part < stop other → start other < stop part → part = other :=
    covers.apart.imp fun before _ above => absurd above (Nat.not_lt_of_le before)
  exact agree.forall_of_forall (fun _ _ _ _ => rfl) listed listed' below above

theorem Covers.holds {place : Nat} (covers : Covers start stop first parts total) (low : first ≤ place)
    (high : place < total) : ∃ part ∈ parts, start part ≤ place ∧ place < stop part := by
  induction parts generalizing first with
  | nil => exact absurd (low.trans_lt high) (Nat.not_lt_of_le (Nat.le_of_eq (Eq.symm covers)))
  | cons part parts ih =>
    obtain ⟨rfl, -, rest⟩ := covers
    by_cases before : place < stop part
    · exact ⟨part, mem_cons_self, low, before⟩
    · obtain ⟨other, listed, holds⟩ := ih rest (Nat.le_of_not_lt before)
      exact ⟨other, mem_cons_of_mem _ listed, holds⟩

end

section
variable {markdown : Text} {lines front rest : List TextPiece}

abbrev Spans : Nat → List TextPiece → Nat → Prop := Covers (fun part => part.start) (fun part => part.stop)

/-- The parts are the text, cut between characters, and none has lines of two paths. -/
structure Tiled (markdown : Text) (lines parts : List TextPiece) : Prop where
  filled : ∀ line ∈ lines, line.start < line.stop
  covers : Spans 0 parts (utf8Bytes markdown)
  bytes : ∀ part ∈ parts, part.stop = part.start + utf8Bytes part.text
  points : (parts.flatMap fun part => codePoints part.text) = codePoints markdown
  paths : ∀ part ∈ parts, ∀ line ∈ lines, part.start < line.stop → line.start < part.stop →
    part.headingPath = line.headingPath
  heads : ∀ line ∈ lines, line.startsHeading = true → ∃ part ∈ parts, part.startsHeading = true ∧ part.start = line.start

theorem Lined.tiled (lined : Lined markdown lines) : Tiled markdown lines lines := by
  have covers : Spans 0 lines (utf8Bytes markdown) := covers_map.mp lined.covers
  refine ⟨fun line listed => (covers.mem listed).2.1, covers, lined.bytes, lined.points, ?_, fun line listed starts => ⟨line, listed, starts, rfl⟩⟩
  intro part listed line listed' below above
  rw [covers.unique listed listed' below above]

structure Cut (piece : TextPiece) (group : List TextPiece) : Prop where
  covers : Spans piece.start group piece.stop
  points : (group.flatMap fun part => codePoints part.text) = codePoints piece.text
  each : ∀ part ∈ group, part.stop = part.start + utf8Bytes part.text ∧ part.headingPath = piece.headingPath ∧
    part.startsHeading = piece.startsHeading

theorem Tiled.split {piece : TextPiece} {group : List TextPiece} (tiled : Tiled markdown lines (front ++ piece :: rest))
    (cut : Cut piece group) : Tiled markdown lines (front ++ (group ++ rest)) := by
  obtain ⟨middle, before, opened, positive, after⟩ := covers_append.mp tiled.covers
  obtain rfl : piece.start = middle := opened
  have listed : piece ∈ front ++ piece :: rest := mem_append_right _ mem_cons_self
  have kept : ∀ part ∈ front ++ (group ++ rest), part ∈ front ++ piece :: rest ∨ part ∈ group := by
    intro part member
    simp only [mem_append, mem_cons] at member ⊢
    tauto
  refine ⟨tiled.filled, covers_append.mpr ⟨_, before, covers_append.mpr ⟨_, cut.covers, after⟩⟩, fun part member => ?_, ?_,
    fun part member line inside below above => ?_, fun line inside starts => ?_⟩
  · rcases kept part member with old | new
    · exact tiled.bytes part old
    · exact (cut.each part new).1
  · rw [flatMap_append, flatMap_append, cut.points, ← tiled.points, flatMap_append, flatMap_cons]
  · rcases kept part member with old | new
    · exact tiled.paths part old line inside below above
    · have within := cut.covers.mem new
      rw [(cut.each part new).2.1]
      exact tiled.paths piece listed line inside (by omega) (by omega)
  · obtain ⟨part, member, headed, same⟩ := tiled.heads line inside starts
    rcases mem_append.mp member with early | late
    · exact ⟨part, mem_append_left _ early, headed, same⟩
    · rcases mem_cons.mp late with rfl | behind
      · cases group with
        | nil => exact absurd positive (Nat.not_lt_of_le (Nat.le_of_eq (Eq.symm cut.covers)))
        | cons first group =>
          have heads := (cut.each first mem_cons_self).2.2
          exact ⟨first, mem_append_right _ mem_cons_self, heads.trans headed, cut.covers.1.trans same⟩
      · exact ⟨part, mem_append_right _ (mem_append_right _ behind), headed, same⟩

theorem Tiled.join {first second : TextPiece} (tiled : Tiled markdown lines (front ++ first :: second :: rest))
    (path : first.headingPath = second.headingPath) (plain : second.startsHeading = false) :
    Tiled markdown lines (front ++ join first second :: rest) ∧
      utf8Bytes (join first second).text = utf8Bytes first.text + utf8Bytes second.text := by
  obtain ⟨middle, before, opened, positive, next, longer, after⟩ := covers_append.mp tiled.covers
  have whole := tiled.points
  rw [flatMap_append, flatMap_cons, flatMap_cons, ← append_assoc (codePoints first.text)] at whole
  have joined := codePoints_segment whole.symm
  rw [flatten_append, codePoints_flatten, codePoints_flatten] at joined
  have weight : utf8Bytes (first.text ++ second.text) = utf8Bytes first.text + utf8Bytes second.text := by
    rw [utf8Bytes, joined, map_append, sum_append]
    rfl
  have one := tiled.bytes first (by simp)
  have two := tiled.bytes second (by simp)
  have kept : ∀ part ∈ front ++ Structural.join first second :: rest,
      part = Structural.join first second ∨ part ∈ front ++ first :: second :: rest := by
    intro part member
    simp only [mem_append, mem_cons] at member ⊢
    tauto
  refine ⟨⟨tiled.filled, covers_append.mpr ⟨middle, before, opened, ?_, after⟩, fun part member => ?_, ?_,
    fun part member line inside below above => ?_, fun line inside starts => ?_⟩, weight⟩
  · exact Nat.lt_trans positive longer
  · rcases kept part member with rfl | old
    · show second.stop = first.start + utf8Bytes (first.text ++ second.text)
      rw [weight, two, ← Nat.add_assoc, ← one]
      exact congrArg (· + _) next
    · exact tiled.bytes part old
  · rw [flatMap_append, flatMap_cons, ← whole]
    exact congrArg (fun points => _ ++ (points ++ _)) joined
  · rcases kept part member with rfl | old
    · by_cases early : line.start < first.stop
      · exact tiled.paths first (by simp) line inside below early
      · have later : second.start < line.stop := by
          have abut : second.start = first.stop := next
          have valid := tiled.filled line inside
          omega
        exact path.trans (tiled.paths second (by simp) line inside later above)
    · exact tiled.paths part old line inside below above
  · obtain ⟨part, member, headed, same⟩ := tiled.heads line inside starts
    simp only [mem_append, mem_cons] at member
    rcases member with early | rfl | rfl | behind
    · exact ⟨part, mem_append_left _ early, headed, same⟩
    · exact ⟨_, mem_append_right _ mem_cons_self, headed, same⟩
    · rw [plain] at headed
      cases headed
    · exact ⟨part, mem_append_right _ (mem_cons_of_mem _ behind), headed, same⟩

end

section
variable {markdown : Text} {maxBytes : Nat} {line : TextPiece} {lines front : List TextPiece}

theorem weight_pos {points : List Text} (alone : codePoints points.flatten = points)
    (some' : utf8Bytes points.flatten = 0) : points = [] := by
  by_contra filled
  have content : points.flatten ≠ [] := fun none => filled (by rw [← alone, none]; rfl)
  exact absurd some' (Nat.ne_of_gt (utf8Bytes_pos content))

theorem splitPoints_cut {seen rest before : List Text} (found : codePoints line.text = before ++ (seen ++ rest))
    (byteStart : Nat) :
    Spans byteStart (splitPoints maxBytes line seen.flatten byteStart (utf8Bytes seen.flatten) rest)
        (byteStart + ((seen ++ rest).map utf8PointBytes).sum) ∧
      ((splitPoints maxBytes line seen.flatten byteStart (utf8Bytes seen.flatten) rest).flatMap fun part =>
        codePoints part.text) = seen ++ rest ∧
      ∀ part ∈ splitPoints maxBytes line seen.flatten byteStart (utf8Bytes seen.flatten) rest,
        part.stop = part.start + utf8Bytes part.text ∧ part.headingPath = line.headingPath ∧
          part.startsHeading = line.startsHeading := by
  have alone := codePoints_segment found
  have weight : utf8Bytes seen.flatten = (seen.map utf8PointBytes).sum := by rw [utf8Bytes, alone]
  induction rest generalizing seen before byteStart with
  | nil =>
    rw [append_nil, splitPoints]
    split_ifs with none
    · rw [weight_pos alone none]
      exact ⟨rfl, rfl, by simp⟩
    · refine ⟨⟨rfl, Nat.lt_add_of_pos_right (Nat.pos_of_ne_zero none), by rw [weight]; rfl⟩, (append_nil _).trans alone, ?_⟩
      simp
  | cons character rest ih =>
    have single : codePoints [character].flatten = [character] :=
      @codePoints_segment line.text (before ++ seen) [character] rest (by rw [found]; simp)
    have both : seen ++ character :: rest = (seen ++ [character]) ++ rest := by simp
    rw [splitPoints]
    split_ifs with full
    · have behind := @ih [character] (before ++ seen) (by rw [found]; simp) (byteStart + utf8Bytes seen.flatten) single
        (by rw [utf8Bytes, single])
      rw [flatten_singleton, singleton_append] at behind
      obtain ⟨covers, points, each⟩ := behind
      refine ⟨⟨rfl, Nat.lt_add_of_pos_right full.1, ?_⟩, ?_, forall_mem_cons.mpr ⟨⟨rfl, rfl, rfl⟩, each⟩⟩
      · rw [map_append, sum_append, ← Nat.add_assoc, ← weight]
        exact covers
      · rw [flatMap_cons, points, alone]
    · have joined := @codePoints_segment line.text before (seen ++ [character]) rest (by rw [found]; simp)
      have more : utf8Bytes (seen ++ [character]).flatten = ((seen ++ [character]).map utf8PointBytes).sum := by
        rw [utf8Bytes, joined]
      have width : utf8Bytes character = utf8PointBytes character := by
        rw [flatten_singleton] at single
        rw [utf8Bytes, single]
        rfl
      have next := @ih (seen ++ [character]) before (by rw [found, both]) byteStart joined more
      rw [more, map_append, sum_append, ← weight, map_singleton, sum_singleton, ← width, flatten_append,
        flatten_singleton] at next
      rwa [both]

theorem splitOversizedLine_cut {group : List TextPiece} (bytes : line.stop = line.start + utf8Bytes line.text)
    (positive : line.start < line.stop) (ran : splitOversizedLine maxBytes line = .ok group) : Cut line group := by
  unfold splitOversizedLine at ran
  split_ifs at ran
  · cases ran
    exact ⟨⟨rfl, positive, rfl⟩, append_nil _, by simp [bytes]⟩
  · obtain ⟨_, -, same⟩ := Fallible.bind_ok ran
    cases same
    obtain ⟨covers, points, each⟩ := @splitPoints_cut maxBytes line [] (codePoints line.text) [] rfl line.start
    exact ⟨by rw [bytes]; exact covers, points, each⟩

theorem pieces_tiled {old new : List TextPiece} (tiled : Tiled markdown lines (front ++ old))
    (ran : pieces old maxBytes = .ok new) : Tiled markdown lines (front ++ new) := by
  obtain ⟨groups, split, rfl⟩ := Fallible.map_ok ran
  have each := Fallible.mapM_ok.mp split
  clear ran split
  induction each generalizing front with
  | nil => exact tiled
  | @cons line group old groups split _ ih =>
    have listed : line ∈ front ++ line :: old := by simp
    have cut := splitOversizedLine_cut (tiled.bytes line listed) (tiled.covers.mem listed).2.1 split
    have next := tiled.split cut
    rw [← append_assoc] at next
    have done := ih next
    rwa [append_assoc] at done

def Grown (piece chunk : TextPiece) : Prop :=
  chunk.start = piece.start ∧ chunk.headingPath = piece.headingPath ∧ utf8Bytes piece.text ≤ utf8Bytes chunk.text

theorem chunkPieces_tiled {targetBytes : Nat} {current : Option TextPiece} {all input chunks : List TextPiece}
    (known : input ⊆ all) (tiled : Tiled markdown lines (front ++ (current.toList ++ input)))
    (small : ∀ chunk ∈ current, utf8Bytes chunk.text ≤ maxBytes)
    (ran : chunkPieces targetBytes maxBytes current input = .ok chunks) :
    Tiled markdown lines (front ++ chunks) ∧ (∀ chunk ∈ chunks, utf8Bytes chunk.text ≤ maxBytes) ∧
      (chunks.IsChain fun first second => ∃ piece ∈ all, Grown piece second ∧
        shouldFlush targetBytes maxBytes first piece = true) ∧
      ∀ chunk ∈ current, ∃ first ∈ chunks.head?, Grown chunk first := by
  induction input generalizing current front chunks with
  | nil =>
    cases ran
    rw [append_nil] at tiled
    refine ⟨tiled, by simpa using small, ?_⟩
    cases current with
    | none => exact ⟨.nil, by simp⟩
    | some chunk => exact ⟨.singleton _, fun other same => ⟨other, same, rfl, rfl, Nat.le_refl _⟩⟩
  | cons piece input ih =>
    have listed : piece ∈ front ++ (current.toList ++ piece :: input) := by simp
    have later : input ⊆ all := fun _ member => known (mem_cons_of_mem _ member)
    unfold chunkPieces at ran
    split_ifs at ran with none large
    · have valid := (tiled.covers.mem listed).2.1
      have bytes := tiled.bytes piece listed
      rw [none] at bytes
      exact absurd bytes (Nat.ne_of_gt valid)
    · cases ran
    · have fits : ∀ chunk ∈ some piece, utf8Bytes chunk.text ≤ maxBytes := by simpa using large
      cases current with
      | none =>
        obtain ⟨tiled, small, chain, -⟩ := ih later tiled fits ran
        exact ⟨tiled, small, chain, by simp⟩
      | some chunk =>
        dsimp only at ran
        split_ifs at ran with flush
        · obtain ⟨behind, below, same⟩ := Fallible.bind_ok ran
          cases same
          obtain ⟨next, room, chain, opened⟩ := @ih (front ++ [chunk]) (some piece) behind later (by simpa using tiled) fits below
          refine ⟨by simpa using next, forall_mem_cons.mpr ⟨small chunk rfl, room⟩,
            isChain_cons.mpr ⟨fun second head => ?_, chain⟩, fun other same => ?_⟩
          · obtain ⟨first, head', grown⟩ := opened piece rfl
            obtain rfl : first = second := Option.some.inj (head'.symm.trans head)
            exact ⟨piece, known mem_cons_self, grown, flush⟩
          · cases same
            exact ⟨chunk, rfl, rfl, rfl, Nat.le_refl _⟩
        · simp only [shouldFlush, Bool.or_eq_true, not_or, Bool.not_eq_true, bne_eq_false_iff_eq,
            decide_eq_false_iff_not] at flush
          obtain ⟨⟨⟨plain, same⟩, room⟩, -⟩ := flush
          have path := (jsonArray_unique (congrArg (· ++ []) same)).1
          obtain ⟨next, weight⟩ := tiled.join path plain
          obtain ⟨tiled, small, chain, opened⟩ := @ih front (some (join chunk piece)) chunks later next (fun joined same => by
            cases same
            omega) ran
          refine ⟨tiled, small, chain, fun other same => ?_⟩
          cases same
          obtain ⟨first, head, start, path, longer⟩ := opened _ rfl
          exact ⟨first, head, start, path, Nat.le_trans (weight ▸ Nat.le_add_right _ _) longer⟩

theorem pieces_within {cut : List TextPiece} (lined : Lined markdown lines) (ran : pieces lines maxBytes = .ok cut) :
    ∀ piece ∈ cut, ∃ line ∈ lines,
      line.start ≤ piece.start ∧ piece.start < line.stop ∧ piece.startsHeading = line.startsHeading := by
  obtain ⟨groups, split, rfl⟩ := Fallible.map_ok ran
  intro piece member
  obtain ⟨group, listed, inside⟩ := mem_flatten.mp member
  obtain ⟨place, small, rfl⟩ := mem_iff_getElem.mp listed
  have each := forall₂_iff_get.mp (Fallible.mapM_ok.mp split)
  have line := getElem_mem (each.1 ▸ small : place < lines.length)
  have part := splitOversizedLine_cut (lined.bytes _ line) (lined.tiled.filled _ line) (each.2 place (each.1 ▸ small) small)
  have bound := part.covers.mem inside
  exact ⟨_, line, bound.1, Nat.lt_of_lt_of_le bound.2.1 bound.2.2, (part.each piece inside).2.2⟩

end

section
variable (tools : Tools) (input : MarkdownProjectionInput) {lines chunks : List TextPiece}

structure Lossless (input : MarkdownProjectionInput) (lines : List TextPiece) (result : MarkdownProjectionResult) : Prop where
  lined : Lined input.markdown lines
  covers : Covers ProjectionSpan.normalizedStartByte ProjectionSpan.normalizedEndByte 0 result.spans
    (utf8Bytes input.markdown)
  texts : (result.items.map fun item => item.sectionText).flatten = input.markdown
  points : (result.items.flatMap fun item => codePoints item.sectionText) = codePoints input.markdown
  each : Forall₂ (fun item span => span.normalizedEndByte = span.normalizedStartByte + utf8Bytes item.sectionText ∧
    (utf8Bytes item.sectionText : Int) ≤ input.maxItemUtf8Bytes.getD (64 * 1024) ∧
    ∀ line ∈ lines, span.normalizedStartByte < line.stop → line.start < span.normalizedEndByte →
      item.headingPath = line.headingPath) result.items result.spans
  heads : ∀ line ∈ outside none (lines.map TextPiece.toLine), (heading line.text).isSome →
    ∃ span ∈ result.spans, span.normalizedStartByte = line.start

theorem projectChunk_ok {sourceRevisionRef : Text} {membershipIds : List Text}
    {projected : List (ProjectionItem × ProjectionSpan)}
    (ran : chunks.mapM (projectChunk tools input sourceRevisionRef membershipIds) = .ok projected) :
    projected = chunks.map fun chunk => (projectionItem tools input sourceRevisionRef membershipIds chunk,
      spanOf (projectionItem tools input sourceRevisionRef membershipIds chunk) chunk) := by
  have each := Fallible.mapM_ok.mp ran
  clear ran
  induction each with
  | nil => rfl
  | cons one _ ih =>
    obtain ⟨_, -, checked⟩ := Fallible.bind_ok one
    obtain ⟨_, -, same⟩ := Fallible.bind_ok checked
    cases same
    rw [ih]
    rfl

theorem boundedInteger_eq {value : Int} {label : String} {minimum maximum bounded : Nat}
    (ran : boundedInteger value label minimum maximum = .ok bounded) : value = bounded := by
  obtain ⟨_, valid, same⟩ := Fallible.bind_ok ran
  cases same
  unfold refuse at valid
  split_ifs at valid with outside
  · cases valid
  · omega

theorem project_tiled {result : MarkdownProjectionResult} (ran : projectNormalizedMarkdown tools input = .ok result) :
    ∃ parsed cut chunks reference ids, ∃ targetBytes maxBytes : Nat,
      parseNormalizedMarkdownStructure input.markdown maxItems = .ok parsed ∧
      input.targetItemUtf8Bytes.getD (32 * 1024) = targetBytes ∧ input.maxItemUtf8Bytes.getD (64 * 1024) = maxBytes ∧
      pieces parsed.lines maxBytes = .ok cut ∧ Tiled input.markdown parsed.lines chunks ∧
      (∀ chunk ∈ chunks, utf8Bytes chunk.text ≤ maxBytes) ∧
      (chunks.IsChain fun first second => ∃ piece ∈ cut, Grown piece second ∧
        shouldFlush targetBytes maxBytes first piece = true) ∧
      result.items = chunks.map (projectionItem tools input reference ids) ∧
      result.spans = chunks.map fun chunk => spanOf (projectionItem tools input reference ids chunk) chunk := by
  obtain ⟨reference, -, ran⟩ := Fallible.bind_ok ran
  obtain ⟨-, -, ran⟩ := Fallible.bind_ok ran
  obtain ⟨-, -, ran⟩ := Fallible.bind_ok ran
  obtain ⟨-, -, ran⟩ := Fallible.bind_ok ran
  obtain ⟨targetBytes, target, ran⟩ := Fallible.bind_ok ran
  obtain ⟨maxBytes, limit, ran⟩ := Fallible.bind_ok ran
  obtain ⟨-, -, ran⟩ := Fallible.bind_ok ran
  obtain ⟨-, -, ran⟩ := Fallible.bind_ok ran
  obtain ⟨parsed, parsing, ran⟩ := Fallible.bind_ok ran
  obtain ⟨cut, cutting, ran⟩ := Fallible.bind_ok ran
  obtain ⟨shown, chunking, ran⟩ := Fallible.bind_ok ran
  obtain ⟨-, -, ran⟩ := Fallible.bind_ok ran
  obtain ⟨-, -, ran⟩ := Fallible.bind_ok ran
  obtain ⟨projected, projecting, same⟩ := Fallible.bind_ok ran
  cases same
  obtain ⟨chunks, chunked, rfl⟩ := Fallible.map_ok chunking
  have before := @pieces_tiled _ _ _ [] _ _ (parse_ok parsing).2.tiled cutting
  obtain ⟨tiled, small, chain, -⟩ := @chunkPieces_tiled _ _ _ [] _ none _ _ _ (fun _ listed => listed) before (by simp) chunked
  rw [nil_append] at tiled
  have filled : chunks.filter (fun chunk => chunk.text ≠ []) = chunks := by
    refine filter_eq_self.mpr fun chunk listed => decide_eq_true fun none => ?_
    have bytes := tiled.bytes chunk listed
    rw [none] at bytes
    exact absurd bytes (Nat.ne_of_gt (tiled.covers.mem listed).2.1)
  rw [filled] at projecting
  obtain rfl := projectChunk_ok tools input projecting
  exact ⟨parsed, cut, chunks, reference, _, targetBytes, maxBytes, parsing, boundedInteger_eq target,
    boundedInteger_eq limit, cutting, tiled, small, chain, map_map .., map_map ..⟩

/-- A projection that is returned is the text, cut at the headings and into items of one path each. -/
theorem project_lossless : Fallible.Returns (fun result => ∃ parsed,
    parseNormalizedMarkdownStructure input.markdown maxItems = .ok parsed ∧ Lossless input parsed.lines result)
    (projectNormalizedMarkdown tools input) := by
  refine Fallible.returns_of fun result ran => ?_
  obtain ⟨parsed, -, chunks, _, _, _, maxBytes, parsing, -, limit, -, tiled, small, -, items, spans⟩ :=
    project_tiled tools input ran
  have lined := (parse_ok parsing).2
  refine ⟨parsed, parsing, lined, ?_, ?_, ?_, ?_, fun line shown starts => ?_⟩
  · rw [spans]
    exact covers_map.mpr tiled.covers
  · have whole := congrArg flatten tiled.points
    rw [codePoints_flatten, flatMap_def, flatten_flatten, map_map] at whole
    rw [items, map_map, ← whole]
    exact congrArg flatten (map_congr_left fun chunk _ => (codePoints_flatten chunk.text).symm)
  · rw [items, flatMap_map]
    exact tiled.points
  · rw [items, spans, forall₂_map_left_iff, forall₂_map_right_iff, forall₂_same]
    intro chunk listed
    refine ⟨tiled.bytes chunk listed, ?_, tiled.paths chunk listed⟩
    rw [limit]
    exact_mod_cast small chunk listed
  · have headed : line ∈ (parsed.lines.filter fun line => line.startsHeading).map TextPiece.toLine := by
      rw [lined.headed]
      exact mem_filter.mpr ⟨shown, starts⟩
    obtain ⟨opening, listed, rfl⟩ := mem_map.mp headed
    obtain ⟨inside, marked⟩ := mem_filter.mp listed
    obtain ⟨chunk, member, -, same⟩ := tiled.heads opening inside marked
    exact ⟨_, spans ▸ mem_map_of_mem member, same⟩

/-- No item is cut across the tree: it lies in one section, whose path it has. -/
theorem project_within : Fallible.Returns (fun result => ∃ parsed,
    parseNormalizedMarkdownStructure input.markdown maxItems = .ok parsed ∧
      Forall₂ (fun item span => ∃ found ∈ parsed.sections, found.headingPath = item.headingPath ∧
        found.normalizedStartByte ≤ span.normalizedStartByte ∧ span.normalizedEndByte ≤ found.normalizedEndByte)
        result.items result.spans) (projectNormalizedMarkdown tools input) := by
  refine Fallible.returns_of fun result ran => ?_
  obtain ⟨parsed, -, chunks, _, _, _, _, parsing, -, -, -, tiled, -, -, items, spans⟩ := project_tiled tools input ran
  obtain ⟨laminar, lined⟩ := parse_ok parsing
  refine ⟨parsed, parsing, ?_⟩
  rw [items, spans, forall₂_map_left_iff, forall₂_map_right_iff, forall₂_same]
  intro chunk listed
  -- The section is the one of the chunk's last line: no heading opens inside the chunk.
  obtain ⟨-, positive, inside⟩ := tiled.covers.mem listed
  obtain ⟨line, last, before, reaches⟩ := lined.tiled.covers.holds (Nat.zero_le (chunk.stop - 1)) (by omega)
  obtain ⟨place, found, known, path, opens, closes, -⟩ := laminar.lines line last
  have member := mem_of_getElem? known
  refine ⟨found, member, path.trans (tiled.paths chunk listed line last (by omega) (by omega)).symm, ?_, by
    show chunk.stop ≤ _
    omega⟩
  rcases laminar.headings found member with front | ⟨start, shown, titled, same⟩
  · rw [front]
    exact Nat.zero_le _
  · have headed : start ∈ (parsed.lines.filter fun line => line.startsHeading).map TextPiece.toLine := by
      rw [lined.headed]
      exact mem_filter.mpr ⟨shown, by rw [titled]; rfl⟩
    obtain ⟨opening, listed', rfl⟩ := mem_map.mp headed
    obtain ⟨within, marked⟩ := mem_filter.mp listed'
    obtain ⟨part, member', -, same'⟩ := tiled.heads opening within marked
    show found.normalizedStartByte ≤ chunk.start
    rw [same, ← same']
    by_contra late
    have valid := (tiled.covers.mem member').2.1
    have one := tiled.covers.unique listed member' (by omega) (by omega)
    exact late (by rw [one])

/-- Two neighbouring items are apart for a reason: a heading, another path, too many bytes for one, or a
    blank line behind enough of them. -/
theorem project_packed : Fallible.Returns (fun result => ∃ parsed,
    parseNormalizedMarkdownStructure input.markdown maxItems = .ok parsed ∧
      (result.items.zip result.spans).IsChain fun first second =>
        (∃ line ∈ parsed.lines, line.startsHeading = true ∧ line.start ≤ second.2.normalizedStartByte ∧
          second.2.normalizedStartByte < line.stop) ∨
        first.1.headingPath ≠ second.1.headingPath ∨
        input.maxItemUtf8Bytes.getD (64 * 1024) < utf8Bytes first.1.sectionText + utf8Bytes second.1.sectionText ∨
        input.targetItemUtf8Bytes.getD (32 * 1024) ≤ utf8Bytes first.1.sectionText ∧
          endsBlank first.1.sectionText = true) (projectNormalizedMarkdown tools input) := by
  refine Fallible.returns_of fun result ran => ?_
  obtain ⟨parsed, cut, chunks, _, _, targetBytes, maxBytes, parsing, target, limit, cutting, -, -, chain, items,
    spans⟩ := project_tiled tools input ran
  have lined := (parse_ok parsing).2
  have within := pieces_within lined cutting
  refine ⟨parsed, parsing, ?_⟩
  rw [items, spans, zip_map', isChain_map]
  refine chain.imp fun first second parted => ?_
  obtain ⟨piece, listed, ⟨start, path, room⟩, flush⟩ := parted
  simp only [shouldFlush, Bool.or_eq_true, bne_iff_ne, decide_eq_true_eq, Bool.and_eq_true] at flush
  rcases flush with ((heading | other) | full) | ended
  · obtain ⟨line, inside, low, high, same⟩ := within piece listed
    exact .inl ⟨line, inside, same ▸ heading, le_of_le_of_eq low start.symm, lt_of_eq_of_lt start high⟩
  · exact .inr (.inl fun same => other (by rw [← path]; exact congrArg _ (congrArg _ same)))
  · refine .inr (.inr (.inl ?_))
    show _ < (utf8Bytes first.text : Int) + utf8Bytes second.text
    omega
  · exact .inr (.inr (.inr ⟨by rw [target]; exact_mod_cast ended.1, ended.2⟩))

end

end Structural
