import Eliot.Blocks.Coverage
import Eliot.Collections.Fallible
import Eliot.Tools.Storage

namespace Tools
open Text Context List Fallible
open Blocks (Block decoded)

structure ReadInput where
  projectId : Text
  revisionId : Text
  start : Nat
  stop : Nat
  maxTokens : Option Int

structure Segment where
  label : Option Nat
  start : Nat
  stop : Nat
  text : Text
deriving DecidableEq

inductive PassageReply where
  | passage (header : Text) (segments : List Segment)
  | tooLarge (reply : Reply)
deriving DecidableEq

section

variable (bytes : Bytes) (base : Nat) (citable : List Nat)

def appendSegment (label : Option Nat) (start stop : Nat) : Except LibraryError (List Segment) :=
  if stop ≤ start then .ok []
  else
    match decoded (slice bytes start stop) with
    | none => invalid "The passage must start and end on UTF-8 boundaries."
    | some text => .ok [⟨label, base + start, base + stop, text⟩]

def blockSegments : Nat → List Block → Except LibraryError (List Segment × Nat)
  | offset, [] => .ok ([], offset)
  | offset, block :: blocks =>
    if !citable.contains block.id || block.start < offset then blockSegments offset blocks
    else do
      let gap ← (if offset < block.start then appendSegment bytes base none offset block.start else .ok [])
      let own ← appendSegment bytes base (some block.id) block.start block.stop
      let (rest, stop) ← blockSegments block.stop blocks
      return (gap ++ own ++ rest, stop)

def passageSegments (blocks : List Block) : Except LibraryError (List Segment) := do
  let (segments, offset) ← blockSegments bytes base citable 0 blocks
  let tail ← (if offset < bytes.length ∨ segments = [] then appendSegment bytes base none offset bytes.length
    else .ok [])
  return segments ++ tail

end

def tooLargeText : Text :=
  prose "The exact requested range is too large to return intact at this cap. Narrow start and end; the range " rfl ++
    prose "was not changed." rfl

def requestedRange (revisionId : Text) (start stop : Nat) : Text :=
  prose "\nRequested UTF-8 byte range [" rfl ++ decimal start ++ [44] ++ decimal stop ++ prose ") in revision " rfl ++
    revisionId ++ [46]

def passageHeader (revisionId : Text) (labels : List Nat) (start stop : Nat) : Text :=
  prose "## Exact passage " rfl ++
    (if labels = [] then prose "[revision " rfl ++ revisionId ++ [93]
      else (prose ", " rfl).intercalate (labels.map (blockLabel revisionId))) ++
    requestedRange revisionId start stop

def Segment.render (revisionId : Text) (segment : Segment) : Text :=
  prose "Source segment " rfl ++ (segment.label.elim (prose "unlabelled" rfl) (blockLabel revisionId)) ++
    prose " — source bytes [" rfl ++ decimal segment.start ++ [44] ++ decimal segment.stop ++ prose ")\n" rfl ++
    segment.text

def passageBody (revisionId header : Text) (segments : List Segment) : Text :=
  header ++ [10, 10] ++ [10, 10].intercalate (segments.map (·.render revisionId))

def PassageReply.render (revisionId : Text) : PassageReply → Text
  | passage header segments => passageBody revisionId header segments
  | tooLarge reply => reply.render

def readTool (storage : Storage) (input : ReadInput) : Except LibraryError PassageReply := do
  let limit ← outputBudget input.maxTokens
  let selected ← attachedReadableRevision storage input.projectId (some input.revisionId) none
  if input.stop ≤ input.start ∨ selected.readableSize.getD 0 < input.stop then
    invalid "The exact passage range is outside this revision."
  let roughHeader := prose "## Exact passage" rfl ++ requestedRange selected.revisionId input.start input.stop
  if limit * 3 < input.stop - input.start + (encode (roughHeader ++ [10, 10])).length then
    return .tooLarge (withinBudget tooLargeText limit)
  let outline ← storage.outline selected.revisionId
  let bytes ← readText storage selected (some (input.start, input.stop))
  let blocks := (outline.filter fun block => input.start ≤ block.start && block.stop ≤ input.stop).map fun block =>
    { block with start := block.start - input.start, stop := block.stop - input.start }
  let citable := Blocks.citableIdsFromBytes blocks bytes
  let labels := (blocks.filter fun block => citable.contains block.id).map (·.id)
  let header := passageHeader selected.revisionId labels input.start input.stop
  if decoded bytes = none then invalid "The passage must start and end on UTF-8 boundaries."
  let segments ← passageSegments bytes input.start citable blocks
  if limit * 3 < (encode (passageBody selected.revisionId header segments)).length then
    return .tooLarge (withinBudget tooLargeText limit)
  return .passage header segments

section
open Ranges (Laid)

variable {bytes : Bytes} {base : Nat} {citable : List Nat} {segments : List Segment}

def Segment.span (segment : Segment) : Nat × Nat := (segment.start, segment.stop)

/-- A segment of bytes that stand behind `base` others: it has the text of its range, and a label is of a block
    that may be cited and has that range. -/
structure Segment.Holds (bytes : Bytes) (base : Nat) (citable : List Nat) (blocks : List Block) (segment : Segment) :
    Prop where
  text : ∃ start stop, segment.start = base + start ∧ segment.stop = base + stop ∧
    encode segment.text = slice bytes start stop ∧ decoded (slice bytes start stop) = some segment.text
  label : ∀ id, segment.label = some id → ∃ block ∈ blocks, block.id = id ∧ citable.contains id = true ∧
    segment.start = base + block.start ∧ segment.stop = base + block.stop

structure Covers (bytes : Bytes) (base : Nat) (citable : List Nat) (blocks : List Block) (start stop : Nat)
    (segments : List Segment) : Prop where
  laid : Laid (fun _ => False) (base + stop) (base + start) (segments.map (·.span))
  holds : ∀ segment ∈ segments, segment.Holds bytes base citable blocks

variable {blocks : List Block} {start middle stop : Nat}

theorem covers_nil (base : Nat) (start : Nat) : Covers bytes base citable blocks start start [] :=
  ⟨Ranges.laid_nil _, by simp⟩

theorem Covers.append {rest : List Segment} (first : Covers bytes base citable blocks start middle segments)
    (second : Covers bytes base citable blocks middle stop rest) :
    Covers bytes base citable blocks start stop (segments ++ rest) := by
  refine ⟨?_, ?_⟩
  · rw [map_append]
    exact first.laid.append second.laid
  · intro segment member
    rcases mem_append.mp member with front | back
    · exact first.holds segment front
    · exact second.holds segment back

theorem appendSegment_covers {label : Option Nat} (order : start ≤ stop)
    (labelled : ∀ id, label = some id → ∃ block ∈ blocks, block.id = id ∧ citable.contains id = true ∧
      start = block.start ∧ stop = block.stop)
    (appended : appendSegment bytes base label start stop = .ok segments) :
    Covers bytes base citable blocks start stop segments := by
  unfold appendSegment at appended
  split at appended
  · rename_i empty
    cases appended
    have same : start = stop := Nat.le_antisymm order empty
    exact same ▸ covers_nil base start
  · rename_i filled
    cases found : decoded (slice bytes start stop) with
    | none =>
      rw [found] at appended
      cases appended
    | some text =>
      rw [found] at appended
      cases appended
      refine ⟨Ranges.laid_singleton (Nat.add_lt_add_left (Nat.lt_of_not_le filled) base), ?_⟩
      · intro segment member
        rw [mem_singleton.mp member]
        refine ⟨⟨start, stop, rfl, rfl, Blocks.encode_decoded found, found⟩, ?_⟩
        intro id same
        obtain ⟨block, listed, named, allowed, first, last⟩ := labelled id same
        exact ⟨block, listed, named, allowed, by rw [first], by rw [last]⟩

theorem blockSegments_covers {rest : List Block} (among : ∀ block ∈ rest, block ∈ blocks)
    (filled : ∀ block ∈ blocks, citable.contains block.id = true → block.start < block.stop)
    (listed : blockSegments bytes base citable start rest = .ok (segments, stop)) :
    Covers bytes base citable blocks start stop segments := by
  induction rest generalizing start segments with
  | nil =>
    cases listed
    exact covers_nil base _
  | cons block rest ih =>
    have later : ∀ other ∈ rest, other ∈ blocks := fun other member => among other (mem_cons_of_mem _ member)
    have member := among block mem_cons_self
    rw [blockSegments] at listed
    split at listed
    · exact ih later listed
    · rename_i usable
      simp only [Bool.or_eq_true, Bool.not_eq_true', decide_eq_true_eq, not_or, Bool.not_eq_false, not_lt] at usable
      obtain ⟨allowed, ahead⟩ := usable
      obtain ⟨gap, before, listed⟩ := bind_ok listed
      obtain ⟨own, inside, listed⟩ := bind_ok listed
      obtain ⟨⟨others, last⟩, after, listed⟩ := bind_ok listed
      cases listed
      have gapCovers : Covers bytes base citable blocks start block.start gap := by
        split at before
        · exact appendSegment_covers ahead (by simp) before
        · rename_i none
          cases before
          have same : start = block.start := by omega
          exact same ▸ covers_nil base start
      have ownCovers : Covers bytes base citable blocks block.start block.stop own := by
        refine appendSegment_covers (filled block member allowed).le ?_ inside
        rintro _ ⟨⟩
        exact ⟨block, member, rfl, allowed, rfl, rfl⟩
      exact (gapCovers.append ownCovers).append (ih later after)

theorem blockSegments_stop {rest : List Block} (among : ∀ block ∈ rest, block ∈ blocks)
    (within : ∀ block ∈ blocks, citable.contains block.id = true → block.stop ≤ bytes.length)
    (order : start ≤ bytes.length) (listed : blockSegments bytes base citable start rest = .ok (segments, stop)) :
    stop ≤ bytes.length := by
  induction rest generalizing start segments with
  | nil =>
    cases listed
    exact order
  | cons block rest ih =>
    have later : ∀ other ∈ rest, other ∈ blocks := fun other member => among other (mem_cons_of_mem _ member)
    rw [blockSegments] at listed
    split at listed
    · exact ih later order listed
    · rename_i usable
      simp only [Bool.or_eq_true, Bool.not_eq_true', decide_eq_true_eq, not_or, Bool.not_eq_false, not_lt] at usable
      obtain ⟨gap, -, listed⟩ := bind_ok listed
      obtain ⟨own, -, listed⟩ := bind_ok listed
      obtain ⟨⟨others, last⟩, after, listed⟩ := bind_ok listed
      cases listed
      exact ih later (within block (among block mem_cons_self) usable.1) after

theorem passageSegments_covers
    (filled : ∀ block ∈ blocks, citable.contains block.id = true → block.start < block.stop)
    (within : ∀ block ∈ blocks, citable.contains block.id = true → block.stop ≤ bytes.length)
    (listed : passageSegments bytes base citable blocks = .ok segments) :
    Covers bytes base citable blocks 0 bytes.length segments := by
  unfold passageSegments at listed
  obtain ⟨⟨front, offset⟩, before, listed⟩ := bind_ok listed
  obtain ⟨tail, after, listed⟩ := bind_ok listed
  cases listed
  have covers := blockSegments_covers (fun _ member => member) filled before
  have order := blockSegments_stop (fun _ member => member) within (Nat.zero_le _) before
  refine covers.append ?_
  split at after
  · exact appendSegment_covers order (by simp) after
  · rename_i none
    cases after
    have same : offset = bytes.length := by omega
    exact same ▸ covers_nil base offset

theorem citable_block {block : Block} (unique : (blocks.map (·.id)).Nodup) (member : block ∈ blocks)
    (allowed : (Blocks.citableIdsFromBytes blocks bytes).contains block.id = true) :
    block.start < block.stop ∧ block.stop ≤ bytes.length ∧
      (decoded (slice bytes block.start block.stop)).any (Blocks.isCitableBlock block.type) = true := by
  rw [contains_iff_mem, Blocks.citableIdsFromBytes, mem_map] at allowed
  obtain ⟨other, listed, same⟩ := allowed
  rw [mem_filter] at listed
  have equal : other = block := inj_on_of_nodup_map unique listed.1 member same
  rw [equal] at listed
  simpa [and_assoc] using listed.2

theorem readTool_passage {storage : Storage} {input : ReadInput} {header : Text}
    (read : readTool storage input = .ok (.passage header segments)) :
    ∃ selected outline bytes, attachedReadableRevision storage input.projectId (some input.revisionId) none =
        .ok selected ∧ storage.outline selected.revisionId = .ok outline ∧
      readText storage selected (some (input.start, input.stop)) = .ok bytes ∧ input.start < input.stop ∧
      let blocks := (outline.filter fun block => input.start ≤ block.start && block.stop ≤ input.stop).map
        fun block => { block with start := block.start - input.start, stop := block.stop - input.start }
      passageSegments bytes input.start (Blocks.citableIdsFromBytes blocks bytes) blocks = .ok segments := by
  unfold readTool at read
  obtain ⟨limit, -, read⟩ := bind_ok read
  obtain ⟨selected, chosen, read⟩ := bind_ok read
  dsimp only at read
  split at read
  · cases read
  rename_i inside
  split at read
  · cases read
  obtain ⟨outline, outlined, read⟩ := bind_ok read
  obtain ⟨bytes, stored, read⟩ := bind_ok read
  split at read
  · cases read
  obtain ⟨found, listed, read⟩ := bind_ok read
  split at read
  · cases read
  cases read
  exact ⟨selected, outline, bytes, chosen, outlined, stored, by omega, listed⟩

theorem slice_slice (whole : Bytes) (first last : Nat) {start stop : Nat} (fits : stop ≤ last - first) :
    slice (slice whole first last) start stop = slice whole (first + start) (first + stop) := by
  have size : min (stop - start) (last - first - start) = first + stop - (first + start) := by omega
  rw [slice, slice, slice, drop_take, take_take, drop_drop, size]

theorem readText_range {storage : Storage} {revision : ScopedRevision} {bytes stored : Bytes}
    (readable : storage.readable revision.revisionId = .ok stored)
    (read : readText storage revision (some (start, stop)) = .ok bytes) :
    bytes = slice stored start stop ∧ bytes.length = stop - start := by
  unfold readText at read
  dsimp only at read
  split at read
  · cases read
  rw [readable] at read
  obtain ⟨whole, same, read⟩ := bind_ok read
  cases same
  split at read
  · cases read
  rename_i size
  split at read
  · cases read
  cases read
  exact ⟨rfl, by omega⟩

theorem attached_revision {storage : Storage} {projectId revisionId : Text} {selected : ScopedRevision}
    (chosen : attachedReadableRevision storage projectId (some revisionId) none = .ok selected) :
    selected.revisionId = revisionId := by
  unfold attachedReadableRevision at chosen
  obtain ⟨_, -, chosen⟩ := bind_ok chosen
  dsimp only at chosen
  split at chosen
  · rename_i row found
    cases chosen
    have holds := find?_some found
    simp only [Option.some_or, Bool.and_eq_true, decide_eq_true_eq, Option.some.injEq] at holds
    exact holds.1.2.symm
  · cases chosen

end

structure ExactPassage (source : Text) (start stop : Nat) (segments : List Segment) : Prop where
  filled : ∀ segment ∈ segments, segment.start < segment.stop
  starts : segments.head?.map (·.start) = some start
  stops : segments.getLast?.map (·.stop) = some stop
  contiguous : ∀ (place : Nat) (first second : Segment), segments[place]? = some first →
    segments[place + 1]? = some second → first.stop = second.start
  apart : segments.Pairwise fun earlier later => earlier.stop ≤ later.start
  texts : ∀ segment ∈ segments, encode segment.text = slice (encode source) segment.start segment.stop
  whole : (segments.map fun segment => encode segment.text).flatten = slice (encode source) start stop
  labels : ∀ segment ∈ segments, ∀ id, segment.label = some id → ∃ block ∈ Blocks.scanBlocks source,
    block.id = id ∧ segment.start = block.start ∧ segment.stop = block.stop ∧
      Blocks.isCitableBlock block.type segment.text = true

section

variable {storage : Storage} {input : ReadInput} {source : Text} {bytes : Bytes} {segments : List Segment}

def shifted (outline : List Block) (start stop : Nat) : List Block :=
  (outline.filter fun block => start ≤ block.start && block.stop ≤ stop).map fun block =>
    { block with start := block.start - start, stop := block.stop - start }

theorem shifted_unique (source : Text) (start stop : Nat) :
    ((shifted (Blocks.scanBlocks source) start stop).map (·.id)).Nodup := by
  have ids : ((Blocks.scanBlocks source).map (·.id)).Nodup := by
    rw [Blocks.scanBlocks_ids]
    exact nodup_range'
  rw [shifted, map_map]
  exact ids.sublist (filter_sublist.map _)

theorem mem_shifted {outline : List Block} {start stop : Nat} {block : Block}
    (member : block ∈ shifted outline start stop) :
    ∃ other ∈ outline, other.id = block.id ∧ other.type = block.type ∧ start ≤ other.start ∧ other.stop ≤ stop ∧
      block.start = other.start - start ∧ block.stop = other.stop - start := by
  obtain ⟨other, listed, rfl⟩ := mem_map.mp member
  rw [mem_filter, Bool.and_eq_true, decide_eq_true_eq, decide_eq_true_eq] at listed
  exact ⟨other, listed.1, rfl, rfl, listed.2.1, listed.2.2, rfl, rfl⟩

/-- A passage that is returned is the requested bytes of a source in segments from end to end, and a segment
    that has a label is the whole of its block. -/
theorem readTool_exact (outlined : storage.outline input.revisionId = .ok (Blocks.scanBlocks source))
    (stored : storage.readable input.revisionId = .ok (encode source)) {header : Text}
    (read : readTool storage input = .ok (.passage header segments)) :
    ExactPassage source input.start input.stop segments := by
  obtain ⟨selected, outline, bytes, chosen, found, ranged, filled, listed⟩ := readTool_passage read
  have revision := attached_revision chosen
  rw [revision, outlined] at found
  cases found
  rw [← revision] at stored
  obtain ⟨part, size⟩ := readText_range stored ranged
  have unique := shifted_unique source input.start input.stop
  have covers := passageSegments_covers (fun block member allowed => (citable_block unique member allowed).1)
    (fun block member allowed => (citable_block unique member allowed).2.1) listed
  have laid := covers.laid
  have last : input.start + bytes.length = input.stop := by omega
  rw [last, Nat.add_zero] at laid
  have bounds (segment : Segment) (member : segment ∈ segments) :
      input.start ≤ segment.start ∧ segment.start < segment.stop ∧ segment.stop ≤ input.stop :=
    laid.bounds segment.span (mem_map_of_mem member)
  have texts : ∀ segment ∈ segments,
      encode segment.text = slice (encode source) segment.start segment.stop := by
    intro segment member
    obtain ⟨start, stop, first, second, same, -⟩ := (covers.holds segment member).text
    have bound := bounds segment member
    rw [same, part, slice_slice _ _ _ (by omega), ← first, ← second]
  refine ⟨fun segment member => (bounds segment member).2.1, ?_, ?_, ?_, ?_, texts, ?_, ?_⟩
  · cases segments with
    | nil =>
      have empty := laid.within input.start
      simp [filled] at empty
    | cons segment rest => exact congrArg some laid.first
  · cases segments using List.reverseRecOn with
    | nil =>
      have empty := laid.within input.start
      simp [filled] at empty
    | append_singleton rest segment =>
      rw [map_append] at laid
      rw [getLast?_concat]
      exact congrArg some laid.last
  · intro place first second here next
    have one : (segments.map (·.span))[place]? = some first.span := by rw [getElem?_map, here]; rfl
    have two : (segments.map (·.span))[place + 1]? = some second.span := by rw [getElem?_map, next]; rfl
    exact laid.touches one two
  · exact pairwise_map.mp laid.pairwise
  · have flat := laid.flatten (encode source)
    rw [map_map] at flat
    rw [slice, ← flat]
    refine congrArg List.flatten (map_congr_left ?_)
    intro segment member
    exact texts segment member
  · intro segment member id labelled
    obtain ⟨block, among, named, allowed, first, second⟩ := (covers.holds segment member).label id labelled
    obtain ⟨start, stop, starts, stops, -, decodes⟩ := (covers.holds segment member).text
    rw [← named] at allowed
    obtain ⟨wide, -, citable⟩ := citable_block unique among allowed
    obtain ⟨other, listed, same, type, lower, upper, left, right⟩ := mem_shifted among
    have one : start = block.start := by omega
    have two : stop = block.stop := by omega
    rw [← one, ← two, decodes, Option.any_some] at citable
    exact ⟨other, listed, same.trans named, by omega, by omega, type ▸ citable⟩

end

def twoParagraphs : Text := text "One.\n\nTwo."

theorem readTool_twoParagraphs : ExactPassage twoParagraphs 0 10
    [⟨some 1, 0, 5, text "One.\n"⟩, ⟨none, 5, 6, text "\n"⟩, ⟨some 2, 6, 10, text "Two."⟩] := by
  have read : readTool (oneSource twoParagraphs) ⟨text "p", text "r", 0, 10, none⟩ = .ok (.passage
      (passageHeader (text "r") [1, 2] 0 10)
      [⟨some 1, 0, 5, text "One.\n"⟩, ⟨none, 5, 6, text "\n"⟩, ⟨some 2, 6, 10, text "Two."⟩]) := by
    decide +kernel
  exact readTool_exact rfl rfl read

end Tools
