import Eliot.Blocks.Captions
import Eliot.Blocks.Chunks
import Mathlib.Data.List.Dedup

namespace Blocks
open Text List

section
open Utf8 (Boundary)
open Ranges (Laid)

def bytesOf (scanned : Scanned) : Nat × Nat := (scanned.block.start, scanned.block.stop)

inductive Parts (text : Text) : Nat → List Emission → List Scanned → Prop where
  | nil (number : Nat) : Parts text number [] []
  | cons {number : Nat} {emission : Emission} {calls : List Emission} {added others : List Scanned}
      (first : Emitted text number emission added) (rest : Parts text (number + added.length) calls others) :
      Parts text number (emission :: calls) (added ++ others)

variable {text : Text} {number : Nat} {calls : List Emission} {blocks : List Scanned}

theorem foldl_parts (emitted : List Scanned) (lie : ∀ emission ∈ calls, emission.Lies text) :
    ∃ added, calls.foldl (emit text) emitted = emitted ++ added ∧ Parts text emitted.length calls added := by
  induction calls generalizing emitted with
  | nil => exact ⟨[], (append_nil _).symm, .nil _⟩
  | cons emission calls ih =>
    obtain ⟨added, emits, first⟩ := emit_added emitted (lie emission mem_cons_self)
    obtain ⟨others, folds, rest⟩ := ih (emitted ++ added) fun other member => lie other (mem_cons_of_mem _ member)
    rw [length_append] at rest
    exact ⟨added ++ others, by rw [foldl_cons, emits, folds, append_assoc], .cons first rest⟩

theorem scannedBlocks_parts (text : Text) : Parts text 0 (emissions text) (scannedBlocks text) := by
  obtain ⟨added, folds, parts⟩ := foldl_parts [] (emissions_laid text).2
  rw [scannedBlocks, folds]
  exact parts

theorem Parts.ids (parts : Parts text number calls blocks) (place : Nat) {scanned : Scanned}
    (found : blocks[place]? = some scanned) : scanned.block.id = number + place + 1 := by
  induction parts generalizing place with
  | nil number => cases found
  | @cons number emission calls added others first rest ih =>
    by_cases inside : place < added.length
    · rw [getElem?_append_left inside] at found
      exact first.ids place scanned found
    · rw [getElem?_append_right (by omega)] at found
      have behind := ih _ found
      omega

theorem Parts.cuts (parts : Parts text number calls blocks) :
    ∀ scanned ∈ blocks, Boundary (scalars text) scanned.block.start ∧
      Boundary (scalars text) scanned.block.stop ∧ scanned.block.stop ≤ scanned.block.start + maxBlockBytes := by
  induction parts with
  | nil number => simp
  | cons first rest ih =>
    intro scanned member
    rcases mem_append.mp member with member | member
    · exact first.cuts scanned member
    · exact ih scanned member

theorem Parts.laid {gap : Nat → Prop} {low high : Nat} (parts : Parts text number calls blocks)
    (laid : Laid gap high low (calls.map fun emission => (emission.first.start, emission.last.stop))) :
    Laid gap high low (blocks.map bytesOf) := by
  induction parts generalizing low with
  | nil number => exact laid
  | cons first rest ih =>
    obtain ⟨before, -, empty, behind⟩ := laid
    have whole : Laid gap _ _ _ := first.laid.weaken fun _ _ _ impossible => impossible.elim
    rw [map_append]
    exact (whole.after empty before).append (ih behind)

theorem scannedBlocks_laid (text : Text) :
    Laid (Blank (lines text)) (encode text).length 0 ((scannedBlocks text).map bytesOf) :=
  (scannedBlocks_parts text).laid (emissions_laid text).1

end

section

def renumbered (blocks : List Block) : List Block :=
  blocks.zipIdx.map fun (block, index) => { block with id := index + 1 }

def mergedBlock (merges : List TableCaptionCandidate) (blocks : List Scanned) : Scanned × Nat → Option Block
  | (scanned, index) =>
    if merges.any (·.captionIndex == index) then none
    else
      match (merges.find? (·.tableIndex == index)).bind fun merge => blocks[merge.captionIndex]? with
      | some caption =>
        some { scanned.block with start := min scanned.block.start caption.block.start,
                                  stop := max scanned.block.stop caption.block.stop }
      | none => some scanned.block

def merged (merges : List TableCaptionCandidate) (blocks : List Scanned) : List Block :=
  blocks.zipIdx.filterMap (mergedBlock merges blocks)

variable (text : Text)

def TableBefore (tableIndex index : Nat) : Prop :=
  ∃ table block, (scannedBlocks text)[tableIndex]? = some table ∧ (scannedBlocks text)[index]? = some block ∧
    table.block.type = .table ∧ onlyWhitespace text table.range.stop block.range.start = true

def TableBehind (tableIndex index : Nat) : Prop :=
  ∃ table block, (scannedBlocks text)[tableIndex]? = some table ∧ (scannedBlocks text)[index]? = some block ∧
    table.block.type = .table ∧ onlyWhitespace text block.range.stop table.range.start = true

def Fragment (index : Nat) : Prop :=
  ∃ before emission after, emissions text = before ++ emission :: after ∧
    let first := (before.foldl (emit text) []).length
    let last := (emit text (before.foldl (emit text) []) emission).length
    first ≤ index ∧ index < last ∧ first + 1 < last

structure Unambiguous (merge : TableCaptionCandidate) : Prop where
  caption : ∃ caption, (scannedBlocks text)[merge.captionIndex]? = some caption ∧
    caption.block.type = .paragraph ∧
    tableCaptionStart.test (bodyOf (slice text caption.range.start caption.range.stop)) = true
  neighbour : (merge.tableIndex + 1 = merge.captionIndex ∧ TableBefore text merge.tableIndex merge.captionIndex ∧
      ¬TableBehind text (merge.captionIndex + 1) merge.captionIndex) ∨
    (merge.captionIndex + 1 = merge.tableIndex ∧ TableBehind text merge.tableIndex merge.captionIndex ∧
      ∀ index, index + 1 = merge.captionIndex → ¬TableBefore text index merge.captionIndex)
  whole : ¬Fragment text merge.captionIndex ∧ ¬Fragment text merge.tableIndex
  size : ∀ caption table, (scannedBlocks text)[merge.captionIndex]? = some caption →
    (scannedBlocks text)[merge.tableIndex]? = some table →
    max table.block.stop caption.block.stop - min table.block.start caption.block.start ≤ maxBlockBytes

end

variable {index : Nat}

section

variable {text : Text} {blocks : List Scanned}

theorem candidate_index {found : TableCaptionCandidate}
    (chosen : candidate text blocks index = some found) : found.captionIndex = index := by
  unfold candidate at chosen
  split at chosen
  · cases chosen
  · dsimp only at chosen
    split_ifs at chosen
    all_goals cases chosen; rfl

theorem mem_captionsByTable {tableIndex captionIndex : Nat} :
    captionIndex ∈ captionsByTable text blocks tableIndex ↔
      candidate text blocks captionIndex = some ⟨captionIndex, tableIndex⟩ := by
  simp only [captionsByTable, candidates, mem_map, mem_filter, mem_filterMap, mem_range,
    beq_iff_eq]
  constructor
  · rintro ⟨found, ⟨⟨index, -, chosen⟩, rfl⟩, rfl⟩
    have same := candidate_index chosen
    rw [← same] at chosen
    exact chosen
  · intro chosen
    refine ⟨_, ⟨⟨captionIndex, ?_, chosen⟩, rfl⟩, rfl⟩
    by_contra outside
    rw [candidate, getElem?_eq_none (by omega)] at chosen
    cases chosen

structure Joined.Sound (text : Text) (blocks : List Scanned) (joined : Joined) : Prop where
  chosen : candidate text blocks joined.captionIndex = some ⟨joined.captionIndex, joined.tableIndex⟩
  joins : joinTable text blocks joined.tableIndex = some joined
  range : ∃ table caption, blocks[joined.tableIndex]? = some table ∧ blocks[joined.captionIndex]? = some caption ∧
    table.block.type = .table ∧ caption.block.type = .paragraph ∧
    joined.start = min table.block.start caption.block.start ∧
    joined.stop = max table.block.stop caption.block.stop ∧ joined.stop - joined.start ≤ maxBlockBytes

theorem joinTable_sound {tableIndex : Nat} {joined : Joined}
    (joins : joinTable text blocks tableIndex = some joined) :
    joined.tableIndex = tableIndex ∧ joined.Sound text blocks := by
  have result := joins
  unfold joinTable at joins
  split at joins
  · rename_i captionIndex only
    split at joins
    · rename_i table tableRange caption captionRange atTable atCaption
      dsimp only at joins
      split_ifs at joins with types size
      cases joins
      have chosen := mem_captionsByTable.mp (only ▸ mem_singleton.mpr rfl)
      rw [not_or, not_ne_iff, not_ne_iff] at types
      exact ⟨rfl, chosen, result, _, _, atTable, atCaption, types.1, types.2, rfl, rfl, Nat.le_of_not_lt size⟩
    · cases joins
  · cases joins

theorem mem_joinedTables {joined : Joined} (member : joined ∈ joinedTables text blocks) :
    joined.Sound text blocks := by
  obtain ⟨tableIndex, -, joins⟩ := mem_filterMap.mp member
  exact (joinTable_sound joins).2

theorem Joined.Sound.table {first second : Joined} (sound : first.Sound text blocks)
    (other : second.Sound text blocks) (same : first.tableIndex = second.tableIndex) : first = second := by
  have joins := sound.joins
  rw [same, other.joins] at joins
  exact (Option.some.inj joins).symm

theorem Joined.Sound.caption {first second : Joined} (sound : first.Sound text blocks)
    (other : second.Sound text blocks) (same : first.captionIndex = second.captionIndex) : first = second := by
  have chosen := sound.chosen
  rw [same, other.chosen] at chosen
  have tables : second.tableIndex = first.tableIndex := congrArg (·.tableIndex) (Option.some.inj chosen)
  exact sound.table other tables.symm

theorem joinedTables_nodup : (joinedTables text blocks).Nodup := by
  refine (nodup_dedup _).filterMap ?_
  intro first second joined joins others
  rw [← (joinTable_sound joins).1, ← (joinTable_sound others).1]

def Joined.merge (joined : Joined) : TableCaptionCandidate := ⟨joined.captionIndex, joined.tableIndex⟩

def merges (text : Text) (blocks : List Scanned) : List TableCaptionCandidate :=
  (joinedTables text blocks).map (·.merge)

theorem merges_captions : ((merges text blocks).map (·.captionIndex)).Nodup := by
  rw [merges, map_map]
  refine joinedTables_nodup.map_on ?_
  intro first member second other same
  exact (mem_joinedTables member).caption (mem_joinedTables other) same

theorem merges_tables : ((merges text blocks).map (·.tableIndex)).Nodup := by
  rw [merges, map_map]
  refine joinedTables_nodup.map_on ?_
  intro first member second other same
  exact (mem_joinedTables member).table (mem_joinedTables other) same

end

section

variable {text : Text} {blocks : List Scanned}

theorem foldl_pushBlock (joined : List Joined) (items : List (Scanned × Nat)) (result : List Block)
    (sound : ∀ one ∈ joined, one.Sound text blocks) (place : ∀ item ∈ items, blocks[item.2]? = some item.1) :
    items.foldl (pushBlock joined) result = result ++
      ((items.filterMap (mergedBlock (joined.map (·.merge)) blocks)).zipIdx result.length).map
        fun (block, index) => { block with id := index + 1 } := by
  induction items generalizing result with
  | nil => simp
  | cons item items ih =>
    obtain ⟨⟨block, range⟩, index⟩ := item
    have here := place _ mem_cons_self
    have rest := fun result => ih result fun item member => place item (mem_cons_of_mem _ member)
    rw [foldl_cons, rest, filterMap_cons]
    have captions : (joined.map (·.merge)).any (·.captionIndex == index) = joined.any (·.captionIndex == index) := by
      rw [any_map]
      rfl
    have tables : (joined.map (·.merge)).find? (·.tableIndex == index) =
        (joined.find? (·.tableIndex == index)).map (·.merge) := by
      rw [find?_map]
      rfl
    simp only [pushBlock, mergedBlock, captions, tables]
    split_ifs with gone
    · rfl
    · cases found : joined.find? (·.tableIndex == index) with
      | none => simp
      | some one =>
        obtain ⟨table, caption, atTable, atCaption, -, -, start, stop, -⟩ :=
          (sound one (mem_of_find?_eq_some found)).range
        have same : one.tableIndex = index := by simpa using find?_some found
        rw [same, here] at atTable
        cases atTable
        simp [Joined.merge, atCaption, start, stop]

theorem renumbered_numbered {list : List Block}
    (ids : ∀ (place : Nat) (block : Block), list[place]? = some block → block.id = place + 1) :
    renumbered list = list := by
  refine ext_getElem? ?_
  intro place
  rw [renumbered, getElem?_map, getElem?_zipIdx, Nat.zero_add]
  cases found : list[place]? with
  | none => rfl
  | some block =>
    have same := ids place block found
    show some { block with id := place + 1 } = some block
    rw [← same]

theorem merged_nil : merged [] blocks = blocks.map (·.block) := by
  have each : mergedBlock [] blocks = fun item => some item.1.block := by
    funext item
    rfl
  have whole : blocks.zipIdx.map (fun item => item.1.block) = (blocks.zipIdx.map Prod.fst).map (·.block) := by
    rw [map_map]
    rfl
  rw [merged, each, filterMap_eq_map', whole, zipIdx_map_fst]

theorem joinAdjacentTableCaptions_merged (ids : ∀ (place : Nat) (scanned : Scanned),
    blocks[place]? = some scanned → scanned.block.id = place + 1) :
    joinAdjacentTableCaptions text blocks = renumbered (merged (merges text blocks) blocks) := by
  unfold joinAdjacentTableCaptions
  dsimp only
  split
  · rename_i none
    rw [merges, none, map_nil, merged_nil, renumbered_numbered]
    intro place block found
    rw [getElem?_map] at found
    obtain ⟨scanned, present, rfl⟩ := Option.map_eq_some_iff.mp found
    exact ids place scanned present
  · rw [foldl_pushBlock _ _ _ (fun _ => mem_joinedTables), nil_append]
    · rfl
    · intro item member
      exact mem_zipIdx_iff_getElem?.mp member

theorem scanBlocks_merged (text : Text) :
    scanBlocks text = renumbered (merged (merges text (scannedBlocks text)) (scannedBlocks text)) := by
  refine joinAdjacentTableCaptions_merged ?_
  intro place scanned found
  have id := (scannedBlocks_parts text).ids place found
  omega

end

section

variable {text : Text}

theorem whole_single {type : BlockType}
    (whole : isWholeBlock type (scannedBlocks text) index = true) : ¬Fragment text index := by
  rintro ⟨before, emission, after, split, low, high, several⟩
  have lie := (emissions_laid text).2
  rw [split] at lie
  obtain ⟨added, emits, first⟩ := emit_added (before.foldl (emit text) [])
    (lie emission (mem_append_right _ mem_cons_self))
  obtain ⟨others, folds, -⟩ := foldl_parts (emit text (before.foldl (emit text) []) emission)
    fun other member => lie other (mem_append_right _ (mem_cons_of_mem _ member))
  have all : scannedBlocks text = before.foldl (emit text) [] ++ (added ++ others) := by
    rw [scannedBlocks, split, foldl_append, foldl_cons, folds, emits, append_assoc]
  generalize before.foldl (emit text) [] = front at *
  rw [emits, length_append] at high several
  have part : ∀ place, place < added.length → (scannedBlocks text)[front.length + place]? = added[place]? := by
    intro place within
    rw [all, getElem?_append_right (Nat.le_add_right _ _), Nat.add_sub_cancel_left,
      getElem?_append_left within]
  have touching : ∀ (place : Nat) (one other : Scanned), added[place]? = some one → added[place + 1]? = some other →
      one.block.stop = other.block.start ∧ one.block.type = other.block.type := by
    intro place one other here next
    refine ⟨?_, ?_⟩
    · exact first.laid.touches (by rw [getElem?_map, here]; rfl) (by rw [getElem?_map, next]; rfl)
    · rw [first.types one (mem_of_getElem? here), first.types other (mem_of_getElem? next)]
  obtain ⟨place, rfl⟩ := Nat.exists_eq_add_of_le low
  have within : place < added.length := by omega
  obtain ⟨one, here⟩ : ∃ one, added[place]? = some one := ⟨_, getElem?_eq_getElem within⟩
  simp only [isWholeBlock, part place within, here, Option.any_some, Bool.and_eq_true, beq_iff_eq,
    Bool.not_eq_true'] at whole
  obtain ⟨⟨rfl, noneBefore⟩, noneBehind⟩ := whole
  by_cases more : place + 1 < added.length
  · obtain ⟨other, there⟩ : ∃ other, added[place + 1]? = some other := ⟨_, getElem?_eq_getElem more⟩
    obtain ⟨touch, same⟩ := touching place _ _ here there
    rw [next, Nat.add_assoc, part (place + 1) more, there, Option.any_some] at noneBehind
    simp [touch, same] at noneBehind
  · cases place with
    | zero => omega
    | succ place =>
      have earlier : place < added.length := by omega
      obtain ⟨other, there⟩ : ∃ other, added[place]? = some other := ⟨_, getElem?_eq_getElem earlier⟩
      obtain ⟨touch, same⟩ := touching place _ _ there here
      rw [previous, if_neg (by omega), show front.length + (place + 1) - 1 = front.length + place from rfl,
        part place earlier, there, Option.any_some] at noneBefore
      simp [touch, same] at noneBefore

theorem hasPreviousTable_iff {block : Scanned} (here : (scannedBlocks text)[index]? = some block) :
    hasPreviousTable text (scannedBlocks text) index block.range = true ↔
      ∃ tableIndex, tableIndex + 1 = index ∧ TableBefore text tableIndex index := by
  rw [hasPreviousTable, Option.any_eq_true]
  constructor
  · rintro ⟨table, found, fits⟩
    cases index with
    | zero => cases found
    | succ index =>
      simp only [Bool.and_eq_true, beq_iff_eq] at fits
      exact ⟨index, rfl, table, block, found, here, fits.1, fits.2⟩
  · rintro ⟨tableIndex, rfl, table, other, found, same, type, gap⟩
    rw [here] at same
    cases same
    exact ⟨table, found, by simp [type, gap]⟩

theorem hasNextTable_iff {block : Scanned} (here : (scannedBlocks text)[index]? = some block) :
    hasNextTable text (scannedBlocks text) index block.range = true ↔ TableBehind text (index + 1) index := by
  rw [hasNextTable, Option.any_eq_true]
  constructor
  · rintro ⟨table, found, fits⟩
    simp only [Bool.and_eq_true, beq_iff_eq] at fits
    exact ⟨table, block, found, here, fits.1, fits.2⟩
  · rintro ⟨table, other, found, same, type, gap⟩
    rw [here] at same
    cases same
    exact ⟨table, found, by simp [type, gap]⟩

theorem candidate_unambiguous {found : TableCaptionCandidate}
    (chosen : candidate text (scannedBlocks text) index = some found)
    (size : ∀ caption table, (scannedBlocks text)[found.captionIndex]? = some caption →
      (scannedBlocks text)[found.tableIndex]? = some table →
      max table.block.stop caption.block.stop - min table.block.start caption.block.start ≤ maxBlockBytes) :
    Unambiguous text found := by
  have same := candidate_index chosen
  unfold candidate at chosen
  split at chosen
  · cases chosen
  · rename_i block range here
    dsimp only at chosen
    have before := hasPreviousTable_iff here
    have behind := hasNextTable_iff here
    dsimp only at before behind
    split_ifs at chosen with prose other both first wholes wholes
    · have marked : tableCaptionStart.test (bodyOf (slice text range.start range.stop)) = true := by
        simpa using other
      rw [Bool.and_eq_true] at wholes
      cases chosen
      refine ⟨⟨_, here, not_ne_iff.mp prose, marked⟩, ?_, ⟨whole_single wholes.2, whole_single wholes.1⟩, size⟩
      obtain ⟨tableIndex, rfl, table⟩ := before.mp first
      have alone : ¬TableBehind text (tableIndex + 1 + 1) (tableIndex + 1) := fun there =>
        both (first.trans (behind.mpr there).symm)
      exact .inl ⟨rfl, table, alone⟩
    · have marked : tableCaptionStart.test (bodyOf (slice text range.start range.stop)) = true := by
        simpa using other
      rw [Bool.and_eq_true] at wholes
      cases chosen
      refine ⟨⟨_, here, not_ne_iff.mp prose, marked⟩, ?_, ⟨whole_single wholes.2, whole_single wholes.1⟩, size⟩
      have there : hasNextTable text (scannedBlocks text) index range = true := by
        cases second : hasNextTable text (scannedBlocks text) index range with
        | true => rfl
        | false => exact absurd ((Bool.eq_false_iff.mpr first).trans second.symm) both
      have alone : ∀ tableIndex, tableIndex + 1 = index → ¬TableBefore text tableIndex index := by
        intro tableIndex next table
        exact first (before.mpr ⟨tableIndex, next, table⟩)
      exact .inr ⟨rfl, behind.mp there, alone⟩

theorem merges_unambiguous {merge : TableCaptionCandidate} (member : merge ∈ merges text (scannedBlocks text)) :
    Unambiguous text merge := by
  obtain ⟨joined, among, rfl⟩ := mem_map.mp member
  have sound := mem_joinedTables among
  refine candidate_unambiguous sound.chosen ?_
  intro caption table atCaption atTable
  obtain ⟨table', caption', hereTable, hereCaption, -, -, start, stop, size⟩ := sound.range
  cases hereTable.symm.trans atTable
  cases hereCaption.symm.trans atCaption
  rw [← start, ← stop]
  exact size

/-- Captions are merged into tables that they stand beside and can only belong to. -/
theorem captions_merged (text : Text) : ∃ merges : List TableCaptionCandidate,
    (∀ merge ∈ merges, Unambiguous text merge) ∧ (merges.map (·.captionIndex)).Nodup ∧
    (merges.map (·.tableIndex)).Nodup ∧ scanBlocks text = renumbered (merged merges (scannedBlocks text)) :=
  ⟨merges text (scannedBlocks text), fun _ => merges_unambiguous, merges_captions, merges_tables,
    scanBlocks_merged text⟩

end

end Blocks
