import Eliot.Blocks.Joining

namespace Blocks
open Text List
open Utf8 (Boundary)

section

variable {merges : List TableCaptionCandidate} {blocks : List Scanned} {scanned : Scanned} {block : Block}
  {index : Nat}

theorem mergedBlock_cases (stays : mergedBlock merges blocks (scanned, index) = some block) :
    (∀ merge ∈ merges, merge.captionIndex ≠ index) ∧ (block = scanned.block ∨
      ∃ merge ∈ merges, merge.tableIndex = index ∧ ∃ caption, blocks[merge.captionIndex]? = some caption ∧
        block = { scanned.block with start := min scanned.block.start caption.block.start,
                                     stop := max scanned.block.stop caption.block.stop }) := by
  unfold mergedBlock at stays
  dsimp only at stays
  split_ifs at stays with gone
  refine ⟨?_, ?_⟩
  · intro merge member same
    exact gone (any_eq_true.mpr ⟨merge, member, by simpa using same⟩)
  · split at stays
    · rename_i caption found
      obtain ⟨merge, chosen, present⟩ := Option.bind_eq_some_iff.mp found
      have same : merge.tableIndex = index := by simpa using find?_some chosen
      exact .inr ⟨merge, mem_of_find?_eq_some chosen, same, _, present, (Option.some.inj stays).symm⟩
    · exact .inl (Option.some.inj stays).symm

theorem mergedBlock_stays (scanned : Scanned) (captions : ∀ merge ∈ merges, merge.captionIndex ≠ index)
    (tables : (merges.map (·.tableIndex)).Nodup) :
    ∃ block, mergedBlock merges blocks (scanned, index) = some block ∧
      block.start ≤ scanned.block.start ∧ scanned.block.stop ≤ block.stop ∧
      ∀ merge ∈ merges, merge.tableIndex = index → ∀ caption, blocks[merge.captionIndex]? = some caption →
        block.start ≤ caption.block.start ∧ caption.block.stop ≤ block.stop := by
  have stays : merges.any (·.captionIndex == index) = false := by
    rw [any_eq_false]
    intro merge member
    simpa using captions merge member
  have only : ∀ merge ∈ merges, merge.tableIndex = index →
      merges.find? (·.tableIndex == index) = some merge := by
    intro merge member same
    cases found : merges.find? (·.tableIndex == index) with
    | none => exact absurd (by simpa using same) (find?_eq_none.mp found merge member)
    | some other =>
      have agrees : other.tableIndex = index := by simpa using find?_some found
      have equal := inj_on_of_nodup_map tables (mem_of_find?_eq_some found) member (agrees.trans same.symm)
      rw [equal]
  unfold mergedBlock
  dsimp only
  rw [stays, if_neg Bool.false_ne_true]
  split
  · rename_i caption found
    obtain ⟨merge, chosen, present⟩ := Option.bind_eq_some_iff.mp found
    refine ⟨_, rfl, Nat.min_le_left _ _, Nat.le_max_left _ _, ?_⟩
    intro other member same caption' there
    rw [only other member same] at chosen
    cases chosen
    cases present.symm.trans there
    exact ⟨Nat.min_le_right _ _, Nat.le_max_right _ _⟩
  · rename_i missed
    refine ⟨_, rfl, Nat.le_refl _, Nat.le_refl _, ?_⟩
    intro merge member same caption there
    rw [only merge member same, Option.bind_some, there] at missed
    exact absurd missed (by simp)

end

section

variable {text : Text}

theorem scannedBlocks_order {place later : Nat} {first second : Scanned}
    (here : (scannedBlocks text)[place]? = some first) (there : (scannedBlocks text)[later]? = some second)
    (order : place < later) : first.block.stop ≤ second.block.start := by
  have pairs := (scannedBlocks_laid text).pairwise
  rw [pairwise_map] at pairs
  obtain ⟨within, rfl⟩ := List.getElem?_eq_some_iff.mp here
  obtain ⟨inside, rfl⟩ := List.getElem?_eq_some_iff.mp there
  exact pairwise_iff_getElem.mp pairs _ _ within inside order

theorem scannedBlocks_filled {scanned : Scanned} (member : scanned ∈ scannedBlocks text) :
    scanned.block.start < scanned.block.stop :=
  ((scannedBlocks_laid text).bounds (bytesOf scanned) (mem_map_of_mem member)).2.1

structure Ends (text : Text) (index : Nat) (block : Block) (first last : Nat) : Prop where
  stays : ∀ merge ∈ merges text (scannedBlocks text), merge.captionIndex ≠ index
  lower : first = index ∨ first + 1 = index ∧ ⟨first, index⟩ ∈ merges text (scannedBlocks text)
  upper : last = index ∨ last = index + 1 ∧ ⟨last, index⟩ ∈ merges text (scannedBlocks text)
  start : ∃ scanned, (scannedBlocks text)[first]? = some scanned ∧ scanned.block.start = block.start
  stop : ∃ scanned, (scannedBlocks text)[last]? = some scanned ∧ scanned.block.stop = block.stop
  size : block.stop ≤ block.start + maxBlockBytes

theorem mergedBlock_ends {index : Nat} {scanned : Scanned} {block : Block}
    (here : (scannedBlocks text)[index]? = some scanned)
    (kept : mergedBlock (merges text (scannedBlocks text)) (scannedBlocks text) (scanned, index) = some block) :
    ∃ first last, Ends text index block first last := by
  obtain ⟨stays, rfl | ⟨merge, member, rfl, caption, there, rfl⟩⟩ := mergedBlock_cases kept
  · have cuts := (scannedBlocks_parts text).cuts scanned (mem_of_getElem? here)
    exact ⟨index, index, stays, .inl rfl, .inl rfl, ⟨scanned, here, rfl⟩, ⟨scanned, here, rfl⟩, cuts.2.2⟩
  · have size := (merges_unambiguous member).size caption scanned there here
    have tableFilled := scannedBlocks_filled (mem_of_getElem? here)
    have captionFilled := scannedBlocks_filled (mem_of_getElem? there)
    rcases (merges_unambiguous member).neighbour with ⟨next, -, -⟩ | ⟨next, -, -⟩
    · have order := scannedBlocks_order here there (by omega)
      refine ⟨merge.tableIndex, merge.captionIndex, stays, .inl rfl, .inr ⟨next.symm, member⟩,
        ⟨scanned, here, ?_⟩, ⟨caption, there, ?_⟩, ?_⟩
      · dsimp only
        omega
      · dsimp only
        omega
      · dsimp only
        omega
    · have order := scannedBlocks_order there here (by omega)
      refine ⟨merge.captionIndex, merge.tableIndex, stays, .inr ⟨next, member⟩, .inl rfl,
        ⟨caption, there, ?_⟩, ⟨scanned, here, ?_⟩, ?_⟩
      · dsimp only
        omega
      · dsimp only
        omega
      · dsimp only
        omega

theorem Ends.filled {index first last : Nat} {block : Block} (ends : Ends text index block first last) :
    block.start < block.stop := by
  obtain ⟨one, here, start⟩ := ends.start
  obtain ⟨other, there, stop⟩ := ends.stop
  have oneFilled := scannedBlocks_filled (mem_of_getElem? here)
  have otherFilled := scannedBlocks_filled (mem_of_getElem? there)
  by_cases same : first = last
  · subst same
    cases here.symm.trans there
    omega
  · have order : first < last := by
      have lower := ends.lower
      have upper := ends.upper
      omega
    have before := scannedBlocks_order here there order
    omega

theorem Ends.order {index later first last first' last' : Nat} {block other : Block}
    (ends : Ends text index block first last) (others : Ends text later other first' last')
    (order : index < later) : block.stop ≤ other.start := by
  obtain ⟨one, here, stop⟩ := ends.stop
  obtain ⟨two, there, start⟩ := others.start
  have apart : last < first' := by
    rcases ends.upper with rfl | ⟨rfl, own⟩
    · rcases others.lower with rfl | ⟨next, taken⟩
      · exact order
      · have stays : first' ≠ last := ends.stays _ taken
        omega
    · have stays : index + 1 ≠ later := others.stays _ own
      rcases others.lower with rfl | ⟨next, taken⟩
      · omega
      · have distinct : index + 1 ≠ first' := by
          intro same
          have equal := inj_on_of_nodup_map merges_captions own taken same
          have tables : index = later := congrArg (·.tableIndex) equal
          omega
        omega
  have before := scannedBlocks_order here there apart
  omega

def rangeOf (block : Block) : Nat × Nat := (block.start, block.stop)

theorem scanBlocks_map {α : Type} (text : Text) (view : Block → α)
    (same : ∀ (block : Block) (id : Nat), view { block with id := id } = view block) :
    (scanBlocks text).map view = (merged (merges text (scannedBlocks text)) (scannedBlocks text)).map view := by
  rw [scanBlocks_merged]
  generalize merged _ _ = list
  have whole : (list.zipIdx.map Prod.fst).map view = list.map view := by rw [zipIdx_map_fst]
  rw [renumbered, map_map, ← whole, map_map]
  refine map_congr_left ?_
  intro item member
  exact same _ _

theorem scanBlocks_ranges (text : Text) : (scanBlocks text).map rangeOf =
    (merged (merges text (scannedBlocks text)) (scannedBlocks text)).map rangeOf :=
  scanBlocks_map text rangeOf fun _ _ => rfl

theorem scanBlocks_ids (text : Text) :
    (scanBlocks text).map (·.id) = List.range' 1 (scanBlocks text).length := by
  rw [scanBlocks_merged]
  generalize merged _ _ = list
  have places : (list.zipIdx.map Prod.snd).map (1 + ·) = List.range' 1 list.length := by
    rw [zipIdx_map_snd, map_add_range']
  rw [renumbered, length_map, length_zipIdx, ← places, map_map, map_map]
  refine map_congr_left ?_
  intro item member
  exact Nat.add_comm _ _

theorem scanBlocks_ends {block : Block} (member : block ∈ scanBlocks text) :
    ∃ index first last kept, Ends text index kept first last ∧ rangeOf kept = rangeOf block := by
  have range : rangeOf block ∈ (scanBlocks text).map rangeOf := mem_map_of_mem member
  rw [scanBlocks_ranges] at range
  obtain ⟨kept, among, same⟩ := mem_map.mp range
  obtain ⟨⟨scanned, index⟩, item, stays⟩ := mem_filterMap.mp among
  obtain ⟨first, last, ends⟩ := mergedBlock_ends (mem_zipIdx_iff_getElem?.mp item) stays
  exact ⟨index, first, last, kept, ends, same⟩

theorem scanBlocks_order (text : Text) :
    (scanBlocks text).Pairwise fun earlier later => earlier.stop ≤ later.start := by
  have ranges : ((scanBlocks text).map rangeOf).Pairwise fun earlier later => earlier.2 ≤ later.1 := by
    rw [scanBlocks_ranges, pairwise_map, merged, pairwise_filterMap, pairwise_iff_getElem]
    intro place later within inside order kept stays other others
    have item := mem_zipIdx_iff_getElem?.mp (getElem_mem within)
    have item' := mem_zipIdx_iff_getElem?.mp (getElem_mem inside)
    obtain ⟨first, last, ends⟩ := mergedBlock_ends item stays
    obtain ⟨first', last', ends'⟩ := mergedBlock_ends item' others
    refine ends.order ends' ?_
    simpa using order
  rwa [pairwise_map] at ranges

theorem scannedBlocks_covered {scanned : Scanned} (member : scanned ∈ scannedBlocks text) :
    ∃ block ∈ scanBlocks text, block.start ≤ scanned.block.start ∧ scanned.block.stop ≤ block.stop := by
  obtain ⟨index, here⟩ := mem_iff_getElem?.mp member
  have result : ∀ place one kept, (scannedBlocks text)[place]? = some one →
      mergedBlock (merges text (scannedBlocks text)) (scannedBlocks text) (one, place) = some kept →
      ∃ block ∈ scanBlocks text, rangeOf block = rangeOf kept := by
    intro place one kept there stays
    have among : kept ∈ merged (merges text (scannedBlocks text)) (scannedBlocks text) :=
      mem_filterMap.mpr ⟨(one, place), mem_zipIdx_iff_getElem?.mpr there, stays⟩
    have range : rangeOf kept ∈ (scanBlocks text).map rangeOf := by
      rw [scanBlocks_ranges]
      exact mem_map_of_mem among
    exact mem_map.mp range
  by_cases captioned : ∃ merge ∈ merges text (scannedBlocks text), merge.captionIndex = index
  · obtain ⟨merge, chosen, rfl⟩ := captioned
    have table : ∃ table, (scannedBlocks text)[merge.tableIndex]? = some table ∧ table.block.type = .table := by
      rcases (merges_unambiguous chosen).neighbour with
        ⟨-, ⟨table, caption, there, -, type, -⟩, -⟩ | ⟨-, ⟨table, caption, there, -, type, -⟩, -⟩
      · exact ⟨table, there, type⟩
      · exact ⟨table, there, type⟩
    obtain ⟨table, there, type⟩ := table
    have stays : ∀ other ∈ merges text (scannedBlocks text), other.captionIndex ≠ merge.tableIndex := by
      intro other member same
      obtain ⟨caption, present, prose, -⟩ := (merges_unambiguous member).caption
      rw [same, there] at present
      cases present
      rw [type] at prose
      cases prose
    obtain ⟨kept, becomes, -, -, grows⟩ := mergedBlock_stays table stays merges_tables
    obtain ⟨block, among, same⟩ := result _ _ _ there becomes
    obtain ⟨start, stop⟩ := grows merge chosen rfl scanned here
    obtain ⟨starts, stops⟩ := Prod.mk.inj same
    exact ⟨block, among, by omega, by omega⟩
  · have stays : ∀ merge ∈ merges text (scannedBlocks text), merge.captionIndex ≠ index := by
      intro merge chosen same
      exact captioned ⟨merge, chosen, same⟩
    obtain ⟨kept, becomes, start, stop, -⟩ := mergedBlock_stays scanned stays merges_tables
    obtain ⟨block, among, same⟩ := result _ _ _ here becomes
    obtain ⟨starts, stops⟩ := Prod.mk.inj same
    exact ⟨block, among, by omega, by omega⟩

end

section

variable {text : Text}

theorem Chained.lies {char byte : Nat} {rest : List Line} (chained : Chained text char byte rest) :
    ∀ line ∈ rest, line.Lies text := by
  induction rest generalizing char byte with
  | nil => simp
  | cons line rest ih =>
    obtain ⟨-, -, lies, behind⟩ := chained
    intro other member
    rcases mem_cons.mp member with rfl | member
    · exact lies
    · exact ih behind other member

theorem char_between {first middle last before after : List Char} {char : Char} {byte : Nat}
    (split : first ++ (middle ++ last) = before ++ char :: after)
    (lower : (Utf8.encode first).length ≤ byte) (upper : byte < (Utf8.encode (first ++ middle)).length)
    (start : (Utf8.encode before).length ≤ byte) (stop : byte < (Utf8.encode (before ++ [char])).length) :
    char ∈ middle := by
  have grows : ∀ front back, (Utf8.encode front).length ≤ (Utf8.encode (front ++ back)).length := by
    intro front back
    rw [Utf8.encode_append, length_append]
    exact Nat.le_add_right _ _
  rcases append_eq_append_iff.mp split with ⟨gap, rfl, rest⟩ | ⟨gap, rfl, rest⟩
  · rcases append_eq_append_iff.mp rest with ⟨behind, rfl, -⟩ | ⟨inside, rfl, tail⟩
    · have longer := grows (first ++ middle) behind
      rw [append_assoc] at longer
      omega
    · cases inside with
      | nil =>
        rw [append_nil] at upper
        omega
      | cons next inside =>
        cases tail
        simp
  · cases gap with
    | nil =>
      cases middle with
      | nil =>
        rw [append_nil] at upper
        omega
      | cons next middle =>
        cases rest
        exact mem_cons_self
    | cons next gap =>
      cases rest
      have longer := grows (before ++ [char]) gap
      rw [append_assoc, singleton_append] at longer
      omega

theorem blank_space {before after : List Char} {char : Char} {byte : Nat} (blank : Blank (lines text) byte)
    (split : scalars text = before ++ char :: after) (start : (Utf8.encode before).length ≤ byte)
    (stop : byte < (Utf8.encode (before ++ [char])).length) : isSpace char.toNat = true := by
  obtain ⟨line, member, lower, upper, nothing⟩ := blank
  have lies := (lines_chained text).lies line member
  obtain ⟨whole, size⟩ := lies.starts.between lies.stops (Nat.le_of_lt lies.order)
  have inside : char ∈ scalars (slice text line.charStart line.charStop) := by
    refine char_between (whole.symm.trans split) ?_ ?_ start stop
    · rw [lies.starts.bytes] at lower
      exact lower
    · rw [Utf8.encode_append, length_append]
      rw [size, lies.starts.bytes] at upper
      exact upper
  obtain ⟨ending, shape, -, ends⟩ := lies.shape
  refine scalars_spaces ?_ char inside
  intro unit there
  rw [shape] at there
  rcases mem_append.mp there with body | behind
  · exact isSpace_of_trim nothing unit body
  · have lineEnd := ends unit behind
    simp only [isLineEnd, Bool.or_eq_true, beq_iff_eq] at lineEnd
    rcases lineEnd with rfl | rfl
    · rfl
    · rfl

theorem scanBlocks_covered {byte : Nat} (within : byte < (encode text).length) :
    (∃ block ∈ scanBlocks text, block.start ≤ byte ∧ byte < block.stop) ∨ Blank (lines text) byte := by
  rcases (scannedBlocks_laid text).cover (Nat.zero_le byte) within with ⟨range, member, lower, upper⟩ | blank
  · obtain ⟨scanned, among, rfl⟩ := mem_map.mp member
    obtain ⟨block, there, start, stop⟩ := scannedBlocks_covered among
    exact .inl ⟨block, there, Nat.le_trans start lower, Nat.lt_of_lt_of_le upper stop⟩
  · exact .inr blank

/-- The blocks of a text: numbered in order, apart, neither empty nor too long, cut between characters, and
    with every character in them that can be seen. -/
theorem scanBlocks_partition (text : Text) :
    (scanBlocks text).map (·.id) = List.range' 1 (scanBlocks text).length ∧
    ((scanBlocks text).Pairwise fun earlier later => earlier.stop ≤ later.start) ∧
    (∀ block ∈ scanBlocks text, block.start < block.stop ∧ block.stop - block.start ≤ maxBlockBytes ∧
      Boundary (scalars text) block.start ∧ Boundary (scalars text) block.stop) ∧
    (∀ byte < (encode text).length, (∀ block ∈ scanBlocks text, ¬(block.start ≤ byte ∧ byte < block.stop)) →
      ∃ line ∈ lines text, line.start ≤ byte ∧ byte < line.stop ∧ trim line.body = []) ∧
    ∀ before char after, scalars text = before ++ char :: after → isSpace char.toNat = false →
      ∀ byte, (Utf8.encode before).length ≤ byte → byte < (Utf8.encode (before ++ [char])).length →
        ∃ block ∈ scanBlocks text, block.start ≤ byte ∧ byte < block.stop := by
  refine ⟨scanBlocks_ids text, scanBlocks_order text, ?_, ?_, ?_⟩
  · intro block member
    obtain ⟨index, first, last, kept, ends, same⟩ := scanBlocks_ends member
    obtain ⟨starts, stops⟩ := Prod.mk.inj same
    have filled := ends.filled
    have size := ends.size
    obtain ⟨one, here, start⟩ := ends.start
    obtain ⟨other, there, stop⟩ := ends.stop
    have cuts := (scannedBlocks_parts text).cuts
    refine ⟨by omega, by omega, ?_, ?_⟩
    · rw [← starts, ← start]
      exact (cuts one (mem_of_getElem? here)).1
    · rw [← stops, ← stop]
      exact (cuts other (mem_of_getElem? there)).2.1
  · intro byte within outside
    rcases scanBlocks_covered within with ⟨block, member, inside⟩ | blank
    · exact absurd inside (outside block member)
    · exact blank
  · intro before char after split visible byte start stop
    have within : byte < (encode text).length := by
      rw [encode, split, append_cons, Utf8.encode_append, length_append]
      omega
    rcases scanBlocks_covered within with covered | blank
    · exact covered
    · rw [blank_space blank split start stop] at visible
      cases visible

end

end Blocks
