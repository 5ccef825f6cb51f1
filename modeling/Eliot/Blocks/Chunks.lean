import Eliot.Blocks.Tiling

namespace Blocks
open Text List
open Utf8 (Boundary continuation)
open Ranges (Laid)

section

variable {chars : List Char} {offset stop : Nat}

theorem backUp_le (bytes : Bytes) (stop : Nat) : backUp bytes stop ≤ stop := by
  induction stop with
  | zero => exact Nat.le_refl _
  | succ stop ih =>
    unfold backUp
    split
    · omega
    · omega

theorem backUp_boundary (within : stop ≤ (Utf8.encode chars).length) :
    Boundary chars (backUp (Utf8.encode chars) stop) ∧
      ∀ place, Boundary chars place → place ≤ stop → place ≤ backUp (Utf8.encode chars) stop := by
  induction stop with
  | zero => exact ⟨Utf8.boundary_zero chars, fun place _ bound => bound⟩
  | succ stop ih =>
    unfold backUp
    by_cases continues : continuation (Utf8.encode chars)[stop + 1]? = true
    · rw [if_pos continues]
      obtain ⟨boundary, largest⟩ := ih (by omega)
      refine ⟨boundary, ?_⟩
      intro place cut bound
      by_cases same : place = stop + 1
      · have starts := cut.start
        rw [same, continues] at starts
        cases starts
      · exact largest place cut (by omega)
    · rw [if_neg continues]
      exact ⟨Utf8.boundary_of_start within (by simpa using continues), fun place _ bound => bound⟩

theorem behindLast_cut (after : Nat) {test : Nat → Bool} (ascii : ∀ byte, test byte = true → byte < 0x80)
    (boundary : Boundary chars stop) :
    let point := behindLast test (Utf8.encode chars) after stop
    (after < point ∨ point = stop) ∧ point ≤ stop ∧ Boundary chars point := by
  unfold behindLast
  dsimp only
  split
  · rename_i point found
    have passed := find?_some found
    have member := mem_of_find?_eq_some found
    simp only [mem_reverse, mem_range] at member
    rw [Bool.and_eq_true, decide_eq_true_eq] at passed
    cases present : (Utf8.encode chars)[point]? with
    | none =>
      rw [present] at passed
      cases passed.2
    | some byte =>
      rw [present, Option.any_some] at passed
      exact ⟨.inl (by omega), by omega, (Utf8.boundary_ascii present (ascii byte passed.2)).2⟩
  · exact ⟨.inr rfl, Nat.le_refl _, boundary⟩

theorem sentence_ends {word : Text} (accepted : sentence.Accepts word) :
    ∃ unit, word.getLast? = some unit ∧ isSpace unit = true := by
  obtain ⟨mark, rest, rfl, -, accepted⟩ := accepted.seq_split
  obtain ⟨closing, gap, rfl, -, accepted⟩ := accepted.seq_split
  obtain ⟨filled, spaces⟩ := accepted.plus_one
  cases last : gap.getLast? with
  | none => exact absurd (getLast?_eq_none_iff.mp last) filled
  | some unit =>
    refine ⟨unit, ?_, spaces unit (mem_of_getLast? last)⟩
    rw [← append_assoc, getLast?_append_of_ne_nil _ filled, last]

theorem sentence_cut (candidate : Text) {last : Regex.Found Nat}
    (found : (sentence.matchAll candidate).getLast? = some last) :
    Whole (candidate.take last.stop) (candidate.drop last.stop) := by
  have member := mem_of_getLast? found
  obtain ⟨unit, ends, space⟩ := sentence_ends (sentence.scan_accepts 0 0 candidate last member)
  have token := (sentence.matchAll_located candidate).token_of_mem member
  have front : candidate.take last.stop = candidate.take last.start ++ last.token := by
    rw [Regex.Found.stop, take_add, token]
  have filled : last.token ≠ [] := by
    intro nothing
    rw [nothing] at ends
    cases ends
  rintro ⟨high, -⟩
  rw [front, getLast?_append_of_ne_nil _ filled, ends, Option.any_some] at high
  simp only [isHigh, Bool.and_eq_true, decide_eq_true_eq] at high
  simp only [isSpace, Bool.or_eq_true, Bool.and_eq_true, decide_eq_true_eq, beq_iff_eq] at space
  omega

theorem boundary_of_whole {cut : Nat} (start : Boundary chars offset) (limit : Boundary chars stop)
    (order : offset < stop) (positive : 0 < cut)
    (whole : Whole ((decode (slice (Utf8.encode chars) offset stop)).take cut)
      ((decode (slice (Utf8.encode chars) offset stop)).drop cut)) :
    let point := offset + (encode ((decode (slice (Utf8.encode chars) offset stop)).take cut)).length
    offset < point ∧ point ≤ stop ∧ Boundary chars point := by
  obtain ⟨before, inside, after, rfl, rfl, rfl, middle⟩ := start.between limit (Nat.le_of_lt order)
  have decoded : decode (slice (Utf8.encode (before ++ (inside ++ after))) (Utf8.encode before).length
      (Utf8.encode (before ++ inside)).length) = inside.flatMap units := by
    rw [slice, middle, decode, Utf8.decode_encode, Option.getD_some]
  rw [decoded] at whole ⊢
  have split := scalars_append whole
  rw [take_append_drop, scalars_units] at split
  have some : (inside.flatMap units).take cut ≠ [] := by
    intro nothing
    have empty : inside.flatMap units = [] := by
      rcases take_eq_nil_iff.mp nothing with nowhere | empty
      · omega
      · exact empty
    have gone := scalars_units inside
    rw [empty] at gone
    rw [← gone] at order
    simp [scalars, codePoints] at order
  have filled := encode_filled some
  have size : (Utf8.encode inside).length = (encode ((inside.flatMap units).take cut)).length +
      (encode ((inside.flatMap units).drop cut)).length := by
    conv_lhs => rw [split, Utf8.encode_append, length_append]
    rfl
  refine ⟨by omega, ?_, ?_⟩
  · rw [Utf8.encode_append, length_append, size]
    omega
  · refine ⟨before ++ scalars ((inside.flatMap units).take cut),
      scalars ((inside.flatMap units).drop cut) ++ after, ?_, ?_⟩
    · rw [append_assoc, ← append_assoc (scalars _), ← split]
    · rw [Utf8.encode_append, length_append]
      rfl

end

section

variable {chars : List Char} {offset : Nat}

theorem chunkStop_cut (type : BlockType) (start : Boundary chars offset)
    (before : offset < (Utf8.encode chars).length) :
    let stop := chunkStop type (Utf8.encode chars) offset
    offset < stop ∧ stop ≤ offset + maxBlockBytes ∧ Boundary chars stop := by
  have room : 1024 ≤ chunkBytes type ∧ chunkBytes type ≤ maxBlockBytes := by
    unfold chunkBytes maxBlockBytes
    split <;> omega
  obtain ⟨next, cut, above, near⟩ := start.next before
  have inside := cut.le_length
  have within : min (Utf8.encode chars).length (offset + chunkBytes type) ≤ (Utf8.encode chars).length :=
    Nat.min_le_left _ _
  obtain ⟨limit, largest⟩ := backUp_boundary within
  have reached := largest next cut (by omega)
  have short := backUp_le (Utf8.encode chars) (min (Utf8.encode chars).length (offset + chunkBytes type))
  unfold chunkStop
  generalize backUp (Utf8.encode chars) _ = stop at *
  dsimp only
  split_ifs with more prose long
  · cases found : (sentence.matchAll (decode (slice (Utf8.encode chars) offset stop))).getLast? with
    | none => simp [found] at long
    | some last =>
      rw [found, Option.map_some, Option.getD_some] at long
      have point := boundary_of_whole start limit (by omega) (by omega) (sentence_cut _ found)
      dsimp only at point
      rw [Option.map_some, Option.getD_some]
      refine ⟨point.1, by omega, point.2.2⟩
  · have ascii : ∀ byte : Nat, (byte == 32 || byte == 10) = true → byte < 0x80 := by
      intro byte gap
      simp only [Bool.or_eq_true, beq_iff_eq] at gap
      omega
    obtain ⟨after, bound, point⟩ := behindLast_cut (offset + 512) ascii limit
    exact ⟨by omega, by omega, point⟩
  · have ascii : ∀ byte : Nat, (byte == 10) = true → byte < 0x80 := by
      intro byte feed
      simp only [beq_iff_eq] at feed
      omega
    obtain ⟨after, bound, point⟩ := behindLast_cut offset ascii limit
    exact ⟨by omega, by omega, point⟩
  · exact ⟨by omega, by omega, limit⟩

theorem chunks_laid (type : BlockType) (start : Boundary chars offset) :
    Laid (fun _ => False) (Utf8.encode chars).length offset (chunks type (Utf8.encode chars) offset) ∧
      ∀ range ∈ chunks type (Utf8.encode chars) offset,
        Boundary chars range.1 ∧ Boundary chars range.2 ∧ range.2 ≤ range.1 + maxBlockBytes := by
  have within := start.le_length
  fun_induction chunks type (Utf8.encode chars) offset with
  | case1 offset before stop order ih =>
    obtain ⟨after, size, cut⟩ := chunkStop_cut type start before
    obtain ⟨laid, each⟩ := ih cut cut.le_length
    refine ⟨⟨Nat.le_refl _, after, by omega, laid⟩, ?_⟩
    intro range member
    rcases mem_cons.mp member with rfl | member
    · exact ⟨start, cut, size⟩
    · exact each range member
  | case2 offset before stop stuck => exact absurd (chunkStop_cut type start before).1 stuck
  | case3 offset done =>
    refine ⟨⟨within, ?_⟩, by simp⟩
    intro place after before
    omega

end

section

/-- What a call of `emit` adds. -/
structure Emitted (text : Text) (number : Nat) (emission : Emission) (added : List Scanned) : Prop where
  ids : ∀ place scanned, added[place]? = some scanned → scanned.block.id = number + place + 1
  types : ∀ scanned ∈ added, scanned.block.type = emission.type
  laid : Laid (fun _ => False) emission.last.stop emission.first.start
    (added.map fun scanned => (scanned.block.start, scanned.block.stop))
  cuts : ∀ scanned ∈ added, Boundary (scalars text) scanned.block.start ∧
    Boundary (scalars text) scanned.block.stop ∧ scanned.block.stop ≤ scanned.block.start + maxBlockBytes

def pieces (emission : Emission) (bytes : Bytes) (number characterOffset : Nat) : List (Nat × Nat) → List Scanned
  | [] => []
  | (offset, stop) :: rest =>
    let length := (decode (slice bytes offset stop)).length
    ⟨⟨number + 1, emission.type, emission.first.start + offset, emission.first.start + stop, emission.heading⟩,
      ⟨emission.first.charStart + characterOffset, emission.first.charStart + characterOffset + length⟩⟩ ::
      pieces emission bytes (number + 1) (characterOffset + length) rest

theorem foldl_emitChunk (emission : Emission) (bytes : Bytes) (ranges : List (Nat × Nat)) (emitted : List Scanned)
    (characterOffset : Nat) : (ranges.foldl (emitChunk emission bytes) (emitted, characterOffset)).1 =
      emitted ++ pieces emission bytes emitted.length characterOffset ranges := by
  induction ranges generalizing emitted characterOffset with
  | nil => exact (append_nil _).symm
  | cons range ranges ih =>
    obtain ⟨offset, stop⟩ := range
    rw [foldl_cons, emitChunk, ih, append_assoc, length_append]
    rfl

variable {text : Text} {emission : Emission} {bytes : Bytes} {ranges : List (Nat × Nat)}

theorem pieces_ranges (number characterOffset : Nat) :
    (pieces emission bytes number characterOffset ranges).map (fun scanned =>
      (scanned.block.start, scanned.block.stop)) =
      ranges.map fun range => (emission.first.start + range.1, emission.first.start + range.2) := by
  induction ranges generalizing number characterOffset with
  | nil => rfl
  | cons range ranges ih => exact congrArg (_ :: ·) (ih _ _)

theorem pieces_types (number characterOffset : Nat) :
    ∀ scanned ∈ pieces emission bytes number characterOffset ranges, scanned.block.type = emission.type := by
  induction ranges generalizing number characterOffset with
  | nil => simp [pieces]
  | cons range ranges ih =>
    intro scanned member
    rcases mem_cons.mp member with rfl | member
    · rfl
    · exact ih _ _ scanned member

theorem pieces_ids (number characterOffset place : Nat) {scanned : Scanned}
    (found : (pieces emission bytes number characterOffset ranges)[place]? = some scanned) :
    scanned.block.id = number + place + 1 := by
  induction ranges generalizing number characterOffset place with
  | nil => cases found
  | cons range ranges ih =>
    cases place with
    | zero =>
      cases found
      rfl
    | succ place =>
      have rest := ih (number + 1) _ place found
      omega

theorem emit_added (emitted : List Scanned) (lies : emission.Lies text) :
    ∃ added, emit text emitted emission = emitted ++ added ∧ Emitted text emitted.length emission added := by
  have filled := lies.filled
  unfold emit
  dsimp only
  by_cases small : emission.last.stop - emission.first.start ≤
      (if emission.type = .paragraph then 1536 else maxBlockBytes)
  · rw [if_pos small]
    have nowhere : ∀ stop place : Nat, stop ≤ place → place < stop → False := by
      intro stop place after before
      omega
    refine ⟨_, rfl, ⟨?_, by simp, ⟨Nat.le_refl _, filled, nowhere _, Nat.le_refl _, nowhere _⟩, ?_⟩⟩
    · intro place scanned found
      cases place with
      | zero =>
        cases found
        rfl
      | succ place => cases found
    · intro scanned member
      rw [mem_singleton.mp member]
      refine ⟨lies.starts.boundary, lies.stops.boundary, ?_⟩
      dsimp only
      unfold maxBlockBytes at *
      split at small <;> omega
  · rw [if_neg small]
    obtain ⟨whole, size⟩ := lies.starts.between lies.stops (Nat.le_of_lt lies.order)
    obtain ⟨laid, cuts⟩ := chunks_laid emission.type (Utf8.boundary_zero
      (scalars (slice text emission.first.charStart emission.last.charStop)))
    refine ⟨_, foldl_emitChunk _ _ _ _ _, fun place _ => pieces_ids _ _ place, pieces_types _ _, ?_, ?_⟩
    · have moved := laid.shift emission.first.start
      rw [pieces_ranges, size]
      exact moved
    · intro scanned member
      have range : (scanned.block.start, scanned.block.stop) ∈ (pieces _ _ _ _ _).map fun scanned =>
          (scanned.block.start, scanned.block.stop) := mem_map_of_mem member
      rw [pieces_ranges] at range
      obtain ⟨chunk, among, same⟩ := mem_map.mp range
      obtain ⟨first, last, short⟩ := cuts chunk among
      obtain ⟨starts, stops⟩ := Prod.mk.inj same
      rw [whole, ← starts, ← stops, lies.starts.bytes]
      exact ⟨first.inside, last.inside, by omega⟩

end

end Blocks
