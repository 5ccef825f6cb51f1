import Mathlib.Algebra.GroupWithZero.Nat
import Mathlib.Data.List.GetD
import Mathlib.Data.List.OfFn

namespace Sha256

abbrev Word := BitVec 32
abbrev State := Vector Word 8
abbrev Block := Vector UInt8 64

section source

def initialState : State :=
  #v[0x6a09e667, 0xbb67ae85, 0x3c6ef372, 0xa54ff53a, 0x510e527f, 0x9b05688c, 0x1f83d9ab, 0x5be0cd19]

def roundConstants : Vector Word 64 :=
  #v[0x428a2f98, 0x71374491, 0xb5c0fbcf, 0xe9b5dba5, 0x3956c25b, 0x59f111f1, 0x923f82a4, 0xab1c5ed5,
    0xd807aa98, 0x12835b01, 0x243185be, 0x550c7dc3, 0x72be5d74, 0x80deb1fe, 0x9bdc06a7, 0xc19bf174,
    0xe49b69c1, 0xefbe4786, 0x0fc19dc6, 0x240ca1cc, 0x2de92c6f, 0x4a7484aa, 0x5cb0a9dc, 0x76f988da,
    0x983e5152, 0xa831c66d, 0xb00327c8, 0xbf597fc7, 0xc6e00bf3, 0xd5a79147, 0x06ca6351, 0x14292967,
    0x27b70a85, 0x2e1b2138, 0x4d2c6dfc, 0x53380d13, 0x650a7354, 0x766a0abb, 0x81c2c92e, 0x92722c85,
    0xa2bfe8a1, 0xa81a664b, 0xc24b8b70, 0xc76c51a3, 0xd192e819, 0xd6990624, 0xf40e3585, 0x106aa070,
    0x19a4c116, 0x1e376c08, 0x2748774c, 0x34b0bcb5, 0x391c0cb3, 0x4ed8aa4a, 0x5b9cca4f, 0x682e6ff3,
    0x748f82ee, 0x78a5636f, 0x84c87814, 0x8cc70208, 0x90befffa, 0xa4506ceb, 0xbef9a3f7, 0xc67178f2]

theorem chunk_within {size length : Nat} (chunk : Fin (length / size)) (place : Fin size) :
    chunk * size + place < length := by
  have last : (chunk.val + 1) * size ≤ length / size * size := Nat.mul_le_mul_right size chunk.isLt
  have whole := Nat.div_mul_le_self length size
  have inside := place.isLt
  rw [Nat.add_mul] at last
  omega

def asChunks {Item : Type} (size : Nat) (input : List Item) : List (Vector Item size) × List Item :=
  (List.ofFn fun chunk : Fin (input.length / size) =>
      Vector.ofFn fun place : Fin size => input.get ⟨chunk * size + place, chunk_within chunk place⟩,
    input.drop (input.length / size * size))

/-- `buffer[offset..offset + bytes.len()].copy_from_slice(bytes)` -/
def copyFromSlice {size : Nat} (buffer : Vector UInt8 size) (offset : Nat) (bytes : List UInt8) : Vector UInt8 size :=
  Vector.ofFn fun place =>
    if offset ≤ place.val then bytes.getD (place.val - offset) buffer[place] else buffer[place]

def toBeBytes (count number : Nat) : List UInt8 :=
  List.ofFn fun place : Fin count => UInt8.ofNat (number / 256 ^ (count - 1 - place))

def fromBeBytes (bytes : Vector UInt8 4) : Word :=
  .ofNat 32 (bytes.toList.foldl (fun number byte => number * 256 + byte.toNat) 0)

def schedule (block : Block) : Vector Word 64 :=
  let words := (asChunks 4 block.toList).1.map fromBeBytes
  let start : Vector Word 64 := Vector.ofFn fun index => words.getD index 0
  (List.range' 16 48).foldl (fun schedule index =>
    let s0 := schedule[index - 15]!.rotateRight 7 ^^^ schedule[index - 15]!.rotateRight 18 ^^^
      (schedule[index - 15]! >>> 3)
    let s1 := schedule[index - 2]!.rotateRight 17 ^^^ schedule[index - 2]!.rotateRight 19 ^^^
      (schedule[index - 2]! >>> 10)
    schedule.set! index (schedule[index - 16]! + s0 + schedule[index - 7]! + s1)) start

structure Rounds where
  a : Word
  b : Word
  c : Word
  d : Word
  e : Word
  f : Word
  g : Word
  h : Word

def Rounds.step (constant scheduled : Word) (rounds : Rounds) : Rounds :=
  let ⟨a, b, c, d, e, f, g, h⟩ := rounds
  let sum1 := e.rotateRight 6 ^^^ e.rotateRight 11 ^^^ e.rotateRight 25
  let choose := (e &&& f) ^^^ (~~~e &&& g)
  let temporary1 := h + sum1 + choose + constant + scheduled
  let sum0 := a.rotateRight 2 ^^^ a.rotateRight 13 ^^^ a.rotateRight 22
  let majority := (a &&& b) ^^^ (a &&& c) ^^^ (b &&& c)
  let temporary2 := sum0 + majority
  ⟨temporary1 + temporary2, a, b, c, d + temporary1, e, f, g⟩

def compress (state : State) (block : Block) : State :=
  let scheduled := schedule block
  let rounds := (List.finRange 64).foldl (fun rounds index =>
      Rounds.step roundConstants[index] scheduled[index] rounds)
    ⟨state[0], state[1], state[2], state[3], state[4], state[5], state[6], state[7]⟩
  #v[state[0] + rounds.a, state[1] + rounds.b, state[2] + rounds.c, state[3] + rounds.d, state[4] + rounds.e,
    state[5] + rounds.f, state[6] + rounds.g, state[7] + rounds.h]

def digestOf (state : State) : Vector UInt8 32 :=
  Vector.ofFn fun place => (toBeBytes 4 (state[place.val / 4]!).toNat).getD (place % 4) 0

def lengthOffset (remainder : List UInt8) : Nat := if remainder.length < 56 then 56 else 120

def tail (length : Nat) (remainder : List UInt8) : Vector UInt8 128 :=
  let bitLength := BitVec.ofNat 64 length * 8
  let tail := copyFromSlice (Vector.replicate 128 0) 0 remainder
  let tail := tail.set! remainder.length 0x80
  copyFromSlice tail (lengthOffset remainder) (toBeBytes 8 bitLength.toNat)

def firstBlock (tail : Vector UInt8 128) : Block := Vector.ofFn fun place => tail[place]

def secondBlock (tail : Vector UInt8 128) : Block := Vector.ofFn fun place => tail[64 + place.val]

def sha256 (input : List UInt8) : Vector UInt8 32 :=
  let (blocks, remainder) := asChunks 64 input
  let state := blocks.foldl compress initialState
  let tail := tail input.length remainder
  let state := compress state (firstBlock tail)
  if lengthOffset remainder = 120 then digestOf (compress state (secondBlock tail))
  else digestOf state

end source

section padding

def zeros (length : Nat) : Nat := (119 - length % 64) % 64

/-- The padded message: a mark, zeros up to the last eight bytes of a block, and the length in bits. -/
def padded (input : List UInt8) : List UInt8 :=
  input ++ 0x80 :: (List.replicate (zeros input.length) 0 ++ toBeBytes 8 (input.length * 8 % 2 ^ 64))

theorem padded_length (input : List UInt8) : (padded input).length % 64 = 0 := by
  simp only [padded, toBeBytes, List.length_append, List.length_cons, List.length_replicate, List.length_ofFn, zeros]
  omega

theorem asChunks_flatten {Item : Type} (size : Nat) (input : List Item) :
    (asChunks size input).1.flatMap (·.toList) ++ (asChunks size input).2 = input := by
  have chunks : (asChunks size input).1.flatMap (·.toList) = input.take (input.length / size * size) := by
    have onto := Nat.div_mul_le_self input.length size
    have whole := List.ofFn_mul (m := input.length / size) (n := size) fun place =>
      input.get ⟨place, Nat.lt_of_lt_of_le place.isLt onto⟩
    have taken : List.ofFn (fun place : Fin (input.length / size * size) =>
        input.get ⟨place, Nat.lt_of_lt_of_le place.isLt onto⟩) = input.take (input.length / size * size) := by
      apply List.ext_getElem
      · rw [List.length_ofFn, List.length_take]
        omega
      · intro place before after
        rw [List.getElem_ofFn, List.getElem_take]
        rfl
    rw [← taken, whole, asChunks, List.flatMap_def, List.map_ofFn]
    congr 2
    funext chunk
    exact Vector.toList_ofFn
  rw [chunks, asChunks, List.take_append_drop]

theorem remainder_length (input : List UInt8) : (asChunks 64 input).2.length = input.length % 64 := by
  rw [asChunks, List.length_drop]
  omega

theorem getElem_copy {size : Nat} (buffer : Vector UInt8 size) (offset : Nat) (bytes : List UInt8) {place : Nat}
    (within : place < size) : (copyFromSlice buffer offset bytes)[place] =
      if offset ≤ place then bytes.getD (place - offset) buffer[place] else buffer[place] := by
  rw [copyFromSlice, Vector.getElem_ofFn]
  rfl

theorem copy_toList {size : Nat} (buffer : Vector UInt8 size) {offset : Nat} {bytes : List UInt8}
    (fits : offset + bytes.length ≤ size) : (copyFromSlice buffer offset bytes).toList =
      buffer.toList.take offset ++ (bytes ++ buffer.toList.drop (offset + bytes.length)) := by
  apply List.ext_getElem
  · simp only [Vector.length_toList, List.length_append, List.length_take, List.length_drop]
    omega
  · intro place before after
    have within : place < size := by rwa [Vector.length_toList] at before
    have front : (buffer.toList.take offset).length = offset := by
      rw [List.length_take, Vector.length_toList]
      omega
    rw [Vector.getElem_toList, getElem_copy _ _ _ within]
    by_cases early : place < offset
    · rw [if_neg (Nat.not_le.mpr early), List.getElem_append_left (by omega), List.getElem_take, Vector.getElem_toList]
    · rw [if_pos (Nat.not_lt.mp early), List.getElem_append_right (by omega)]
      by_cases inside : place - offset < bytes.length
      · rw [List.getElem_append_left (by omega), List.getD_eq_getElem _ _ inside]
        simp only [front]
      · rw [List.getElem_append_right (by omega), List.getElem_drop, Vector.getElem_toList,
          List.getD_eq_default _ _ (Nat.not_lt.mp inside)]
        simp only [front]
        congr 1
        omega

section marked
variable {Item : Type} (front : List Item) (mark zero : Item) {count all : Nat}

theorem take_marked (within : count ≤ all) :
    (front ++ mark :: List.replicate all zero).take (front.length + 1 + count) =
      front ++ mark :: List.replicate count zero := by
  rw [Nat.add_assoc, List.take_length_add_append, Nat.add_comm 1, List.take_succ_cons, List.take_replicate,
    Nat.min_eq_left within]

theorem drop_marked :
    (front ++ mark :: List.replicate all zero).drop (front.length + 1 + count) = List.replicate (all - count) zero := by
  rw [Nat.add_assoc, List.drop_length_add_append, Nat.add_comm 1, List.drop_succ_cons, List.drop_replicate]

end marked

theorem tail_parts {length : Nat} {remainder : List UInt8} (short : remainder.length < 64) :
    (tail length remainder).toList =
      remainder ++ (0x80 :: (List.replicate (zeros remainder.length) 0 ++ (toBeBytes 8 (length * 8 % 2 ^ 64) ++
        List.replicate (120 - lengthOffset remainder) 0))) := by
  have bits : (BitVec.ofNat 64 length * 8).toNat = length * 8 % 2 ^ 64 := by
    rw [BitVec.toNat_mul, BitVec.toNat_ofNat]
    exact Nat.mod_mul_mod _ _ _
  have offset : lengthOffset remainder = remainder.length + 1 + zeros remainder.length ∧
      lengthOffset remainder ≤ 120 := by
    unfold lengthOffset zeros
    split <;> omega
  have eight : (toBeBytes 8 (length * 8 % 2 ^ 64)).length = 8 := by rw [toBeBytes, List.length_ofFn]
  have copied : (copyFromSlice (Vector.replicate 128 0) 0 remainder).toList =
      remainder ++ List.replicate (128 - remainder.length) 0 := by
    rw [copy_toList _ (by omega), Vector.toList_replicate, List.drop_replicate]
    simp
  have marked : ((copyFromSlice (Vector.replicate 128 0) 0 remainder).set! remainder.length 0x80).toList =
      remainder ++ (0x80 :: List.replicate (127 - remainder.length) 0) := by
    have more : 128 - remainder.length = 127 - remainder.length + 1 := by omega
    rw [Vector.toList_set!, copied, more, List.replicate_succ, List.set_append_right _ _ (Nat.le_refl _),
      Nat.sub_self, List.set_cons_zero]
  have written : (tail length remainder).toList =
      (copyFromSlice ((copyFromSlice (Vector.replicate 128 0) 0 remainder).set! remainder.length 0x80)
        (lengthOffset remainder) (toBeBytes 8 (length * 8 % 2 ^ 64))).toList := by
    rw [← bits]
    rfl
  have last : 127 - remainder.length - (zeros remainder.length + 8) = 120 - lengthOffset remainder := by omega
  have onto : lengthOffset remainder + 8 = remainder.length + 1 + (zeros remainder.length + 8) := by omega
  rw [written, copy_toList _ (by omega), marked, eight, onto, drop_marked, last, offset.1,
    take_marked _ _ _ (by omega)]
  simp

theorem firstBlock_toList (tail : Vector UInt8 128) : (firstBlock tail).toList = tail.toList.take 64 := by
  rw [firstBlock, Vector.toList_ofFn]
  apply List.ext_getElem
  · rw [List.length_ofFn, List.length_take, Vector.length_toList]
    rfl
  · intro place before after
    rw [List.getElem_ofFn, List.getElem_take, Vector.getElem_toList]
    rfl

theorem secondBlock_toList (tail : Vector UInt8 128) : (secondBlock tail).toList = tail.toList.drop 64 := by
  rw [secondBlock, Vector.toList_ofFn]
  apply List.ext_getElem
  · rw [List.length_ofFn, List.length_drop, Vector.length_toList]
  · intro place before after
    rw [List.getElem_ofFn, List.getElem_drop, Vector.getElem_toList]

def tailBlocks (length : Nat) (remainder : List UInt8) : List Block :=
  firstBlock (tail length remainder) ::
    if lengthOffset remainder = 120 then [secondBlock (tail length remainder)] else []

theorem tailBlocks_flatten {length : Nat} {remainder : List UInt8} (short : remainder.length < 64) :
    (tailBlocks length remainder).flatMap (·.toList) = remainder ++ (0x80 ::
      (List.replicate (zeros remainder.length) 0 ++ toBeBytes 8 (length * 8 % 2 ^ 64))) := by
  have parts := @tail_parts length remainder short
  have eight : (toBeBytes 8 (length * 8 % 2 ^ 64)).length = 8 := by rw [toBeBytes, List.length_ofFn]
  by_cases two : lengthOffset remainder = 120
  · rw [tailBlocks, if_pos two, List.flatMap_cons, List.flatMap_cons, List.flatMap_nil, List.append_nil,
      firstBlock_toList, secondBlock_toList, List.take_append_drop, parts, two]
    simp
  · have low : remainder.length < 56 := by
      by_contra high
      exact two (if_neg high)
    have one : lengthOffset remainder = 56 := if_pos low
    have whole : 64 = (remainder ++ (0x80 :: (List.replicate (zeros remainder.length) 0 ++
        toBeBytes 8 (length * 8 % 2 ^ 64)))).length := by
      simp only [List.length_append, List.length_cons, List.length_replicate, eight, zeros]
      omega
    rw [tailBlocks, if_neg two, List.flatMap_cons, List.flatMap_nil, List.append_nil, firstBlock_toList, parts]
    simp only [← List.cons_append, ← List.append_assoc] at whole ⊢
    exact List.take_left' whole.symm

/-- The digest is the fold of the compression function along the blocks of the padded message. -/
theorem sha256_padded (input : List UInt8) : (padded input).length % 64 = 0 ∧
    ∃ blocks : List Block, blocks.flatMap (·.toList) = padded input ∧
      sha256 input = digestOf (blocks.foldl compress initialState) := by
  have whole := asChunks_flatten 64 input
  have length := remainder_length input
  have folded : sha256 input = digestOf (((asChunks 64 input).1 ++
      tailBlocks input.length (asChunks 64 input).2).foldl compress initialState) := by
    rw [List.foldl_append, tailBlocks, List.foldl_cons]
    by_cases two : lengthOffset (asChunks 64 input).2 = 120
    · rw [if_pos two]
      exact if_pos two
    · rw [if_neg two]
      exact if_neg two
  have same : zeros input.length = zeros (asChunks 64 input).2.length := by
    unfold zeros
    omega
  refine ⟨padded_length input, _, ?_, folded⟩
  rw [List.flatMap_append, tailBlocks_flatten (by omega), ← List.append_assoc, whole, padded, same]

example : sha256 [97, 98, 99] =
    #v[0xba, 0x78, 0x16, 0xbf, 0x8f, 0x1, 0xcf, 0xea, 0x41, 0x41, 0x40, 0xde, 0x5d, 0xae, 0x22, 0x23,
      0xb0, 0x3, 0x61, 0xa3, 0x96, 0x17, 0x7a, 0x9c, 0xb4, 0x10, 0xff, 0x61, 0xf2, 0x0, 0x15, 0xad] := by decide +kernel

end padding

end Sha256
