import Eliot.Collections.Insertion
import Mathlib.Order.Lattice

namespace Collections

open List Insertion

section
variable {Entry Key Rank : Type} [LinearOrder Rank] (key : Entry → Key) (rank : Entry → Rank)

structure Newest (delivered result : List Entry) : Prop where
  distinct : (result.map key).Nodup
  listed : ∀ entry ∈ result, entry ∈ delivered
  covers : ∀ entry ∈ delivered, ∃ other ∈ result, key other = key entry ∧ rank entry ≤ rank other

variable {key rank} {delivered others result results : List Entry}

theorem Newest.nil : Newest key rank [] [] :=
  ⟨nodup_nil, fun _ none => (nomatch none), fun _ none => (nomatch none)⟩

theorem Newest.highest (newest : Newest key rank delivered result) {entry other : Entry} (chosen : entry ∈ result)
    (there : other ∈ delivered) (same : key other = key entry) : rank other ≤ rank entry := by
  obtain ⟨cover, member, own, above⟩ := newest.covers other there
  have equal := inj_on_of_nodup_map newest.distinct member chosen (own.trans same)
  rwa [equal] at above

theorem Newest.perm (newest : Newest key rank delivered result) (moved : results.Perm result) :
    Newest key rank delivered results := by
  refine ⟨(moved.map key).nodup_iff.mpr newest.distinct, fun entry member => ?_, fun entry member => ?_⟩
  · exact newest.listed entry (moved.mem_iff.mp member)
  · obtain ⟨other, chosen, same, above⟩ := newest.covers entry member
    exact ⟨other, moved.mem_iff.mpr chosen, same, above⟩

theorem Newest.agree {Shown : Type} {shown : Entry → Shown} (newest : Newest key rank delivered result)
    (another : Newest key rank others results) (same : ∀ entry, entry ∈ delivered ↔ entry ∈ others)
    (determined : ∀ first ∈ delivered, ∀ second ∈ delivered, key first = key second → rank first = rank second →
      shown first = shown second) : ∀ value, value ∈ result.map shown → value ∈ results.map shown := by
  intro value listed
  obtain ⟨entry, chosen, rfl⟩ := mem_map.mp listed
  have there := newest.listed entry chosen
  obtain ⟨other, picked, keyed, above⟩ := another.covers entry ((same entry).mp there)
  have back := (same other).mpr (another.listed other picked)
  have below := newest.highest chosen back keyed
  have equal := determined other back entry there keyed (le_antisymm below above)
  exact equal ▸ mem_map_of_mem picked

end

section
variable {Entry Key Rank : Type} [LinearOrder Rank] [DecidableEq Key] {key : Entry → Key} {rank : Entry → Rank}

structure Keyed (key : Entry → Key) (entries : List (Key × Entry)) : Prop where
  distinct : (entries.map Prod.fst).Nodup
  own : ∀ entry ∈ entries, key entry.2 = entry.1

variable {entries : List (Key × Entry)} {delivered : List Entry}

omit [DecidableEq Key] in
theorem Keyed.keys (keyed : Keyed key entries) : (entries.map Prod.snd).map key = entries.map Prod.fst := by
  rw [map_map]
  exact map_congr_left keyed.own

theorem Keyed.mem_values (keyed : Keyed key entries) {entry : Entry} :
    entry ∈ entries.map Prod.snd ↔ Insertion.get (key entry) entries = some entry := by
  rw [← mem_iff_get keyed.distinct, mem_map]
  constructor
  · rintro ⟨⟨name, found⟩, member, rfl⟩
    have own : key found = name := keyed.own _ member
    exact own ▸ member
  · intro member
    exact ⟨_, member, rfl⟩

theorem Keyed.put (keyed : Keyed key entries) (entry : Entry) : Keyed key
    (Insertion.put (key entry) entry entries) := by
  have distinct : ((Insertion.put (key entry) entry entries).map Prod.fst).Nodup := by
    rw [keys_put]
    exact nodup_add keyed.distinct
  refine ⟨distinct, fun ⟨name, found⟩ member => ?_⟩
  have got := (mem_iff_get distinct).mp member
  rw [get_put] at got
  split at got
  · rename_i same
    rw [← Option.some.inj got, same]
  · exact keyed.own _ ((mem_iff_get keyed.distinct).mpr got)

theorem Keyed.index (values : List Entry) : Keyed key (Insertion.index key values) := by
  have gather (entries : List (Key × Entry)) (keyed : Keyed key entries) :
      Keyed key (values.foldl (fun entries value => Insertion.put (key value) value entries) entries) := by
    induction values generalizing entries with
    | nil => exact keyed
    | cons value values ih => exact ih _ (keyed.put value)
  exact gather [] ⟨nodup_nil, fun _ none => nomatch none⟩

theorem index_values {values : List Entry} (distinct : (values.map key).Nodup) {entry : Entry} :
    entry ∈ (Insertion.index key values).map Prod.snd ↔ entry ∈ values := by
  have apart : ∀ first ∈ values, ∀ second ∈ values, key first = key second → first = second :=
    fun first listed second there same => inj_on_of_nodup_map distinct listed there same
  rw [(Keyed.index values).mem_values, get_index apart]
  exact and_iff_left rfl

/-- `take` reads one entry into a map unless one of a higher rank is there. -/
def Takes (key : Entry → Key) (rank : Entry → Rank) (take : List (Key × Entry) → Entry → List (Key × Entry)) :
    Prop :=
  ∀ entries entry, Keyed key entries →
    take entries entry = Insertion.put (key entry) entry entries ∧
      (∀ current, Insertion.get (key entry) entries = some current → rank current ≤ rank entry) ∨
    Keyed key (take entries entry) ∧
      (∀ name, Insertion.get name (take entries entry) = Insertion.get name entries) ∧
      ∃ current, Insertion.get (key entry) entries = some current ∧ rank entry ≤ rank current

variable {take : List (Key × Entry) → Entry → List (Key × Entry)}

theorem Takes.step (takes : Takes key rank take) (entry : Entry) (keyed : Keyed key entries)
    (newest : Newest key rank delivered (entries.map Prod.snd)) :
    Keyed key (take entries entry) ∧
      Newest key rank (delivered ++ [entry]) ((take entries entry).map Prod.snd) := by
  have taken := takes entries entry keyed
  generalize take entries entry = after at taken ⊢
  rcases taken with ⟨rfl, above⟩ | ⟨whole, same, current, found, below⟩
  · have put := keyed.put entry
    refine ⟨put, ?_, fun other chosen => ?_, fun other there => ?_⟩
    · rw [put.keys]
      exact put.distinct
    · have got := put.mem_values.mp chosen
      rw [get_put] at got
      split at got
      · rw [← Option.some.inj got]
        exact mem_append_right _ (mem_singleton_self _)
      · exact mem_append_left _ (newest.listed other (keyed.mem_values.mpr got))
    · have own : entry ∈ (Insertion.put (key entry) entry entries).map Prod.snd := by
        rw [put.mem_values, get_put, if_pos rfl]
      rcases mem_append.mp there with there | there
      · obtain ⟨cover, chosen, keyedCover, reached⟩ := newest.covers other there
        have got := keyed.mem_values.mp chosen
        by_cases replaced : key cover = key entry
        · rw [replaced] at got
          exact ⟨entry, own, replaced.symm.trans keyedCover, reached.trans (above cover got)⟩
        · refine ⟨cover, ?_, keyedCover, reached⟩
          rw [put.mem_values, get_put, if_neg replaced]
          exact got
      · rw [mem_singleton.mp there]
        exact ⟨entry, own, rfl, le_refl _⟩
  · have values : ∀ other, other ∈ after.map Prod.snd ↔ other ∈ entries.map Prod.snd := fun other => by
      rw [whole.mem_values, keyed.mem_values, same]
    refine ⟨whole, ?_, fun other chosen => ?_, fun other there => ?_⟩
    · rw [whole.keys]
      exact whole.distinct
    · exact mem_append_left _ (newest.listed other ((values other).mp chosen))
    · rcases mem_append.mp there with there | there
      · obtain ⟨cover, chosen, keyedCover, reached⟩ := newest.covers other there
        exact ⟨cover, (values cover).mpr chosen, keyedCover, reached⟩
      · rw [mem_singleton.mp there]
        have listed := (mem_iff_get keyed.distinct).mpr found
        exact ⟨current, (values current).mpr (mem_map_of_mem listed), keyed.own _ listed, below⟩

theorem Takes.run (takes : Takes key rank take) (incoming : List Entry) (keyed : Keyed key entries)
    (newest : Newest key rank delivered (entries.map Prod.snd)) :
    Newest key rank (delivered ++ incoming) ((incoming.foldl take entries).map Prod.snd) := by
  induction incoming generalizing delivered entries with
  | nil => simpa using newest
  | cons entry incoming ih =>
    obtain ⟨whole, step⟩ := takes.step entry keyed newest
    have rest := ih whole step
    rwa [append_assoc, singleton_append] at rest

theorem Takes.merge (takes : Takes key rank take) {current : List Entry} (incoming : List Entry)
    (newest : Newest key rank delivered current) :
    Newest key rank (delivered ++ incoming) ((incoming.foldl take (Insertion.index key current)).map Prod.snd) := by
  have keyed : Keyed key (Insertion.index key current) := Keyed.index current
  refine takes.run incoming keyed (newest.perm ?_)
  have distinct : ((Insertion.index key current).map Prod.snd).Nodup :=
    List.Nodup.of_map key (keyed.keys ▸ keyed.distinct)
  rw [perm_ext_iff_of_nodup distinct (List.Nodup.of_map _ newest.distinct)]
  exact fun _ => index_values newest.distinct

theorem Takes.batches (takes : Takes key rank take) {merge : List Entry → List Entry → List Entry}
    (merges : ∀ current incoming,
      (merge current incoming).Perm ((incoming.foldl take (Insertion.index key current)).map Prod.snd))
    (batches : List (List Entry)) : Newest key rank batches.flatten (batches.foldl merge []) := by
  have gather (delivered current : List Entry) (newest : Newest key rank delivered current) :
      Newest key rank (delivered ++ batches.flatten) (batches.foldl merge current) := by
    induction batches generalizing delivered current with
    | nil => simpa using newest
    | cons incoming batches ih =>
      have step := (takes.merge incoming newest).perm (merges current incoming)
      have rest := ih (delivered ++ incoming) (merge current incoming) step
      rwa [append_assoc] at rest
  exact gather [] [] Newest.nil

end

end Collections
