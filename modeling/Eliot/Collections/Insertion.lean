import Mathlib.Data.List.Lex
import Mathlib.Data.List.Sort

namespace Insertion

open List

section
variable {Value : Type} [DecidableEq Value] {values seen : List Value} {value : Value}

def add (seen : List Value) (value : Value) : List Value :=
  if value ∈ seen then seen else seen ++ [value]

/-- `[...new Set(values)]` -/
def unique (values : List Value) : List Value := values.foldl add []

theorem mem_add {other : Value} : other ∈ add seen value ↔ other ∈ seen ∨ other = value := by
  unfold add
  split
  · rename_i known
    constructor
    · exact .inl
    · rintro (listed | rfl)
      · exact listed
      · exact known
  · simp

theorem nodup_add (distinct : seen.Nodup) : (add seen value).Nodup := by
  unfold add
  split
  · exact distinct
  · rename_i fresh
    rw [nodup_append]
    refine ⟨distinct, by simp, ?_⟩
    intro one listed other only same
    rw [mem_singleton.mp only] at same
    exact fresh (same ▸ listed)

theorem mem_unique : value ∈ unique values ↔ value ∈ values := by
  have gather (seen : List Value) : value ∈ values.foldl add seen ↔ value ∈ seen ∨ value ∈ values := by
    induction values generalizing seen with
    | nil => simp
    | cons first values ih => rw [foldl_cons, ih, mem_add, mem_cons, or_assoc]
  simpa [unique] using gather []

theorem nodup_unique (values : List Value) : (unique values).Nodup := by
  have gather (seen : List Value) (distinct : seen.Nodup) : (values.foldl add seen).Nodup := by
    induction values generalizing seen with
    | nil => exact distinct
    | cons first values ih => exact ih _ (nodup_add distinct)
  exact gather [] nodup_nil

theorem unique_perm {others : List Value} (same : ∀ value, value ∈ values ↔ value ∈ others) :
    (unique values).Perm (unique others) := by
  rw [perm_ext_iff_of_nodup (nodup_unique values) (nodup_unique others)]
  intro value
  rw [mem_unique, mem_unique, same]

end

section
variable {Key Value : Type} [DecidableEq Key] {entries : List (Key × Value)} {key : Key}
  {value : Value}

/-- `map.set(key, value)`: an entry keeps the place it was given first. -/
def put (key : Key) (value : Value) : List (Key × Value) → List (Key × Value)
  | [] => [(key, value)]
  | entry :: entries =>
    if entry.1 = key then (key, value) :: entries else entry :: put key value entries

/-- `map.get(key)` -/
def get (key : Key) (entries : List (Key × Value)) : Option Value :=
  (entries.find? (·.1 = key)).map Prod.snd

theorem keys_put :
    (put key value entries).map Prod.fst = add (entries.map Prod.fst) key := by
  induction entries with
  | nil => rfl
  | cons entry entries ih =>
    unfold put
    split
    · rename_i same
      subst same
      simp [add]
    · rename_i other
      rw [map_cons, ih]
      unfold add
      by_cases known : key ∈ entries.map Prod.fst
      · have listed : key ∈ (entry :: entries).map Prod.fst := mem_cons_of_mem _ known
        rw [if_pos known, if_pos listed, map_cons]
      · have absent : key ∉ (entry :: entries).map Prod.fst := by
          rw [map_cons, mem_cons, not_or]
          exact ⟨Ne.symm other, known⟩
        rw [if_neg known, if_neg absent, map_cons, cons_append]

theorem get_put {wanted : Key} :
    get wanted (put key value entries) = if wanted = key then some value else get wanted entries := by
  induction entries with
  | nil =>
    by_cases same : key = wanted
    · simp [get, put, same]
    · simp [get, put, same, Ne.symm same]
  | cons entry entries ih =>
    unfold put
    split
    · rename_i found
      by_cases same : key = wanted
      · simp [get, same]
      · simp [get, same, found, Ne.symm same]
    · rename_i other
      by_cases same : entry.1 = wanted
      · have differ : wanted ≠ key := same ▸ other
        simp [get, same, differ]
      · have step : get wanted (entry :: put key value entries) =
            get wanted (put key value entries) := by simp [get, same]
        have skip : get wanted (entry :: entries) = get wanted entries := by simp [get, same]
        rw [step, skip, ih]

theorem mem_iff_get (distinct : (entries.map Prod.fst).Nodup) :
    (key, value) ∈ entries ↔ get key entries = some value := by
  induction entries with
  | nil => simp [get]
  | cons entry entries ih =>
    rw [map_cons, nodup_cons] at distinct
    by_cases same : entry.1 = key
    · have found : get key (entry :: entries) = some entry.2 := by simp [get, same]
      rw [found, mem_cons, Option.some.injEq]
      constructor
      · rintro (rfl | listed)
        · rfl
        · exact absurd (mem_map_of_mem (f := Prod.fst) listed) (same ▸ distinct.1)
      · rintro rfl
        exact .inl (Prod.ext same.symm rfl)
    · have skip : get key (entry :: entries) = get key entries := by simp [get, same]
      rw [skip, ← ih distinct.2, mem_cons, or_iff_right]
      rintro rfl
      exact same rfl

def index (key : Value → Key) (values : List Value) : List (Key × Value) :=
  values.foldl (fun entries value => put (key value) value entries) []

theorem keys_index (key : Value → Key) (values : List Value) :
    ((index key values).map Prod.fst).Nodup := by
  have gather (entries : List (Key × Value)) (distinct : (entries.map Prod.fst).Nodup) :
      ((values.foldl (fun entries value => put (key value) value entries) entries).map
        Prod.fst).Nodup := by
    induction values generalizing entries with
    | nil => exact distinct
    | cons value values ih =>
      refine ih _ ?_
      rw [keys_put]
      exact nodup_add distinct
  exact gather [] nodup_nil

theorem get_foldl {key : Value → Key} {values : List Value} {wanted : Key} :
    get wanted (values.foldl (fun entries value => put (key value) value entries) entries) =
      (values.reverse.find? fun value => key value = wanted).or (get wanted entries) := by
  induction values generalizing entries with
  | nil => rfl
  | cons first values ih =>
    rw [foldl_cons, ih, get_put, reverse_cons, find?_append, Option.or_assoc]
    congr 1
    by_cases same : key first = wanted
    · simp [same]
    · simp [same, Ne.symm same]

theorem get_index {key : Value → Key} {values : List Value}
    (apart : ∀ first ∈ values, ∀ second ∈ values, key first = key second → first = second)
    {wanted : Key} {value : Value} :
    get wanted (index key values) = some value ↔ value ∈ values ∧ key value = wanted := by
  have empty : get wanted ([] : List (Key × Value)) = none := rfl
  rw [index, get_foldl, empty, Option.or_none]
  constructor
  · intro found
    have listed := mem_of_find?_eq_some found
    have keyed := find?_some found
    exact ⟨mem_reverse.mp listed, by simpa using keyed⟩
  · rintro ⟨listed, keyed⟩
    cases found : values.reverse.find? fun value => key value = wanted with
    | none =>
      have absent := find?_eq_none.mp found value (mem_reverse.mpr listed)
      exact absurd keyed (by simpa using absent)
    | some other =>
      have same : key other = wanted := by simpa using find?_some found
      have present := mem_reverse.mp (mem_of_find?_eq_some found)
      rw [apart other present value listed (same.trans keyed.symm)]

end

section
variable {Key Value : Type} [LinearOrder Key] {key : Value → Key} {values others : List Value}

def arranged (key : Value → Key) (values : List Value) : List Value :=
  ((index key values).insertionSort fun left right => left.1 ≤ right.1).map Prod.snd

theorem mem_arranged (apart : Function.Injective key) {value : Value} :
    value ∈ arranged key values ↔ value ∈ values := by
  have entry (found : Key) : (found, value) ∈ index key values ↔ value ∈ values ∧ key value = found :=
    (mem_iff_get (keys_index key values)).trans (get_index fun _ _ _ _ same => apart same)
  unfold arranged
  simp only [mem_map, mem_insertionSort, Prod.exists, exists_eq_right, entry,
    exists_and_left, exists_eq', and_true]

def Strict (key : Value → Key) (values : List Value) : Prop :=
  values.Pairwise fun left right => key left < key right

theorem arranged_strict (apart : Function.Injective key) (values : List Value) :
    Strict key (arranged key values) := by
  have own : ∀ entry ∈ index key values, key entry.2 = entry.1 := by
    rintro ⟨found, value⟩ listed
    have found := (mem_iff_get (keys_index key values)).mp listed
    exact ((get_index fun _ _ _ _ same => apart same).mp found).2
  have ordered := pairwise_insertionSort
    (fun left right : Key × Value => left.1 ≤ right.1) (index key values)
  have perm := perm_insertionSort
    (fun left right : Key × Value => left.1 ≤ right.1) (index key values)
  have distinct := (perm.map Prod.fst).nodup_iff.mpr (keys_index key values)
  unfold Strict arranged
  rw [pairwise_map]
  have both := ordered.and (pairwise_map.mp distinct)
  refine both.imp_of_mem ?_
  intro left right first second apart
  rw [own left (perm.mem_iff.mp first), own right (perm.mem_iff.mp second)]
  exact lt_of_le_of_ne apart.1 apart.2

theorem Strict.nodup (strict : Strict key values) : values.Nodup :=
  strict.imp fun {first second} below (equal : first = second) =>
    lt_irrefl (key second) (equal ▸ below)

theorem Strict.ext (left : Strict key values) (right : Strict key others)
    (same : ∀ value, value ∈ values ↔ value ∈ others) : values = others := by
  have perm := (perm_ext_iff_of_nodup left.nodup right.nodup).mpr same
  refine perm.eq_of_pairwise ?_ left right
  intro first second _ _ below above
  exact absurd below (lt_asymm above)

theorem sorted_congr {values others : List Key} [DecidableLE Key] (perm : values.Perm others) :
    values.insertionSort (· ≤ ·) = others.insertionSort (· ≤ ·) := by
  refine List.Perm.eq_of_pairwise ?_ (pairwise_insertionSort _ _)
    (pairwise_insertionSort _ _) ?_
  · intro first second _ _ below above
    exact le_antisymm below above
  · exact (perm_insertionSort _ _).trans (perm.trans (perm_insertionSort _ _).symm)

theorem sorted_strict {values : List Key} [DecidableLE Key] (distinct : values.Nodup) :
    Strict id (values.insertionSort (· ≤ ·)) := by
  have ordered := pairwise_insertionSort (fun left right : Key => left ≤ right) values
  have apart := (perm_insertionSort (fun left right : Key => left ≤ right) values).nodup_iff.mpr
    distinct
  exact (ordered.and apart).imp fun both => lt_of_le_of_ne both.1 both.2

end
end Insertion
