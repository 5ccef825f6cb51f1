import Mathlib.Data.List.Nodup
import Mathlib.Data.List.Perm.Basic

namespace Relational

open List

structure Table (Row Key : Type) (key : Row → Key) where
  rows : List Row
  unique : (rows.map key).Nodup

namespace Table

variable {Row Key : Type} {key : Row → Key}

def empty : Table Row Key key := ⟨[], nodup_nil⟩

instance : Membership Row (Table Row Key key) := ⟨fun table row => row ∈ table.rows⟩

variable {table : Table Row Key key} {row : Row}

theorem mem_rows : row ∈ table ↔ row ∈ table.rows := Iff.rfl

theorem eq_of_key {first second : Row} (left : first ∈ table)
    (right : second ∈ table) (same : key first = key second) : first = second :=
  inj_on_of_nodup_map table.unique left right same

/-- `UPDATE … SET … WHERE …`: an assignment that leaves the primary key alone. -/
def update (table : Table Row Key key) (test : Row → Bool) (change : Row → Row)
    (keeps : ∀ row, key (change row) = key row := by intro; rfl) : Table Row Key key where
  rows := table.rows.map fun row => if test row then change row else row
  unique := by
    have same : (key ∘ fun row => if test row then change row else row) = key := by
      funext row
      simp only [Function.comp_apply]
      split <;> simp [keeps]
    rw [map_map, same]
    exact table.unique

/-- How many rows an `UPDATE` with this condition reports as changed. -/
def count (table : Table Row Key key) (test : Row → Bool) : Nat := table.rows.countP test

variable {change : Row → Row} {test : Row → Bool} {keeps : ∀ row, key (change row) = key row}

theorem mem_update
    :
    row ∈ table.update test change keeps ↔
      ∃ old ∈ table, row = if test old then change old else old := by
  simp only [mem_rows, update, mem_map, eq_comm]

theorem eq_of_rows {first second : Table Row Key key} (same : first.rows = second.rows) :
    first = second := by
  cases first
  cases second
  congr

theorem update_congr {test other : Row → Bool}
    (same : ∀ row ∈ table, test row = other row) :
    table.update test change keeps = table.update other change keeps := by
  apply eq_of_rows
  exact map_congr_left fun row member => by rw [same row member]

theorem update_none
    (none : ∀ row ∈ table, test row = false) :
    table.update test change keeps = table := by
  apply eq_of_rows
  refine (map_congr_left fun row member => ?_).trans (map_id _)
  simp [none row member]

theorem count_pos :
    0 < table.count test ↔ ∃ row ∈ table, test row = true :=
  countP_pos_iff

section
variable [DecidableEq Key]

def find (table : Table Row Key key) (wanted : Key) : Option Row :=
  table.rows.find? fun row => key row = wanted

/-- `INSERT`, which fails on a primary key that is taken. -/
def insert (table : Table Row Key key) (row : Row) : Option (Table Row Key key) :=
  if fresh : key row ∈ table.rows.map key then none
  else some ⟨table.rows ++ [row], by
    rw [map_append, nodup_append]
    refine ⟨table.unique, nodup_singleton _, ?_⟩
    rintro first member second same rfl
    rw [map_singleton, mem_singleton] at same
    exact fresh (same ▸ member)⟩

/-- `INSERT … ON CONFLICT DO UPDATE`. -/
def upsert (table : Table Row Key key) (row : Row) (change : Row → Row)
    (keeps : ∀ row, key (change row) = key row := by intro; rfl) : Table Row Key key :=
  match table.insert row with
  | some grown => grown
  | none => table.update (fun old => key old = key row) change keeps

variable {wanted : Key}

theorem find_some :
    table.find wanted = some row ↔ row ∈ table ∧ key row = wanted := by
  constructor
  · intro h
    exact ⟨mem_of_find?_eq_some h, by simpa using find?_some h⟩
  · rintro ⟨member, rfl⟩
    cases h : table.find (key row) with
    | none =>
      have absent := find?_eq_none.mp h row member
      simp at absent
    | some other =>
      have same : key other = key row := by simpa using find?_some h
      rw [eq_of_key (mem_of_find?_eq_some h) member same]

theorem find_none :
    table.find wanted = none ↔ ∀ row ∈ table, key row ≠ wanted := by
  simp [find, mem_rows]

theorem not_find_empty
    (found : (empty : Table Row Key key).find wanted = some row) : False :=
  nomatch (show none = some row from found)

theorem find_update
    (wanted : Key) :
    (table.update test change keeps).find wanted =
      (table.find wanted).map fun row => if test row then change row else row := by
  have same : ∀ row, key (if test row then change row else row) = key row := by
    intro row
    split <;> simp [keeps]
  simp [find, update, find?_map, Function.comp_def, same]

theorem find_update_of_find
    (found : table.find wanted = some row)
    (keeps : ∀ row, key (change row) = key row := by intro; rfl) :
    (table.update test change keeps).find wanted = some (if test row then change row else row) := by
  rw [find_update, found, Option.map_some]

variable {table grown : Table Row Key key}

theorem insert_some
    (h : table.insert row = some grown) :
    table.find (key row) = none ∧ grown.rows = table.rows ++ [row] := by
  unfold insert at h
  split at h
  · cases h
  · rename_i fresh
    cases h
    refine ⟨find_none.mpr fun other member same => fresh ?_, rfl⟩
    exact same ▸ mem_map_of_mem member

theorem insert_none :
    table.insert row = none ↔ (table.find (key row)).isSome := by
  rw [← Option.ne_none_iff_isSome, ne_eq, find_none]
  unfold insert
  split
  · rename_i taken
    simpa [mem_rows] using taken
  · rename_i fresh
    simpa [mem_rows] using fresh

theorem find_insert
    (h : table.insert row = some grown) (wanted : Key) :
    grown.find wanted = if key row = wanted then some row else table.find wanted := by
  obtain ⟨fresh, rows⟩ := insert_some h
  simp only [find, rows, find?_append]
  split
  · rename_i same
    subst same
    have absent : table.rows.find? (fun other => key other = key row) = none := fresh
    simp [absent]
  · rename_i other
    simp [other]

theorem find_insert_of_find {row other : Row}
    (inserted : table.insert row = some grown) (found : table.find wanted = some other) :
    grown.find wanted = some other := by
  rw [find_insert inserted, if_neg, found]
  rintro rfl
  rw [(insert_some inserted).1] at found
  cases found

theorem mem_insert
    (h : table.insert row = some grown) {other : Row} :
    other ∈ grown ↔ other ∈ table ∨ other = row := by
  rw [mem_rows, (insert_some h).2]
  simp [mem_rows]

theorem find_upsert
    (wanted : Key) :
    (table.upsert row change keeps).find wanted =
      if key row = wanted then
        some (match table.find wanted with
          | none => row
          | some old => change old)
      else table.find wanted := by
  unfold upsert
  cases h : table.insert row with
  | some grown =>
    rw [find_insert h]
    split
    · rename_i same
      rw [← same, (insert_some h).1]
    · rfl
  | none =>
    have taken := insert_none.mp h
    rw [find_update]
    split
    · rename_i same
      subst same
      obtain ⟨old, found⟩ := Option.isSome_iff_exists.mp taken
      simp [found, (find_some.mp found).2]
    · rename_i other
      cases found : table.find wanted with
      | none => rfl
      | some old =>
        have same := (find_some.mp found).2
        have apart : ¬key old = key row := fun h => other (h.symm.trans same)
        simp [apart]

/-- `DELETE … WHERE` the key is a given one. -/
def without (table : Table Row Key key) (unwanted : Key) : Table Row Key key where
  rows := table.rows.filter fun row => key row ≠ unwanted
  unique := table.unique.sublist (filter_sublist.map key)

theorem mem_without {unwanted : Key} :
    row ∈ table.without unwanted ↔ row ∈ table ∧ key row ≠ unwanted := by
  simp [mem_rows, without]

theorem find_without (unwanted wanted : Key) :
    (table.without unwanted).find wanted = if wanted = unwanted then none else table.find wanted := by
  split
  · rename_i same
    subst same
    exact find_none.mpr fun row member => (mem_without.mp member).2
  · rename_i apart
    cases found : table.find wanted with
    | none =>
      rw [find_none] at found ⊢
      exact fun row member => found row (mem_without.mp member).1
    | some row =>
      rw [find_some] at found ⊢
      exact ⟨mem_without.mpr ⟨found.1, found.2.symm ▸ apart⟩, found.2⟩

def write (table : Table Row Key key) (row : Row) : Table Row Key key where
  rows := (table.without (key row)).rows ++ [row]
  unique := by
    rw [map_append, nodup_append]
    refine ⟨(table.without (key row)).unique, nodup_singleton _, ?_⟩
    intro first member second same equal
    obtain ⟨other, present, rfl⟩ := mem_map.mp member
    rw [map_singleton, mem_singleton] at same
    exact (mem_without.mp present).2 (equal.trans same)

theorem mem_write {row other : Row} :
    other ∈ table.write row ↔ other = row ∨ other ∈ table ∧ key other ≠ key row := by
  simp only [mem_rows, write, mem_append, mem_singleton]
  rw [or_comm]
  exact or_congr Iff.rfl mem_without

theorem find_write (wanted : Key) :
    (table.write row).find wanted = if wanted = key row then some row else table.find wanted := by
  split
  · rename_i same
    exact find_some.mpr ⟨mem_write.mpr (.inl rfl), same.symm⟩
  · rename_i apart
    cases found : table.find wanted with
    | none =>
      rw [find_none] at found ⊢
      intro other member
      rcases mem_write.mp member with rfl | ⟨present, _⟩
      · exact fun same => apart same.symm
      · exact found other present
    | some other =>
      rw [find_some] at found ⊢
      exact ⟨mem_write.mpr (.inr ⟨found.1, found.2.symm ▸ apart⟩), found.2⟩

end

end Table

section
variable {Row Key Entry : Type}

def Shows (entries : List Entry) (rows : List Row) (entry : Row → Option Entry) : Prop :=
  entries.Perm (rows.filterMap entry)

theorem filterMap_filter_key (rows : List Row) (entry : Row → Option Entry) {key : Row → Key}
    {keyOf : Entry → Key} (keyed : ∀ row shown, entry row = some shown → keyOf shown = key row)
    (test : Key → Bool) :
    (rows.filterMap entry).filter (fun shown => test (keyOf shown)) =
      (rows.filter fun row => test (key row)).filterMap entry := by
  induction rows with
  | nil => rfl
  | cons row rows ih =>
    cases found : entry row with
    | none =>
      rw [filterMap_cons_none found, ih, filter_cons]
      split
      · rw [filterMap_cons_none found]
      · rfl
    | some shown =>
      rw [filterMap_cons_some found, filter_cons, keyed row shown found, filter_cons, ih]
      split
      · rw [filterMap_cons_some found]
      · rfl

theorem Shows.refresh {entries : List Entry} {rows changed : List Row}
    {entry newEntry : Row → Option Entry} {key : Row → Key} {keyOf : Entry → Key}
    (shows : Shows entries rows entry) (stale : Key → Bool)
    (keyed : ∀ row shown, entry row = some shown → keyOf shown = key row)
    (kept : (changed.filter fun row => !stale (key row)).filterMap newEntry =
      (rows.filter fun row => !stale (key row)).filterMap entry) :
    Shows (entries.filter (fun shown => !stale (keyOf shown)) ++
      (changed.filter fun row => stale (key row)).filterMap newEntry) changed newEntry := by
  have others : (entries.filter fun shown => !stale (keyOf shown)).Perm
      ((changed.filter fun row => !stale (key row)).filterMap newEntry) := by
    rw [kept, ← filterMap_filter_key rows entry keyed fun key => !stale key]
    exact List.Perm.filter _ shows
  have parts := filter_append_perm (fun row => !stale (key row)) changed
  simp only [Bool.not_not] at parts
  have whole := parts.filterMap newEntry
  rw [filterMap_append] at whole
  exact (others.append_right _).trans whole

theorem Shows.mem {entries : List Entry} {rows : List Row} {entry : Row → Option Entry}
    (shows : Shows entries rows entry) {shown : Entry} :
    shown ∈ entries ↔ ∃ row ∈ rows, entry row = some shown := by
  rw [List.Perm.mem_iff shows, mem_filterMap]

theorem Shows.nodup {entries : List Entry} {rows : List Row} {entry : Row → Option Entry}
    {key : Row → Key} {keyOf : Entry → Key} (shows : Shows entries rows entry)
    (keyed : ∀ row shown, entry row = some shown → keyOf shown = key row)
    (unique : (rows.map key).Nodup) : (entries.map keyOf).Nodup := by
  have each : (rows.filterMap entry).map keyOf = (rows.filter fun row => (entry row).isSome).map key := by
    clear shows unique
    induction rows with
    | nil => rfl
    | cons row rows ih =>
      cases found : entry row with
      | none => simpa [found] using ih
      | some shown => simpa [found, keyed row shown found] using ih
  have distinct : ((rows.filterMap entry).map keyOf).Nodup := by
    rw [each]
    exact unique.sublist (filter_sublist.map key)
  exact (List.Perm.map keyOf shows).nodup_iff.mpr distinct

theorem Table.filter_key [DecidableEq Key] {key : Row → Key} (table : Table Row Key key)
    (wanted : Key) : table.rows.filter (fun row => key row = wanted) = (table.find wanted).toList := by
  obtain ⟨rows, unique⟩ := table
  unfold Table.find
  simp only
  induction rows with
  | nil => rfl
  | cons row rows ih =>
    rw [map_cons, nodup_cons] at unique
    by_cases same : key row = wanted
    · have absent : rows.filter (fun other => key other = wanted) = [] := by
        rw [filter_eq_nil_iff]
        intro other member equal
        have clash : key other = key row := (of_decide_eq_true equal).trans same.symm
        exact unique.1 (clash ▸ mem_map_of_mem member)
      simp [same, absent]
    · simpa [same] using ih unique.2

end

end Relational
