import Eliot.Collections.Insertion
import Mathlib.Data.List.Perm.Basic

namespace Grouping

open List
open Insertion (get put keys_put nodup_add get_put mem_iff_get)

section
variable {Key Value : Type} [DecidableEq Key] {key : Value → Key} {values : List Value}

def join (key : Value → Key) (groups : List (Key × List Value)) (value : Value) : List (Key × List Value) :=
  put (key value) ((get (key value) groups).getD [] ++ [value]) groups

def gather (key : Value → Key) (values : List Value) : List (Key × List Value) := values.foldl (join key) []

theorem keys_gather (key : Value → Key) (values : List Value) : ((gather key values).map Prod.fst).Nodup := by
  have run (groups : List (Key × List Value)) (distinct : (groups.map Prod.fst).Nodup) :
      ((values.foldl (join key) groups).map Prod.fst).Nodup := by
    induction values generalizing groups with
    | nil => exact distinct
    | cons value values ih =>
      refine ih _ ?_
      rw [join, keys_put]
      exact nodup_add distinct
  exact run [] nodup_nil

def ofKey (key : Value → Key) (wanted : Key) (values : List Value) : List Value :=
  values.filter fun value => key value = wanted

theorem ofKey_append {wanted : Key} {others : List Value} :
    ofKey key wanted (values ++ others) = ofKey key wanted values ++ ofKey key wanted others :=
  filter_append ..

theorem mem_ofKey {wanted : Key} {value : Value} : value ∈ ofKey key wanted values ↔ value ∈ values ∧
    key value = wanted := by
  simp [ofKey]

theorem get_gather {wanted : Key} {rows : List Value} :
    get wanted (gather key values) = some rows ↔ rows ≠ [] ∧ rows = ofKey key wanted values := by
  have run (seen : List Value) (groups : List (Key × List Value))
      (known : ∀ wanted, get wanted groups =
        if ofKey key wanted seen = [] then none else some (ofKey key wanted seen)) (wanted : Key) :
      get wanted (values.foldl (join key) groups) =
        if ofKey key wanted (seen ++ values) = [] then none else some (ofKey key wanted (seen ++ values)) := by
    induction values generalizing seen groups with
    | nil => simpa using known wanted
    | cons value values ih =>
      have step := ih (seen ++ [value]) (join key groups value) fun other => ?_
      · rwa [append_assoc, singleton_append] at step
      · rw [join, get_put, ofKey_append]
        by_cases same : other = key value
        · have alone : ofKey key other [value] = [value] := by simp [ofKey, same]
          rw [if_pos same, alone, if_neg (by simp), known, ← same]
          split
          · rename_i none
            rw [none]
            rfl
          · rfl
        · have without : ofKey key other [value] = [] := by simp [ofKey, Ne.symm same]
          rw [if_neg same, without, append_nil, known]
  have whole := run [] [] (fun _ => rfl) wanted
  rw [nil_append] at whole
  rw [gather, whole]
  split
  · rename_i none
    simp only [reduceCtorEq, false_iff, not_and]
    exact fun some same => some (same.trans none)
  · rename_i some
    rw [Option.some.injEq]
    exact ⟨fun same => ⟨same ▸ some, same.symm⟩, fun both => both.2.symm⟩

theorem mem_gather {wanted : Key} {rows : List Value} :
    (wanted, rows) ∈ gather key values ↔ rows ≠ [] ∧ rows = ofKey key wanted values :=
  (mem_iff_get (keys_gather key values)).trans get_gather

end

section
variable {Row Column Value : Type} [DecidableEq Row] [DecidableEq Column]
  {table : List (Row × List (Column × Value))} {row : Row} {column : Column} {value : Value}

def at2 (table : List (Row × List (Column × Value))) (row : Row) (column : Column) : Option Value :=
  (get row table).bind (get column)

def put2 (row : Row) (column : Column) (value : Value) (table : List (Row × List (Column × Value))) :
    List (Row × List (Column × Value)) :=
  put row (put column value ((get row table).getD [])) table

theorem at2_put2 {other : Row} {wanted : Column} : at2 (put2 row column value table) other wanted =
    if other = row ∧ wanted = column then some value else at2 table other wanted := by
  unfold at2 put2
  rw [get_put]
  by_cases same : other = row
  · subst same
    rw [if_pos rfl, Option.bind_some, get_put]
    by_cases under : wanted = column
    · rw [if_pos under, if_pos ⟨rfl, under⟩]
    · rw [if_neg under, if_neg fun both => under both.2]
      cases get other table <;> rfl
  · rw [if_neg same, if_neg fun both => same both.1]

structure Whole (table : List (Row × List (Column × Value))) : Prop where
  distinct : (table.map Prod.fst).Nodup
  inner : ∀ row entries, get row table = some entries → (entries.map Prod.fst).Nodup
  filled : ∀ row entries, get row table = some entries → entries ≠ []

omit [DecidableEq Column] in
theorem Whole.nil : Whole ([] : List (Row × List (Column × Value))) :=
  ⟨nodup_nil, fun _ _ none => (nomatch none), fun _ _ none => (nomatch none)⟩

theorem Whole.put2 (whole : Whole table) : Whole (put2 row column value table) := by
  have inside : (((get row table).getD []).map Prod.fst).Nodup := by
    cases found : get row table with
    | none => exact nodup_nil
    | some entries => exact whole.inner row entries found
  refine ⟨?_, fun other entries found => ?_, fun other entries found => ?_⟩
  · rw [Grouping.put2, keys_put]
    exact nodup_add whole.distinct
  all_goals
    rw [Grouping.put2, get_put] at found
    split at found
  · obtain rfl := Option.some.inj found
    rw [keys_put]
    exact nodup_add inside
  · exact whole.inner other entries found
  · obtain rfl := Option.some.inj found
    intro empty
    have keys := congrArg (List.map Prod.fst) empty
    rw [keys_put] at keys
    have listed : column ∈ Insertion.add (((get row table).getD []).map Prod.fst) column :=
      Insertion.mem_add.mpr (.inr rfl)
    rw [keys] at listed
    cases listed
  · exact whole.filled other entries found

theorem Whole.get_some (whole : Whole table) {entries : List (Column × Value)}
    (found : get row table = some entries) :
    (column, value) ∈ entries ↔ at2 table row column = some value := by
  rw [at2, found, Option.bind_some]
  exact mem_iff_get (whole.inner row entries found)

theorem Whole.isSome (whole : Whole table) :
    (get row table).isSome ↔ ∃ column value, at2 table row column = some value := by
  constructor
  · intro found
    obtain ⟨entries, found⟩ := Option.isSome_iff_exists.mp found
    obtain ⟨⟨column, value⟩, listed⟩ := exists_mem_of_ne_nil _ (whole.filled row entries found)
    exact ⟨column, value, (whole.get_some found).mp listed⟩
  · rintro ⟨column, value, found⟩
    cases row : get row table with
    | none => simp [at2, row] at found
    | some entries => rfl

theorem Whole.agree {other : List (Row × List (Column × Value))} (whole : Whole table) (also : Whole other)
    (same : ∀ row column, at2 table row column = at2 other row column) {entries : List (Column × Value)}
    (found : get row table = some entries) : ∃ moved, get row other = some moved ∧ entries.Perm moved := by
  have there : (get row other).isSome := by
    obtain ⟨column, value, held⟩ := whole.isSome.mp (Option.isSome_iff_exists.mpr ⟨entries, found⟩)
    exact also.isSome.mpr ⟨column, value, same row column ▸ held⟩
  obtain ⟨moved, held⟩ := Option.isSome_iff_exists.mp there
  refine ⟨moved, held, ?_⟩
  rw [perm_ext_iff_of_nodup (List.Nodup.of_map _ (whole.inner row entries found))
    (List.Nodup.of_map _ (also.inner row moved held))]
  intro entry
  rw [whole.get_some found, also.get_some held, same]

end

end Grouping
