import Mathlib.Data.List.Lex
import Mathlib.Data.List.Sort

namespace Pagination

open List

section
variable {Row Key : Type} [LinearOrder Key] {key : Row → Key} {rows others : List Row}

def Ascending (key : Row → Key) (rows : List Row) : Prop := rows.Pairwise fun row other => key row < key other

theorem Ascending.sublist (ascending : Ascending key rows) (some' : others.Sublist rows) : Ascending key others :=
  List.Pairwise.sublist some' ascending

theorem Ascending.nodup (ascending : Ascending key rows) : (rows.map key).Nodup :=
  pairwise_map.mpr (ascending.imp fun before => ne_of_lt before)

theorem Ascending.unique (ascending : Ascending key rows) (ascending' : Ascending key others) (same : rows.Perm others) :
    rows = others := by
  refine same.eq_of_pairwise ?_ ascending ascending'
  intro row other _ _ before after
  exact absurd after (lt_asymm before)

theorem ascending_insertionSort (distinct : (rows.map key).Nodup) :
    Ascending key (rows.insertionSort fun row other => key row ≤ key other) := by
  let within (row other : Row) : Prop := key row ≤ key other
  have total : Std.Total within := ⟨fun row other => le_total (key row) (key other)⟩
  have trans : IsTrans Row within := ⟨fun _ _ _ first second => le_trans first second⟩
  have sorted : (rows.insertionSort within).Pairwise within := pairwise_insertionSort within rows
  have apart : ((rows.insertionSort within).map key).Nodup :=
    ((perm_insertionSort within rows).map key).nodup_iff.mpr distinct
  exact sorted.imp₂ (fun _ _ order other => lt_of_le_of_ne order other) (pairwise_map.mp apart)

theorem insertionSort_filter (distinct : (rows.map key).Nodup) (test : Row → Bool) :
    (rows.filter test).insertionSort (fun row other => key row ≤ key other) =
      (rows.insertionSort fun row other => key row ≤ key other).filter test := by
  have some' : ((rows.filter test).map key).Nodup := distinct.sublist (filter_sublist.map key)
  refine (ascending_insertionSort some').unique ((ascending_insertionSort distinct).sublist filter_sublist) ?_
  have sorted := perm_insertionSort (fun row other => key row ≤ key other) rows
  exact (perm_insertionSort _ _).trans (sorted.symm.filter test)

theorem Ascending.filter_after (ascending : Ascending key rows) {place : Nat} {row : Row}
    (found : rows[place]? = some row) : rows.filter (fun other => key row < key other) = rows.drop (place + 1) := by
  induction rows generalizing place with
  | nil => cases found
  | cons first rows ih =>
    obtain ⟨ahead, behind⟩ := pairwise_cons.mp ascending
    cases place with
    | zero =>
      obtain rfl : first = row := Option.some.inj found
      have all : rows.filter (fun other => key first < key other) = rows := by
        rw [filter_eq_self]
        intro other member
        exact decide_eq_true (ahead other member)
      rw [filter_cons_of_neg (by simp), all]
      rfl
    | succ place =>
      have found : rows[place]? = some row := found
      have before := ahead row (mem_of_getElem? found)
      rw [filter_cons_of_neg (by simpa using le_of_lt before), ih behind found]
      rfl

theorem Ascending.filter_from (ascending : Ascending key rows) {place : Nat} {row : Row}
    (found : rows[place]? = some row) : rows.filter (fun other => key row ≤ key other) = rows.drop place := by
  have split : rows.drop place = row :: rows.drop (place + 1) := by
    obtain ⟨inside, rfl⟩ := List.getElem?_eq_some_iff.mp found
    exact drop_eq_getElem_cons inside
  have front : (rows.take place).filter (fun other => key row ≤ key other) = [] := by
    rw [filter_eq_nil_iff]
    intro other member
    rw [← take_append_drop place rows, split] at ascending
    have before := (pairwise_append.mp ascending).2.2 other member row mem_cons_self
    simpa using before
  have rest : (rows.drop place).filter (fun other => key row ≤ key other) = rows.drop place := by
    have behind := ascending.sublist (drop_sublist place rows)
    rw [split] at behind ⊢
    rw [filter_eq_self]
    intro other member
    rcases mem_cons.mp member with rfl | member
    · simp
    · simpa using le_of_lt ((pairwise_cons.mp behind).1 other member)
  calc rows.filter (fun other => key row ≤ key other)
      = (rows.take place ++ rows.drop place).filter (fun other => key row ≤ key other) := by
        rw [take_append_drop]
    _ = rows.drop place := by rw [filter_append, front, rest, nil_append]

end

section
variable {Row Cursor Body Budget : Type}

structure Page (Row Cursor Body : Type) where
  shown : List Row
  body : Body
  next : Option Cursor

inductive Answer (Row Cursor Body : Type) where
  | refused
  | failed
  | page (page : Page Row Cursor Body)

inductive Ending where
  | refused
  | failed
  | unfinished
  | finished
deriving DecidableEq

def follow (ask : Option Cursor → Budget → Answer Row Cursor Body) :
    Option Cursor → List Budget → List (Page Row Cursor Body) × Ending
  | _, [] => ([], .unfinished)
  | cursor, budget :: budgets =>
    match ask cursor budget with
    | .refused => ([], .refused)
    | .failed => ([], .failed)
    | .page page =>
      match page.next with
      | none => ([page], .finished)
      | some next =>
        let rest := follow ask (some next) budgets
        (page :: rest.1, rest.2)

def listed (pages : List (Page Row Cursor Body)) : List Row := (pages.map (·.shown)).flatten

structure Page.From (rows : List Row) (cursorAt : Nat → Option Cursor) (place : Nat) (page : Page Row Cursor Body) :
    Prop where
  shown : page.shown <+: rows.drop place
  last : page.next = none → place + page.shown.length = rows.length
  next : page.next ≠ none → page.next = cursorAt (place + page.shown.length) ∧ 0 < page.shown.length ∧
    place + page.shown.length < rows.length

def Answer.From (rows : List Row) (cursorAt : Nat → Option Cursor) (place : Nat) : Answer Row Cursor Body → Prop
  | .refused => True
  | .failed => False
  | .page answered => answered.From rows cursorAt place

variable {ask : Option Cursor → Budget → Answer Row Cursor Body} {rows : List Row} {cursorAt : Nat → Option Cursor}

theorem shown_drop {place : Nat} {page : Page Row Cursor Body} (from' : page.From rows cursorAt place) :
    rows.drop place = page.shown ++ rows.drop (place + page.shown.length) := by
  obtain ⟨rest, same⟩ := from'.shown
  have after : (rows.drop place).drop page.shown.length = rest := by rw [← same, drop_left]
  rw [drop_drop] at after
  rw [after, same]

structure Follows (rows : List Row) (place count : Nat) (pages : List (Page Row Cursor Body)) (ending : Ending) :
    Prop where
  shown : listed pages <+: rows.drop place
  never : ending ≠ .failed
  finished : ending = .finished → listed pages = rows.drop place
  unfinished : ending = .unfinished → place + count ≤ rows.length

theorem follow_follows {budgets : List Budget} {place : Nat}
    (each : ∀ place, place = 0 ∨ place < rows.length → ∀ budget ∈ budgets,
      (ask (cursorAt place) budget).From rows cursorAt place) (within : place = 0 ∨ place < rows.length) :
    Follows rows place budgets.length (follow ask (cursorAt place) budgets).1
      (follow ask (cursorAt place) budgets).2 := by
  induction budgets generalizing place with
  | nil =>
    refine ⟨ nil_prefix, by simp [follow], by simp [follow], ?_⟩
    intro _
    show place + 0 ≤ rows.length
    omega
  | cons budget budgets ih =>
    have here := each place within budget mem_cons_self
    have later : ∀ place, place = 0 ∨ place < rows.length → ∀ budget ∈ budgets,
        (ask (cursorAt place) budget).From rows cursorAt place :=
      fun place within budget member => each place within budget (mem_cons_of_mem _ member)
    rw [follow]
    cases answered : ask (cursorAt place) budget with
    | refused => exact ⟨ nil_prefix, by simp, by simp, by simp⟩
    | failed =>
      rw [answered] at here
      exact here.elim
    | page page =>
      rw [answered] at here
      have here : page.From rows cursorAt place := here
      have split := shown_drop here
      cases following : page.next with
      | none =>
        have total := here.last following
        dsimp only
        rw [following]
        have all : listed [page] = rows.drop place := by
          rw [split, total, drop_length, append_nil]
          simp [listed]
        exact ⟨all ▸ prefix_refl _, by simp, fun _ => all, by simp⟩
      | some next =>
        obtain ⟨cursor, some', before⟩ := here.next (by simp [following])
        rw [following] at cursor
        dsimp only
        rw [following]
        dsimp only
        rw [cursor]
        obtain ⟨shown, never, finished, unfinished⟩ := ih later (.inr before)
        have first : ∀ rest : List (Page Row Cursor Body), listed (page :: rest) = page.shown ++ listed rest := by
          intro rest
          simp [listed]
        refine ⟨?_, never, ?_, ?_⟩
        · rw [first, split]
          exact (prefix_append_right_inj _).mpr shown
        · intro ended
          rw [first, finished ended, ← split]
        · intro ended
          have bound := unfinished ended
          rw [length_cons]
          omega

theorem follow_pages {Property : Page Row Cursor Body → Prop} {budgets : List Budget}
    (each : ∀ cursor, ∀ budget ∈ budgets, ∀ page, ask cursor budget = .page page → Property page)
    (cursor : Option Cursor) : ∀ page ∈ (follow ask cursor budgets).1, Property page := by
  induction budgets generalizing cursor with
  | nil =>
    intro page member
    cases member
  | cons budget budgets ih =>
    have later := ih fun cursor budget member => each cursor budget (mem_cons_of_mem _ member)
    have here := each cursor budget mem_cons_self
    intro page member
    rw [follow] at member
    cases answered : ask cursor budget with
    | refused =>
      rw [answered] at member
      cases member
    | failed =>
      rw [answered] at member
      cases member
    | page first =>
      rw [answered] at member
      dsimp only at member
      split at member
      · rw [mem_singleton.mp member]
        exact here first answered
      · rcases mem_cons.mp member with rfl | member
        · exact here page answered
        · exact later _ page member

end

end Pagination
