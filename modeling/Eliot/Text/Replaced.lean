import Eliot.Text.Regex

namespace Regex

open List
variable {Symbol : Type} {text : List Symbol} {founds : List (Found Symbol)} {last place : Nat}

/-! Matches of a text replaced one by one, and where the rest of the text comes to stand. -/

def span (text : List Symbol) (start stop : Nat) : List Symbol := (text.drop start).take (stop - start)

def replaced (replacement : List Symbol → List Symbol) (text : List Symbol) (last : Nat) :
    List (Found Symbol) → List Symbol
  | [] => text.drop last
  | found :: founds =>
    span text last found.start ++ replacement found.token ++ replaced replacement text found.stop founds

def replacedFrom (replacement : List Symbol → List Symbol) (text : List Symbol) (founds : List (Found Symbol))
    (place : Nat) : List Symbol :=
  replaced replacement text place (founds.filter fun found => decide (place ≤ found.start))

def moved (replacement : List Symbol → List Symbol) (text : List Symbol) (founds : List (Found Symbol))
    (place : Nat) : Nat :=
  (replaced replacement text 0 founds).length - (replacedFrom replacement text founds place).length

theorem span_append {first second third : Nat} (before : first ≤ second) (after : second ≤ third) :
    span text first third = span text first second ++ span text second third := by
  have length : third - first = (second - first) + (third - second) := by omega
  rw [span, length, take_add, drop_drop, Nat.add_sub_cancel' before]
  rfl

theorem drop_span {start stop : Nat} (order : start ≤ stop) :
    text.drop start = span text start stop ++ text.drop stop := by
  rw [span]
  conv_lhs => rw [← take_append_drop (stop - start) (text.drop start), drop_drop, Nat.add_sub_cancel' order]

theorem Found.start_le_stop (found : Found Symbol) : found.start ≤ found.stop := Nat.le_add_right _ _

theorem Located.le_length (located : Located text last founds) : last ≤ text.length := by
  induction founds generalizing last with
  | nil => exact located
  | cons found founds ih =>
    exact located.1.trans ((Nat.le_add_right _ _).trans (ih located.2.2))

theorem Located.start_le (located : Located text last founds) : ∀ found ∈ founds, last ≤ found.start := by
  induction founds generalizing last with
  | nil => simp
  | cons first founds ih =>
    intro found member
    rcases mem_cons.mp member with rfl | member
    · exact located.1
    · exact located.1.trans ((Nat.le_add_right _ _).trans (ih located.2.2 found member))

theorem Located.stop_le_length (located : Located text last founds) :
    ∀ found ∈ founds, found.stop ≤ text.length := by
  induction founds generalizing last with
  | nil => simp
  | cons first founds ih =>
    intro found member
    rcases mem_cons.mp member with rfl | member
    · exact located.2.2.le_length
    · exact ih located.2.2 found member

theorem Located.apart (located : Located text last founds) {found other : Found Symbol} (member : found ∈ founds)
    (listed : other ∈ founds) : found = other ∨ found.stop ≤ other.start ∨ other.stop ≤ found.start := by
  induction founds generalizing last with
  | nil => cases member
  | cons first founds ih =>
    rcases mem_cons.mp member with same | left
    · rcases mem_cons.mp listed with rfl | right
      · exact .inl same
      · exact .inr (.inl (same ▸ located.2.2.start_le other right))
    · rcases mem_cons.mp listed with same | right
      · exact .inr (.inr (same ▸ located.2.2.start_le found left))
      · exact ih located.2.2 left right

theorem Located.span_token (located : Located text last founds) {found : Found Symbol} (member : found ∈ founds) :
    span text found.start found.stop = found.token := by
  rw [span, Found.stop, Nat.add_sub_cancel_left]
  exact located.token_of_mem member

section
variable {replacement : List Symbol → List Symbol}

theorem replacedFrom_all (located : Located text last founds) (before : place ≤ last) :
    replacedFrom replacement text founds place = replaced replacement text place founds := by
  rw [replacedFrom, filter_eq_self.mpr]
  intro found member
  simpa using before.trans (located.start_le found member)

theorem replacedFrom_skip {found : Found Symbol} (filled : found.token ≠ []) (passed : found.stop ≤ place) :
    replacedFrom replacement text (found :: founds) place = replacedFrom replacement text founds place := by
  have length := length_pos_iff.mpr filled
  rw [replacedFrom, filter_cons_of_neg, replacedFrom]
  simp only [Found.stop] at passed
  simp only [decide_eq_true_eq]
  omega

theorem replacedFrom_kept (located : Located text last founds) (filled : ∀ found ∈ founds, found.token ≠ [])
    {stop : Nat} (order : place ≤ stop) (after : last ≤ place)
    (outside : ∀ found ∈ founds, found.stop ≤ place ∨ stop ≤ found.start) :
    replacedFrom replacement text founds place =
      span text place stop ++ replacedFrom replacement text founds stop := by
  induction founds generalizing last with
  | nil => exact drop_span order
  | cons found founds ih =>
    have nonempty := filled found mem_cons_self
    rcases outside found mem_cons_self with passed | ahead
    · rw [replacedFrom_skip nonempty passed, replacedFrom_skip nonempty (passed.trans order)]
      exact ih located.2.2 (fun other member => filled other (mem_cons_of_mem _ member)) passed
        fun other member => outside other (mem_cons_of_mem _ member)
    · have here : Located text found.start (found :: founds) := ⟨Nat.le_refl _, located.2⟩
      rw [replacedFrom_all here (order.trans ahead), replacedFrom_all here ahead, replaced, replaced,
        span_append order ahead, append_assoc, append_assoc]
      simp

theorem replaced_split (located : Located text last founds) (filled : ∀ found ∈ founds, found.token ≠ [])
    (after : last ≤ place) (outside : ∀ found ∈ founds, found.stop ≤ place ∨ place ≤ found.start) :
    ∃ front, replaced replacement text last founds = front ++ replacedFrom replacement text founds place := by
  induction founds generalizing last with
  | nil => exact ⟨_, drop_span after⟩
  | cons found founds ih =>
    rcases outside found mem_cons_self with passed | ahead
    · obtain ⟨front, split⟩ := ih located.2.2 (fun other member => filled other (mem_cons_of_mem _ member))
        passed fun other member => outside other (mem_cons_of_mem _ member)
      refine ⟨span text last found.start ++ replacement found.token ++ front, ?_⟩
      rw [replacedFrom_skip (filled found mem_cons_self) passed, replaced, split]
      simp only [append_assoc]
    · have here : Located text found.start (found :: founds) := ⟨Nat.le_refl _, located.2⟩
      refine ⟨span text last place, ?_⟩
      rw [replacedFrom_all here ahead, replaced, replaced, span_append after ahead]
      simp

theorem drop_moved (located : Located text 0 founds) (filled : ∀ found ∈ founds, found.token ≠ [])
    (outside : ∀ found ∈ founds, found.stop ≤ place ∨ place ≤ found.start) :
    (replaced replacement text 0 founds).drop (moved replacement text founds place) =
      replacedFrom replacement text founds place := by
  obtain ⟨front, split⟩ := replaced_split located filled (Nat.zero_le place) outside
  rw [moved, split, length_append, Nat.add_sub_cancel, drop_left]

theorem replacedFrom_found (located : Located text last founds) (filled : ∀ found ∈ founds, found.token ≠ [])
    {found : Found Symbol} (member : found ∈ founds) :
    replacedFrom replacement text founds found.start =
      replacement found.token ++ replacedFrom replacement text founds found.stop := by
  induction founds generalizing last with
  | nil => cases member
  | cons first founds ih =>
    have nonempty := filled first mem_cons_self
    have here : Located text first.start (first :: founds) := ⟨Nat.le_refl _, located.2⟩
    rcases mem_cons.mp member with rfl | member
    · rw [replacedFrom_all here (Nat.le_refl _), replacedFrom_skip nonempty (Nat.le_refl _),
        replacedFrom_all located.2.2 (Nat.le_refl _), replaced, span, Nat.sub_self, take_zero, nil_append]
    · have behind := located.2.2.start_le found member
      rw [replacedFrom_skip nonempty behind, replacedFrom_skip nonempty (behind.trans found.start_le_stop)]
      exact ih located.2.2 (fun other listed => filled other (mem_cons_of_mem _ listed)) member

theorem replaced_origin (located : Located text last founds) (filled : ∀ found ∈ founds, found.token ≠ [])
    {index : Nat} (within : index < (replaced replacement text last founds).length) :
    (∃ place, last ≤ place ∧ place < text.length ∧
      (∀ found ∈ founds, found.stop ≤ place ∨ place < found.start) ∧
      (replaced replacement text last founds).drop index = replacedFrom replacement text founds place) ∨
    ∃ found ∈ founds, ∃ offset < (replacement found.token).length,
      (replaced replacement text last founds).drop index =
        (replacement found.token).drop offset ++ replacedFrom replacement text founds found.stop := by
  induction founds generalizing last index with
  | nil =>
    rw [replaced, length_drop] at within
    refine .inl ⟨last + index, Nat.le_add_right _ _, by omega, by simp, ?_⟩
    rw [replaced, drop_drop]
    rfl
  | cons found founds ih =>
    have nonempty := filled found mem_cons_self
    have here : Located text found.start (found :: founds) := ⟨Nat.le_refl _, located.2⟩
    have fits : found.start ≤ text.length := (Nat.le_add_right _ _).trans located.2.2.le_length
    have length : (span text last found.start).length = found.start - last := by
      rw [span, length_take, length_drop]
      omega
    by_cases front : index < found.start - last
    · have order : last ≤ last + index := Nat.le_add_right _ _
      have ahead : last + index ≤ found.start := by omega
      refine .inl ⟨last + index, order, by omega, ?_, ?_⟩
      · intro other member
        right
        rcases mem_cons.mp member with rfl | member
        · omega
        · have behind := located.2.2.start_le other member
          simp only [Found.stop] at behind
          omega
      · have split : (span text last (last + index)).length = index := by
          rw [span, length_take, length_drop]
          omega
        rw [replacedFrom_all here ahead, replaced, replaced, span_append order ahead]
        simp only [append_assoc]
        rw [drop_append, split, Nat.sub_self, drop_zero, drop_eq_nil_of_le (by omega), nil_append]
    · by_cases middle : index < found.start - last + (replacement found.token).length
      · refine .inr ⟨found, mem_cons_self, index - (found.start - last), by omega, ?_⟩
        rw [replacedFrom_skip nonempty (Nat.le_refl _), replacedFrom_all located.2.2 (Nat.le_refl _), replaced,
          append_assoc, drop_append, length, drop_eq_nil_of_le (by omega), nil_append,
          drop_append_of_le_length (by omega)]
      · have rest : (replaced replacement text last (found :: founds)).drop index =
            (replaced replacement text found.stop founds).drop
              (index - (found.start - last + (replacement found.token).length)) := by
          rw [replaced, drop_append, length_append, length, drop_eq_nil_of_le (by
            rw [length_append, length]
            omega), nil_append]
        have inside : index - (found.start - last + (replacement found.token).length) <
            (replaced replacement text found.stop founds).length := by
          rw [replaced, length_append, length_append, length] at within
          omega
        rw [rest]
        rcases ih located.2.2 (fun other member => filled other (mem_cons_of_mem _ member)) inside with
          ⟨place, after, short, outside, same⟩ | ⟨other, member, offset, bound, same⟩
        · refine .inl ⟨place, located.1.trans ((Nat.le_add_right _ _).trans after), short, ?_, ?_⟩
          · intro one listed
            rcases mem_cons.mp listed with rfl | listed
            · exact .inl after
            · exact outside one listed
          · rw [same, replacedFrom_skip nonempty after]
        · refine .inr ⟨other, mem_cons_of_mem _ member, offset, bound, ?_⟩
          have behind := (located.2.2.start_le other member).trans other.start_le_stop
          rw [same, replacedFrom_skip nonempty behind]

theorem replaced_same (located : Located text last founds) :
    replaced id text last founds = text.drop last := by
  induction founds generalizing last with
  | nil => rfl
  | cons found founds ih =>
    rw [replaced, ih located.2.2, id, ← located.span_token mem_cons_self, append_assoc,
      ← drop_span found.start_le_stop, ← drop_span located.1]

end

end Regex
