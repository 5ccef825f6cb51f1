import Eliot.Investigation.Effects
import Mathlib.Logic.Relation

namespace Investigation

structure Chart where
  heads : Text → Option HeadRow
  events : List EventRow

def Ledger.chart (ledger : Ledger) : Chart := ⟨ledger.heads.find, ledger.events.rows⟩

def Chart.put (chart : Chart) (head : HeadRow) (event : EventRow) : Chart where
  heads id := if id = head.investigationId then some head else chart.heads id
  events := chart.events ++ [event]

inductive Move (chart : Chart) : Chart → Prop where
  | begin {head : HeadRow} {event : EventRow} (fresh : chart.heads head.investigationId = none)
      (first : First head event) : Move chart (chart.put head event)
  | advance {old new : HeadRow} {event : EventRow} (found : chart.heads old.investigationId = some old)
      (live : old.status ≠ .superseded) (next : Next old new event) : Move chart (chart.put new event)

section

structure Chart.Sound (chart : Chart) : Prop where
  named : ∀ id head, chart.heads id = some head → head.investigationId = id
  sequences : ∀ id head, chart.heads id = some head → ∀ sequence,
    (∃ event ∈ chart.events, event.investigationId = id ∧ event.sequence = sequence) ↔
      1 ≤ sequence ∧ sequence ≤ head.eventHead
  headed : ∀ event ∈ chart.events, ∃ head, chart.heads event.investigationId = some head
  created : ∀ event ∈ chart.events, event.kind = .created → event.sequence = 1
  revision : ∀ id head, chart.heads id = some head → head.revision = head.eventHead
  started : ∀ id head, chart.heads id = some head → 1 ≤ head.eventHead

def Chart.counters (chart : Chart) (id : Text) : Int × Int :=
  match chart.heads id with
  | none => (0, 0)
  | some head => (head.revision, head.eventHead)

structure Chart.Keeps (before after : Chart) : Prop where
  identity : ∀ id head, before.heads id = some head →
    ∃ later, after.heads id = some later ∧ later.identity = head.identity
  superseded : ∀ id head, before.heads id = some head → head.status = .superseded →
    after.heads id = some head ∧
      after.events.filter (·.investigationId = id) = before.events.filter (·.investigationId = id)

theorem Chart.Keeps.refl (chart : Chart) : chart.Keeps chart :=
  ⟨fun _ head found => ⟨head, found, rfl⟩, fun _ _ found _ => ⟨found, rfl⟩⟩

theorem Chart.Keeps.trans {first second third : Chart} (one : first.Keeps second)
    (two : second.Keeps third) : first.Keeps third := by
  constructor
  · intro id head found
    obtain ⟨next, there, identity⟩ := one.identity id head found
    obtain ⟨last, present, whole⟩ := two.identity id next there
    exact ⟨last, present, whole.trans identity⟩
  · intro id head found ended
    obtain ⟨there, events⟩ := one.superseded id head found ended
    obtain ⟨present, more⟩ := two.superseded id head there ended
    exact ⟨present, more.trans events⟩

variable {chart after : Chart} {event : EventRow} {head : HeadRow}

theorem put_self :
    (chart.put head event).heads head.investigationId = some head := if_pos rfl

theorem put_other {id : Text} (other : id ≠ head.investigationId) :
    (chart.put head event).heads id = chart.heads id := if_neg other

theorem put_events_other {id : Text}
    (other : event.investigationId ≠ id) :
    (chart.put head event).events.filter (·.investigationId = id) =
      chart.events.filter (·.investigationId = id) := by
  unfold Chart.put
  rw [List.filter_append, List.filter_cons_of_neg (by simpa using other), List.filter_nil,
    List.append_nil]

theorem Chart.Sound.put (sound : chart.Sound)
    (bound : event.investigationId = head.investigationId)
    (numbers : ∀ sequence, (∃ event ∈ chart.events, event.investigationId = head.investigationId ∧
      event.sequence = sequence) ↔ 1 ≤ sequence ∧ sequence < head.eventHead)
    (positive : 1 ≤ head.eventHead) (sequence : event.sequence = head.eventHead)
    (kind : event.kind = .created → event.sequence = 1) (revision : head.revision = head.eventHead) :
    (chart.put head event).Sound := by
  have listed {other : EventRow} :
      other ∈ (chart.put head event).events ↔ other ∈ chart.events ∨ other = event := by
    simp [Chart.put]
  constructor
  · intro id found there
    by_cases own : id = head.investigationId
    · rw [own, put_self] at there
      cases there
      exact own.symm
    · rw [put_other own] at there
      exact sound.named id found there
  · intro id found there place
    simp only [listed]
    by_cases own : id = head.investigationId
    · subst own
      rw [put_self] at there
      cases there
      constructor
      · rintro ⟨other, member | rfl, same, rfl⟩
        · have below := (numbers other.sequence).mp ⟨other, member, same, rfl⟩
          omega
        · omega
      · intro within
        by_cases last : place = head.eventHead
        · exact ⟨event, .inr rfl, bound, sequence.trans last.symm⟩
        · have before : 1 ≤ place ∧ place < head.eventHead := by omega
          obtain ⟨other, member, same, equal⟩ := (numbers place).mpr before
          exact ⟨other, .inl member, same, equal⟩
    · rw [put_other own] at there
      rw [← sound.sequences id found there place]
      constructor
      · rintro ⟨other, member | rfl, same, equal⟩
        · exact ⟨other, member, same, equal⟩
        · exact absurd (same.symm.trans bound) own
      · rintro ⟨other, member, same, equal⟩
        exact ⟨other, .inl member, same, equal⟩
  · intro other member
    by_cases own : other.investigationId = head.investigationId
    · exact ⟨head, by rw [own, put_self]⟩
    · rw [put_other own]
      rcases listed.mp member with member | rfl
      · exact sound.headed other member
      · exact absurd bound own
  · intro other member
    rcases listed.mp member with member | rfl
    · exact sound.created other member
    · exact kind
  · intro id found there
    by_cases own : id = head.investigationId
    · rw [own, put_self] at there
      cases there
      exact revision
    · rw [put_other own] at there
      exact sound.revision id found there
  · intro id found there
    by_cases own : id = head.investigationId
    · rw [own, put_self] at there
      cases there
      exact positive
    · rw [put_other own] at there
      exact sound.started id found there

theorem Move.sound (move : Move chart after) (sound : chart.Sound) : after.Sound := by
  cases move with
  | @begin head event fresh first =>
    refine sound.put first.bound (fun sequence => ?_) ?_ ?_ (fun _ => first.sequence) ?_
    · constructor
      · rintro ⟨other, member, same, -⟩
        obtain ⟨found, there⟩ := sound.headed other member
        rw [same, fresh] at there
        cases there
      · intro within
        rw [first.eventHead] at within
        omega
    · rw [first.eventHead]
    · rw [first.sequence, first.eventHead]
    · rw [first.revision, first.eventHead]
  | @advance old new event found live next =>
    have balanced := sound.revision _ old found
    have started := sound.started _ old found
    refine sound.put (next.bound.trans next.same.symm) (fun sequence => ?_) ?_ next.sequence
      (fun created => absurd created next.kind) ?_
    · rw [next.same, sound.sequences _ old found sequence, next.eventHead]
      omega
    · rw [next.eventHead]
      omega
    · rw [next.revision, next.eventHead, balanced]

theorem Move.keeps (move : Move chart after) : chart.Keeps after := by
  cases move with
  | @begin head event fresh first =>
    have other {id : Text} {found : HeadRow} (there : chart.heads id = some found) :
        id ≠ head.investigationId := by
      rintro rfl
      rw [fresh] at there
      cases there
    constructor
    · intro id found there
      exact ⟨found, (put_other (other there)).trans there, rfl⟩
    · intro id found there _
      refine ⟨(put_other (other there)).trans there, put_events_other ?_⟩
      rw [first.bound]
      exact (other there).symm
  | @advance old new event found live next =>
    constructor
    · intro id head there
      by_cases own : id = new.investigationId
      · subst own
        rw [next.same, found] at there
        cases there
        exact ⟨new, put_self, next.identity⟩
      · exact ⟨head, (put_other own).trans there, rfl⟩
    · intro id head there ended
      have own : id ≠ new.investigationId := by
        rintro rfl
        rw [next.same, found] at there
        cases there
        exact live ended
      refine ⟨(put_other own).trans there, put_events_other ?_⟩
      rw [next.bound, ← next.same]
      exact own.symm

theorem counters_put
    (raised : (head.revision, head.eventHead) = chart.counters head.investigationId + (1, 1))
    (id : Text) : (chart.put head event).counters id =
      chart.counters id + if id = head.investigationId then (1, 1) else 0 := by
  by_cases own : id = head.investigationId
  · rw [if_pos own, own, ← raised, Chart.counters, put_self]
  · rw [if_neg own, add_zero, Chart.counters, put_other own]
    rfl

theorem First.raised (first : First head event)
    (fresh : chart.heads head.investigationId = none) :
    (head.revision, head.eventHead) = chart.counters head.investigationId + (1, 1) := by
  rw [Chart.counters, fresh, first.revision, first.eventHead]
  rfl

theorem Next.raised {old new : HeadRow} (next : Next old new event)
    (found : chart.heads old.investigationId = some old) :
    (new.revision, new.eventHead) = chart.counters new.investigationId + (1, 1) := by
  rw [Chart.counters, next.same, found, next.revision, next.eventHead]
  rfl

end
end Investigation
