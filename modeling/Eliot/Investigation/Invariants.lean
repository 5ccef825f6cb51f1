import Eliot.Investigation.Chart

namespace Investigation

open List
open Relational (Table)
open Sqlite (Engine)

def CommandRow.targets (command : CommandRow) : List Text :=
  match command.opKind with
  | .create | .append => [command.newHead.investigationId]
  | .supersede => command.newHead.investigationId :: command.oldHead.investigationId.toList

section
variable {before after : Ledger} {command : CommandRow}

theorem chart_put {head : HeadRow} {event : EventRow} (heads : before.Puts head after)
    (events : after.events.rows = before.events.rows ++ [event]) :
    after.chart = before.chart.put head event := by
  unfold Ledger.chart Chart.put
  rw [events, Chart.mk.injEq]
  exact ⟨funext heads, rfl⟩

theorem chart_put_put {old mark head : HeadRow} {first event : EventRow}
    (same : mark.investigationId = old.investigationId)
    (heads : ∀ id, after.heads.find id = if id = old.investigationId then some mark
      else if id = head.investigationId then some head else before.heads.find id)
    (events : after.events.rows = before.events.rows ++ [first, event]) :
    after.chart = (before.chart.put head first).put mark event := by
  unfold Ledger.chart Chart.put
  rw [events, Chart.mk.injEq, same]
  exact ⟨funext heads, by simp⟩

theorem Effect.moves (effect : Effect before command after) :
    Relation.ReflTransGen Move before.chart after.chart := by
  cases effect with
  | create kind fresh first alone heads events =>
    rw [chart_put heads events]
    exact .single (.begin fresh first)
  | append kind found live next lineage heads events =>
    rw [chart_put heads events]
    exact .single (.advance found live next)
  | @supersede old mark event kind target found live assigned marked next fresh first opened link heads
      events =>
    rw [chart_put_put next.same heads events]
    have other : old.investigationId ≠ command.newHead.investigationId := by
      intro equal
      rw [equal, fresh] at found
      cases found
    have kept : (before.chart.put command.newHead command.newEvent).heads old.investigationId =
        some old := (put_other other).trans found
    have apart : old.status ≠ .superseded := by
      rw [live]
      decide
    exact .tail (.single (.begin fresh first)) (.advance kept apart next)

theorem Effect.counters (effect : Effect before command after) (id : Text) :
    after.chart.counters id =
      before.chart.counters id + if id ∈ command.targets then (1, 1) else 0 := by
  cases effect with
  | create kind fresh first alone heads events =>
    rw [chart_put heads events, counters_put (first.raised fresh)]
    simp [CommandRow.targets, kind]
  | append kind found live next lineage heads events =>
    rw [chart_put heads events, counters_put (next.raised found)]
    simp [CommandRow.targets, kind]
  | @supersede old mark event kind target found live assigned marked next fresh first opened link heads
      events =>
    have other : old.investigationId ≠ command.newHead.investigationId := by
      intro equal
      rw [equal, fresh] at found
      cases found
    have kept : (before.chart.put command.newHead command.newEvent).heads old.investigationId =
        some old := (put_other other).trans found
    rw [chart_put_put next.same heads events, counters_put (next.raised kept),
      counters_put (first.raised fresh), next.same, add_assoc]
    congr 1
    simp only [CommandRow.targets, kind, target, Option.toList_some, mem_cons,
      not_mem_nil, or_false]
    by_cases one : id = command.newHead.investigationId
    · rw [if_pos one, if_neg (fun same => other (same.symm.trans one)), if_pos (.inl one), add_zero]
    · rw [if_neg one, zero_add]
      simp only [one, false_or]

end

section
variable {engine : Engine}

theorem step_moves (ledger : Ledger) (statement : Authority × CommandRow) :
    Relation.ReflTransGen Move ledger.chart (step engine ledger statement).chart := by
  unfold step
  cases ran : insertCommand engine statement.1 statement.2 ledger with
  | ok after => exact (insertCommand_effect ran).moves
  | error failure => exact .refl

theorem steps_moves (ledger : Ledger) (statements : List (Authority × CommandRow)) :
    Relation.ReflTransGen Move ledger.chart (statements.foldl (step engine) ledger).chart := by
  induction statements generalizing ledger with
  | nil => exact .refl
  | cons statement statements ih => exact (step_moves ledger statement).trans (ih _)

theorem moves_sound {before after : Chart} (moves : Relation.ReflTransGen Move before after)
    (sound : before.Sound) : after.Sound := by
  induction moves with
  | refl => exact sound
  | tail _ move ih => exact move.sound ih

theorem moves_keep {before after : Chart} (moves : Relation.ReflTransGen Move before after) :
    before.Keeps after := by
  induction moves with
  | refl => exact .refl before
  | tail _ move ih => exact ih.trans move.keeps

theorem empty_sound : Ledger.empty.chart.Sound := by
  have none (id : Text) : Ledger.empty.chart.heads id = none := rfl
  constructor
  · intro id head found
    cases (none id).symm.trans found
  · intro id head found
    cases (none id).symm.trans found
  · exact fun event listed => absurd listed not_mem_nil
  · exact fun event listed => absurd listed not_mem_nil
  · intro id head found
    cases (none id).symm.trans found
  · intro id head found
    cases (none id).symm.trans found

theorem run_append (statements more : List (Authority × CommandRow)) :
    run engine (statements ++ more) = more.foldl (step engine) (run engine statements) := by
  rw [run, run, foldl_append]

theorem run_sound (statements : List (Authority × CommandRow)) :
    (run engine statements).chart.Sound :=
  moves_sound (steps_moves Ledger.empty statements) empty_sound

/-- The invariants of every run of commands, under any authority, accepted or not. -/
theorem ledger_invariants (engine : Engine) (statements more : List (Authority × CommandRow)) :
    (run engine statements).chart.Sound ∧
      (run engine statements).chart.Keeps (run engine (statements ++ more)).chart ∧
      ∀ authority command,
        (∀ after, insertCommand engine authority command (run engine statements) = .ok after →
          ∀ id, after.chart.counters id = (run engine statements).chart.counters id +
            if id ∈ command.targets then (1, 1) else 0) ∧
        ∀ failure,
          insertCommand engine authority command (run engine statements) = .error failure →
            run engine (statements ++ [(authority, command)]) = run engine statements := by
  refine ⟨run_sound statements, ?_, fun authority command => ⟨?_, ?_⟩⟩
  · rw [run_append]
    exact moves_keep (steps_moves _ more)
  · intro after ran id
    exact (insertCommand_effect ran).counters id
  · intro failure failed
    rw [run_append, foldl_cons, foldl_nil, step, failed]

end
end Investigation
