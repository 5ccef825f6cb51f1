import Mathlib.Logic.Equiv.List
import Eliot.Investigation.Lineage
import Eliot.Investigation.Replay

namespace Investigation
open Async List
open Sqlite (Engine)

section
variable {α : Type} (tools : Tools) (op : OpKind) (head : LedgerHead) (event : LedgerEvent)

/-- What a call that meets a command with its bytes, or with its identity, does and says; `answer`
    is what is right to answer, by whether the call wrote the command itself. -/
structure Reconciled (answer : Bool → α → Prop) (start : World) (result : Except StoreError α)
    (final : World) : Prop where
  applied : Committed tools op head event start.ledger → final.own = start.own ∧
    ((∃ value, result = .ok value ∧ answer false value) ∨ Uncertain result)
  concurrent : Committed tools op head event final.ledger →
    (∃ wrote value, result = .ok value ∧ answer wrote value) ∨ Uncertain result
  single : final.own ≤ start.own + 1 ∧ ∀ one ∈ final.ledger.commands, ∀ other ∈ final.ledger.commands,
    one.opKind ≠ .supersede → other.opKind ≠ .supersede → one.newEvent.eventId = event.eventId →
      other.newEvent.eventId = event.eventId → one = other
  refused : Clashes tools op head event start.ledger ∨ Clashes tools op head event final.ledger →
    final.own = start.own ∧ ∃ error, result = .error error

variable {tools op head event} {answer : Bool → α → Prop} {start final : World}
  {result : Except StoreError α}

theorem Clashes.mono {before after : Ledger} (clashes : Clashes tools op head event before)
    (later : Later before after) : Clashes tools op head event after := by
  obtain ⟨command, listed, bytes⟩ := clashes
  exact ⟨command, later.commands command listed, bytes⟩

theorem Ended.reconciled (ended : Ended tools op head event answer start result final)
    (real : op ≠ .supersede) : Reconciled tools op head event answer start result final := by
  obtain ⟨wrote, track, settled⟩ := ended
  constructor
  · intro committed
    have silent : wrote = false := by
      by_contra written
      exact (track.written (by simpa using written)).1 committed
    subst silent
    exact ⟨track.own, settled.answered (committed.mono track.later)⟩
  · intro committed
    rcases settled.answered committed with ⟨value, ok, right⟩ | unknown
    · exact .inl ⟨wrote, value, ok, right⟩
    · exact .inr unknown
  · refine ⟨?_, ?_⟩
    · have once := Bool.toNat_le wrote
      have own := track.own
      omega
    · intro one listed other there kind otherKind same equal
      exact command_unique track.receipts listed there kind otherKind (same.trans equal.symm)
  · intro clashes
    have last : Clashes tools op head event final.ledger := by
      rcases clashes with first | last
      · exact first.mono track.later
      · exact last
    have silent : wrote = false := by
      by_contra written
      exact (track.written (by simpa using written)).2.not_clashes track.receipts real last
    subst silent
    exact ⟨track.own, settled.refused last⟩

/-- A call of the store is reconciled with all that happened before it and during it, as long as its
    reads are not disturbed. -/
theorem replay_reconciles (tools : Tools) (engine : Engine) (statements : List (Authority × CommandRow))
    (built : ∀ statement ∈ statements, Built tools statement.2) (head : LedgerHead) (event : LedgerEvent)
    (cancelled : Bool) :
    (∀ result final, Call.Runs (undisturbed tools engine .create head event)
      (create tools engine head event cancelled) ⟨run engine statements, 0⟩ result final →
        Reconciled tools .create head event (Creation head) ⟨run engine statements, 0⟩ result final) ∧
    ∀ expectedRevision result final, Call.Runs (undisturbed tools engine .append head event)
      (append tools engine head expectedRevision event cancelled) ⟨run engine statements, 0⟩ result
        final → Reconciled tools .append head event (fun _ => (· = head)) ⟨run engine statements, 0⟩
          result final := by
  have receipts : Receipts tools (run engine statements) := (steps_receipts built .empty).1
  refine ⟨fun result final runs => ?_, fun expectedRevision result final runs => ?_⟩
  · exact (Call.wp_sound runs (create_wp _ receipts)).reconciled (by decide)
  · exact (Call.wp_sound runs (append_wp _ receipts)).reconciled (by decide)

end

section
variable {α : Type} [Encodable α]

def bracketed (values : List α) : Text := 91 :: values.map Encodable.encode ++ [93]

def unbracketed (json : Text) : Option (List α) := json.tail.dropLast.mapM Encodable.decode

theorem unbracketed_bracketed (values : List α) : unbracketed (bracketed values) = some values := by
  rw [unbracketed, bracketed, cons_append, tail_cons, dropLast_concat]
  induction values with
  | nil => rfl
  | cons value values ih =>
    rw [map_cons, mapM_cons, Encodable.encodek, ih]
    rfl

instance : Encodable LedgerObligation := by
  refine Encodable.ofLeftInverse (fun o => (o.obligationId, o.verifierRef,
    decide (o.lane = .confirmatory), o.metricRef, decide (o.status = .registered),
    decide (o.status = .accepted), o.exposed, o.kind, o.dependencyObligationIds, o.certificateKind,
    o.blocking)) (fun (id, verifier, confirmatory, metric, registered, accepted, rest) =>
      ⟨id, verifier, if confirmatory then .confirmatory else .exploratory, metric,
        if registered then .registered else if accepted then .accepted else .deviated, rest.1,
        rest.2.1, rest.2.2.1, rest.2.2.2.1, rest.2.2.2.2⟩) ?_
  rintro ⟨id, verifier, lane, metric, status, exposed, kind, dependencies, certificate, blocking⟩
  cases lane <;> cases status <;> rfl

def sampleTools : Tools where
  headSchema head := 1 ≤ head.revision ∧ head.eventHead ≤ 1000000
  eventSchema event := 1 ≤ event.sequence
  eventHead_bounded head valid := by
    simp only [decide_eq_true_eq] at valid
    exact valid.2
  stringifyRefs := bracketed
  stringifyObligations := bracketed
  parseRefs := unbracketed
  parseObligations := unbracketed
  parse_stringifyRefs := unbracketed_bracketed
  parse_stringifyObligations := unbracketed_bracketed
  dateParse time := if time = moment then some 0 else if time = expiry then some 300000 else none
  toISOString millis := if millis = 0 then moment else expiry
  lastDay _ _ := 30

/-- The head of `a` with some checkpoints. -/
def ledgerA (revision : Int) : LedgerHead where
  investigationId := text "a"
  revision := revision
  protocolVersion := text "eliotr.investigation.v1"
  goal := text "goal"
  scopeSnapshotId := text "scope"
  scopeSnapshotRevision := 1
  evidenceGrade := .e0
  lane := .exploratory
  laneRegistrations := []
  obligations := []
  hypotheses := []
  portfolioRef := text "portfolio"
  debtRefs := []
  checkpointHead := revision - 1
  principalRef := text "owner"
  inputDigest := List.replicate 64 97
  policyGeneration := text "generation"
  policyAuthorityRef := text "policy"
  deploymentGeneration := text "deployment"
  idempotencyKey := text "key of a"
  modelProfileRef := text "model"
  observedExecution := none
  observedFidelity := none
  observedAssurance := none
  status := .open
  supersedesId := none
  supersessionReason := none
  eventHead := revision
  createdAt := moment
  updatedAt := moment

def sampleFence : LedgerCommandFence :=
  ⟨text "owner", text "scope", 1, text "generation", text "policy", text "deployment", 0, some 0⟩

/-- The statement that creates `a`. -/
def creation : Authority × CommandRow :=
  (sampleAuthority, buildCreateCommand sampleTools (ledgerA 1) (sampleEvent "a" "1" 1 .created)
    sampleFence 1 moment)

/-- The statement that appends a checkpoint to `a`. -/
def checkpoint (id : String) (revision : Int) : Authority × CommandRow :=
  (sampleAuthority, buildAppendCommand sampleTools (ledgerA revision) (revision - 1)
    (sampleEvent "a" id revision .checkpoint) sampleFence 1 moment)

def answered : Choice := ⟨sampleAuthority, .answered⟩

theorem samples_built : Built sampleTools creation.2 ∧ Built sampleTools (checkpoint "2" 2).2 ∧
    Built sampleTools (checkpoint "3" 3).2 := by
  refine ⟨@Built.create _ (ledgerA 1) _ sampleFence 1 ?_ ?_, @Built.append _ (ledgerA 2) 1 _ sampleFence 1 ?_ ?_,
    @Built.append _ (ledgerA 3) 2 _ sampleFence 1 ?_ ?_⟩
  all_goals decide +kernel

/-- An append that is sent again right after it was committed is answered with its head. -/
theorem retry_reconciled : ∃ final, Reconciled sampleTools .append (ledgerA 2)
    (sampleEvent "a" "2" 2 .checkpoint) (fun _ => (· = ledgerA 2))
    ⟨run sample [creation, checkpoint "2" 2], 0⟩ (.ok (ledgerA 2)) final := by
  have built : ∀ statement ∈ [creation, checkpoint "2" 2], Built sampleTools statement.2 := by
    simp only [forall_mem_cons, samples_built, not_mem_nil, false_implies, implies_true,
      and_self]
  let quiet : Purpose → Choice → World → Bool := fun purpose choice world =>
    choice.outcome = .answered ∧ purpose ≠ .current ∧
      world.ledger.commands.rows = [creation.2, (checkpoint "2" 2).2] ∧
        world.ledger.heads.find (text "a") = some (ledgerHeadBindings sampleTools (ledgerA 2))
  have met (label : Purpose) (choice : Choice) (world : World) (meets : quiet label choice world = true) :
      (undisturbed sampleTools sample .append (ledgerA 2) (sampleEvent "a" "2" 2 .checkpoint)).allowed
        label choice world := by
    obtain ⟨told, other, listed, live⟩ := of_decide_eq_true meets
    cases label with
    | lookup => exact fun _ => told
    | epoch => exact fun _ => told
    | committed => exact fun _ _ => told
    | current => exact absurd rfl other
    | compared =>
      intro command there _ same
      have either : command ∈ [creation.2, (checkpoint "2" 2).2] := listed ▸ there
      rcases mem_pair.mp either with rfl | rfl
      · exact absurd same (by decide +kernel)
      · exact iff_of_true live rfl
    | readback => trivial
    | events => trivial
    | fence => trivial
    | write => trivial
  have played : ((append sampleTools sample (ledgerA 2) 1 (sampleEvent "a" "2" 2 .checkpoint) false).play
      quiet [answered, answered, answered] ⟨run sample [creation, checkpoint "2" 2], 0⟩).map Prod.fst =
        some (.ok (ledgerA 2)) := by
    decide +kernel
  obtain ⟨⟨result, final⟩, play, rfl⟩ := Option.map_eq_some_iff.mp played
  exact ⟨final, (replay_reconciles sampleTools sample _ built _ _ false).2 1 _ final
    (Call.play_runs Moves.refl met play)⟩

/-- An append that is sent again after the next one was committed is answered with a conflict. -/
theorem retry_conflicts : ¬∀ (tools : Tools) (engine : Engine) (statements : List (Authority × CommandRow)),
    (∀ statement ∈ statements, Built tools statement.2) → ∀ (head : LedgerHead) (event : LedgerEvent)
      (cancelled : Bool) (expectedRevision : Int) (result : Except StoreError LedgerHead) (final : World),
        Call.Runs ⟨Moves tools engine, fun _ _ _ => True⟩
          (append tools engine head expectedRevision event cancelled) ⟨run engine statements, 0⟩ result
            final → Reconciled tools .append head event (fun _ => (· = head)) ⟨run engine statements, 0⟩
              result final := by
  intro claim
  let statements := [creation, checkpoint "2" 2, checkpoint "3" 3]
  have built : ∀ statement ∈ statements, Built sampleTools statement.2 := by
    simp only [statements, forall_mem_cons, samples_built, not_mem_nil, false_implies,
      implies_true, and_self]
  have played : ((append sampleTools sample (ledgerA 2) 1 (sampleEvent "a" "2" 2 .checkpoint) false).play
      (fun _ _ _ => true) [answered, answered, answered] ⟨run sample statements, 0⟩).map Prod.fst =
        some (.error (.ledger ⟨.conflict, text "event id already bound to a committed event", false⟩)) := by
    decide +kernel
  obtain ⟨⟨result, final⟩, play, rfl⟩ := Option.map_eq_some_iff.mp played
  have runs : Call.Runs ⟨Moves sampleTools sample, fun _ _ _ => True⟩ _ _ _ _ :=
    Call.play_runs Moves.refl (fun _ _ _ _ => trivial) play
  have reconciled := claim sampleTools sample statements built _ _ _ _ _ _ runs
  have committed : Committed sampleTools .append (ledgerA 2) (sampleEvent "a" "2" 2 .checkpoint)
      (run sample statements) :=
    ⟨(checkpoint "2" 2).2, Relational.Table.mem_rows.mpr (by decide +kernel), rfl, rfl, rfl⟩
  rcases (reconciled.applied committed).2 with ⟨value, ok, -⟩ | ⟨message, unknown⟩
  · cases ok
  · cases unknown

end
end Investigation
