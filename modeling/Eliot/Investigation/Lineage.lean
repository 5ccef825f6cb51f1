import Eliot.Collections.Chains
import Eliot.Investigation.Invariants

namespace Investigation

open List
open Chains (Forest Points)
open Sqlite (Engine)

section

def Chart.supersedes (chart : Chart) (id : Text) : Option Text :=
  (chart.heads id).bind HeadRow.supersedesId

structure Chart.Lineage (chart : Chart) : Prop where
  forest : Forest chart.supersedes
  ended : ∀ id other, chart.supersedes id = some other →
    ∃ head, chart.heads other = some head ∧ head.status = .superseded

def KeepsLink (ledger : Ledger) (command : CommandRow) : Prop :=
  command.opKind = .supersede → ∀ head, ledger.marked command = some head →
    command.oldHead.supersedesId = head.supersedesId

def Along (engine : Engine) (condition : Ledger → CommandRow → Prop)
    (statements : List (Authority × CommandRow)) : Prop :=
  ∀ before authority command rest, statements = before ++ (authority, command) :: rest →
    ∀ after, insertCommand engine authority command (run engine before) = .ok after →
      condition (run engine before) command

variable {before after : Ledger} {command : CommandRow}

/-- A command that is no supersession, or a supersession whose mark keeps its link, adds the link of
    the replacement and changes none. -/
theorem Effect.supersedes (effect : Effect before command after) (keeps : KeepsLink before command) :
    after.chart.supersedes = before.chart.supersedes ∨
      ∃ old head, before.chart.heads old = some head ∧ head.status = .open ∧
        before.chart.heads command.newHead.investigationId = none ∧
        (∃ mark, after.chart.heads old = some mark ∧ mark.status = .superseded) ∧
        after.chart.supersedes = Function.update before.chart.supersedes
          command.newHead.investigationId (some old) := by
  cases effect with
  | create kind fresh first alone heads events =>
    left
    rw [chart_put heads events]
    funext id
    unfold Chart.supersedes
    by_cases own : id = command.newHead.investigationId
    · have none : before.chart.heads id = none := own ▸ fresh
      rw [own, put_self, Option.bind_some, alone, ← own, none]
      rfl
    · rw [put_other own]
  | @append old kind found live next lineage heads events =>
    left
    rw [chart_put heads events]
    funext id
    unfold Chart.supersedes
    by_cases own : id = command.newHead.investigationId
    · have there : before.chart.heads id = some old := by
        rw [own, next.same]
        exact found
      rw [there, own, put_self, Option.bind_some, Option.bind_some, lineage]
    · rw [put_other own]
  | @supersede old mark event kind target found live assigned marked next fresh first opened link heads
      events =>
    right
    have other : old.investigationId ≠ command.newHead.investigationId := by
      intro equal
      rw [equal, fresh] at found
      cases found
    have named : before.marked command = some old := by
      unfold Ledger.marked
      rw [target, Option.bind_some, found]
    have kept : mark.supersedesId = old.supersedesId := by
      have bytes := congrArg OldHead.supersedesId (assign_some assigned).2.2
      exact bytes.symm.trans (keeps kind old named)
    refine ⟨old.investigationId, old, found, live, fresh, ⟨mark, ?_, marked⟩, ?_⟩
    · exact (heads old.investigationId).trans (if_pos rfl)
    · funext id
      have row := heads id
      unfold Chart.supersedes
      by_cases own : id = command.newHead.investigationId
      · subst own
        rw [if_neg other.symm, if_pos rfl] at row
        rw [Function.update_self]
        exact (congrArg (·.bind HeadRow.supersedesId) row).trans link
      · rw [Function.update_of_ne own]
        by_cases earlier : id = old.investigationId
        · subst earlier
          rw [if_pos rfl] at row
          have here : before.chart.heads old.investigationId = some old := found
          rw [here, Option.bind_some, ← kept]
          exact congrArg (·.bind HeadRow.supersedesId) row
        · rw [if_neg earlier, if_neg own] at row
          exact congrArg (·.bind HeadRow.supersedesId) row

theorem Effect.lineage (effect : Effect before command after) (keeps : KeepsLink before command)
    (lineage : before.chart.Lineage) : after.chart.Lineage := by
  have stays := moves_keep effect.moves
  rcases effect.supersedes keeps with same | ⟨old, head, found, live, fresh, ⟨mark, there, marked⟩, link⟩
  · constructor
    · rw [same]
      exact lineage.forest
    · intro id other points
      rw [same] at points
      obtain ⟨gone, present, ended⟩ := lineage.ended id other points
      exact ⟨gone, (stays.superseded other gone present ended).1, ended⟩
  · constructor
    · rw [link]
      refine lineage.forest.extend ?_ ?_ ?_
      · intro other points
        obtain ⟨gone, present, -⟩ := lineage.ended other _ points
        rw [fresh] at present
        cases present
      · intro other points
        obtain ⟨gone, present, ended⟩ := lineage.ended other _ points
        rw [found] at present
        cases present
        rw [live] at ended
        cases ended
      · rintro rfl
        rw [fresh] at found
        cases found
    · intro id other points
      rw [link] at points
      by_cases own : id = command.newHead.investigationId
      · rw [own, Function.update_self] at points
        cases points
        exact ⟨mark, there, marked⟩
      · rw [Function.update_of_ne own] at points
        obtain ⟨gone, present, ended⟩ := lineage.ended id other points
        exact ⟨gone, (stays.superseded other gone present ended).1, ended⟩

theorem Effect.link (effect : Effect before command after) (keeps : KeepsLink before command)
    {id : Text} {head : HeadRow} (found : before.chart.heads id = some head) :
    after.chart.supersedes id = before.chart.supersedes id := by
  rcases effect.supersedes keeps with same | ⟨old, other, -, -, fresh, -, link⟩
  · rw [same]
  · rw [link, Function.update_of_ne]
    rintro rfl
    rw [fresh] at found
    cases found

end

section
variable {engine : Engine} {condition : Ledger → CommandRow → Prop}

theorem run_from {holds : Ledger → Prop}
    (keep : ∀ before authority command after, holds before → condition before command →
      insertCommand engine authority command before = .ok after → holds after)
    (statements more : List (Authority × CommandRow))
    (along : Along engine condition (statements ++ more)) (start : holds (run engine statements)) :
    holds (run engine (statements ++ more)) := by
  induction more using List.reverseRecOn with
  | nil =>
    rw [append_nil]
    exact start
  | append_singleton more statement ih =>
    obtain ⟨authority, command⟩ := statement
    have earlier : Along engine condition (statements ++ more) := by
      intro before authority' command' rest split
      refine along before authority' command' (rest ++ [(authority, command)]) ?_
      rw [← append_assoc, split]
      simp
    rw [← append_assoc, run_append, foldl_cons, foldl_nil, step]
    cases ran : insertCommand engine authority command (run engine (statements ++ more)) with
    | error failure => exact ih earlier
    | ok after =>
      have met := along (statements ++ more) authority command [] (by simp) after ran
      exact keep _ authority command after (ih earlier) met ran

theorem Along.left {statements more : List (Authority × CommandRow)}
    (along : Along engine condition (statements ++ more)) : Along engine condition statements := by
  intro before authority command rest split
  refine along before authority command (rest ++ more) ?_
  rw [split]
  simp

theorem empty_lineage : Ledger.empty.chart.Lineage :=
  ⟨Forest.empty, fun _ _ points => by cases points⟩

theorem run_lineage (statements : List (Authority × CommandRow))
    (along : Along engine KeepsLink statements) : (run engine statements).chart.Lineage :=
  run_from (fun _ _ _ _ lineage keeps ran => (insertCommand_effect ran).lineage keeps lineage) []
    statements along empty_lineage

theorem run_link (statements more : List (Authority × CommandRow))
    (along : Along engine KeepsLink (statements ++ more)) {id : Text} {head : HeadRow}
    (found : (run engine statements).chart.heads id = some head) :
    ∃ later, (run engine (statements ++ more)).chart.heads id = some later ∧
      later.supersedesId = head.supersedesId := by
  refine @run_from engine KeepsLink (fun ledger => ∃ later, ledger.chart.heads id = some later ∧
    later.supersedesId = head.supersedesId) ?_ statements more along ⟨head, found, rfl⟩
  rintro before _ command after ⟨later, there, same⟩ keeps ran
  have effect := insertCommand_effect ran
  obtain ⟨next, present, -⟩ := (moves_keep effect.moves).identity id later there
  have link := effect.link keeps there
  unfold Chart.supersedes at link
  rw [present, there] at link
  exact ⟨next, present, link.trans same⟩

/-- From one state of a run to a later one: nothing that is superseded is forgotten, only what is
    superseded is named, by one head only, and never in a circle. -/
structure Chart.Permanent (before after : Chart) : Prop where
  kept : ∀ id head, before.heads id = some head →
    ∃ later, after.heads id = some later ∧ later.supersedesId = head.supersedesId
  ended : ∀ id other, before.supersedes id = some other →
    ∃ head, before.heads other = some head ∧ head.status = .superseded
  single : ∀ first second other, before.supersedes first = some other →
    before.supersedes second = some other → first = second
  acyclic : ∀ id, ¬Relation.TransGen (fun one other => before.supersedes one = some other) id id

theorem keepsLink_of_kept {before after : Ledger} {authority : Authority} {command : CommandRow}
    (ran : insertCommand engine authority command before = .ok after)
    (permanent : before.chart.Permanent after.chart) : KeepsLink before command := by
  intro kind head named
  cases insertCommand_effect ran with
  | create other => rw [kind] at other; cases other
  | append other => rw [kind] at other; cases other
  | @supersede old mark event _ target found live assigned marked next fresh first opened link heads
      events =>
    have here : before.marked command = some old := by
      unfold Ledger.marked
      rw [target, Option.bind_some, found]
    rw [here] at named
    cases named
    obtain ⟨later, there, same⟩ := permanent.kept head.investigationId head found
    have row : after.chart.heads head.investigationId = some mark :=
      (heads head.investigationId).trans (if_pos rfl)
    rw [row] at there
    cases there
    exact (congrArg OldHead.supersedesId (assign_some assigned).2.2).trans same

/-- Supersession makes a permanent forest of chains in exactly those runs in which no mark changes a
    link. -/
theorem supersession_forest (engine : Engine) (statements : List (Authority × CommandRow)) :
    (∀ first middle rest, statements = first ++ middle ++ rest →
      (run engine first).chart.Permanent (run engine (first ++ middle)).chart) ↔
    Along engine KeepsLink statements := by
  constructor
  · intro permanent before authority command rest split after ran
    have moved := permanent before [(authority, command)] rest (by simp [split])
    rw [run_append, foldl_cons, foldl_nil, step, ran] at moved
    exact keepsLink_of_kept ran moved
  · rintro along first middle rest rfl
    have lineage := run_lineage first along.left.left
    exact ⟨fun id head found => run_link first middle along.left found, lineage.ended,
      lineage.forest.single, lineage.forest.acyclic⟩

end

def moment : Text := text "2026-09-06T00:00:00.000Z"

def expiry : Text := text "2026-09-06T00:05:00.000Z"

def obligation (status : String) : Text :=
  text "\x7b\"obligation_id\":\"o\",\"verifier_ref\":\"v\",\"lane\":\"exploratory\",\"metric_ref\":\"m\",\"status\":\""
    ++ text status ++ text "\",\"exposed\":false\x7d"

def obligationStatuses : List String := ["REGISTERED", "ACCEPTED", "DEVIATED"]

def listOf (entry : Text) : Text := 91 :: entry ++ [93]

def elements (json : Text) : List Text :=
  (obligationStatuses.map obligation).filter fun entry => json = listOf entry

def extract (value : Sqlite.Value) (field : Text) : Sqlite.Value :=
  match obligationStatuses.find? fun status => value = .text (obligation status) with
  | none => .null
  | some status =>
    if field = text "status" then .text (text status)
    else if field = text "obligation_id" then .text (text "o")
    else if field = text "verifier_ref" then .text (text "v")
    else if field = text "lane" then .text (text "exploratory")
    else if field = text "metric_ref" then .text (text "m")
    else if field = text "exposed" then .number 0
    else .null

def sample : Engine where
  julianday time := if time = moment then some 0 else if time = expiry then some 300000 else none
  strftime time := if time = moment ∨ time = expiry then some time else none
  jsonValid json := json = text "[]" ∨ elements json ≠ []
  jsonArrayLength json := (elements json).length
  jsonEach json := Sqlite.rows 0 ((elements json).map .text)
  jsonExtract := extract
  jsonExtractAt json position field :=
    match (elements json)[position]? with
    | none => .null
    | some entry => extract (.text entry) field
  array json _ := by rw [Sqlite.keys_rows, length_map]
  element json position field _ found := by
    cases there : (elements json)[position]? with
    | none => simp [there] at found
    | some entry =>
      have listed : ((elements json).map Sqlite.Value.text)[position]? = some (.text entry) := by
        rw [getElem?_map, there]
        rfl
      exact ⟨.text entry, Sqlite.mem_rows listed, rfl⟩

def sampleAuthority : Authority where
  scopeSnapshot := [⟨text "scope", 1, none, expiry, text "policy", 0⟩]
  scopeAccessGrant := [⟨text "scope", 1, text "owner", true, expiry, text "policy"⟩]
  investigationCurrentPolicy := [⟨text "generation", text "policy", true⟩]
  investigationCurrentDeployment := [⟨text "deployment", true⟩]
  purgeLedger := []
  investigationLedgerEpoch := some 1
  now := 0

def sampleHead (id : String) : HeadRow where
  investigationId := text id
  revision := 1
  protocolVersion := text "eliotr.investigation.v1"
  goal := text "goal"
  scopeSnapshotId := text "scope"
  scopeSnapshotRevision := 1
  evidenceGrade := .e0
  lane := .exploratory
  laneRegistrationsJson := text "[]"
  obligationsJson := listOf (obligation "REGISTERED")
  hypothesesJson := text "[]"
  portfolioRef := text "portfolio"
  debtRefsJson := text "[]"
  checkpointHead := 0
  principalRef := text "owner"
  inputDigest := List.replicate 64 97
  policyGeneration := text "generation"
  policyAuthorityRef := text "policy"
  deploymentGeneration := text "deployment"
  idempotencyKey := text "key of " ++ text id
  modelProfileRef := text "model"
  observedExecution := none
  observedFidelity := none
  observedAssurance := none
  status := .open
  supersedesId := none
  supersessionReason := none
  eventHead := 1
  createdAt := moment
  updatedAt := moment

def sampleEvent (investigation event : String) (sequence : Int) (kind : LedgerEventKind) :
    EventRow where
  investigationId := text investigation
  sequence := sequence
  eventId := text event
  kind := kind
  payloadHandleRef := text "payload"
  payloadDigest := List.replicate 64 97
  actorRef := text "owner"
  verifierRef := none
  createdAt := moment

def sampleCommand (id : String) (kind : OpKind) (old : Int) (oldHead : OldHead) (oldEvent : OldEvent)
    (newHead : HeadRow) (newEvent : EventRow) : CommandRow where
  commandId := text id
  opKind := kind
  expectedOldRevision := old
  expectedNewRevision := old + 1
  expectedOldEventHead := old
  expectedNewEventHead := old + 1
  expectedEpoch := 1
  principalRef := text "owner"
  scopeSnapshotId := text "scope"
  scopeSnapshotRevision := 1
  policyGeneration := text "generation"
  policyAuthorityRef := text "policy"
  deploymentGeneration := text "deployment"
  globalPurgeRevision := 0
  scopePurgeRevision := some 0
  observedAt := moment
  expiresAt := expiry
  oldHead := oldHead
  oldEvent := oldEvent
  newHead := newHead
  newEvent := newEvent

def createA : CommandRow := sampleCommand "cmd-1" .create 0 noHead noEvent (sampleHead "a")
  (sampleEvent "a" "1" 1 .created)

/-- The head of `a` as its supersession marks it. -/
def markedA : HeadRow :=
  { sampleHead "a" with revision := 2, eventHead := 2, status := .superseded }

def markEvent : OldEvent := ⟨some (text "a"), some 2, some (text "2"), some .superseded,
  some (text "payload"), some (List.replicate 64 97), some (text "owner"), none, some moment⟩

/-- `b` supersedes `a`; the bytes of the marked head are given. -/
def supersedeA (mark : HeadRow) : CommandRow := sampleCommand "cmd-2" .supersede 1 mark.mark markEvent
  { sampleHead "b" with supersedesId := some (text "a") } (sampleEvent "b" "3" 1 .created)

/-- A mark that turns the link around is accepted, and the two investigations supersede each other. -/
theorem mark_rewrites_link :
    ¬∀ (engine : Engine) (statements first middle rest : List (Authority × CommandRow)),
      statements = first ++ middle ++ rest →
        (run engine first).chart.Permanent (run engine (first ++ middle)).chart := by
  intro claim
  let circle : HeadRow := { markedA with supersedesId := some (text "b") }
  have start : (run sample [(sampleAuthority, createA)]).chart.heads (text "a") =
      some (sampleHead "a") := by decide +kernel
  have marked : (run sample [(sampleAuthority, createA), (sampleAuthority, supersedeA circle)]).chart.heads
      (text "a") = some circle := by decide +kernel
  obtain ⟨later, there, same⟩ := (claim sample _ [(sampleAuthority, createA)]
    [(sampleAuthority, supersedeA circle)] [] rfl).kept (text "a") (sampleHead "a") start
  rw [singleton_append, marked] at there
  cases there
  exact absurd same (by decide +kernel)

end Investigation
