import Eliot.Collections.Chains
import Eliot.Dispatch.Guards
import Eliot.Dispatch.Records

namespace Dispatch
open Relational (Table)
open Sqlite (Engine)
open Chains (Forest Points)

def Grown {Row : Type} {key : Row → Text} (before after : Table Row Text key) : Prop :=
  ∀ id row, before.find id = some row → after.find id = some row

theorem Grown.refl {Row : Type} {key : Row → Text} (table : Table Row Text key) : Grown table table :=
  fun _ _ found => found

theorem Grown.trans {Row : Type} {key : Row → Text} {first second third : Table Row Text key}
    (one : Grown first second) (two : Grown second third) : Grown first third :=
  fun id row found => two id row (one id row found)

theorem Grown.inserted {Row : Type} {key : Row → Text} {before after : Table Row Text key} {row : Row}
    (inserted : before.insert row = some after) : Grown before after :=
  fun _ _ found => Table.find_insert_of_find inserted found

theorem Grown.isSome {Row : Type} {key : Row → Text} {before after : Table Row Text key}
    (grown : Grown before after) {id : Text} (there : (before.find id).isSome) :
    (after.find id).isSome := by
  obtain ⟨row, found⟩ := Option.isSome_iff_exists.mp there
  rw [grown id row found]
  rfl

theorem isSome_insert {Row : Type} {key : Row → Text} {before after : Table Row Text key} {row : Row}
    (inserted : before.insert row = some after) (id : Text) :
    (after.find id).isSome = (key row = id ∨ (before.find id).isSome) := by
  rw [Table.find_insert inserted]
  by_cases same : key row = id <;> simp [same]

structure Keeps (before after : Tables) : Prop where
  dispatches : Grown before.dispatches after.dispatches
  acceptances : Grown before.acceptances after.acceptances
  abandonments : Grown before.abandonments after.abandonments
  declines : Grown before.declines after.declines
  reassignments : Grown before.reassignments after.reassignments

theorem Keeps.refl (tables : Tables) : Keeps tables tables :=
  ⟨.refl _, .refl _, .refl _, .refl _, .refl _⟩

theorem Keeps.trans {first second third : Tables} (one : Keeps first second) (two : Keeps second third) :
    Keeps first third :=
  ⟨one.dispatches.trans two.dispatches, one.acceptances.trans two.acceptances,
    one.abandonments.trans two.abandonments, one.declines.trans two.declines,
    one.reassignments.trans two.reassignments⟩

variable {row : ReassignmentRow}

section
variable {engine : Engine} {authority : Authority} {before after : Tables}

theorem of_guard {condition : Bool} {result : Unit}
    (allowed : (guard (condition = true) : Option Unit) = some result) : condition = true := by
  unfold guard at allowed
  split at allowed
  · assumption
  · cases allowed

theorem insertDispatch_some {row : DispatchRow}
    (inserted : before.insertDispatch engine authority row = some after) :
    authority.supports engine row = true ∧ row.checked engine = true ∧
      ∃ dispatches keys, before.dispatches.insert row = some dispatches ∧
        after = { before with dispatches, dispatchKeys := keys } := by
  unfold Tables.insertDispatch at inserted
  obtain ⟨_, allowed, inserted⟩ := Option.bind_eq_some_iff.mp inserted
  obtain ⟨dispatches, stored, inserted⟩ := Option.bind_eq_some_iff.mp inserted
  have both := of_guard allowed
  rw [Bool.and_eq_true] at both
  split at inserted
  · rename_i keys
    exact ⟨both.1, both.2, dispatches, keys, stored, (Option.some.inj inserted).symm⟩
  · cases inserted

theorem insertAcceptance_some {row : AcceptanceRow}
    (inserted : before.insertAcceptance engine authority row = some after) :
    acceptanceGuard engine authority before row = true ∧ row.checked engine = true ∧
      (after = before ∧ before.accepted row.dispatchId = true ∨
        ∃ acceptances instances, before.acceptances.insert row = some acceptances ∧
          after = { before with acceptances, workflowInstances := instances }) := by
  unfold Tables.insertAcceptance at inserted
  obtain ⟨_, allowed, inserted⟩ := Option.bind_eq_some_iff.mp inserted
  have both := of_guard allowed
  rw [Bool.and_eq_true] at both
  refine ⟨both.1, both.2, ?_⟩
  split at inserted
  · rename_i taken
    exact .inl ⟨(Option.some.inj inserted).symm, Table.insert_none.mp taken⟩
  · rename_i acceptances stored
    split at inserted
    · rename_i instances
      exact .inr ⟨acceptances, instances, stored, (Option.some.inj inserted).symm⟩
    · cases inserted

theorem insertAbandonment_some {row : AbandonmentRow}
    (inserted : before.insertAbandonment engine authority row = some after) :
    abandonmentGuard engine authority before row = true ∧ row.checked engine = true ∧
      ∃ abandonments keys, before.abandonments.insert row = some abandonments ∧
        after = { before with abandonments, abandonmentKeys := keys } := by
  unfold Tables.insertAbandonment at inserted
  obtain ⟨_, allowed, inserted⟩ := Option.bind_eq_some_iff.mp inserted
  obtain ⟨abandonments, stored, inserted⟩ := Option.bind_eq_some_iff.mp inserted
  have both := of_guard allowed
  rw [Bool.and_eq_true] at both
  split at inserted
  · rename_i keys
    exact ⟨both.1, both.2, abandonments, keys, stored, (Option.some.inj inserted).symm⟩
  · cases inserted

theorem insertDecline_some {row : DeclineRow}
    (inserted : before.insertDecline engine row = some after) :
    declineGuard engine before row = true ∧ row.checked engine = true ∧
      ∃ declines keys, before.declines.insert row = some declines ∧
        after = { before with declines, declineKeys := keys } := by
  unfold Tables.insertDecline at inserted
  obtain ⟨_, allowed, inserted⟩ := Option.bind_eq_some_iff.mp inserted
  obtain ⟨declines, stored, inserted⟩ := Option.bind_eq_some_iff.mp inserted
  have both := of_guard allowed
  rw [Bool.and_eq_true] at both
  split at inserted
  · rename_i keys
    exact ⟨both.1, both.2, declines, keys, stored, (Option.some.inj inserted).symm⟩
  · cases inserted

theorem insertReassignment_some
    (inserted : before.insertReassignment engine authority row = some after) :
    reassignmentGuard engine authority before row = true ∧ row.checked engine = true ∧
      ∃ reassignments successors keys, before.reassignments.insert row = some reassignments ∧
        after = { before with reassignments, successors, reassignmentKeys := keys } := by
  unfold Tables.insertReassignment at inserted
  obtain ⟨_, allowed, inserted⟩ := Option.bind_eq_some_iff.mp inserted
  obtain ⟨reassignments, stored, inserted⟩ := Option.bind_eq_some_iff.mp inserted
  have both := of_guard allowed
  rw [Bool.and_eq_true] at both
  split at inserted
  · rename_i successors
    split at inserted
    · rename_i keys
      exact ⟨both.1, both.2, reassignments, successors, keys, stored, (Option.some.inj inserted).symm⟩
    · cases inserted
  · cases inserted

theorem insert_keeps {insert : Insert} (inserted : before.insert engine authority insert = some after) :
    Keeps before after := by
  have kept := Keeps.refl before
  cases insert with
  | dispatch row =>
    obtain ⟨-, -, dispatches, keys, stored, rfl⟩ := insertDispatch_some inserted
    exact { kept with dispatches := .inserted stored }
  | acceptance row =>
    obtain ⟨-, -, ⟨rfl, -⟩ | ⟨acceptances, instances, stored, rfl⟩⟩ := insertAcceptance_some inserted
    · exact kept
    · exact { kept with acceptances := .inserted stored }
  | abandonment row =>
    obtain ⟨-, -, abandonments, keys, stored, rfl⟩ := insertAbandonment_some inserted
    exact { kept with abandonments := .inserted stored }
  | decline row =>
    obtain ⟨-, -, declines, keys, stored, rfl⟩ := insertDecline_some inserted
    exact { kept with declines := .inserted stored }
  | reassignment row =>
    obtain ⟨-, -, reassignments, successors, keys, stored, rfl⟩ := insertReassignment_some inserted
    exact { kept with reassignments := .inserted stored }

end

section

def Tables.successor (tables : Tables) (id : Text) : Option Text :=
  (tables.reassignments.find id).map (·.successorDispatchId)

def Tables.closed (tables : Tables) (id : Text) : Prop :=
  tables.abandoned id = true ∨ tables.declined id = true

def Alike (tables : Tables) (first second : Text) : Prop :=
  ∃ left right, tables.dispatches.find first = some left ∧ tables.dispatches.find second = some right ∧
    left.runRequestSha256 = right.runRequestSha256 ∧ left.projectId = right.projectId ∧
    left.ownerPrincipalRef = right.ownerPrincipalRef

structure Guarded (tables : Tables) : Prop where
  accepted : ∀ id, tables.accepted id = true → ¬tables.closed id
  closed : ∀ id, tables.abandoned id = true → ¬tables.declined id = true
  forest : Forest tables.successor
  predecessor : ∀ id next, Points tables.successor id next → tables.closed id
  alike : ∀ id next, Points tables.successor id next → Alike tables id next

theorem Guarded.empty : Guarded Tables.empty := by
  constructor
  · intro id accepted
    cases accepted
  · intro id abandoned
    cases abandoned
  · exact Forest.empty
  · intro id next points
    cases points
  · intro id next points
    cases points

variable {before after : Tables}

theorem Keeps.closed (keeps : Keeps before after) {id : Text} (closed : before.closed id) :
    after.closed id := by
  rcases closed with abandoned | declined
  · exact .inl (keeps.abandonments.isSome abandoned)
  · exact .inr (keeps.declines.isSome declined)

theorem Keeps.alike (keeps : Keeps before after) {first second : Text}
    (alike : Alike before first second) : Alike after first second := by
  obtain ⟨left, right, one, other, same⟩ := alike
  exact ⟨left, right, keeps.dispatches _ _ one, keeps.dispatches _ _ other, same⟩

theorem successor_insert {reassignments : Table ReassignmentRow Text ReassignmentRow.predecessorDispatchId}
    (stored : before.reassignments.insert row = some reassignments)
    (same : after.reassignments = reassignments) :
    after.successor =
      Function.update before.successor row.predecessorDispatchId (some row.successorDispatchId) := by
  funext id
  unfold Tables.successor
  rw [same, Table.find_insert stored, Function.update_apply]
  by_cases own : row.predecessorDispatchId = id
  · rw [if_pos own, if_pos own.symm]
    rfl
  · rw [if_neg own, if_neg (Ne.symm own)]

variable {authority : Authority} {engine : Engine}

theorem Guarded.acceptance {row : AcceptanceRow}
    (guarded : Guarded before)
    (inserted : before.insertAcceptance engine authority row = some after) : Guarded after := by
  obtain ⟨allowed, -, ⟨rfl, -⟩ | ⟨acceptances, instances, stored, rfl⟩⟩ := insertAcceptance_some inserted
  · exact guarded
  · simp only [acceptanceGuard, Bool.and_eq_true, Bool.not_eq_true'] at allowed
    obtain ⟨⟨-, notAbandoned⟩, notDeclined⟩ := allowed
    refine { guarded with accepted := fun id accepted closed => ?_ }
    have split := (isSome_insert stored id).mp accepted
    rcases split with rfl | old
    · rcases closed with abandoned | declined
      · exact Bool.false_ne_true (notAbandoned.symm.trans abandoned)
      · exact Bool.false_ne_true (notDeclined.symm.trans declined)
    · exact guarded.accepted id old closed

theorem Guarded.abandonment {row : AbandonmentRow}
    (guarded : Guarded before)
    (inserted : before.insertAbandonment engine authority row = some after) : Guarded after := by
  have whole : before.insert engine authority (.abandonment row) = some after := inserted
  have keeps := insert_keeps whole
  obtain ⟨allowed, -, abandonments, keys, stored, rfl⟩ := insertAbandonment_some inserted
  simp only [abandonmentGuard, Bool.and_eq_true, Bool.not_eq_true'] at allowed
  obtain ⟨offered, notDeclined⟩ := allowed
  have notAccepted : before.accepted row.dispatchId = false := by
    split at offered
    · simp only [Bool.and_eq_true, Bool.not_eq_true'] at offered
      exact offered.1.2
    · cases offered
  refine { guarded with accepted := fun id accepted closed => ?_, closed := fun id abandoned declined => ?_,
                        predecessor := fun id next points => keeps.closed (guarded.predecessor id next points) }
  · rcases closed with abandoned | declined
    · rcases (isSome_insert stored id).mp abandoned with rfl | old
      · exact Bool.false_ne_true (notAccepted.symm.trans accepted)
      · exact guarded.accepted id accepted (.inl old)
    · exact guarded.accepted id accepted (.inr declined)
  · rcases (isSome_insert stored id).mp abandoned with rfl | old
    · exact Bool.false_ne_true (notDeclined.symm.trans declined)
    · exact guarded.closed id old declined

theorem Guarded.decline {row : DeclineRow} (guarded : Guarded before)
    (inserted : before.insertDecline engine row = some after) : Guarded after := by
  have whole : before.insert engine ⟨[], [], [], [], [], [], [], [], [], 0⟩ (.decline row) = some after :=
    inserted
  have keeps := insert_keeps whole
  obtain ⟨allowed, -, declines, keys, stored, rfl⟩ := insertDecline_some inserted
  have free : before.accepted row.dispatchId = false ∧ before.abandoned row.dispatchId = false := by
    unfold declineGuard at allowed
    split at allowed
    · simp only [Bool.and_eq_true, Bool.not_eq_true'] at allowed
      exact ⟨allowed.1.1.2, allowed.1.2⟩
    · cases allowed
  refine { guarded with accepted := fun id accepted closed => ?_, closed := fun id abandoned declined => ?_,
                        predecessor := fun id next points => keeps.closed (guarded.predecessor id next points) }
  · rcases closed with abandoned | declined
    · exact guarded.accepted id accepted (.inl abandoned)
    · rcases (isSome_insert stored id).mp declined with rfl | old
      · exact Bool.false_ne_true (free.1.symm.trans accepted)
      · exact guarded.accepted id accepted (.inr old)
  · rcases (isSome_insert stored id).mp declined with rfl | old
    · exact Bool.false_ne_true (free.2.symm.trans abandoned)
    · exact guarded.closed id abandoned old

theorem reassignmentGuard_true
    (allowed : reassignmentGuard engine authority before row = true) :
    Alike before row.predecessorDispatchId row.successorDispatchId ∧
      before.closed row.predecessorDispatchId ∧ ¬before.closed row.successorDispatchId ∧
      ¬before.accepted row.successorDispatchId = true := by
  unfold reassignmentGuard at allowed
  split at allowed
  · rename_i predecessor successor one other
    simp only [Bool.and_eq_true, decide_eq_true_eq, Bool.not_eq_true'] at allowed
    obtain ⟨⟨⟨⟨⟨⟨⟨⟨⟨⟨⟨⟨⟨⟨⟨⟨⟨⟨⟨⟨-, project⟩, project'⟩, owner⟩, owner'⟩, -⟩, request⟩, request'⟩, -⟩, -⟩,
      -⟩, -⟩, -⟩, -⟩, -⟩, notAccepted⟩, notAbandoned⟩, notDeclined⟩, ended⟩, -⟩, -⟩ := allowed
    refine ⟨⟨predecessor, successor, one, other, request.trans request'.symm,
      project.trans project'.symm, owner.trans owner'.symm⟩, ?_, ?_, ?_⟩
    · unfold closedAs at ended
      split at ended
      · rename_i abandonment found _
        exact .inl (by rw [Tables.abandoned, found]; rfl)
      · rename_i decline _ found
        exact .inr (by rw [Tables.declined, found]; rfl)
      · cases ended
    · rintro (abandoned | declined)
      · exact Bool.false_ne_true (notAbandoned.symm.trans abandoned)
      · exact Bool.false_ne_true (notDeclined.symm.trans declined)
    · rw [notAccepted]
      exact Bool.false_ne_true
  · cases allowed

theorem Guarded.reassignment
    (guarded : Guarded before)
    (inserted : before.insertReassignment engine authority row = some after) : Guarded after := by
  have whole : before.insert engine authority (.reassignment row) = some after := inserted
  have keeps := insert_keeps whole
  obtain ⟨allowed, -, reassignments, successors, keys, stored, rfl⟩ := insertReassignment_some inserted
  obtain ⟨alike, ended, pending, -⟩ := reassignmentGuard_true allowed
  have linked : Tables.successor { before with reassignments, successors, reassignmentKeys := keys } =
      Function.update before.successor row.predecessorDispatchId (some row.successorDispatchId) :=
    successor_insert stored rfl
  have fresh : before.successor row.predecessorDispatchId = none := by
    rw [Tables.successor, (Table.insert_some stored).1]
    rfl
  have last : before.successor row.successorDispatchId = none := by
    cases next : before.successor row.successorDispatchId with
    | none => rfl
    | some target => exact absurd (guarded.predecessor _ target next) pending
  have free (other : Text) : ¬Points before.successor other row.successorDispatchId := by
    intro points
    obtain ⟨earlier, found, same⟩ := Option.map_eq_some_iff.mp points
    rw [(Table.insert_some stored).2, List.map_append, List.nodup_append] at successors
    refine successors.2.2 row.successorDispatchId ?_ row.successorDispatchId (by simp) rfl
    exact List.mem_map.mpr ⟨earlier, (Table.find_some.mp found).1, same⟩
  have apart : row.predecessorDispatchId ≠ row.successorDispatchId := by
    intro same
    rw [← same] at pending
    exact pending ended
  have cases_points {id next : Text} (points : Points
      (Function.update before.successor row.predecessorDispatchId (some row.successorDispatchId)) id next) :
      id = row.predecessorDispatchId ∧ next = row.successorDispatchId ∨
        Points before.successor id next := by
    unfold Points at points
    rw [Function.update_apply] at points
    split at points
    · exact .inl ⟨‹_›, (Option.some.inj points).symm⟩
    · exact .inr points
  refine { guarded with forest := ?_, predecessor := ?_, alike := ?_ }
  · rw [linked]
    exact guarded.forest.append fresh last free apart
  · rw [linked]
    intro id next points
    rcases cases_points points with ⟨rfl, rfl⟩ | old
    · exact ended
    · exact guarded.predecessor id next old
  · rw [linked]
    intro id next points
    rcases cases_points points with ⟨rfl, rfl⟩ | old
    · exact keeps.alike alike
    · exact keeps.alike (guarded.alike id next old)

theorem Guarded.insert {insert : Insert}
    (guarded : Guarded before) (inserted : before.insert engine authority insert = some after) :
    Guarded after := by
  cases insert with
  | dispatch row =>
    have keeps := insert_keeps inserted
    obtain ⟨-, -, dispatches, keys, stored, rfl⟩ := insertDispatch_some inserted
    exact { guarded with alike := fun id next points => keeps.alike (guarded.alike id next points) }
  | acceptance row => exact guarded.acceptance inserted
  | abandonment row => exact guarded.abandonment inserted
  | decline row => exact guarded.decline inserted
  | reassignment row => exact guarded.reassignment inserted

end

section
variable (engine : Engine)

def Step (before after : Tables) : Prop :=
  ∃ authority insert, before.insert engine authority insert = some after

def Steps : Tables → Tables → Prop := Relation.ReflTransGen (Step engine)

variable {engine}

theorem Steps.keeps {before after : Tables} (steps : Steps engine before after) : Keeps before after := by
  induction steps with
  | refl => exact .refl before
  | tail _ step ih =>
    obtain ⟨authority, insert, inserted⟩ := step
    exact ih.trans (insert_keeps inserted)

theorem Steps.guarded {before after : Tables} (steps : Steps engine before after)
    (guarded : Guarded before) : Guarded after := by
  induction steps with
  | refl => exact guarded
  | tail _ step ih =>
    obtain ⟨authority, insert, inserted⟩ := step
    exact ih.insert inserted

structure Lifecycle (tables : Tables) : Prop where
  once : ∀ id, [tables.accepted id, tables.abandoned id, tables.declined id].count true ≤ 1
  predecessor : ∀ first ∈ tables.reassignments, ∀ second ∈ tables.reassignments,
    first.predecessorDispatchId = second.predecessorDispatchId → first = second
  successor : ∀ first ∈ tables.reassignments, ∀ second ∈ tables.reassignments,
    first.successorDispatchId = second.successorDispatchId → first = second
  acyclic : ∀ id, ¬Relation.TransGen (Points tables.successor) id id
  alike : ∀ first last, Relation.TransGen (Points tables.successor) first last → Alike tables first last
  last : ∀ id, tables.accepted id = true → ∀ next, ¬Points tables.successor id next

theorem Alike.trans {tables : Tables} {first second third : Text} (one : Alike tables first second)
    (two : Alike tables second third) : Alike tables first third := by
  obtain ⟨left, middle, found, shared, request, project, owner⟩ := one
  obtain ⟨again, right, shared', found', request', project', owner'⟩ := two
  obtain rfl := Option.some.inj (shared.symm.trans shared')
  exact ⟨left, right, found, found', request.trans request', project.trans project', owner.trans owner'⟩

theorem Guarded.lifecycle {tables : Tables} (guarded : Guarded tables) : Lifecycle tables where
  once id := by
    cases accepted : tables.accepted id with
    | true =>
      have pending := guarded.accepted id accepted
      simp only [Tables.closed, not_or, Bool.not_eq_true] at pending
      rw [pending.1, pending.2]
      decide
    | false =>
      cases abandoned : tables.abandoned id with
      | true =>
        have notDeclined : tables.declined id = false := by simpa using guarded.closed id abandoned
        rw [notDeclined]
        decide
      | false =>
        cases tables.declined id <;> decide
  predecessor first one second other same := Table.eq_of_key one other same
  successor first one second other same := List.inj_on_of_nodup_map tables.successors one other same
  acyclic := guarded.forest.acyclic
  alike first last path := by
    induction path with
    | single points => exact guarded.alike _ _ points
    | tail _ points ih => exact ih.trans (guarded.alike _ _ points)
  last id accepted next points := guarded.accepted id accepted (guarded.predecessor id next points)

/-- After any inserts the tables tell one story of each dispatch, and no later insert changes it. -/
theorem dispatch_lifecycle {tables after : Tables} (reached : Steps engine Tables.empty tables)
    (later : Steps engine tables after) : Lifecycle tables ∧ Keeps tables after :=
  ⟨(reached.guarded Guarded.empty).lifecycle, later.keeps⟩

end

section
open Text (prose)

def sampleSha (value : Text) : Text :=
  let sum := value.foldl (fun sum unit => (sum * 257 + unit) % 16 ^ 64) 7
  (List.range 64).map fun place =>
    let digit := sum / 16 ^ place % 16
    if digit < 10 then 48 + digit else 87 + digit

def sampleClock : Int := 1767225600000

/-- `toISOString` in the first hour. -/
def sampleIso (milliseconds : Int) : Text :=
  let seconds := ((milliseconds - sampleClock) / 1000).toNat
  let two (value : Nat) : Text := [48 + value / 10, 48 + value % 10]
  prose "2026-01-01T00:" rfl ++ two (seconds / 60) ++ 58 :: two (seconds % 60) ++ prose ".000Z" rfl

def sampleDate (value : Text) : Option Int :=
  if value.take 14 = prose "2026-01-01T00:" rfl then
    some (sampleClock + 1000 * (60 * Text.number (Text.slice value 14 16) +
      Text.number (Text.slice value 17 19)))
  else none

def valueAt (document : Json.Value) (path : Text) : Sqlite.Value :=
  let found := (path.splitOn 46).foldl (fun value name =>
    match value with
    | some (.object members) => members.lookup name
    | _ => none) (some document)
  match found with
  | some (.text value) => .text value
  | some (.number value) => .number value
  | some _ => .malformed
  | none => .null

def sampleEngine (documents : List Json.Value) : Engine where
  julianday := sampleDate
  strftime _ := none
  jsonValid json := documents.any fun document => Json.canonicalJson document == json
  jsonArrayLength _ := 0
  jsonEach _ := []
  jsonExtract value path :=
    match value with
    | .text json =>
      match documents.find? fun document => Json.canonicalJson document == json with
      | some document => valueAt document path
      | none => .null
    | _ => .null
  jsonExtractAt _ _ _ := .null
  array _ some := absurd rfl some
  element _ _ _ _ some := absurd rfl some

def sampleRequest : RunRequest :=
  ⟨prose "question" rfl, prose "project" rfl, prose "EXPLORATORY" rfl, 5, ⟨prose "protocol" rfl, 1⟩⟩

def sampleDispatch (id : Text) (created : Int) : ComputerAgentDispatch where
  dispatchId := id
  projectId := prose "project" rfl
  transport := prose "MCP_WRITE" rfl
  routeRevision := 1
  priority := 0
  connectionId := prose "connection" rfl
  connectionRevision := 1
  clientGrantId := prose "grant" rfl
  clientGrantRevision := 1
  ownerPrincipalRef := prose "owner" rfl
  ownerCredentialGeneration := prose "session" rfl
  actor := ⟨prose "issuer" rfl, prose "agent" rfl⟩
  qualification := ⟨prose "challenge" rfl, prose "observation" rfl, prose "token" rfl,
    sampleIso (sampleClock + 3000000), prose "deployment" rfl⟩
  runRequest := sampleRequest
  runRequestSha256 := sampleSha (Json.canonicalJson sampleRequest.json)
  createdAt := sampleIso created
  expiresAt := sampleIso (created + 900000)

def sampleAcceptance (id : Text) (accepted : Int) : ComputerAgentDispatchAcceptance where
  dispatchId := id
  workflowInstanceId := prose "run-" rfl ++ id
  investigationRef := ⟨prose "investigation" rfl, 1⟩
  connectionId := prose "connection" rfl
  connectionRevision := 1
  clientGrantId := prose "grant" rfl
  clientGrantRevision := 1
  actor := ⟨prose "issuer" rfl, prose "agent" rfl⟩
  credentialGeneration := prose "token" rfl
  acceptedAt := sampleIso accepted

def sampleAbandonment (id key : Text) (abandoned : Int) : ComputerAgentDispatchAbandonment where
  dispatchId := id
  projectId := prose "project" rfl
  ownerPrincipalRef := prose "owner" rfl
  ownerCredentialGeneration := prose "session" rfl
  reason := prose "OWNER_REASSIGNMENT" rfl
  note := none
  idempotencyKey := key
  requestSha256 := sampleSha key
  abandonedAt := sampleIso abandoned

def sampleReassignment (predecessor successor key : Text) (reassigned : Int) :
    ComputerAgentDispatchReassignment where
  predecessorDispatchId := predecessor
  successorDispatchId := successor
  projectId := prose "project" rfl
  ownerPrincipalRef := prose "owner" rfl
  ownerCredentialGeneration := prose "session" rfl
  predecessorState := prose "ABANDONED" rfl
  runRequestSha256 := sampleSha (Json.canonicalJson sampleRequest.json)
  successorTransport := prose "MCP_WRITE" rfl
  successorRouteRevision := 1
  successorConnectionId := prose "connection" rfl
  successorConnectionRevision := 1
  successorClientGrantId := prose "grant" rfl
  successorClientGrantRevision := 1
  idempotencyKey := key
  requestSha256 := sampleSha key
  reassignedAt := sampleIso reassigned

def sampleAuthority (ids : List Text) : Authority where
  routes := [⟨prose "project" rfl, prose "RESEARCH_BRANCH_ANALYSIS" rfl, 1, prose "ACTIVE" rfl,
    prose "ORIGINATING_MATCH" rfl, prose "owner" rfl⟩]
  routeEntries := [⟨prose "project" rfl, prose "RESEARCH_BRANCH_ANALYSIS" rfl, 1, 0,
    prose "connection" rfl, 1⟩]
  connections := [⟨prose "connection" rfl, 1, prose "ENABLED" rfl, prose "owner" rfl,
    prose "issuer" rfl, prose "agent" rfl, [prose "MCP_WRITE" rfl],
    [prose "RESEARCH_BRANCH_ANALYSIS" rfl]⟩]
  grants := [⟨prose "grant" rfl, 1, prose "ACTIVE" rfl, prose "project" rfl, prose "owner" rfl,
    prose "service_token" rfl, prose "issuer" rfl, prose "agent" rfl, true,
    [prose "run" rfl, prose "recover" rfl, prose "evidence" rfl], sampleIso (sampleClock + 3540000)⟩]
  owners := [⟨prose "project" rfl, prose "owner" rfl⟩]
  qualifications := [{
    challengeId := prose "challenge" rfl
    connectionId := prose "connection" rfl
    connectionRevision := 1
    transport := prose "MCP_WRITE" rfl
    issuedAt := sampleIso sampleClock
    ownerPrincipalRef := prose "owner" rfl
    deploymentGeneration := prose "deployment" rfl
    challengeState := prose "CONFIRMED" rfl
    authProfile := prose "service-token" rfl
    observationRef := some (prose "observation" rfl)
    verifiedActorRef := some (prose "agent" rfl)
    verifiedCredentialGeneration := some (prose "token" rfl)
    verifiedAuthenticationMethod := some (prose "service_token" rfl)
    actorIssuer := prose "issuer" rfl
    actorSubject := prose "agent" rfl
    connectionState := prose "ENABLED" rfl
    currentConnectionRevision := 1
    currentConnectionState := prose "ENABLED" rfl
    observedAt := some (sampleIso sampleClock)
    verifiedExpiresAt := some (sampleIso (sampleClock + 3000000)) }]
  bindings := [⟨prose "challenge" rfl, prose "connection" rfl, 1, prose "MCP_WRITE" rfl,
    sampleIso sampleClock⟩]
  workflowRuns := ids.map fun id => ⟨prose "run-" rfl ++ id, prose "investigation" rfl, 1,
    prose "agent" rfl, prose "token" rfl, prose "deployment" rfl,
    prose "computer-agent-dispatch:" rfl ++ id, prose "research-handlers.exploratory.v8" rfl⟩
  routeBindings := ids.map fun id => ⟨prose "run-" rfl ++ id, prose "project" rfl,
    prose "RESEARCH_BRANCH_ANALYSIS" rfl, 1, 0, prose "connection" rfl, 1, prose "grant" rfl, 1,
    prose "issuer" rfl, prose "agent" rfl⟩
  now := sampleClock

def sampleCodec {Record : Type} [DecidableEq Record] (json : Record → Json.Value)
    (records : List Record) : Codec Record json where
  schema record :=
    (records.find? fun other => Json.canonicalJson (json other) == Json.canonicalJson (json record)) =
      some record
  parse text := records.find? fun other => Json.canonicalJson (json other) == text
  parse_canonicalJson _ valid := of_decide_eq_true valid

structure Samples where
  dispatches : List ComputerAgentDispatch
  acceptances : List ComputerAgentDispatchAcceptance
  abandonments : List ComputerAgentDispatchAbandonment
  reassignments : List ComputerAgentDispatchReassignment

def Samples.documents (samples : Samples) : List Json.Value :=
  samples.dispatches.map (·.json) ++ samples.acceptances.map (·.json) ++
    samples.abandonments.map (·.json) ++ samples.reassignments.map (·.json)

def Samples.tools (samples : Samples) : Tools where
  sha256Utf8 := sampleSha
  isoString := sampleIso
  dateParse := sampleDate
  createSchema _ := true
  parseRunRequest _ := true
  abandonSchema _ := true
  declineSchema _ := true
  reassignSchema _ := true
  dispatch := sampleCodec _ samples.dispatches
  acceptance := sampleCodec _ samples.acceptances
  abandonment := sampleCodec _ samples.abandonments
  decline := sampleCodec _ []
  reassignment := sampleCodec _ samples.reassignments

def sampleChain : Samples where
  dispatches := [sampleDispatch (text "first") sampleClock, sampleDispatch (text "second") sampleClock]
  acceptances := [sampleAcceptance (text "second") sampleClock]
  abandonments := [sampleAbandonment (text "first") (text "abandon") sampleClock]
  reassignments := [sampleReassignment (text "first") (text "second") (text "reassign") sampleClock]

def sampleInserts : List Insert :=
  let tools := sampleChain.tools
  sampleChain.dispatches.map (fun dispatch => .dispatch (dispatch.row tools dispatch.dispatchId
    (sampleSha dispatch.dispatchId))) ++
  sampleChain.abandonments.map (fun abandonment => .abandonment (abandonment.row tools)) ++
  sampleChain.reassignments.map (fun receipt => .reassignment (receipt.row tools)) ++
  sampleChain.acceptances.map fun acceptance => .acceptance (acceptance.row tools)

def insertAll (inserts : List Insert) (tables : Tables) : Option Tables :=
  inserts.foldlM (fun tables insert => tables.insert (sampleEngine sampleChain.documents)
    (sampleAuthority [text "second"]) insert) tables

theorem insertAll_steps {inserts : List Insert} {before after : Tables}
    (stored : insertAll inserts before = some after) :
    Steps (sampleEngine sampleChain.documents) before after := by
  induction inserts generalizing before with
  | nil =>
    cases stored
    exact .refl
  | cons insert inserts ih =>
    obtain ⟨middle, inserted, rest⟩ := Option.bind_eq_some_iff.mp stored
    exact Relation.ReflTransGen.head ⟨_, insert, inserted⟩ (ih rest)

theorem sample_lifecycle : ∃ tables after, tables.successor (text "first") = some (text "second") ∧
    after.accepted (text "second") = true ∧ Lifecycle tables ∧ Keeps tables after := by
  have played : (insertAll (sampleInserts.take 4) Tables.empty).any (fun tables =>
      decide (tables.successor (text "first") = some (text "second")) &&
        (insertAll (sampleInserts.drop 4) tables).any (·.accepted (text "second"))) = true := by
    decide +kernel
  obtain ⟨tables, stored, linked, rest⟩ := by
    simpa only [Option.any_eq_true, Bool.and_eq_true, decide_eq_true_eq] using played
  obtain ⟨after, more, accepted⟩ := rest
  exact ⟨tables, after, linked, accepted, dispatch_lifecycle (insertAll_steps stored) (insertAll_steps more)⟩

end

end Dispatch
