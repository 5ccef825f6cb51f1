import Eliot.Async.Calm
import Eliot.Dispatch.Lifecycle
import Eliot.Dispatch.Preferred

namespace Dispatch
open Async
open Relational (Table)
open Sqlite (Engine)

section
variable (engine : Engine) (tools : PreferredTools)

inductive Made : Insert → Prop
  | dispatch {dispatch : ComputerAgentDispatch} (key requestSha256 : Text)
      (valid : tools.dispatch.schema dispatch = true)
      (digest : dispatch.runRequestSha256 = tools.digest dispatch.runRequest.json) :
      Made (.dispatch (dispatch.row tools.toTools key requestSha256))
  | acceptance {acceptance : ComputerAgentDispatchAcceptance}
      (valid : tools.acceptance.schema acceptance = true) : Made (.acceptance (acceptance.row tools.toTools))
  | abandonment {abandonment : ComputerAgentDispatchAbandonment}
      (valid : tools.abandonment.schema abandonment = true) :
      Made (.abandonment (abandonment.row tools.toTools))
  | decline {receipt : ComputerAgentDispatchDeclineReceipt} (valid : tools.decline.schema receipt = true) :
      Made (.decline (receipt.row tools.toTools))
  | reassignment {receipt : ComputerAgentDispatchReassignment}
      (valid : tools.reassignment.schema receipt = true) :
      Made (.reassignment (receipt.row tools.toTools))

def Linked (tables : Tables) (preferred : Selections)
    (settlement : ComputerAgentPreferredDispatchSettlement) : Prop :=
  ∃ selected ∈ preferred.selections, ∃ selection, decodeSelection tools selected = .ok selection ∧
    ∃ row ∈ tables.dispatches, row.ownerPrincipalRef = selection.ownerPrincipalRef ∧
      row.idempotencyKey = internalKey selection ∧
        ∃ dispatch, decodeComputerAgentDispatch tools.toTools row = .ok dispatch ∧
          settlement = ⟨selection.selectionId, dispatch.dispatchId, dispatch.createdAt⟩

inductive Change : World → World → Prop
  | store {world : World} {authority : Authority} {insert : Insert} {tables : Tables}
      (made : Made tools insert) (stored : world.tables.insert engine authority insert = some tables) :
      Change world { world with tables }
  | select {world : World} {authority : Authority} {selection : ComputerAgentPreferredDispatchSelection}
      {preferred : Selections} (valid : tools.selection.schema selection = true)
      (stored : world.preferred.insertSelection engine authority (selection.row tools) = some preferred) :
      Change world { world with preferred }
  | settle {world : World} {settlement : ComputerAgentPreferredDispatchSettlement}
      {preferred : Selections} (valid : tools.settlement.schema settlement = true)
      (linked : Linked tools world.tables world.preferred settlement)
      (stored : world.preferred.insertSettlement engine world.tables (settlement.row tools) =
        some preferred) : Change world { world with preferred }
  | note (world : World) (runs : List (Text × Started)) (claims : List (Nat × Text))
      (disturbed : List Text) : Change world { world with runs, claims, disturbed }

def Changes : World → World → Prop := Relation.ReflTransGen (Change engine tools)

end

section
variable {engine : Engine} {tools : PreferredTools}

structure Intact (tools : PreferredTools) (tables : Tables) (preferred : Selections) : Prop where
  dispatches : ∀ row ∈ tables.dispatches, ∃ dispatch,
    decodeComputerAgentDispatch tools.toTools row = .ok dispatch
  acceptances : ∀ row ∈ tables.acceptances, ∃ acceptance,
    decodeComputerAgentDispatchAcceptance tools.toTools row = .ok acceptance
  abandonments : ∀ row ∈ tables.abandonments, ∃ abandonment,
    decodeComputerAgentDispatchAbandonment tools.toTools row = .ok abandonment
  selections : ∀ row ∈ preferred.selections, ∃ selection, decodeSelection tools row = .ok selection
  settlements : ∀ row ∈ preferred.settlements, ∃ settlement,
    decodeSettlement tools row = .ok settlement ∧ Linked tools tables preferred settlement

structure Kept (before after : World) : Prop where
  tables : Keeps before.tables after.tables
  selections : Grown before.preferred.selections after.preferred.selections
  settlements : Grown before.preferred.settlements after.preferred.settlements

theorem Kept.refl (world : World) : Kept world world := ⟨.refl _, .refl _, .refl _⟩

theorem Kept.trans {first second third : World} (one : Kept first second) (two : Kept second third) :
    Kept first third :=
  ⟨one.tables.trans two.tables, one.selections.trans two.selections,
    one.settlements.trans two.settlements⟩

theorem Grown.mem {Row : Type} {key : Row → Text} {before after : Table Row Text key}
    (grown : Grown before after) {row : Row} (there : row ∈ before) : row ∈ after :=
  (Table.find_some.mp (grown (key row) row (Table.find_some.mpr ⟨there, rfl⟩))).1

variable {before after : World}

theorem Linked.kept {settlement : ComputerAgentPreferredDispatchSettlement}
    (linked : Linked tools before.tables before.preferred settlement) (kept : Kept before after) :
    Linked tools after.tables after.preferred settlement := by
  obtain ⟨selected, listed, selection, read, row, there, rest⟩ := linked
  exact ⟨selected, kept.selections.mem listed, selection, read, row, kept.tables.dispatches.mem there, rest⟩

theorem Intact.empty : Intact tools Tables.empty Selections.empty := by
  constructor <;> intro row there <;> cases there

theorem insertSelection_some {authority : Authority} {row : SelectionRow} {before after : Selections}
    (inserted : before.insertSelection engine authority row = some after) :
    ∃ selections keys, before.selections.insert row = some selections ∧
      after = { before with selections, selectionKeys := keys } := by
  unfold Selections.insertSelection at inserted
  obtain ⟨_, -, inserted⟩ := Option.bind_eq_some_iff.mp inserted
  obtain ⟨selections, stored, inserted⟩ := Option.bind_eq_some_iff.mp inserted
  split at inserted
  · rename_i keys
    exact ⟨selections, keys, stored, (Option.some.inj inserted).symm⟩
  · cases inserted

theorem insertSettlement_some {tables : Tables} {row : SettlementRow} {before after : Selections}
    (inserted : before.insertSettlement engine tables row = some after) :
    ∃ settlements dispatches, before.settlements.insert row = some settlements ∧
      after = { before with settlements, settledDispatches := dispatches } := by
  unfold Selections.insertSettlement at inserted
  obtain ⟨_, -, inserted⟩ := Option.bind_eq_some_iff.mp inserted
  obtain ⟨settlements, stored, inserted⟩ := Option.bind_eq_some_iff.mp inserted
  split at inserted
  · rename_i dispatches
    exact ⟨settlements, dispatches, stored, (Option.some.inj inserted).symm⟩
  · cases inserted

theorem readable_insert {Row Record : Type} {key : Row → Text} {before after : Table Row Text key}
    {row : Row} {read : Row → Except Corrupt Record} {record : Record}
    (stored : before.insert row = some after) (made : read row = .ok record)
    (readable : ∀ row ∈ before, ∃ record, read row = .ok record) :
    ∀ row ∈ after, ∃ record, read row = .ok record := by
  intro other there
  rcases (Table.mem_insert stored).mp there with old | rfl
  · exact readable other old
  · exact ⟨record, made⟩

theorem Intact.store {authority : Authority} {insert : Insert} {before after : Tables}
    {preferred : Selections} (intact : Intact tools before preferred) (made : Made tools insert)
    (stored : before.insert engine authority insert = some after) : Intact tools after preferred := by
  have keeps := insert_keeps stored
  have linked : ∀ row ∈ preferred.settlements, ∃ settlement,
      decodeSettlement tools row = .ok settlement ∧ Linked tools after preferred settlement := by
    intro row there
    obtain ⟨settlement, read, linked⟩ := intact.settlements row there
    obtain ⟨selected, listed, selection, decoded, offer, offered, rest⟩ := linked
    exact ⟨settlement, read, selected, listed, selection, decoded, offer,
      keeps.dispatches.mem offered, rest⟩
  cases made with
  | dispatch key requestSha256 valid digest =>
    obtain ⟨-, -, dispatches, keys, inserted, rfl⟩ := insertDispatch_some stored
    exact { intact with
      dispatches := readable_insert inserted (decodeDispatch_row _ valid digest _ _) intact.dispatches
      settlements := linked }
  | acceptance valid =>
    obtain ⟨-, -, ⟨rfl, -⟩ | ⟨acceptances, instances, inserted, rfl⟩⟩ := insertAcceptance_some stored
    · exact intact
    · exact { intact with
        acceptances := readable_insert inserted (decode_row valid _) intact.acceptances
        settlements := linked }
  | abandonment valid =>
    obtain ⟨-, -, abandonments, keys, inserted, rfl⟩ := insertAbandonment_some stored
    exact { intact with
      abandonments := readable_insert inserted (decode_row valid _) intact.abandonments
      settlements := linked }
  | decline valid =>
    obtain ⟨-, -, declines, keys, inserted, rfl⟩ := insertDecline_some stored
    exact { intact with settlements := linked }
  | reassignment valid =>
    obtain ⟨-, -, reassignments, successors, keys, inserted, rfl⟩ := insertReassignment_some stored
    exact { intact with settlements := linked }

theorem Change.kept (change : Change engine tools before after) :
    Kept before after := by
  cases change with
  | store made stored => exact ⟨insert_keeps stored, .refl _, .refl _⟩
  | select valid stored =>
    obtain ⟨selections, keys, inserted, rfl⟩ := insertSelection_some stored
    exact ⟨.refl _, .inserted inserted, .refl _⟩
  | settle valid linked stored =>
    obtain ⟨settlements, dispatches, inserted, rfl⟩ := insertSettlement_some stored
    exact ⟨.refl _, .refl _, .inserted inserted⟩
  | note runs claims disturbed => exact ⟨.refl _, .refl _, .refl _⟩

theorem Changes.kept (changes : Changes engine tools before after) :
    Kept before after := by
  induction changes with
  | refl => exact .refl before
  | tail _ change ih => exact ih.trans change.kept

theorem Change.intact (change : Change engine tools before after)
    (intact : Intact tools before.tables before.preferred) :
    Intact tools after.tables after.preferred ∧ after.own = before.own := by
  have kept := change.kept
  cases change with
  | store made stored => exact ⟨intact.store made stored, rfl⟩
  | select valid stored =>
    obtain ⟨selections, keys, inserted, rfl⟩ := insertSelection_some stored
    refine ⟨⟨intact.dispatches, intact.acceptances, intact.abandonments,
      readable_insert inserted (decode_row valid _) intact.selections, fun row there => ?_⟩, rfl⟩
    obtain ⟨settlement, read, linked⟩ := intact.settlements row there
    exact ⟨settlement, read, linked.kept kept⟩
  | @settle settlement preferred valid linked stored =>
    obtain ⟨settlements, dispatches, inserted, rfl⟩ := insertSettlement_some stored
    refine ⟨⟨intact.dispatches, intact.acceptances, intact.abandonments, intact.selections,
      fun row there => ?_⟩, rfl⟩
    rcases (Table.mem_insert inserted).mp there with old | rfl
    · exact intact.settlements row old
    · exact ⟨settlement, decode_row valid _, linked⟩
  | note runs claims disturbed => exact ⟨intact, rfl⟩

theorem Changes.intact (changes : Changes engine tools before after)
    (intact : Intact tools before.tables before.preferred) :
    Intact tools after.tables after.preferred ∧ after.own = before.own := by
  induction changes with
  | refl => exact ⟨intact, rfl⟩
  | tail _ change ih =>
    obtain ⟨still, same⟩ := change.intact ih.1
    exact ⟨still, same.trans ih.2⟩

end

section

def Failure.clashes : Failure → Bool
  | .dispatch error => error.code = .identityConflict || error.code = .storageCorrupt
  | .other => false

def corrupt {α : Type} : Except Dependency α → Bool
  | .error .corrupt => true
  | _ => false

/-- The other stores do not report a corrupt record of their own, nor `start_run` a conflict, and the
    readiness report agrees with itself. -/
structure Choice.Trusty (deployment : Text) (choice : Choice) : Prop where
  route : corrupt choice.route = false
  currentRoute : corrupt choice.currentRoute = false
  exact : corrupt choice.exact = false
  current : corrupt choice.current = false
  forTask : corrupt choice.forTask = false
  grant : corrupt choice.grant = false
  lease : corrupt choice.lease = false
  leaseCurrent : corrupt choice.leaseCurrent = false
  status : corrupt choice.status = false
  qualification : corrupt choice.qualification = false
  readiness : corrupt choice.readiness = false
  consistent : ∀ readiness preferred, choice.readiness = .ok readiness →
    readiness.preferredReadyConnection = some preferred →
      (readiness.preferred deployment preferred).isSome
  started : choice.runFailure ≠ some .conflict

variable (engine : Engine) (tools : PreferredTools) (deployment : Text)

def timely (condition : Purpose → World → Prop) : Setting World Purpose Choice where
  moves := Changes engine tools
  allowed purpose choice world := choice.Trusty deployment ∧ condition purpose world

def Mild {α : Type} (condition : Purpose → World → Prop) (known : α → Prop) (call : Calls α) : Prop :=
  call.Calm (timely engine tools deployment condition) (fun failure => failure.clashes = false) known

end

section
variable {engine : Engine} {tools : PreferredTools} {deployment : Text}
  {condition : Purpose → World → Prop} {α β : Type} {known : α → Prop}

theorem Mild.then {call : Calls α} {rest : α → Calls β} {known : β → Prop} {middle : α → Prop}
    (first : Mild engine tools deployment condition middle call)
    (second : ∀ value, middle value → Mild engine tools deployment condition known (rest value)) :
    Mild engine tools deployment condition known (call >>= rest) := Call.Calm.then first second

theorem Mild.mono {call : Calls α} {weak : α → Prop} (mild : Mild engine tools deployment condition known call)
    (weaken : ∀ value, known value → weak value) : Mild engine tools deployment condition weak call :=
  Call.Calm.mono mild weaken

theorem pure_mild {value : α} (holds : known value) :
    Mild engine tools deployment condition known (pure value) := holds

theorem throw_mild {failure : Failure} (mild : failure.clashes = false) :
    Mild engine tools deployment condition known (Call.throw failure) := mild

theorem require_mild (condition' : Bool) {code : ErrorCode} (status : Nat) (message : String)
    (mild : Failure.clashes (.dispatch ⟨code, status, text message, false⟩) = false) :
    Mild engine tools deployment condition (fun _ => condition' = true)
      (require condition' code status message) := by
  unfold require
  split
  · exact pure_mild ‹_›
  · exact throw_mild mild

theorem consult_mild (purpose : Purpose) (answer : Choice → α) :
    Mild engine tools deployment condition (fun value => ∃ choice : Choice, choice.Trusty deployment ∧
      value = answer choice) (consult purpose answer) :=
  fun choice _ allowed => ⟨.refl, choice, allowed.1, rfl⟩

theorem read_mild (purpose : Purpose) (query : Authority → World → α) (message : String) :
    Mild engine tools deployment condition (fun _ => True) (read purpose query message) := by
  intro choice world _
  cases told : choice.outcome <;> simp only [told]
  · exact ⟨.refl, trivial⟩
  · exact ⟨.refl, rfl⟩

theorem mapDependency_mild {result : Except Dependency α} (sound : corrupt result = false) :
    Mild engine tools deployment condition (fun value => result = .ok value) (mapDependency result) := by
  cases result with
  | ok value => exact pure_mild rfl
  | error failure => cases failure <;> first | exact throw_mild rfl | cases sound

theorem depend_mild (purpose : Purpose) {answer : Choice → Except Dependency α} {rest : α → Calls β}
    {known : β → Prop} (sound : ∀ choice : Choice, choice.Trusty deployment → corrupt (answer choice) = false)
    (second : ∀ value, Mild engine tools deployment condition known (rest value)) :
    Mild engine tools deployment condition known
      (consult purpose answer >>= fun result => mapDependency result >>= rest) := by
  refine (consult_mild purpose answer).then fun result told => ?_
  obtain ⟨choice, trusty, rfl⟩ := told
  exact (mapDependency_mild (sound choice trusty)).then fun value _ => second value

theorem instant_mild (clock : String) :
    Mild engine tools deployment condition (fun _ => True) (instant clock) := by
  refine (consult_mild _ _).then fun now _ => ?_
  split
  · exact throw_mild rfl
  · split
    · exact pure_mild trivial
    · exact throw_mild rfl

theorem identifier_mild (value : Text) (label : String) :
    Mild engine tools deployment condition (· = value) (identifier value label) :=
  (require_mild _ _ _ rfl).then fun _ _ => pure_mild rfl

theorem idempotency_mild (value : Option Text) :
    Mild engine tools deployment condition (fun key => value = some key) (idempotency value) := by
  unfold idempotency
  split
  · rename_i key found
    exact pure_mild (Option.filter_eq_some_iff.mp found).1
  · exact throw_mild rfl

theorem owner_mild (clock : String) (context : Context) :
    Mild engine tools deployment condition
      (· = ⟨context.principalRef, context.credentialGeneration⟩) (owner clock context) := by
  refine (instant_mild clock).then fun _ _ => (consult_mild _ _).then fun session _ => ?_
  cases session with
  | foreign => exact throw_mild rfl
  | ended => exact throw_mild rfl
  | current =>
    refine (identifier_mild _ _).then fun principal same => ?_
    refine (identifier_mild _ _).then fun generation same' => pure_mild ?_
    rw [same, same']

theorem requireSchema_mild (message : String) :
    Mild engine tools deployment condition (fun _ => True) (requireSchema message) := by
  intro choice world _
  cases told : choice.outcome <;> simp only [told]
  · exact ⟨.refl, trivial⟩
  · exact ⟨.refl, rfl⟩

theorem requireGrant_mild (grant : Option Grant) (projectId principal : Text) (actor : Actor)
    (revision now : Int) :
    Mild engine tools deployment condition (fun _ => True)
      (requireGrant tools.toTools grant projectId principal actor revision now) := by
  unfold requireGrant
  split
  · exact pure_mild trivial
  · exact throw_mild rfl

theorem requireReadyQualification_mild (status : Option QualificationStatus) (connection : Connection)
    (transport generation : Text) (now : Int) :
    Mild engine tools deployment condition (fun _ => True)
      (requireReadyQualification tools.toTools status connection transport generation now) := by
  unfold requireReadyQualification
  split
  · exact (require_mild _ _ _ rfl).then fun _ _ => pure_mild trivial
  · exact throw_mild rfl

theorem readConnections_mild (connectionId : Text) (revision : Int)
    (accepts : Connection → Connection → Bool) :
    Mild engine tools deployment condition (fun _ => True)
      (readConnections connectionId revision accepts) := by
  refine depend_mild .authority (fun _ trusty => trusty.exact) fun exact => ?_
  refine depend_mild .authority (fun _ trusty => trusty.current) fun current => ?_
  split
  · split
    · exact pure_mild trivial
    · exact throw_mild rfl
  · exact throw_mild rfl

structure Offered (tools : PreferredTools) (principal : Text) (dispatch : ComputerAgentDispatch) :
    Prop where
  valid : tools.dispatch.schema dispatch = true
  digest : dispatch.runRequestSha256 = tools.digest dispatch.runRequest.json
  principal : dispatch.ownerPrincipalRef = principal

theorem prepareDispatch_mild (identity : Identity) (projectId key requestSha : Text)
    (input : ComputerAgentDispatchCreate) :
    Mild engine tools deployment condition (Offered tools identity.principalRef)
      (prepareDispatch tools.toTools deployment identity projectId key requestSha input) := by
  refine (instant_mild clock).then fun current _ => ?_
  refine depend_mild .authority (fun _ trusty => trusty.route) fun route => ?_
  refine (require_mild _ _ _ rfl).then fun _ _ => (require_mild _ _ _ rfl).then fun _ _ => ?_
  refine (readConnections_mild _ _ _).then fun exact _ => ?_
  refine depend_mild .authority (fun _ trusty => trusty.grant) fun _ => ?_
  refine (requireGrant_mild _ _ _ _ _ _).then fun grant _ => ?_
  refine depend_mild .qualification (fun _ trusty => trusty.status) fun _ => ?_
  refine (requireReadyQualification_mild _ _ _ _ _).then fun qualification _ => ?_
  split
  · refine (require_mild _ _ _ rfl).then fun _ _ => ?_
    dsimp only
    split
    · rename_i valid
      exact (require_mild _ _ _ rfl).then fun _ _ => pure_mild ⟨valid, rfl, rfl⟩
    · exact throw_mild rfl
  · exact throw_mild rfl

theorem serviceGrant_mild (context : Context) (dispatch : ComputerAgentDispatch) :
    Mild engine tools deployment condition (fun _ => True)
      (serviceGrant tools.toTools context dispatch) := by
  refine (require_mild _ _ _ rfl).then fun _ _ => ?_
  refine depend_mild .authority (fun _ trusty => trusty.lease) fun _ => ?_
  refine (instant_mild _).then fun _ _ => (requireGrant_mild _ _ _ _ _ _).then fun _ _ => ?_
  exact pure_mild trivial

theorem readCurrentOffer_mild (number : Option Nat) (id : Text) :
    Mild engine tools deployment condition (fun _ => True) (readCurrentOffer engine number id) := by
  intro choice world _
  cases told : choice.outcome with
  | lost ran =>
    simp only [told]
    exact ⟨.refl, rfl⟩
  | answered =>
    simp only [told]
    refine ⟨?_, trivial⟩
    split
    · split
      · exact .single (.note _ _ _ _)
      · exact .refl
    · exact .refl

theorem requireCurrent_mild (number : Nat) :
    Mild engine tools deployment condition (fun _ => True) (requireCurrent number) := by
  refine (show Mild engine tools deployment condition (fun result => corrupt result = false)
    (Call.request .authority _) from ?_).then fun result sound => (mapDependency_mild sound).mono fun _ _ => trivial
  intro choice world allowed
  refine ⟨?_, allowed.1.leaseCurrent⟩
  dsimp only
  split
  · exact .refl
  · exact .single (.note _ _ _ _)

theorem requireTarget_mild (number : Nat) (context : Context) (dispatch : ComputerAgentDispatch) :
    Mild engine tools deployment condition (fun _ => True)
      (requireTarget engine tools.toTools deployment number context dispatch) := by
  refine (instant_mild _).then fun current _ => (require_mild _ _ _ ?_).then fun _ _ => ?_
  · split <;> rfl
  refine depend_mild .authority (fun _ trusty => trusty.forTask) fun connection => ?_
  refine (require_mild _ _ _ rfl).then fun _ _ => (serviceGrant_mild _ _).then fun _ _ => ?_
  refine depend_mild .authority (fun _ trusty => trusty.currentRoute) fun route => ?_
  refine (require_mild _ _ _ rfl).then fun _ _ => ?_
  refine depend_mild .authority (fun _ trusty => trusty.qualification) fun qualification => ?_
  refine (require_mild _ _ _ rfl).then fun _ _ => (readCurrentOffer_mild _ _).then fun current _ => ?_
  exact (require_mild _ _ _ rfl).then fun _ _ => requireCurrent_mild number

theorem startRun_mild (number : Nat) (id : Text) :
    Mild engine tools deployment condition (· ≠ .error .conflict) (startRun number id) := by
  intro choice world allowed
  refine ⟨.single (.note _ _ _ _), ?_⟩
  dsimp only
  intro conflict
  split at conflict
  · rename_i failure _ told
    cases conflict
    exact allowed.1.started told
  · cases conflict
  · cases conflict

theorem startFailed_mild {failure : RunFailure} (peaceful : failure ≠ .conflict) :
    Mild engine tools deployment condition known (startFailed failure) := by
  cases failure with
  | conflict => exact absurd rfl peaceful
  | unavailable => exact throw_mild rfl
  | refused => exact throw_mild rfl
  | other => exact throw_mild rfl

theorem requireProjectOwner_mild (projectId principal : Text) :
    Mild engine tools deployment condition (fun _ => True) (requireProjectOwner projectId principal) :=
  (read_mild _ _ _).then fun _ _ => (require_mild _ _ _ rfl).mono fun _ _ => trivial

theorem preferredKey_mild (value : Option Text) :
    Mild engine tools deployment condition (fun key => value = some key) (preferredKey value) := by
  unfold preferredKey
  split
  · rename_i key found
    exact pure_mild (Option.filter_eq_some_iff.mp found).1
  · exact throw_mild rfl

theorem mapReadiness_mild {result : Except Dependency α} (sound : corrupt result = false) :
    Mild engine tools deployment condition (fun value => result = .ok value) (mapReadiness result) := by
  cases result with
  | ok value => exact pure_mild rfl
  | error failure => cases failure <;> first | exact throw_mild rfl | cases sound

structure Selected (tools : PreferredTools) (projectId principal key requestSha : Text)
    (runRequest : RunRequest) (selection : ComputerAgentPreferredDispatchSelection) : Prop where
  valid : tools.selection.schema selection = true
  project : selection.projectId = projectId
  principal : selection.ownerPrincipalRef = principal
  key : selection.idempotencyKey = key
  digest : selection.requestSha256 = requestSha
  run : selection.runRequestSha256 = tools.digest runRequest.json

theorem prepareSelection_mild (identity : Identity) (projectId key requestSha : Text)
    (input : ComputerAgentPreferredDispatchCreate) :
    Mild engine tools deployment condition
      (Selected tools projectId identity.principalRef key requestSha input.runRequest)
      (prepareSelection tools deployment identity projectId key requestSha input) := by
  refine (consult_mild .authority Choice.readiness).then fun result told => ?_
  obtain ⟨choice, trusty, rfl⟩ := told
  refine (mapReadiness_mild trusty.readiness).then fun readiness told => ?_
  split
  · exact throw_mild rfl
  rename_i preferred found
  have consistent := trusty.consistent readiness preferred told (Option.filter_eq_some_iff.mp found).1
  split
  · rename_i none
    rw [none] at consistent
    cases consistent
  · dsimp only
    split
    · rename_i valid
      exact pure_mild ⟨valid, rfl, rfl, rfl, rfl, rfl⟩
    · exact throw_mild rfl

end

section
variable {engine : Engine} {tools : PreferredTools} {deployment : Text}
  {condition : Purpose → World → Prop}

def Lasting (fact : World → Prop) : Prop := ∀ before after, Kept before after → fact before → fact after

structure Standing (tools : PreferredTools) (own : Nat) (mine seen : World → Prop) (world : World) :
    Prop where
  intact : Intact tools world.tables world.preferred
  own : world.own = own ∨ mine world
  seen : seen world

theorem Lasting.dispatch (test : DispatchRow → Prop) :
    Lasting fun world => ∃ row ∈ world.tables.dispatches, test row := by
  rintro before after kept ⟨row, there, holds⟩
  exact ⟨row, kept.tables.dispatches.mem there, holds⟩

theorem Lasting.nothing : Lasting fun _ => True := fun _ _ _ _ => trivial

theorem Standing.stable {own : Nat} {mine seen : World → Prop} (mineLasts : Lasting mine)
    (seenLasts : Lasting seen) :
    ∀ before after, Changes engine tools before after →
      Standing tools own mine seen before → Standing tools own mine seen after := by
  intro before after moved standing
  obtain ⟨intact, same⟩ := Changes.intact moved standing.intact
  have kept := Changes.kept moved
  refine ⟨intact, ?_, seenLasts _ _ kept standing.seen⟩
  rcases standing.own with none | some
  · exact .inl (same.trans none)
  · exact .inr (mineLasts _ _ kept some)

variable {now : World}

theorem wp_write {β : Type} {change : Authority → World → Option World} {rest : Bool → Calls β}
    {post : Except Failure β → World → Prop} (kept : World → Prop)
    (refused : ∀ later, Changes engine tools now later → kept later)
    (stored : ∀ later authority after, Changes engine tools now later →
      change authority later = some after → kept { after with own := later.own + 1 })
    (onward : ∀ acknowledged later, kept later →
      (rest acknowledged).wp (timely engine tools deployment condition) post later) :
    (write change >>= rest).wp (timely engine tools deployment condition) post now := by
  refine Call.wp_request fun later moved choice _ => ?_
  have ran (outcome : Outcome) (told : choice.outcome = outcome) (open' : outcome ≠ .lost false) :
      match change choice.authority later with
      | none => (rest false).wp (timely engine tools deployment condition) post later
      | some after => (rest (outcome = .answered)).wp (timely engine tools deployment condition) post
        { after with own := later.own + 1 } := by
    cases changed : change choice.authority later with
    | none => exact onward _ _ (refused later moved)
    | some after => exact onward _ _ (stored later _ after moved changed)
  cases told : choice.outcome with
  | answered =>
    have holds := ran .answered told (by decide)
    cases changed : change choice.authority later <;> simpa only [changed, told] using holds
  | lost ran' =>
    cases ran' with
    | false => simpa only [told] using onward _ _ (refused later moved)
    | true =>
      have holds := ran (.lost true) told (by decide)
      cases changed : change choice.authority later <;> simpa only [changed, told] using holds

theorem wp_read {α β : Type} {purpose : Purpose} {query : Authority → World → α} {message : String}
    {rest : α → Calls β} {post : Except Failure β → World → Prop}
    (lost : ∀ later, Changes engine tools now later → post (.error (.dispatch
      ⟨.storageUnavailable, 503, text message, true⟩)) later)
    (answered : ∀ later authority, Changes engine tools now later → condition purpose later →
      (rest (query authority later)).wp (timely engine tools deployment condition) post later) :
    (read purpose query message >>= rest).wp (timely engine tools deployment condition) post now := by
  refine Call.wp_request fun later moved choice allowed => ?_
  cases told : choice.outcome with
  | answered => simpa only [told] using answered later _ moved allowed.2
  | lost ran => simpa only [told] using lost later moved

theorem wp_decoded {β Record : Type} {result : Except Corrupt Record} {record : Record}
    {invalid corrupt : String} {rest : Record → Calls β} {setting : Setting World Purpose Choice}
    {post : Except Failure β → World → Prop} (readable : result = .ok record)
    (onward : (rest record).wp setting post now) :
    (decoded result invalid corrupt >>= rest).wp setting post now := by
  rw [readable]
  exact onward

theorem wp_require {β : Type} {test : Bool} {code : ErrorCode} {status : Nat} {message : String}
    {rest : Unit → Calls β} {setting : Setting World Purpose Choice}
    {post : Except Failure β → World → Prop}
    (failed : test = false → post (.error (.dispatch ⟨code, status, text message, false⟩)) now)
    (onward : test = true → (rest ()).wp setting post now) :
    (require test code status message >>= rest).wp setting post now := by
  unfold require
  cases test with
  | true => exact onward rfl
  | false => exact failed rfl

theorem wp_mild {α β : Type} {call : Calls α} {known : α → Prop} {rest : α → Calls β}
    {post : Except Failure β → World → Prop} {own : Nat} {mine seen : World → Prop}
    (mild : Mild engine tools deployment condition known call) (mineLasts : Lasting mine)
    (seenLasts : Lasting seen) (standing : Standing tools own mine seen now)
    (failed : ∀ failure later, failure.clashes = false → Standing tools own mine seen later →
      post (.error failure) later)
    (onward : ∀ value later, known value → Standing tools own mine seen later →
      (rest value).wp (timely engine tools deployment condition) post later) :
    (call >>= rest).wp (timely engine tools deployment condition) post now :=
  Call.wp_then mild (Standing.stable mineLasts seenLasts) standing failed onward

end

end Dispatch
