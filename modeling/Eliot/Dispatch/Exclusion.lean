import Eliot.Async.Clients
import Eliot.Dispatch.Calls
import Eliot.Dispatch.Lifecycle

namespace Dispatch
open Async List
open Relational (Table)
open Sqlite (Engine)
open Chains (Points)

section
variable (engine : Engine) (tools : Tools)

inductive Request where
  | create (deployment : Text) (context : Context) (projectId : Text)
      (input : ComputerAgentDispatchCreate)
  | accept (deployment : Text) (context : Context) (dispatchId : Text)
  | abandon (context : Context) (projectId dispatchId : Text) (input : Reasoned)
  | decline (context : Context) (dispatchId : Text) (input : Reasoned)
  | reassign (deployment : Text) (context : Context) (projectId predecessorId : Text)
      (input : ComputerAgentDispatchReassign)

def answering {α : Type} (call : Calls α) : Program World Choice Empty Failure Unit :=
  (call.bind fun _ => .done (.ok ())).program

def service : Service World Choice Request Failure where
  serve number request :=
    match request with
    | .create deployment context projectId input =>
      answering (create engine tools deployment false context projectId input)
    | .accept deployment context dispatchId =>
      answering (accept engine tools deployment number context dispatchId)
    | .abandon context projectId dispatchId input =>
      answering (abandon engine tools context projectId dispatchId input)
    | .decline context dispatchId input => answering (decline engine tools context dispatchId input)
    | .reassign deployment context projectId predecessorId input =>
      answering (reassign engine tools deployment context projectId predecessorId input)
  admits _ _ := true

end

section

structure Sound (world : World) : Prop where
  guarded : Guarded world.tables
  pending : ∀ id, id ∉ world.disturbed → world.accepting id = true → ¬world.tables.closed id

structure Later (before after : World) : Prop where
  tables : Keeps before.tables after.tables
  runs : ∀ id, (before.run id).isSome → (after.run id).isSome
  disturbed : ∀ id ∈ before.disturbed, id ∈ after.disturbed

def pact : Pact World where
  inv := Sound
  evolve := Later
  rely number before after := ∀ id, (number, id) ∈ before.claims → (number, id) ∈ after.claims
  fresh _ _ := True

theorem Later.refl (world : World) : Later world world :=
  ⟨.refl _, fun _ there => there, fun _ there => there⟩

theorem pact_lawful : pact.Lawful where
  evolve_refl := Later.refl
  evolve_trans one two :=
    ⟨one.tables.trans two.tables, fun id there => two.runs id (one.runs id there),
      fun id there => two.disturbed id (one.disturbed id there)⟩
  rely_refl _ _ _ there := there
  rely_trans one two id there := two id (one id there)
  fresh_stable _ _ _ _ := trivial
  stays _ := trivial

theorem Sound.empty : Sound World.empty := by
  refine ⟨Guarded.empty, fun id _ accepting => ?_⟩
  cases accepting

variable {engine : Engine} {before after : World} {number : Nat}

inductive Move (engine : Engine) : World → World → Prop
  | stay (world : World) : Move engine world world
  | insert {world later : World} {authority : Authority} {insert : Insert} {own : Nat}
      (inserted : insertInto engine insert authority world = some later) :
      Move engine world { later with own }

theorem insertInto_some {authority : Authority} {insert : Insert}
    (inserted : insertInto engine insert authority before = some after) :
    before.tables.insert engine authority insert = some after.tables ∧ after.runs = before.runs ∧
      after.claims = before.claims ∧
        (after.disturbed = before.disturbed ∨ ∃ id, before.accepting id = true ∧
          after.disturbed = id :: before.disturbed) ∧
        ∀ id, after.tables.closed id → before.tables.closed id ∨
          (before.accepting id = true → id ∈ after.disturbed) := by
  obtain ⟨tables, stored, rfl⟩ := Option.map_eq_some_iff.mp inserted
  have closing (id : Text) (closed : tables.closed id) (own : Text)
      (split : tables.closed id → own = id ∨ before.tables.closed id) :
      before.tables.closed id ∨ (before.accepting id = true → id ∈ (before.close own tables).disturbed) := by
    rcases split closed with rfl | old
    · refine .inr fun accepting => ?_
      simp only [World.close, accepting, if_true]
      exact mem_cons_self
    · exact .inl old
  have noted (id : Text) : (before.close id tables).disturbed = before.disturbed ∨
      ∃ other, before.accepting other = true ∧
        (before.close id tables).disturbed = other :: before.disturbed := by
    cases accepting : before.accepting id with
    | true => exact .inr ⟨id, accepting, by simp [World.close, accepting]⟩
    | false => exact .inl (by simp [World.close, accepting])
  cases insert with
  | dispatch row =>
    obtain ⟨-, -, dispatches, keys, -, rfl⟩ := insertDispatch_some stored
    exact ⟨stored, rfl, rfl, .inl rfl, fun id closed => .inl closed⟩
  | acceptance row =>
    obtain ⟨-, -, ⟨rfl, -⟩ | ⟨acceptances, instances, -, rfl⟩⟩ := insertAcceptance_some stored
    · exact ⟨stored, rfl, rfl, .inl rfl, fun id closed => .inl closed⟩
    · exact ⟨stored, rfl, rfl, .inl rfl, fun id closed => .inl closed⟩
  | abandonment row =>
    obtain ⟨-, -, abandonments, keys, new, rfl⟩ := insertAbandonment_some stored
    refine ⟨stored, rfl, rfl, noted row.dispatchId, fun id closed => closing id closed _ fun closed => ?_⟩
    rcases closed with abandoned | declined
    · rcases (isSome_insert new id).mp abandoned with own | old
      · exact .inl own
      · exact .inr (.inl old)
    · exact .inr (.inr declined)
  | decline row =>
    obtain ⟨-, -, declines, keys, new, rfl⟩ := insertDecline_some stored
    refine ⟨stored, rfl, rfl, noted row.dispatchId, fun id closed => closing id closed _ fun closed => ?_⟩
    rcases closed with abandoned | declined
    · exact .inr (.inl abandoned)
    · rcases (isSome_insert new id).mp declined with own | old
      · exact .inl own
      · exact .inr (.inr old)
  | reassignment row =>
    obtain ⟨-, -, reassignments, successors, keys, -, rfl⟩ := insertReassignment_some stored
    exact ⟨stored, rfl, rfl, .inl rfl, fun id closed => .inl closed⟩

theorem accepting_congr (runs : after.runs = before.runs) (claims : after.claims = before.claims)
    (id : Text) : after.accepting id = before.accepting id := by
  simp only [World.accepting, World.run, runs, claims]

theorem Move.fair (move : Move engine before after) (sound : Sound before) :
    pact.Fair number before after := by
  cases move with
  | stay => exact ⟨sound, Later.refl _, fun _ _ _ there => there, trivial⟩
  | @insert later authority insert own inserted =>
    obtain ⟨stored, runs, claims, noted, closing⟩ := insertInto_some inserted
    have grows (id : Text) (there : id ∈ before.disturbed) : id ∈ later.disturbed := by
      rcases noted with same | ⟨other, -, more⟩
      · exact same.symm ▸ there
      · rw [more]
        exact mem_cons_of_mem _ there
    refine ⟨⟨sound.guarded.insert stored, fun id clean accepting closed => ?_⟩,
      ⟨insert_keeps stored, fun id there => ?_, grows⟩, fun _ _ _ there => claims.symm ▸ there, trivial⟩
    · have earlier : before.accepting id = true := (accepting_congr runs claims id).symm.trans accepting
      rcases closing id closed with old | marked
      · exact sound.pending id (fun there => clean (grows id there)) earlier old
      · exact clean (marked earlier)
    · rw [World.run, runs]
      exact there

end

section
variable {engine : Engine} {tools : Tools} {α : Type}

theorem done_steps (result : Except Failure α) : (.done result : Calls α).Steps (Move engine) := trivial

theorem pure_steps (value : α) : (pure value : Calls α).Steps (Move engine) := trivial

theorem require_steps (condition : Bool) (code : ErrorCode) (status : Nat) (message : String) :
    (require condition code status message).Steps (Move engine) := by
  unfold require
  split <;> exact done_steps _

theorem consult_steps (purpose : Purpose) (answer : Choice → α) :
    (consult purpose answer).Steps (Move engine) := ⟨fun _ world => .stay world, fun _ => done_steps _⟩

theorem read_steps (purpose : Purpose) (query : Authority → World → α) (message : String) :
    (read purpose query message).Steps (Move engine) := by
  refine ⟨fun choice world => ?_, fun _ => done_steps _⟩
  cases told : choice.outcome <;> simp only [told] <;> exact .stay world

theorem write_steps (insert : Insert) : (write (insertInto engine insert)).Steps (Move engine) := by
  refine ⟨fun choice world => ?_, fun _ => done_steps _⟩
  dsimp only
  split
  · exact .stay world
  · exact .stay world
  · rename_i inserted _
    exact .insert inserted

theorem mapDependency_steps (result : Except Dependency α) :
    (mapDependency result).Steps (Move engine) := by
  unfold mapDependency
  split <;> exact done_steps _

theorem decoded_steps (result : Except Corrupt α) (invalid corrupt : String) :
    (decoded result invalid corrupt).Steps (Move engine) := by
  unfold decoded
  split <;> exact done_steps _

theorem instant_steps (clock : String) : (instant clock).Steps (Move engine) := by
  refine .then (consult_steps _ _) fun now => ?_
  split
  · exact done_steps _
  · split <;> exact done_steps _

theorem identifier_steps (value : Text) (label : String) :
    (identifier value label).Steps (Move engine) :=
  .then (require_steps _ _ _ _) fun _ => done_steps _

theorem idempotency_steps (value : Option Text) : (idempotency value).Steps (Move engine) := by
  unfold idempotency
  split <;> exact done_steps _

theorem owner_steps (clock : String) (context : Context) : (owner clock context).Steps (Move engine) := by
  refine .then (instant_steps _) fun _ => .then (consult_steps _ _) fun session => ?_
  split
  · exact done_steps _
  · exact done_steps _
  · exact .then (identifier_steps _ _) fun _ => .then (identifier_steps _ _) fun _ => done_steps _

theorem requireSchema_steps (message : String) : (requireSchema message).Steps (Move engine) := by
  refine ⟨fun choice world => ?_, fun _ => done_steps _⟩
  cases told : choice.outcome <;> simp only [told] <;> exact .stay world

theorem requireGrant_steps (grant : Option Grant) (projectId principal : Text) (actor : Actor)
    (revision now : Int) :
    (requireGrant tools grant projectId principal actor revision now).Steps (Move engine) := by
  unfold requireGrant
  split <;> exact done_steps _

theorem requireReadyQualification_steps (status : Option QualificationStatus) (connection : Connection)
    (transport deployment : Text) (now : Int) :
    (requireReadyQualification tools status connection transport deployment now).Steps (Move engine) := by
  unfold requireReadyQualification
  split
  · exact .then (require_steps _ _ _ _) fun _ => done_steps _
  · exact done_steps _

theorem readConnections_steps (connectionId : Text) (revision : Int)
    (accepts : Connection → Connection → Bool) :
    (readConnections connectionId revision accepts).Steps (Move engine) := by
  refine .then (consult_steps _ _) fun _ => .then (mapDependency_steps _) fun exact => ?_
  refine .then (consult_steps _ _) fun _ => .then (mapDependency_steps _) fun current => ?_
  split
  · split <;> exact done_steps _
  · exact done_steps _

theorem prepareDispatch_steps (deployment : Text) (identity : Identity) (projectId key requestSha : Text)
    (input : ComputerAgentDispatchCreate) :
    (prepareDispatch tools deployment identity projectId key requestSha input).Steps (Move engine) := by
  refine .then (instant_steps _) fun current => .then (consult_steps _ _) fun _ => ?_
  refine .then (mapDependency_steps _) fun route => .then (require_steps _ _ _ _) fun _ => ?_
  refine .then (require_steps _ _ _ _) fun _ => .then (readConnections_steps _ _ _) fun exact => ?_
  refine .then (consult_steps _ _) fun _ => .then (mapDependency_steps _) fun _ => ?_
  refine .then (requireGrant_steps _ _ _ _ _ _) fun grant => .then (consult_steps _ _) fun _ => ?_
  refine .then (mapDependency_steps _) fun _ => ?_
  refine .then (requireReadyQualification_steps _ _ _ _ _) fun qualification => ?_
  split
  · refine .then (require_steps _ _ _ _) fun _ => ?_
    dsimp only
    split
    · exact .then (require_steps _ _ _ _) fun _ => pure_steps _
    · exact done_steps _
  · exact done_steps _

theorem settleDispatch_steps (context : Context) (dispatch : ComputerAgentDispatch) (key requestSha : Text) :
    (settleDispatch engine tools context dispatch key requestSha).Steps (Move engine) := by
  refine .then (owner_steps _ _) fun _ => .then (write_steps _) fun _ => .then (read_steps _ _ _) fun settled => ?_
  split
  · exact done_steps _
  · refine .then (require_steps _ _ _ _) fun _ => .then (decoded_steps _ _ _) fun _ => ?_
    exact .then (require_steps _ _ _ _) fun _ => .then (owner_steps _ _) fun _ => pure_steps _

theorem create_steps (deployment : Text) (internal : Bool) (context : Context) (projectId : Text)
    (input : ComputerAgentDispatchCreate) :
    (create engine tools deployment internal context projectId input).Steps (Move engine) := by
  refine .then (requireSchema_steps _) fun _ => .then (owner_steps _ _) fun _ => ?_
  refine .then (identifier_steps _ _) fun _ => .then (require_steps _ _ _ _) fun _ => ?_
  refine .then (.then (require_steps _ _ _ _) fun _ => require_steps _ _ _ _) fun _ => ?_
  refine .then (idempotency_steps _) fun _ => .then (require_steps _ _ _ _) fun _ => ?_
  refine .then (read_steps _ _ _) fun replay => ?_
  split
  · refine .then (require_steps _ _ _ _) fun _ => .then (owner_steps _ _) fun _ => decoded_steps _ _ _
  · exact .then (prepareDispatch_steps _ _ _ _ _ _) fun _ => settleDispatch_steps _ _ _ _

theorem settleAbandonment_steps (context : Context) (identity : Identity)
    (dispatchId projectId key requestSha : Text) (input : Reasoned) :
    (settleAbandonment engine tools context identity dispatchId projectId key requestSha input).Steps
      (Move engine) := by
  refine .then (instant_steps _) fun now => ?_
  dsimp only
  split
  · refine .then (owner_steps _ _) fun _ => .then (write_steps _) fun _ => ?_
    refine .then (read_steps _ _ _) fun settled => ?_
    split
    · exact done_steps _
    · refine .then (require_steps _ _ _ _) fun _ => .then (decoded_steps _ _ _) fun _ => ?_
      exact .then (require_steps _ _ _ _) fun _ => .then (owner_steps _ _) fun _ => pure_steps _
  · exact done_steps _

theorem abandon_steps (context : Context) (projectId dispatchId : Text) (input : Reasoned) :
    (abandon engine tools context projectId dispatchId input).Steps (Move engine) := by
  refine .then (requireSchema_steps _) fun _ => .then (owner_steps _ _) fun identity => ?_
  refine .then (identifier_steps _ _) fun _ => .then (identifier_steps _ _) fun _ => ?_
  refine .then (require_steps _ _ _ _) fun _ => .then (idempotency_steps _) fun key => ?_
  refine .then (.then (read_steps _ _ _) fun _ => require_steps _ _ _ _) fun _ => ?_
  refine .then (read_steps _ _ _) fun row => ?_
  split
  · exact done_steps _
  · refine .then (decoded_steps _ _ _) fun dispatch => .then (require_steps _ _ _ _) fun _ => ?_
    refine .then (read_steps _ _ _) fun replay => ?_
    split
    · exact .then (require_steps _ _ _ _) fun _ => .then (owner_steps _ _) fun _ => decoded_steps _ _ _
    · refine .then (read_steps _ _ _) fun _ => .then (require_steps _ _ _ _) fun _ => ?_
      refine .then (read_steps _ _ _) fun _ => .then (require_steps _ _ _ _) fun _ => ?_
      exact settleAbandonment_steps _ _ _ _ _ _ _

theorem serviceIdentity_steps (context : Context) : (serviceIdentity context).Steps (Move engine) := by
  refine .then (instant_steps _) fun _ => .then (consult_steps _ _) fun _ => ?_
  refine .then (require_steps _ _ _ _) fun _ => .then (identifier_steps _ _) fun _ => ?_
  exact .then (identifier_steps _ _) fun _ => .then (identifier_steps _ _) fun _ => pure_steps _

theorem settleDecline_steps (context : Context) (dispatch : ComputerAgentDispatch) (key requestSha : Text)
    (input : Reasoned) :
    (settleDecline engine tools context dispatch key requestSha input).Steps (Move engine) := by
  refine .then (instant_steps _) fun now => ?_
  dsimp only
  split
  · refine .then (serviceIdentity_steps _) fun _ => .then (write_steps _) fun _ => ?_
    refine .then (read_steps _ _ _) fun settled => ?_
    split
    · exact done_steps _
    · refine .then (require_steps _ _ _ _) fun _ => .then (decoded_steps _ _ _) fun _ => ?_
      exact .then (require_steps _ _ _ _) fun _ => .then (serviceIdentity_steps _) fun _ => pure_steps _
  · exact done_steps _

theorem decline_steps (context : Context) (dispatchId : Text) (input : Reasoned) :
    (decline engine tools context dispatchId input).Steps (Move engine) := by
  refine .then (requireSchema_steps _) fun _ => .then (serviceIdentity_steps _) fun _ => ?_
  refine .then (identifier_steps _ _) fun _ => .then (require_steps _ _ _ _) fun _ => ?_
  refine .then (idempotency_steps _) fun key => .then (read_steps _ _ _) fun row => ?_
  split
  · exact done_steps _
  · refine .then (decoded_steps _ _ _) fun dispatch => .then (require_steps _ _ _ _) fun _ => ?_
    refine .then (read_steps _ _ _) fun replay => ?_
    split
    · refine .then (require_steps _ _ _ _) fun _ => .then (serviceIdentity_steps _) fun _ => ?_
      exact decoded_steps _ _ _
    · refine .then (read_steps _ _ _) fun _ => .then (require_steps _ _ _ _) fun _ => ?_
      refine .then (read_steps _ _ _) fun _ => .then (read_steps _ _ _) fun _ => ?_
      exact .then (require_steps _ _ _ _) fun _ => settleDecline_steps _ _ _ _ _

theorem mapM_steps {Row Record : Type} (row : Option Row) {read : Row → Calls Record}
    (steps : ∀ row, (read row).Steps (Move engine)) : (row.mapM read).Steps (Move engine) := by
  cases row with
  | none => exact done_steps _
  | some row => exact .then (steps row) fun _ => pure_steps _

theorem readStatus_steps (dispatch : ComputerAgentDispatch) (now : Int) :
    (readStatus engine tools dispatch now).Steps (Move engine) := by
  refine .then (read_steps _ _ _) fun _ => .then (read_steps _ _ _) fun _ => ?_
  refine .then (read_steps _ _ _) fun _ => .then (read_steps _ _ _) fun _ => ?_
  refine .then (mapM_steps _ fun _ => decoded_steps _ _ _) fun acceptance => ?_
  refine .then (mapM_steps _ fun _ => decoded_steps _ _ _) fun abandonment => ?_
  refine .then (mapM_steps _ fun _ => decoded_steps _ _ _) fun decline => ?_
  refine .then (mapM_steps _ fun _ => decoded_steps _ _ _) fun _ => .then (require_steps _ _ _ _) fun _ => ?_
  split
  · exact pure_steps _
  split
  · exact pure_steps _
  split
  · exact pure_steps _
  split
  · exact pure_steps _
  refine .then ⟨fun choice world => ?_, fun _ => done_steps _⟩ fun _ => pure_steps _
  cases told : choice.outcome <;> simp only [told] <;> exact .stay world

theorem settleReassignment_steps (context : Context) (identity : Identity)
    (predecessor successor : ComputerAgentDispatch) (projectId state key requestSha : Text) :
    (settleReassignment engine tools context identity predecessor successor projectId state key
      requestSha).Steps (Move engine) := by
  refine .then (instant_steps _) fun now => ?_
  dsimp only
  split
  · refine .then (owner_steps _ _) fun _ => .then (write_steps _) fun _ => ?_
    refine .then (read_steps _ _ _) fun settled => ?_
    split
    · exact done_steps _
    · refine .then (decoded_steps _ _ _) fun _ => .then (require_steps _ _ _ _) fun _ => ?_
      exact .then (owner_steps _ _) fun _ => pure_steps _
  · exact done_steps _

theorem reassign_steps (deployment : Text) (context : Context) (projectId predecessorId : Text)
    (input : ComputerAgentDispatchReassign) :
    (reassign engine tools deployment context projectId predecessorId input).Steps (Move engine) := by
  refine .then (requireSchema_steps _) fun _ => .then (owner_steps _ _) fun identity => ?_
  refine .then (identifier_steps _ _) fun _ => .then (identifier_steps _ _) fun _ => ?_
  refine .then (require_steps _ _ _ _) fun _ => .then (idempotency_steps _) fun key => ?_
  refine .then (read_steps _ _ _) fun row => ?_
  split
  · exact done_steps _
  · refine .then (decoded_steps _ _ _) fun predecessor => .then (require_steps _ _ _ _) fun _ => ?_
    refine .then (instant_steps _) fun _ => .then (readStatus_steps _ _) fun status => ?_
    split
    · exact done_steps _
    · refine .then (require_steps _ _ _ _) fun _ => .then (require_steps _ _ _ _) fun _ => ?_
      refine .then (read_steps _ _ _) fun _ => .then (read_steps _ _ _) fun _ => ?_
      split
      · refine .then (require_steps _ _ _ _) fun _ => .then (owner_steps _ _) fun _ => ?_
        exact decoded_steps _ _ _
      · refine .then (.then (create_steps _ _ _ _ _) fun _ => .then (require_steps _ _ _ _) fun _ =>
          pure_steps _) fun successor => ?_
        exact settleReassignment_steps _ _ _ _ _ _ _ _

theorem serviceGrant_steps (context : Context) (dispatch : ComputerAgentDispatch) :
    (serviceGrant tools context dispatch).Steps (Move engine) := by
  refine .then (require_steps _ _ _ _) fun _ => .then (consult_steps _ _) fun _ => ?_
  refine .then (mapDependency_steps _) fun _ => .then (instant_steps _) fun _ => ?_
  exact .then (requireGrant_steps _ _ _ _ _ _) fun _ => pure_steps _

theorem settleAcceptance_steps (context : Context) (dispatch : ComputerAgentDispatch) (started : Started) :
    (settleAcceptance engine tools context dispatch started).Steps (Move engine) := by
  refine .then (instant_steps _) fun now => ?_
  dsimp only
  split
  · refine .then (write_steps _) fun _ => .then (read_steps _ _ _) fun settled => ?_
    split
    · exact done_steps _
    · refine .then (decoded_steps _ _ _) fun _ => .then (require_steps _ _ _ _) fun _ => ?_
      exact pure_steps _
  · exact done_steps _

end

section
open Pact (Does Given)
variable {engine : Engine} {tools : Tools} {number : Nat} {α : Type} (engine) in
theorem tame {pre : World → Prop} {call : Calls α} (steps : call.Steps (Move engine)) :
    pact.Does number pre call.program (Given fun _ _ => True) :=
  Does.steps steps fun _ _ sound move => move.fair sound

theorem still_fair {now : World} (sound : Sound now) : pact.Fair number now now :=
  ⟨sound, Later.refl _, fun _ _ _ there => there, trivial⟩

theorem claim_stable (id : Text) : pact.Stable number fun now => (number, id) ∈ now.claims :=
  fun _ _ sees there => sees.2 id there

theorem runKey_injective {first second : Text} (same : runKey first = runKey second) : first = second :=
  append_cancel_left same

theorem readCurrentOffer_does (id : Text) :
    pact.Does number (fun _ => True) (readCurrentOffer engine (some number) id).program
      (Given fun current now => current = true → (number, id) ∈ now.claims) := by
  refine Does.ask (fun _ _ _ _ => trivial) fun now sound _ choice => ?_
  cases choice.outcome with
  | lost ran => exact ⟨still_fair sound, trivial⟩
  | answered =>
    dsimp only
    cases current : now.tables.claimable engine choice.authority id with
    | false => exact ⟨still_fair sound, fun yes => by cases yes⟩
    | true =>
      refine ⟨⟨⟨sound.guarded, fun other clean accepting => ?_⟩, ⟨.refl _, fun _ there => there,
        fun _ there => there⟩, fun _ _ _ there => mem_cons_of_mem _ there, trivial⟩,
        fun _ => mem_cons_self⟩
      by_cases own : id = other
      · subst own
        simp only [Tables.claimable, Bool.and_eq_true, Bool.not_eq_true'] at current
        rintro (abandoned | declined)
        · exact Bool.false_ne_true (current.1.2.symm.trans abandoned)
        · exact Bool.false_ne_true (current.2.symm.trans declined)
      · refine sound.pending other clean ?_
        simpa [World.accepting, World.run, own] using accepting

theorem release_fair {now : World} (sound : Sound now) : pact.Fair number now (now.release number) := by
  refine ⟨⟨sound.guarded, fun id clean accepting => sound.pending id clean ?_⟩,
    ⟨.refl _, fun _ there => there, fun _ there => there⟩, fun other apart id there => ?_, trivial⟩
  · simp only [World.accepting, World.release, World.run, Bool.or_eq_true, any_eq_true] at accepting ⊢
    rcases accepting with ⟨claim, kept, own⟩ | started
    · exact .inl ⟨claim, (mem_filter.mp kept).1, own⟩
    · exact .inr started
  · exact mem_filter.mpr ⟨there, by simpa using apart⟩

theorem requireCurrent_does (id : Text) :
    pact.Does number (fun now => (number, id) ∈ now.claims) (requireCurrent number).program
      (Given fun _ now => (number, id) ∈ now.claims) := by
  refine Does.call (fun result now => ∀ value, result = .ok value → (number, id) ∈ now.claims) ?_
    fun result => ?_
  · refine Does.ask (claim_stable id) fun now sound claimed choice => ?_
    dsimp only
    cases choice.leaseCurrent with
    | ok value => exact ⟨still_fair sound, fun _ _ => claimed⟩
    | error failure => exact ⟨release_fair sound, fun value bad => by cases bad⟩
  · cases result with
    | ok value => exact Does.returns fun now _ known => known value rfl
    | error failure => cases failure <;> exact Does.throws

theorem requireTarget_does (deployment : Text) (context : Context) (dispatch : ComputerAgentDispatch) :
    pact.Does number (fun _ => True)
      (requireTarget engine tools deployment number context dispatch).program
      (Given fun _ now => (number, dispatch.dispatchId) ∈ now.claims) := by
  refine Does.call _ (tame engine (instant_steps _)) fun current => ?_
  refine Does.call _ (tame engine (require_steps _ _ _ _)) fun _ => ?_
  refine Does.call _ (tame engine (consult_steps _ _)) fun _ => ?_
  refine Does.call _ (tame engine (mapDependency_steps _)) fun connection => ?_
  refine Does.call _ (tame engine (require_steps _ _ _ _)) fun _ => ?_
  refine Does.call _ (tame engine (serviceGrant_steps _ _)) fun _ => ?_
  refine Does.call _ (tame engine (consult_steps _ _)) fun _ => ?_
  refine Does.call _ (tame engine (mapDependency_steps _)) fun route => ?_
  refine Does.call _ (tame engine (require_steps _ _ _ _)) fun _ => ?_
  refine Does.call _ (tame engine (consult_steps _ _)) fun _ => ?_
  refine Does.call _ (tame engine (mapDependency_steps _)) fun qualification => ?_
  refine Does.call _ (tame engine (require_steps _ _ _ _)) fun _ => ?_
  refine Does.call _ (readCurrentOffer_does dispatch.dispatchId) fun current => ?_
  cases current with
  | false => exact Does.throws
  | true => exact (requireCurrent_does dispatch.dispatchId).weaken fun now _ known => known rfl

theorem startRun_does (id : Text) :
    pact.Does number (fun now => (number, id) ∈ now.claims) (startRun number id).program
      (Given fun _ _ => True) := by
  refine Does.ask (claim_stable id) fun now sound claimed choice => ⟨?_, ?_⟩
  · have released : pact.Fair number now (now.release number) := release_fair sound
    have own : now.accepting id = true := by
      simp only [World.accepting, Bool.or_eq_true, any_eq_true]
      exact .inl ⟨_, claimed, by simp⟩
    refine ⟨⟨sound.guarded, fun other clean accepting => ?_⟩,
      ⟨.refl _, fun other there => ?_, fun _ there => there⟩, released.others, trivial⟩
    · by_cases same : other = id
      · subst same
        exact sound.pending other clean own
      · refine released.inv.pending other clean ?_
        have apart : ¬runKey other = runKey id := fun equal => same (runKey_injective equal)
        have kept : World.run { now.release number with
            runs := if (now.run id).isNone ∧ choice.starts = true then
              (runKey id, choice.started) :: now.runs else now.runs } other = now.run other := by
          unfold World.run
          dsimp only
          split
          · simp only [lookup_cons, beq_eq_false_iff_ne.mpr apart]
          · rfl
        simp only [World.accepting, kept] at accepting
        exact accepting
    · unfold World.run at there ⊢
      dsimp only
      split
      · rw [lookup_cons]
        split
        · rfl
        · exact there
      · exact there
  · split <;> exact trivial

theorem accept_does (deployment : Text) (context : Context) (dispatchId : Text) :
    pact.Does number (fun _ => True) (accept engine tools deployment number context dispatchId).program
      (Given fun _ _ => True) := by
  refine Does.call _ (tame engine (requireSchema_steps _)) fun _ => ?_
  refine Does.call _ (tame engine (identifier_steps _ _)) fun _ => ?_
  refine Does.call _ (tame engine (read_steps _ _ _)) fun row => ?_
  cases row with
  | none => exact Does.throws
  | some row =>
    refine Does.call _ (tame engine (decoded_steps _ _ _)) fun dispatch => ?_
    refine Does.call _ (tame engine (read_steps _ _ _)) fun existing => ?_
    cases existing with
    | some existing =>
      refine Does.call _ (tame engine (require_steps _ _ _ _)) fun _ => ?_
      refine Does.call _ (tame engine (serviceGrant_steps _ _)) fun _ => ?_
      refine Does.call (fun _ _ => True) ?_ fun _ => tame engine (decoded_steps _ _ _)
      refine Does.call (fun _ _ => True) ?_ fun result => ?_
      · refine Does.ask (fun _ _ _ _ => trivial) fun now sound _ choice => ?_
        dsimp only
        cases choice.leaseCurrent with
        | ok value => exact ⟨still_fair sound, trivial⟩
        | error failure => exact ⟨release_fair sound, trivial⟩
      · exact tame engine (mapDependency_steps result)
    | none =>
      refine Does.call _ (requireTarget_does _ _ _) fun _ => ?_
      refine Does.call _ (startRun_does _) fun result => ?_
      cases result with
      | error failure => cases failure <;> exact Does.throws
      | ok started => exact tame engine (settleAcceptance_steps _ _ _)

end

section
open Pact (Does Given)
variable {engine : Engine} {tools : Tools}

theorem answering_does {α : Type} {number : Nat} {call : Calls α}
    (does : pact.Does number (fun _ => True) call.program (Given fun _ _ => True)) :
    pact.Does number (fun _ => True) (answering call) (fun _ _ => True) := by
  unfold answering
  rw [Call.program_bind]
  have whole : pact.Does number (fun _ => True) (call.program.bind fun _ =>
      (Call.done (.ok ()) : Calls Unit).program) (Given fun _ _ => True) :=
    does.then _ fun value => Does.returns fun _ _ _ => trivial
  exact whole.consequence (fun _ _ _ => trivial) fun _ _ _ _ => trivial

theorem serve_does (number : Nat) (request : Request) :
    pact.Does number (fun _ => True) ((service engine tools).serve number request) (fun _ _ => True) := by
  cases request with
  | create deployment context projectId input =>
    exact answering_does (tame engine (create_steps _ _ _ _ _))
  | accept deployment context dispatchId => exact answering_does (accept_does _ _ _)
  | abandon context projectId dispatchId input =>
    exact answering_does (tame engine (abandon_steps _ _ _ _))
  | decline context dispatchId input => exact answering_does (tame engine (decline_steps _ _ _))
  | reassign deployment context projectId predecessorId input =>
    exact answering_does (tame engine (reassign_steps _ _ _ _ _))

theorem service_sound {labels more : List (Service.Label Choice Request)}
    {before after : Service.Config World Choice Failure}
    (ran : (service engine tools).run (Service.boot World.empty) labels = some before)
    (later : (service engine tools).run before more = some after) :
    Sound before.state ∧ Sound after.state ∧ Later before.state after.state := by
  have correct : ∀ number request state, pact.inv state → pact.fresh number state →
      (service engine tools).admits state request = true →
      (pact.granting fun _ _ => True).wp number ((service engine tools).serve number request)
        (fun _ _ => True) state :=
    fun number request state inv _ _ => serve_does number request state inv trivial
  obtain ⟨first, -⟩ := Pact.run_sound (fun _ _ _ _ => True) pact_lawful correct ran
    (Pact.boot_sound Sound.empty fun _ => trivial)
  obtain ⟨second, kept⟩ := Pact.run_sound (fun _ _ _ _ => True) pact_lawful correct later first
  exact ⟨first.inv, second.inv, kept⟩

def Chained (tables : Tables) (first last : Text) : Prop :=
  Relation.ReflTransGen (Points tables.successor) first last ∨
    Relation.ReflTransGen (Points tables.successor) last first

theorem Sound.open_of_run {world : World} (sound : Sound world) {id : Text}
    (clean : id ∉ world.disturbed) (ran : (world.run id).isSome) : ¬world.tables.closed id :=
  sound.pending id clean (by rw [World.accepting, ran, Bool.or_true])

theorem Sound.last_of_run {world : World} (sound : Sound world) {first last : Text}
    (clean : first ∉ world.disturbed) (ran : (world.run first).isSome)
    (path : Relation.ReflTransGen (Points world.tables.successor) first last) : first = last := by
  rcases Relation.ReflTransGen.cases_head path with same | ⟨next, points, -⟩
  · exact same
  · exact absurd (sound.guarded.predecessor first next points) (sound.open_of_run clean ran)

end

section
open Text (prose)

def sampleOwner (key : Text) : Context :=
  ⟨prose "owner" rfl, prose "session" rfl, prose "issuer" rfl, some key, none⟩

def sampleAgent : Context :=
  ⟨prose "agent" rfl, prose "token" rfl, prose "issuer" rfl, none, some (prose "grant" rfl)⟩

def sampleInput : ComputerAgentDispatchCreate :=
  ⟨prose "MCP_WRITE" rfl, 1, prose "connection" rfl, 1, prose "grant" rfl, 1, 900, sampleRequest⟩

def sampleTools : Tools := Samples.tools ⟨[], [], [], []⟩

def sampleId (key : Text) : Text :=
  let requestSha := createSha sampleTools (prose "project" rfl) (prose "owner" rfl) sampleInput
  prose "dispatch-" rfl ++ (sampleSha (prose "owner" rfl ++ 124 :: key ++ 124 :: requestSha)).take 48

def obliging (ids : List Text) (id : Text) : Choice where
  outcome := .answered
  authority := sampleAuthority ids
  session := .current
  now := some sampleClock
  route := .ok ⟨true, 1, [(prose "connection" rfl, 1)]⟩
  currentRoute := .ok (some ⟨true, 1, [(prose "connection" rfl, 1)]⟩)
  exact := .ok (some ⟨prose "connection" rfl, 1, true, prose "owner" rfl,
    ⟨prose "issuer" rfl, prose "agent" rfl⟩, [prose "MCP_WRITE" rfl],
    [prose "RESEARCH_BRANCH_ANALYSIS" rfl]⟩)
  current := .ok (some ⟨prose "connection" rfl, 1, true, prose "owner" rfl,
    ⟨prose "issuer" rfl, prose "agent" rfl⟩, [prose "MCP_WRITE" rfl],
    [prose "RESEARCH_BRANCH_ANALYSIS" rfl]⟩)
  forTask := .ok ⟨prose "connection" rfl, 1, true, prose "owner" rfl,
    ⟨prose "issuer" rfl, prose "agent" rfl⟩, [prose "MCP_WRITE" rfl],
    [prose "RESEARCH_BRANCH_ANALYSIS" rfl]⟩
  grant := .ok (some ⟨prose "grant" rfl, 1, true, prose "project" rfl, prose "owner" rfl,
    prose "service_token" rfl, ⟨prose "issuer" rfl, prose "agent" rfl⟩,
    [prose "run" rfl, prose "recover" rfl, prose "evidence" rfl], some (prose "policy" rfl),
    sampleIso (sampleClock + 3540000)⟩)
  lease := .ok ⟨prose "grant" rfl, 1, true, prose "project" rfl, prose "owner" rfl,
    prose "service_token" rfl, ⟨prose "issuer" rfl, prose "agent" rfl⟩,
    [prose "run" rfl, prose "recover" rfl, prose "evidence" rfl], some (prose "policy" rfl),
    sampleIso (sampleClock + 3540000)⟩
  leaseCurrent := .ok ()
  status := .ok (some ⟨true, prose "challenge" rfl, prose "connection" rfl, 1, prose "MCP_WRITE" rfl,
    prose "deployment" rfl, some (prose "observation" rfl),
    some (sampleIso (sampleClock + 3000000)), some (prose "token" rfl)⟩)
  qualification := .ok ⟨prose "challenge" rfl, prose "observation" rfl, prose "token" rfl,
    sampleIso (sampleClock + 3000000), prose "deployment" rfl⟩
  readiness := .error .other
  starts := true
  started := ⟨prose "run-" rfl ++ id, ⟨prose "investigation" rfl, 1⟩⟩
  runFailure := none

def firstId : Text := sampleId (text "offer")

def abandonInput : Reasoned := ⟨prose "OWNER_REASSIGNMENT" rfl, none⟩

def reassignInput : ComputerAgentDispatchReassign :=
  ⟨prose "ABANDONED" rfl, sampleSha (Json.canonicalJson sampleRequest.json), prose "MCP_WRITE" rfl, 1,
    prose "connection" rfl, 1, prose "grant" rfl, 1, 900⟩

def reassignDigest : Text :=
  reassignSha sampleTools firstId (prose "project" rfl) (prose "owner" rfl) (text "reassign") reassignInput

def secondId : Text :=
  sampleId (successorKey sampleTools firstId (prose "owner" rfl) (text "reassign") reassignDigest)

def replaced : Samples where
  dispatches := [sampleDispatch firstId sampleClock, sampleDispatch secondId sampleClock]
  acceptances := [sampleAcceptance firstId sampleClock, sampleAcceptance secondId sampleClock]
  abandonments := [{ sampleAbandonment firstId (text "abandon") sampleClock with
    requestSha256 := abandonSha sampleTools firstId (prose "project" rfl) (prose "owner" rfl)
      (text "abandon") abandonInput }]
  reassignments := [{ sampleReassignment firstId secondId (text "reassign") sampleClock with
    requestSha256 := reassignDigest }]

def replacedService : Service World Choice Request Failure :=
  service (sampleEngine replaced.documents) replaced.tools

def createFirst : Request :=
  .create (prose "deployment" rfl) (sampleOwner (text "offer")) (prose "project" rfl) sampleInput

def acceptFirst : Request := .accept (prose "deployment" rfl) sampleAgent firstId

def abandonFirst : Request :=
  .abandon (sampleOwner (text "abandon")) (prose "project" rfl) firstId abandonInput

def reassignFirst : Request :=
  .reassign (prose "deployment" rfl) (sampleOwner (text "reassign")) (prose "project" rfl) firstId
    reassignInput

def acceptSecond : Request := .accept (prose "deployment" rfl) sampleAgent secondId

def goes (number count : Nat) (id : Text) : List (Service.Label Choice Request) :=
  List.replicate count (.act number (obliging [firstId, secondId] id))

def overtaking : List (Service.Label Choice Request) :=
  .accept createFirst :: goes 0 16 firstId ++ .accept acceptFirst :: goes 1 12 firstId ++
    .accept abandonFirst :: goes 2 15 firstId ++ .accept reassignFirst :: goes 3 34 secondId ++
    .accept acceptSecond :: goes 4 12 secondId

end

end Dispatch

