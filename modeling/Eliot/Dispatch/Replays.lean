import Eliot.Dispatch.Changes

namespace Dispatch
open Async List Standing
open Relational (Table)
open Sqlite (Engine)

variable {now : World} {context : Context} {dispatch : ComputerAgentDispatch} {seen : World → Prop}
variable {failure : Failure}

section
variable {engine : Engine} {tools : PreferredTools} {deployment : Text}
  {condition : Purpose → World → Prop}

def Bound (principal key requestSha : Text) (row : DispatchRow) : Prop :=
  row.ownerPrincipalRef = principal ∧ row.idempotencyKey = key ∧ row.requestSha256 = requestSha

def Stored (principal key requestSha : Text) (world : World) : Prop :=
  ∃ row ∈ world.tables.dispatches, Bound principal key requestSha row

def Undisputed (principal key requestSha : Text) (purpose : Purpose) (world : World) : Prop :=
  ∀ record, purpose = .settled record →
    ∀ row ∈ world.tables.dispatches, Bound principal key requestSha row → row.recordJson = record

structure Created (tools : PreferredTools) (own : Nat) (principal key projectId requestSha : Text)
    (agree : ComputerAgentDispatch → Prop) (result : Except Failure ComputerAgentDispatch)
    (final : World) : Prop where
  intact : Intact tools final.tables final.preferred
  own : final.own = own ∨ Stored principal key requestSha final
  returned : ∀ dispatch, result = .ok dispatch → agree dispatch ∧
    ∃ row ∈ final.tables.dispatches, Bound principal key requestSha row ∧
      decodeComputerAgentDispatch tools.toTools row = .ok dispatch
  clashes : ∀ failure, result = .error failure → failure.clashes = true →
    ∃ row ∈ final.tables.dispatches, row.ownerPrincipalRef = principal ∧ row.idempotencyKey = key ∧
      ¬(row.projectId = projectId ∧ row.requestSha256 = requestSha)

variable {own : Nat} {principal key projectId requestSha : Text} {agree : ComputerAgentDispatch → Prop}

theorem Created.failed {final : World}
    (mild : failure.clashes = false)
    (standing : Standing tools own (Stored principal key requestSha) seen final) :
    Created tools own principal key projectId requestSha agree (.error failure) final where
  intact := standing.intact
  own := standing.own
  returned _ bad := by cases bad
  clashes _ same bad := by
    cases same
    exact absurd (mild.symm.trans bad) Bool.false_ne_true

theorem created_then {β : Type} {call : Calls β} {known : β → Prop}
    {rest : β → Calls ComputerAgentDispatch}
    (mild : Mild engine tools deployment condition known call)
    (standing : Standing tools own (Stored principal key requestSha) (fun _ => True) now)
    (onward : ∀ value later, known value →
      Standing tools own (Stored principal key requestSha) (fun _ => True) later →
        (rest value).wp (timely engine tools deployment condition)
          (Created tools own principal key projectId requestSha agree) later) :
    (call >>= rest).wp (timely engine tools deployment condition)
      (Created tools own principal key projectId requestSha agree) now :=
  wp_mild mild (.dispatch _) .nothing standing (fun _ _ mild later => .failed mild later) onward

theorem replayDispatch_wp (context : Context) {row : DispatchRow}
    (standing : Standing tools own (Stored principal key requestSha) (fun world => row ∈ world.tables.dispatches) now)
    (owned : row.ownerPrincipalRef = principal) (keyed : row.idempotencyKey = key)
    (agreed : ∀ dispatch, decodeComputerAgentDispatch tools.toTools row = .ok dispatch → agree dispatch) :
    (replayDispatch tools.toTools context projectId requestSha row).wp
      (timely engine tools deployment condition)
      (Created tools own principal key projectId requestSha agree) now := by
  have lasts : Lasting fun world => row ∈ world.tables.dispatches :=
    fun _ _ kept there => kept.tables.dispatches.mem there
  refine wp_require (fun other => ?_) fun same => ?_
  · refine ⟨standing.intact, standing.own, (fun _ bad => by cases bad), fun _ _ _ => ?_⟩
    refine ⟨row, standing.seen, owned, keyed, fun same => ?_⟩
    simp [same] at other
  · simp only [Bool.and_eq_true, decide_eq_true_eq] at same
    refine wp_mild (owner_mild clock context) (.dispatch _) lasts standing
      (fun _ _ mild later => .failed mild later) ?_
    intro _ later _ standing
    obtain ⟨dispatch, read⟩ := standing.intact.dispatches row standing.seen
    rw [read]
    refine ⟨standing.intact, standing.own, fun value same' => ?_, fun _ bad => by cases bad⟩
    cases same'
    exact ⟨agreed _ read, row, standing.seen, ⟨owned, keyed, same.2⟩, read⟩

theorem decode_record {Record Row : Type} [DecidableEq Row] {json : Record → Json.Value}
    {codec : Codec Record json} {recordJson : Text} {row : Row} {bound : Record → Row} {record : Record}
    (read : decode codec recordJson row bound = .ok record) : row = bound record := by
  unfold decode at read
  split at read
  · cases read
  · split at read
    · cases read
      assumption
    · cases read

theorem decodeDispatch_bound {row : DispatchRow}
    (read : decodeComputerAgentDispatch tools.toTools row = .ok dispatch) :
    row = dispatch.row tools.toTools row.idempotencyKey row.requestSha256 := by
  unfold decodeComputerAgentDispatch at read
  obtain ⟨other, decoded, rest⟩ : ∃ other, decode tools.dispatch row.recordJson row
      (·.row tools.toTools row.idempotencyKey row.requestSha256) = .ok other ∧
        (if tools.digest other.runRequest.json = row.runRequestSha256 then
          (.ok other : Except Corrupt ComputerAgentDispatch) else .error .identity) = .ok dispatch := by
    cases told : decode tools.dispatch row.recordJson row
      (·.row tools.toTools row.idempotencyKey row.requestSha256) with
    | error failure =>
      rw [told] at read
      cases read
    | ok other =>
      rw [told] at read
      exact ⟨other, rfl, read⟩
  split at rest
  · cases rest
    have same := decode_record decoded
    exact same
  · cases rest

theorem insertInto_changes {insert : Insert} {authority : Authority} {before after : World}
    (made : Made tools insert) (stored : insertInto engine insert authority before = some after) :
    Changes engine tools before after ∧ before.tables.insert engine authority insert = some after.tables := by
  obtain ⟨tables, inserted, rfl⟩ := Option.map_eq_some_iff.mp stored
  have first : Changes engine tools before { before with tables } := .single (.store made inserted)
  cases insert with
  | abandonment row => exact ⟨first.tail (.note _ _ _ _), inserted⟩
  | decline row => exact ⟨first.tail (.note _ _ _ _), inserted⟩
  | dispatch row => exact ⟨first, inserted⟩
  | acceptance row => exact ⟨first, inserted⟩
  | reassignment row => exact ⟨first, inserted⟩

theorem settleDispatch_wp (context : Context)
    (same : ∀ purpose world, condition purpose world → Undisputed principal key requestSha purpose world)
    (agreed : ∀ purpose world, condition purpose world → ∀ row ∈ world.tables.dispatches,
      row.ownerPrincipalRef = principal → row.idempotencyKey = key →
        ∀ dispatch, decodeComputerAgentDispatch tools.toTools row = .ok dispatch → agree dispatch)
    (offered : Offered tools principal dispatch)
    (standing : Standing tools own (Stored principal key requestSha) (fun _ => True) now) :
    (settleDispatch engine tools.toTools context dispatch key requestSha).wp
      (timely engine tools deployment condition)
      (Created tools own principal key projectId requestSha agree) now := by
  refine created_then (owner_mild clock context) standing fun _ now _ standing => ?_
  -- whether the write was acknowledged or not, a row of the request is there or the call stored nothing
  refine wp_write (Standing tools own (Stored principal key requestSha) fun _ => True)
    (fun later moved => stable (.dispatch _) .nothing _ _ moved standing) ?_ ?_
  · intro later authority after moved stored
    obtain ⟨intact, -⟩ := Changes.intact moved standing.intact
    obtain ⟨changes, inserted⟩ :=
      insertInto_changes (.dispatch key requestSha offered.valid offered.digest) stored
    obtain ⟨-, -, dispatches, keys, added, same⟩ := insertDispatch_some inserted
    refine ⟨(Changes.intact changes intact).1, .inr ⟨dispatch.row tools.toTools key requestSha, ?_,
      offered.principal, rfl, rfl⟩, trivial⟩
    simp only [same]
    exact (Table.mem_insert added).mpr (.inr rfl)
  intro _ now standing
  refine wp_read (fun later moved => ?_) fun later _ moved met => ?_
  · exact .failed rfl (stable (.dispatch _) .nothing _ _ moved standing)
  have standing := stable (.dispatch _) .nothing _ _ moved standing
  split
  · exact .failed rfl standing
  rename_i row found
  have there := mem_of_find?_eq_some found
  obtain ⟨owned, keyed⟩ : row.ownerPrincipalRef = dispatch.ownerPrincipalRef ∧ row.idempotencyKey = key := by
    simpa using find?_some found
  rw [offered.principal] at owned
  refine wp_require (fun other => ?_) fun settled => ?_
  · refine ⟨standing.intact, standing.own, (fun _ bad => by cases bad), fun _ _ _ => ?_⟩
    refine ⟨row, there, owned, keyed, fun both => ?_⟩
    simp [both.2] at other
  rw [decide_eq_true_eq] at settled
  obtain ⟨stored, read⟩ := standing.intact.dispatches row there
  have record : Json.canonicalJson stored.json = Json.canonicalJson dispatch.json := by
    rw [← same _ _ met _ rfl row there ⟨owned, keyed, settled⟩, decodeDispatch_bound read]
    rfl
  refine wp_decoded read (wp_require (fun other => ?_) fun _ => ?_)
  · exact absurd record (by simpa using other)
  have lasts : Lasting fun world => row ∈ world.tables.dispatches :=
    fun _ _ kept there => kept.tables.dispatches.mem there
  refine wp_mild (owner_mild clock context) (.dispatch _) lasts
    ⟨standing.intact, standing.own, there⟩ (fun _ _ mild later => .failed mild later) ?_
  intro _ final _ standing
  refine ⟨standing.intact, standing.own, fun value same' => ?_, fun _ bad => by cases bad⟩
  cases same'
  exact ⟨agreed _ _ met row there owned keyed stored read, row, standing.seen,
    ⟨owned, keyed, settled⟩, read⟩

/-- A create call that finds its own record where it reads back returns the record that is stored, and
    is only refused for another request under its key. -/
theorem create_wp {internal : Bool} {input : ComputerAgentDispatchCreate}
    (keyed : context.idempotencyKey = some key)
    (digest : requestSha = createSha tools.toTools projectId context.principalRef input)
    (same : ∀ purpose world, condition purpose world →
      Undisputed context.principalRef key requestSha purpose world)
    (agreed : ∀ purpose world, condition purpose world → ∀ row ∈ world.tables.dispatches,
      row.ownerPrincipalRef = context.principalRef → row.idempotencyKey = key →
        ∀ dispatch, decodeComputerAgentDispatch tools.toTools row = .ok dispatch → agree dispatch)
    (standing : Standing tools own (Stored context.principalRef key requestSha) (fun _ => True) now) :
    (create engine tools.toTools deployment internal context projectId input).wp
      (timely engine tools deployment condition)
      (Created tools own context.principalRef key projectId requestSha agree) now := by
  subst digest
  refine created_then (requireSchema_mild _) standing fun _ _ _ standing => ?_
  refine created_then (owner_mild _ _) standing fun identity _ known standing => ?_
  subst known
  refine created_then (identifier_mild _ _) standing fun id _ known standing => ?_
  subst known
  refine created_then (require_mild _ _ _ rfl) standing fun _ _ _ standing => ?_
  refine created_then ((require_mild _ _ _ rfl).then fun _ _ => require_mild _ _ _ rfl) standing
    fun _ _ _ standing => ?_
  refine created_then (idempotency_mild _) standing fun other _ known standing => ?_
  obtain rfl := Option.some.inj (keyed.symm.trans known)
  refine created_then (require_mild _ _ _ rfl) standing fun _ _ _ standing => ?_
  refine wp_read (fun later moved => ?_) fun later _ moved met => ?_
  · exact .failed rfl (stable (.dispatch _) .nothing _ _ moved standing)
  have standing := stable (.dispatch _) .nothing _ _ moved standing
  split
  · rename_i row found
    have there := mem_of_find?_eq_some found
    obtain ⟨owned, keyed⟩ : row.ownerPrincipalRef = context.principalRef ∧ row.idempotencyKey = key := by
      simpa using find?_some found
    exact replayDispatch_wp context ⟨standing.intact, standing.own, there⟩ owned keyed
      (agreed _ _ met row there owned keyed)
  · refine created_then (prepareDispatch_mild _ _ _ _ _) standing fun dispatch _ offered standing => ?_
    exact settleDispatch_wp context same agreed offered standing

end

section
variable {engine : Engine} {tools : PreferredTools} {deployment : Text}
  {condition : Purpose → World → Prop}

def UndisputedAcceptance (dispatchId : Text) (purpose : Purpose) (world : World) : Prop :=
  ∀ record, purpose = .settled record →
    ∀ row ∈ world.tables.acceptances, row.dispatchId = dispatchId → row.recordJson = record

structure Accepted (tools : PreferredTools) (dispatchId : Text)
    (result : Except Failure ComputerAgentDispatchAcceptance) (final : World) : Prop where
  returned : ∀ acceptance, result = .ok acceptance → ∃ row ∈ final.tables.acceptances,
    row.dispatchId = dispatchId ∧ decodeComputerAgentDispatchAcceptance tools.toTools row = .ok acceptance
  clashes : ∀ failure, result = .error failure → failure.clashes = false

theorem Accepted.failed {dispatchId : Text} {final : World}
    (mild : failure.clashes = false) : Accepted tools dispatchId (.error failure) final where
  returned _ bad := by cases bad
  clashes _ same := by
    cases same
    exact mild

variable {dispatchId : Text}

abbrev Accepting (tools : PreferredTools) (seen : World → Prop) : World → Prop :=
  Standing tools 0 (fun _ => True) seen

theorem accepted_then {β : Type} {call : Calls β} {known : β → Prop}
    {rest : β → Calls ComputerAgentDispatchAcceptance}
    (mild : Mild engine tools deployment condition known call) (lasts : Lasting seen)
    (standing : Accepting tools seen now)
    (onward : ∀ value later, known value → Accepting tools seen later →
      (rest value).wp (timely engine tools deployment condition) (Accepted tools dispatchId) later) :
    (call >>= rest).wp (timely engine tools deployment condition) (Accepted tools dispatchId) now :=
  wp_mild mild .nothing lasts standing (fun _ _ mild _ => .failed mild) onward

theorem Lasting.acceptance (row : AcceptanceRow) : Lasting fun world => row ∈ world.tables.acceptances :=
  fun _ _ kept there => kept.tables.acceptances.mem there

theorem replayAcceptance_wp {number : Nat}
    {row : AcceptanceRow} (same : row.dispatchId = dispatchId)
    (standing : Accepting tools (fun world => row ∈ world.tables.acceptances) now) :
    (replayAcceptance tools.toTools number context dispatch row).wp
      (timely engine tools deployment condition) (Accepted tools dispatchId) now := by
  refine accepted_then (require_mild _ _ _ rfl) (.acceptance row) standing fun _ _ _ standing => ?_
  refine accepted_then (serviceGrant_mild _ _) (.acceptance row) standing fun _ _ _ standing => ?_
  refine accepted_then (requireCurrent_mild _) (.acceptance row) standing fun _ final _ standing => ?_
  obtain ⟨acceptance, read⟩ := standing.intact.acceptances row standing.seen
  rw [read]
  refine ⟨fun value same' => ?_, fun _ bad => by cases bad⟩
  cases same'
  exact ⟨row, standing.seen, same, read⟩

theorem settleAcceptance_wp {started : Started}
    (id : dispatch.dispatchId = dispatchId)
    (same : ∀ purpose world, condition purpose world → UndisputedAcceptance dispatchId purpose world)
    (standing : Accepting tools (fun _ => True) now) :
    (settleAcceptance engine tools.toTools context dispatch started).wp
      (timely engine tools deployment condition) (Accepted tools dispatchId) now := by
  refine accepted_then (instant_mild _) .nothing standing fun current _ _ standing => ?_
  dsimp only
  split
  · rename_i valid
    refine wp_write (Accepting tools fun _ => True)
      (fun later moved => stable .nothing .nothing _ _ moved standing) ?_ ?_
    · intro later authority after moved stored
      obtain ⟨intact, -⟩ := Changes.intact moved standing.intact
      obtain ⟨changes, -⟩ := insertInto_changes (.acceptance valid) stored
      exact ⟨(Changes.intact changes intact).1, .inr trivial, trivial⟩
    intro _ now standing
    refine wp_read (fun later _ => .failed rfl) fun later _ moved met => ?_
    have standing := stable .nothing .nothing _ _ moved standing
    split
    · exact .failed rfl
    rename_i row found
    obtain ⟨there, own⟩ := Table.find_some.mp found
    obtain ⟨settled, read⟩ := standing.intact.acceptances row there
    have record := same _ _ met _ rfl row there (own.trans id)
    rw [decode_record read] at record
    refine wp_decoded read (wp_require (fun other => ?_) fun _ => ?_)
    · exact absurd record (by simpa [ComputerAgentDispatchAcceptance.row] using other)
    refine ⟨fun value same' => ?_, fun _ bad => by cases bad⟩
    cases same'
    exact ⟨row, there, own.trans id, read⟩
  · exact .failed rfl

theorem accept_wp {number : Nat}
    (same : ∀ purpose world, condition purpose world → UndisputedAcceptance dispatchId purpose world)
    (intact : Intact tools now.tables now.preferred) :
    (accept engine tools.toTools deployment number context dispatchId).wp
      (timely engine tools deployment condition) (Accepted tools dispatchId) now := by
  have standing : Accepting tools (fun _ => True) now := ⟨intact, .inr trivial, trivial⟩
  refine accepted_then (requireSchema_mild _) .nothing standing fun _ _ _ standing => ?_
  refine accepted_then (identifier_mild _ _) .nothing standing fun id _ known standing => ?_
  subst known
  refine wp_read (fun later _ => .failed rfl) fun later _ moved _ => ?_
  have standing := stable .nothing .nothing _ _ moved standing
  split
  · exact .failed rfl
  rename_i row found
  obtain ⟨there, own⟩ := Table.find_some.mp found
  obtain ⟨dispatch, read⟩ := standing.intact.dispatches row there
  refine wp_decoded read ?_
  have named : dispatch.dispatchId = id := by
    rw [← own, decodeDispatch_bound read]
    rfl
  refine wp_read (fun later _ => .failed rfl) fun later _ moved _ => ?_
  have standing := stable .nothing .nothing _ _ moved standing
  split
  · rename_i existing found
    obtain ⟨there, own⟩ := Table.find_some.mp found
    exact replayAcceptance_wp own ⟨standing.intact, standing.own, there⟩
  refine accepted_then (requireTarget_mild _ _ _) .nothing standing fun _ _ _ standing => ?_
  refine accepted_then (startRun_mild _ _) .nothing standing fun result _ peaceful standing => ?_
  cases result with
  | ok started => exact settleAcceptance_wp named same standing
  | error failure =>
    have mild : Mild engine tools deployment condition (fun _ => False)
        (startFailed failure : Calls ComputerAgentDispatchAcceptance) :=
      startFailed_mild fun bad => peaceful (congrArg Except.error bad)
    refine Call.wp_mono (Call.wp_calm mild (fun _ _ _ (known : True) => known) trivial) ?_
    intro result final reached
    cases result with
    | ok value => exact reached.2.elim
    | error failure => exact .failed reached.2

end

section
variable {engine : Engine} {tools : PreferredTools} {deployment : Text}
  {condition : Purpose → World → Prop}

structure Withdrawn (projectId principal dispatchId key requestSha : Text) (row : AbandonmentRow) :
    Prop where
  dispatch : row.dispatchId = dispatchId
  project : row.projectId = projectId
  principal : row.ownerPrincipalRef = principal
  key : row.idempotencyKey = key
  digest : row.requestSha256 = requestSha

/-- Once an abandon call has not found its key, it does not find an abandonment of its request either,
    until it reads back; and then it is the record that it asked to store. -/
def UndisputedAbandonment (dispatchId key requestSha : Text) (purpose : Purpose) (world : World) : Prop :=
  ∀ row ∈ world.tables.abandonments, row.dispatchId = dispatchId → row.idempotencyKey = key →
    row.requestSha256 = requestSha →
      purpose ≠ .existing ∧ ∀ record, purpose = .settled record → row.recordJson = record

def Gone (projectId principal dispatchId key requestSha : Text) (world : World) : Prop :=
  ∃ row ∈ world.tables.abandonments, Withdrawn projectId principal dispatchId key requestSha row

structure Abandoned (tools : PreferredTools) (own : Nat)
    (projectId principal dispatchId key requestSha : Text)
    (result : Except Failure ComputerAgentDispatchAbandonment) (final : World) : Prop where
  own : final.own = own ∨ Gone projectId principal dispatchId key requestSha final
  returned : ∀ abandonment, result = .ok abandonment → ∃ row ∈ final.tables.abandonments,
    Withdrawn projectId principal dispatchId key requestSha row ∧
      decodeComputerAgentDispatchAbandonment tools.toTools row = .ok abandonment
  clashes : ∀ failure, result = .error failure → failure.clashes = true →
    final.tables.accepted dispatchId = true ∨ ∃ row ∈ final.tables.abandonments,
      (row.dispatchId = dispatchId ∨ row.ownerPrincipalRef = principal ∧ row.idempotencyKey = key) ∧
        ¬Withdrawn projectId principal dispatchId key requestSha row

variable {own : Nat} {projectId principal dispatchId key requestSha : Text}

theorem Abandoned.failed {final : World}
    (mild : failure.clashes = false)
    (standing : Standing tools own (Gone projectId principal dispatchId key requestSha) seen final) :
    Abandoned tools own projectId principal dispatchId key requestSha (.error failure) final where
  own := standing.own
  returned _ bad := by cases bad
  clashes _ same bad := by
    cases same
    exact absurd (mild.symm.trans bad) Bool.false_ne_true

theorem Abandoned.rival {final : World} {row : AbandonmentRow}
    (standing : Standing tools own (Gone projectId principal dispatchId key requestSha) seen final)
    (there : row ∈ final.tables.abandonments)
    (near : row.dispatchId = dispatchId ∨ row.ownerPrincipalRef = principal ∧ row.idempotencyKey = key)
    (foreign : ¬Withdrawn projectId principal dispatchId key requestSha row) :
    Abandoned tools own projectId principal dispatchId key requestSha (.error failure) final :=
  ⟨standing.own, (fun _ bad => by cases bad), fun _ _ _ => .inr ⟨row, there, near, foreign⟩⟩

theorem Lasting.gone : Lasting (Gone projectId principal dispatchId key requestSha) := by
  rintro before after kept ⟨row, there, holds⟩
  exact ⟨row, kept.tables.abandonments.mem there, holds⟩

theorem Lasting.abandonment (row : AbandonmentRow) : Lasting fun world => row ∈ world.tables.abandonments :=
  fun _ _ kept there => kept.tables.abandonments.mem there

theorem abandoned_then {β : Type} {call : Calls β} {known : β → Prop}
    {rest : β → Calls ComputerAgentDispatchAbandonment}
    (mild : Mild engine tools deployment condition known call) (lasts : Lasting seen)
    (standing : Standing tools own (Gone projectId principal dispatchId key requestSha) seen now)
    (onward : ∀ value later, known value →
      Standing tools own (Gone projectId principal dispatchId key requestSha) seen later →
        (rest value).wp (timely engine tools deployment condition)
          (Abandoned tools own projectId principal dispatchId key requestSha) later) :
    (call >>= rest).wp (timely engine tools deployment condition)
      (Abandoned tools own projectId principal dispatchId key requestSha) now :=
  wp_mild mild .gone lasts standing (fun _ _ mild later => .failed mild later) onward

theorem replayAbandonment_wp {row : AbandonmentRow}
    (owned : row.ownerPrincipalRef = principal) (keyed : row.idempotencyKey = key)
    (standing : Standing tools own (Gone projectId principal dispatchId key requestSha)
      (fun world => row ∈ world.tables.abandonments) now) :
    (replayAbandonment tools.toTools context dispatchId projectId requestSha row).wp
      (timely engine tools deployment condition)
      (Abandoned tools own projectId principal dispatchId key requestSha) now := by
  refine wp_require (fun foreign => ?_) fun same => ?_
  · refine .rival standing standing.seen (.inr ⟨owned, keyed⟩) fun same => ?_
    simp [same.dispatch, same.project, same.digest] at foreign
  simp only [Bool.and_eq_true, decide_eq_true_eq] at same
  refine abandoned_then (owner_mild _ _) (.abandonment row) standing fun _ final _ standing => ?_
  obtain ⟨abandonment, read⟩ := standing.intact.abandonments row standing.seen
  rw [read]
  refine ⟨standing.own, fun value same' => ?_, fun _ bad => by cases bad⟩
  cases same'
  exact ⟨row, standing.seen, ⟨same.1.1, same.1.2, owned, keyed, same.2⟩, read⟩

theorem decode_unique {Record Row : Type} [DecidableEq Row] {json : Record → Json.Value}
    {codec : Codec Record json} {recordJson : Text} {row : Row} {bound : Record → Row}
    {record other : Record} (valid : codec.schema record = true)
    (same : recordJson = Json.canonicalJson (json record))
    (read : decode codec recordJson row bound = .ok other) : other = record := by
  unfold decode at read
  rw [same, codec.parse_canonicalJson record valid] at read
  dsimp only at read
  split at read
  · cases read
    rfl
  · cases read

theorem settleAbandonment_wp {identity : Identity} {input : Reasoned}
    (owner' : identity.principalRef = principal)
    (same : ∀ purpose world, condition purpose world →
      UndisputedAbandonment dispatchId key requestSha purpose world)
    (standing : Standing tools own (Gone projectId principal dispatchId key requestSha)
      (fun _ => True) now) :
    (settleAbandonment engine tools.toTools context identity dispatchId projectId key requestSha input).wp
      (timely engine tools deployment condition)
      (Abandoned tools own projectId principal dispatchId key requestSha) now := by
  refine abandoned_then (instant_mild _) .nothing standing fun current _ _ standing => ?_
  dsimp only
  split
  · rename_i valid
    refine abandoned_then (owner_mild _ _) .nothing standing fun _ _ _ standing => ?_
    refine wp_write (Standing tools own (Gone projectId principal dispatchId key requestSha)
      fun _ => True) (fun later moved => stable .gone .nothing _ _ moved standing) ?_ ?_
    · intro later authority after moved stored
      obtain ⟨intact, -⟩ := Changes.intact moved standing.intact
      obtain ⟨changes, inserted⟩ := insertInto_changes (.abandonment valid) stored
      obtain ⟨-, -, abandonments, keys, added, same⟩ := insertAbandonment_some inserted
      have mine := (Table.mem_insert added).mpr (.inr rfl)
      have listed := congrArg Tables.abandonments same
      rw [← show after.tables.abandonments = abandonments from listed] at mine
      exact ⟨(Changes.intact changes intact).1, .inr ⟨_, mine, ⟨rfl, rfl, owner', rfl, rfl⟩⟩, trivial⟩
    intro _ now standing
    refine wp_read (fun later moved => ?_) fun later _ moved met => ?_
    · exact .failed rfl (stable .gone .nothing _ _ moved standing)
    have standing := stable .gone .nothing _ _ moved standing
    split
    · exact .failed rfl standing
    rename_i row found
    obtain ⟨there, own⟩ := Table.find_some.mp found
    refine wp_require (fun foreign => ?_) fun settled => ?_
    · refine .rival standing there (.inl own) fun same => ?_
      simp [same.key, same.digest] at foreign
    simp only [Bool.and_eq_true, decide_eq_true_eq] at settled
    obtain ⟨stored, read⟩ := standing.intact.abandonments row there
    have record := (same _ _ met row there own settled.2 settled.1).2 _ rfl
    have equal := decode_unique valid record read
    refine wp_decoded read (wp_require (fun foreign => ?_) fun _ => ?_)
    · rw [equal] at foreign
      simp at foreign
    refine abandoned_then (owner_mild _ _) (.abandonment row) ⟨standing.intact, standing.own, there⟩
      fun _ final _ standing => ?_
    refine ⟨standing.own, fun value same' => ?_, fun _ bad => by cases bad⟩
    cases same'
    have bound := decode_record read
    rw [equal] at bound
    refine ⟨row, standing.seen, ⟨own, ?_, ?_, settled.2, settled.1⟩, read⟩
    · rw [bound]
      rfl
    · rw [bound]
      exact owner'
  · exact .failed rfl standing

/-- An abandon call that is not crossed by another one of its request returns the record that is stored,
    and is only refused for the record of another request or for the acceptance of the dispatch. -/
theorem abandon_wp {input : Reasoned}
    (keyed : context.idempotencyKey = some key)
    (digest : requestSha = abandonSha tools.toTools dispatchId projectId context.principalRef key input)
    (same : ∀ purpose world, condition purpose world →
      UndisputedAbandonment dispatchId key requestSha purpose world)
    (standing : Standing tools own
      (Gone projectId context.principalRef dispatchId key requestSha) (fun _ => True) now) :
    (abandon engine tools.toTools context projectId dispatchId input).wp
      (timely engine tools deployment condition)
      (Abandoned tools own projectId context.principalRef dispatchId key requestSha) now := by
  refine abandoned_then (requireSchema_mild _) .nothing standing fun _ _ _ standing => ?_
  refine abandoned_then (owner_mild _ _) .nothing standing fun identity _ known standing => ?_
  subst known
  refine abandoned_then (identifier_mild _ _) .nothing standing fun project _ known standing => ?_
  subst known
  refine abandoned_then (identifier_mild _ _) .nothing standing fun id _ known standing => ?_
  subst known
  refine abandoned_then (require_mild _ _ _ rfl) .nothing standing fun _ _ _ standing => ?_
  refine abandoned_then (idempotency_mild _) .nothing standing fun other _ known standing => ?_
  obtain rfl := Option.some.inj (keyed.symm.trans known)
  refine abandoned_then (requireProjectOwner_mild _ _) .nothing standing fun _ _ _ standing => ?_
  refine wp_read (fun later moved => ?_) fun later _ moved _ => ?_
  · exact .failed rfl (stable .gone .nothing _ _ moved standing)
  have standing := stable .gone .nothing _ _ moved standing
  split
  · exact .failed rfl standing
  rename_i row found
  obtain ⟨there, own⟩ := Table.find_some.mp (Option.filter_eq_some_iff.mp found).1
  obtain ⟨dispatch, read⟩ := standing.intact.dispatches row there
  have named : dispatch.dispatchId = id := by
    rw [← own, decodeDispatch_bound read]
    rfl
  subst named
  refine wp_decoded read ?_
  refine abandoned_then (require_mild _ _ _ rfl) .nothing standing fun _ _ _ standing => ?_
  dsimp only
  rw [← digest]
  refine wp_read (fun later moved => ?_) fun later _ moved _ => ?_
  · exact .failed rfl (stable .gone .nothing _ _ moved standing)
  have standing := stable .gone .nothing _ _ moved standing
  split
  · rename_i replay found
    have there := mem_of_find?_eq_some found
    obtain ⟨owned, keyed⟩ : replay.ownerPrincipalRef = context.principalRef ∧
        replay.idempotencyKey = key := by simpa using find?_some found
    exact replayAbandonment_wp owned keyed ⟨standing.intact, standing.own, there⟩
  refine wp_read (fun later moved => ?_) fun later _ moved met => ?_
  · exact .failed rfl (stable .gone .nothing _ _ moved standing)
  have standing := stable .gone .nothing _ _ moved standing
  refine wp_require (fun taken => ?_) fun _ => ?_
  · obtain ⟨existing, found⟩ := Option.isSome_iff_exists.mp (by simpa using taken)
    obtain ⟨there, own⟩ := Table.find_some.mp found
    refine .rival standing there (.inl own) fun mine => ?_
    exact (same _ _ met existing there own mine.key mine.digest).1 rfl
  refine wp_read (fun later moved => ?_) fun later _ moved _ => ?_
  · exact .failed rfl (stable .gone .nothing _ _ moved standing)
  have standing := stable .gone .nothing _ _ moved standing
  refine wp_require (fun taken => ?_) fun _ => ?_
  · refine ⟨standing.own, (fun _ bad => by cases bad), fun _ _ _ => .inl ?_⟩
    simpa [Tables.accepted, Option.isSome_iff_ne_none] using taken
  exact settleAbandonment_wp rfl same standing

end

end Dispatch
