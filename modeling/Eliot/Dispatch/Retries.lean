import Eliot.Dispatch.Exclusion
import Eliot.Dispatch.Replays

namespace Dispatch
open Async List Standing Call
open Relational (Table)
open Sqlite (Engine)

section
variable {engine : Engine} {tools : PreferredTools} {deployment : Text}
  {condition : Purpose → World → Prop}

structure Chosen (projectId principal key requestSha : Text) (row : SelectionRow) : Prop where
  project : row.projectId = projectId
  principal : row.ownerPrincipalRef = principal
  key : row.idempotencyKey = key
  digest : row.requestSha256 = requestSha

def internalSha (tools : PreferredTools) (projectId principal : Text)
    (input : ComputerAgentPreferredDispatchCreate)
    (selection : ComputerAgentPreferredDispatchSelection) : Text :=
  createSha tools.toTools projectId principal (internalInput selection input)

/-- What a call for a preferred dispatch finds where it reads back is the record that it asked to store,
    and the dispatch that is there for its selection is the one that was selected. -/
def UndisputedSelection (tools : PreferredTools) (projectId principal key requestSha : Text)
    (input : ComputerAgentPreferredDispatchCreate) (purpose : Purpose) (world : World) : Prop :=
  ∀ row ∈ world.preferred.selections, row.ownerPrincipalRef = principal → row.idempotencyKey = key →
    row.requestSha256 = requestSha →
      (∀ record, purpose = .selected record → row.recordJson = record) ∧
      ∀ selection, decodeSelection tools row = .ok selection →
        Undisputed principal (internalKey selection) (internalSha tools projectId principal input selection)
          purpose world ∧
        ∀ offer ∈ world.tables.dispatches, offer.ownerPrincipalRef = principal →
          offer.idempotencyKey = internalKey selection →
            ∀ dispatch, decodeComputerAgentDispatch tools.toTools offer = .ok dispatch →
              dispatchMatch dispatch selection input.runRequest = true

def IsChosen (projectId principal key requestSha : Text) (world : World) : Prop :=
  ∃ row ∈ world.preferred.selections, Chosen projectId principal key requestSha row

def Delivered (tools : PreferredTools) (projectId principal key requestSha : Text)
    (receipt : ComputerAgentPreferredDispatchReceipt) (world : World) : Prop :=
  ∃ row ∈ world.preferred.selections, Chosen projectId principal key requestSha row ∧
    decodeSelection tools row = .ok receipt.selection ∧
    ∃ settled ∈ world.preferred.settlements, settled.selectionId = row.selectionId ∧
      decodeSettlement tools settled = .ok receipt.settlement ∧
      ∃ offer ∈ world.tables.dispatches, offer.dispatchId = settled.dispatchId ∧
        decodeComputerAgentDispatch tools.toTools offer = .ok receipt.dispatch

structure Preferred (tools : PreferredTools) (own : Nat) (projectId principal key requestSha : Text)
    (input : ComputerAgentPreferredDispatchCreate)
    (result : Except Failure ComputerAgentPreferredDispatchReceipt) (final : World) : Prop where
  own : final.own = own ∨ IsChosen projectId principal key requestSha final
  returned : ∀ receipt, result = .ok receipt →
    Delivered tools projectId principal key requestSha receipt final
  clashes : ∀ failure, result = .error failure → failure.clashes = true →
    (∃ row ∈ final.preferred.selections, row.ownerPrincipalRef = principal ∧ row.idempotencyKey = key ∧
      ¬(row.projectId = projectId ∧ row.requestSha256 = requestSha ∧
        row.runRequestSha256 = tools.digest input.runRequest.json)) ∨
    ∃ row ∈ final.preferred.selections, Chosen projectId principal key requestSha row ∧
      ∃ selection, decodeSelection tools row = .ok selection ∧
        ∃ offer ∈ final.tables.dispatches, offer.ownerPrincipalRef = principal ∧
          offer.idempotencyKey = internalKey selection ∧
          ¬(offer.projectId = projectId ∧
            offer.requestSha256 = internalSha tools projectId principal input selection)

variable {own : Nat} {projectId principal key requestSha : Text}
  {input : ComputerAgentPreferredDispatchCreate}

variable {seen : World → Prop}

theorem Preferred.failed {failure : Failure} {final : World}
    (mild : failure.clashes = false)
    (standing : Standing tools own (IsChosen projectId principal key requestSha) seen final) :
    Preferred tools own projectId principal key requestSha input (.error failure) final where
  own := standing.own
  returned _ bad := by cases bad
  clashes _ same bad := by
    cases same
    exact absurd (mild.symm.trans bad) Bool.false_ne_true

variable {row : SelectionRow}

theorem Preferred.rival {failure : Failure} {final : World}
    (standing : Standing tools own (IsChosen projectId principal key requestSha) seen final)
    (there : row ∈ final.preferred.selections) (owned : row.ownerPrincipalRef = principal)
    (keyed : row.idempotencyKey = key)
    (foreign : ¬(row.projectId = projectId ∧ row.requestSha256 = requestSha ∧
      row.runRequestSha256 = tools.digest input.runRequest.json)) :
    Preferred tools own projectId principal key requestSha input (.error failure) final :=
  ⟨standing.own, (fun _ bad => by cases bad), fun _ _ _ => .inl ⟨row, there, owned, keyed, foreign⟩⟩

theorem Lasting.chosen : Lasting (IsChosen projectId principal key requestSha) := by
  rintro before after kept ⟨row, there, holds⟩
  exact ⟨row, kept.selections.mem there, holds⟩

theorem Lasting.selection (row : SelectionRow) : Lasting fun world => row ∈ world.preferred.selections :=
  fun _ _ kept there => kept.selections.mem there

theorem Lasting.and {first second : World → Prop} (one : Lasting first) (two : Lasting second) :
    Lasting fun world => first world ∧ second world :=
  fun _ _ kept both => ⟨one _ _ kept both.1, two _ _ kept both.2⟩

theorem Lasting.settlement (row : SettlementRow) : Lasting fun world => row ∈ world.preferred.settlements :=
  fun _ _ kept there => kept.settlements.mem there

theorem Lasting.offer (row : DispatchRow) : Lasting fun world => row ∈ world.tables.dispatches :=
  fun _ _ kept there => kept.tables.dispatches.mem there

variable {now : World}

theorem preferred_then {β : Type} {call : Calls β} {known : β → Prop}
    {rest : β → Calls ComputerAgentPreferredDispatchReceipt}
    (mild : Mild engine tools deployment condition known call) (lasts : Lasting seen)
    (standing : Standing tools own (IsChosen projectId principal key requestSha) seen now)
    (onward : ∀ value later, known value →
      Standing tools own (IsChosen projectId principal key requestSha) seen later →
        (rest value).wp (timely engine tools deployment condition)
          (Preferred tools own projectId principal key requestSha input) later) :
    (call >>= rest).wp (timely engine tools deployment condition)
      (Preferred tools own projectId principal key requestSha input) now :=
  wp_mild mild .chosen lasts standing (fun _ _ mild later => .failed mild later) onward

variable {settlement : ComputerAgentPreferredDispatchSettlement} {selection : ComputerAgentPreferredDispatchSelection}

theorem Linked.of_selection {tables : Tables} {preferred : Selections}
    (linked : Linked tools tables preferred settlement) (there : row ∈ preferred.selections)
    (read : decodeSelection tools row = .ok selection)
    (same : settlement.selectionId = selection.selectionId) :
    ∃ offer ∈ tables.dispatches, offer.ownerPrincipalRef = selection.ownerPrincipalRef ∧
      offer.idempotencyKey = internalKey selection ∧
        ∃ dispatch, decodeComputerAgentDispatch tools.toTools offer = .ok dispatch ∧
          settlement = ⟨selection.selectionId, dispatch.dispatchId, dispatch.createdAt⟩ := by
  obtain ⟨selected, listed, other, decoded, offer, offered, owned, keyed, dispatch, shown, rfl⟩ := linked
  have one : selected.selectionId = row.selectionId := by
    rw [decode_record decoded, decode_record read]
    exact same
  obtain rfl := Table.eq_of_key listed there one
  obtain rfl := Except.ok.inj (decoded.symm.trans read)
  exact ⟨offer, offered, owned, keyed, dispatch, shown, rfl⟩

structure Anchored (tools : PreferredTools) (projectId principal key requestSha : Text)
    (row : SelectionRow) (selection : ComputerAgentPreferredDispatchSelection) : Prop where
  chosen : Chosen projectId principal key requestSha row
  read : decodeSelection tools row = .ok selection

theorem Anchored.owner
    (anchored : Anchored tools projectId principal key requestSha row selection) :
    selection.ownerPrincipalRef = principal := by
  rw [← anchored.chosen.principal, decode_record anchored.read]
  rfl

theorem Anchored.selectionId
    (anchored : Anchored tools projectId principal key requestSha row selection) :
    selection.selectionId = row.selectionId := by
  rw [decode_record anchored.read]
  rfl

variable {row : SelectionRow} {selection : ComputerAgentPreferredDispatchSelection} {dispatch : ComputerAgentDispatch}

theorem Anchored.matched {purpose : Purpose} {world : World} {offer : DispatchRow}
    (anchored : Anchored tools projectId principal key requestSha row selection)
    (there : row ∈ world.preferred.selections)
    (met : UndisputedSelection tools projectId principal key requestSha input purpose world)
    (offered : offer ∈ world.tables.dispatches) (owned : offer.ownerPrincipalRef = principal)
    (keyed : offer.idempotencyKey = internalKey selection)
    (shown : decodeComputerAgentDispatch tools.toTools offer = .ok dispatch) :
    dispatchMatch dispatch selection input.runRequest = true :=
  ((met row there anchored.chosen.principal anchored.chosen.key anchored.chosen.digest).2 selection
    anchored.read).2 offer offered owned keyed dispatch shown

theorem parseReceipt_wp
    (standing : Standing tools own (IsChosen projectId principal key requestSha) seen now)
    (delivered : Delivered tools projectId principal key requestSha ⟨selection, settlement, dispatch⟩ now) :
    (parseReceipt tools selection settlement dispatch).wp (timely engine tools deployment condition)
      (Preferred tools own projectId principal key requestSha input) now := by
  unfold parseReceipt
  split
  · refine ⟨standing.own, fun receipt same => ?_, fun _ bad => by cases bad⟩
    cases same
    exact delivered
  · exact .failed rfl standing

theorem receipt_wp {settled : SettlementRow}
    (anchored : Anchored tools projectId principal key requestSha row selection)
    (same : ∀ purpose world, condition purpose world →
      UndisputedSelection tools projectId principal key requestSha input purpose world)
    (named : settled.selectionId = selection.selectionId)
    (shown : decodeSettlement tools settled = .ok settlement)
    (standing : Standing tools own (IsChosen projectId principal key requestSha)
      (fun world => row ∈ world.preferred.selections ∧ settled ∈ world.preferred.settlements) now) :
    (receipt tools selection settlement input.runRequest).wp (timely engine tools deployment condition)
      (Preferred tools own projectId principal key requestSha input) now := by
  have lasts := (Lasting.selection row).and (Lasting.settlement settled)
  refine wp_read (fun later moved => ?_) fun later _ moved met => ?_
  · exact .failed rfl (stable .chosen lasts _ _ moved standing)
  have standing := stable .chosen lasts _ _ moved standing
  obtain ⟨other, again, linked⟩ := standing.intact.settlements settled standing.seen.2
  obtain rfl := Except.ok.inj (again.symm.trans shown)
  have bound := decode_record shown
  have one : other.selectionId = selection.selectionId := by
    rw [← named, bound]
    rfl
  obtain ⟨offer, offered, owned, keyed, dispatch, read, own⟩ :=
    linked.of_selection standing.seen.1 anchored.read one
  have id : offer.dispatchId = other.dispatchId := by
    rw [own, decodeDispatch_bound read]
    rfl
  have found : later.tables.dispatches.find other.dispatchId = some offer :=
    Table.find_some.mpr ⟨offered, id⟩
  rw [found]
  refine wp_decoded read (wp_require (fun foreign => ?_) fun _ => ?_)
  · rw [anchored.owner] at owned
    rw [anchored.matched standing.seen.1 (same _ _ met) offered owned keyed read] at foreign
    cases foreign
  refine parseReceipt_wp standing ⟨row, standing.seen.1, anchored.chosen, anchored.read, settled,
    standing.seen.2, named.trans anchored.selectionId, shown, offer, offered, ?_, read⟩
  rw [id, bound]
  rfl

variable {context : Context}

theorem settlePreferred_wp {offer : DispatchRow}
    (anchored : Anchored tools projectId principal key requestSha row selection)
    (owned : offer.ownerPrincipalRef = principal) (keyed : offer.idempotencyKey = internalKey selection)
    (read : decodeComputerAgentDispatch tools.toTools offer = .ok dispatch)
    (standing : Standing tools own (IsChosen projectId principal key requestSha)
      (fun world => row ∈ world.preferred.selections ∧ offer ∈ world.tables.dispatches) now) :
    (settlePreferred engine tools context selection dispatch).wp
      (timely engine tools deployment condition)
      (Preferred tools own projectId principal key requestSha input) now := by
  have lasts := (Lasting.selection row).and (Lasting.offer offer)
  unfold settlePreferred
  dsimp only
  split
  · rename_i valid
    refine preferred_then (owner_mild _ _) lasts standing fun _ _ _ standing => ?_
    refine wp_write (Standing tools own (IsChosen projectId principal key requestSha)
      fun world => row ∈ world.preferred.selections ∧ offer ∈ world.tables.dispatches)
      (fun later moved => stable .chosen lasts _ _ moved standing) ?_ ?_
    · intro later authority after moved stored
      have standing := stable .chosen lasts _ _ moved standing
      obtain ⟨preferred, inserted, rfl⟩ := Option.map_eq_some_iff.mp stored
      have linked : Linked tools later.tables later.preferred
          ⟨selection.selectionId, dispatch.dispatchId, dispatch.createdAt⟩ :=
        ⟨row, standing.seen.1, selection, anchored.read, offer, standing.seen.2,
          owned.trans anchored.owner.symm, keyed, dispatch, read, rfl⟩
      have settles : Changes engine tools later { later with preferred } :=
        .single (.settle valid linked inserted)
      have standing := stable .chosen lasts _ _ settles standing
      refine ⟨standing.intact, .inr ?_, standing.seen⟩
      exact ⟨row, standing.seen.1, anchored.chosen⟩
    intro _ now standing
    refine wp_read (fun later moved => ?_) fun later _ moved _ => ?_
    · exact .failed rfl (stable .chosen lasts _ _ moved standing)
    have standing := stable .chosen lasts _ _ moved standing
    split
    · exact .failed rfl standing
    rename_i settled found
    obtain ⟨there, named⟩ := Table.find_some.mp found
    obtain ⟨settlement, shown, linked⟩ := standing.intact.settlements settled there
    have bound := decode_record shown
    have one : settlement.selectionId = selection.selectionId := by
      rw [← named, bound]
      rfl
    obtain ⟨other, offered, owned', keyed', again, read', own⟩ :=
      linked.of_selection standing.seen.1 anchored.read one
    -- there is one dispatch under the internal key
    obtain rfl : other = offer := by
      refine inj_on_of_nodup_map later.tables.dispatchKeys offered standing.seen.2 ?_
      simp only [owned, keyed, owned', keyed', anchored.owner]
    obtain rfl := Except.ok.inj (read'.symm.trans read)
    refine wp_decoded shown (wp_require (fun foreign => ?_) fun _ => ?_)
    · rw [own] at foreign
      simp at foreign
    have lasts := lasts.and (Lasting.settlement settled)
    refine preferred_then (owner_mild _ _) lasts
      ⟨standing.intact, standing.own, standing.seen, there⟩ fun _ _ _ standing => ?_
    refine parseReceipt_wp standing ⟨row, standing.seen.1.1, anchored.chosen, anchored.read, settled,
      standing.seen.2, named.trans anchored.selectionId, shown, other, standing.seen.1.2, ?_, read⟩
    rw [bound, own, decodeDispatch_bound read]
    rfl
  · exact .failed rfl standing

theorem Move.preferred {before after : World} (move : Move engine before after) :
    after.preferred = before.preferred := by
  cases move with
  | stay => rfl
  | @insert later authority insert own inserted =>
    obtain ⟨tables, -, rfl⟩ := Option.map_eq_some_iff.mp inserted
    cases insert <;> rfl

theorem dispatchOf_wp {identity : Identity}
    (anchored : Anchored tools projectId principal key requestSha row selection)
    (same : ∀ purpose world, condition purpose world →
      UndisputedSelection tools projectId principal key requestSha input purpose world)
    (caller : context.principalRef = principal) (owner' : identity.principalRef = principal)
    (standing : Standing tools own (IsChosen projectId principal key requestSha)
      (fun world => row ∈ world.preferred.selections) now) :
    (dispatchOf engine tools deployment context identity projectId selection input).wp
      (timely engine tools deployment condition) (fun result later =>
        match result with
        | .ok dispatch => ∃ offer, offer.ownerPrincipalRef = principal ∧
          offer.idempotencyKey = internalKey selection ∧
          decodeComputerAgentDispatch tools.toTools offer = .ok dispatch ∧
          Standing tools own (IsChosen projectId principal key requestSha)
            (fun world => row ∈ world.preferred.selections ∧ offer ∈ world.tables.dispatches) later
        | .error failure =>
          Preferred tools own projectId principal key requestSha input (.error failure) later) now := by
  refine wp_read (fun later moved => ?_) fun later _ moved met => ?_
  · exact .failed rfl (stable .chosen (.selection row) _ _ moved standing)
  have standing := stable .chosen (.selection row) _ _ moved standing
  have seen := standing.seen
  split
  · rename_i offer found
    have there := mem_of_find?_eq_some found
    obtain ⟨owned, keyed⟩ : offer.ownerPrincipalRef = identity.principalRef ∧
        offer.idempotencyKey = internalKey selection := by simpa using find?_some found
    rw [owner'] at owned
    obtain ⟨dispatch, read⟩ := standing.intact.dispatches offer there
    refine wp_decoded read (wp_require (fun foreign => ?_) fun _ => ?_)
    · rw [anchored.matched seen (same _ _ met) there owned keyed read] at foreign
      cases foreign
    · exact ⟨offer, owned, keyed, read, standing.intact, standing.own, seen, there⟩
  · -- the create call meets its conditions while the selection is there
    have steps : (create engine tools.toTools deployment true
        { context with idempotencyKey := some (internalKey selection) } projectId
        (internalInput selection input)).Steps fun before after =>
          row ∈ before.preferred.selections → row ∈ after.preferred.selections :=
      (create_steps _ _ _ _ _).mono fun before after move there => move.preferred ▸ there
    have created : (create engine tools.toTools deployment true
        { context with idempotencyKey := some (internalKey selection) } projectId
        (internalInput selection input)).wp (timely engine tools deployment fun purpose world =>
          condition purpose world ∧ row ∈ world.preferred.selections)
        (Created tools later.own principal (internalKey selection) projectId
          (internalSha tools projectId principal input selection)
          fun dispatch => dispatchMatch dispatch selection input.runRequest = true) later := by
      subst caller
      refine create_wp rfl rfl (fun purpose world met => ?_) (fun purpose world met => ?_)
        ⟨standing.intact, .inl rfl, trivial⟩
      · exact ((same _ _ met.1 row met.2 anchored.chosen.principal anchored.chosen.key
          anchored.chosen.digest).2 selection anchored.read).1
      · exact fun offer offered owned keyed dispatch shown =>
          anchored.matched met.2 (same _ _ met.1) offered owned keyed shown
    refine wp_bind (wp_mono (wp_refine ?_ ?_ ?_ steps seen created) ?_)
    · exact fun _ _ moved => moved
    · exact fun _ _ _ there met => ⟨met.1, met.2, there⟩
    · exact fun _ _ moved there => (Changes.kept moved).selections.mem there
    rintro result final ⟨done, there⟩
    have chosen : IsChosen projectId principal key requestSha final := ⟨row, there, anchored.chosen⟩
    cases result with
    | ok dispatch =>
      obtain ⟨agree, offer, offered, bound, read⟩ := done.returned dispatch rfl
      refine wp_require (fun foreign => ?_) fun _ => ?_
      · rw [agree] at foreign
        cases foreign
      · exact ⟨offer, bound.1, bound.2.1, read, done.intact, .inr chosen, there, offered⟩
    | error failure =>
      refine ⟨.inr chosen, (fun _ bad => by cases bad), fun _ same' clash => ?_⟩
      cases same'
      obtain ⟨offer, offered, owned, keyed, foreign⟩ := done.clashes _ rfl clash
      exact .inr ⟨row, there, anchored.chosen, selection, anchored.read, offer, offered, owned, keyed, foreign⟩

theorem settleRequest_wp {identity : Identity}
    (chosen : Chosen projectId principal key requestSha row)
    (same : ∀ purpose world, condition purpose world →
      UndisputedSelection tools projectId principal key requestSha input purpose world)
    (caller : context.principalRef = principal) (owner' : identity.principalRef = principal)
    (standing : Standing tools own (IsChosen projectId principal key requestSha)
      (fun world => row ∈ world.preferred.selections) now) :
    (settleRequest engine tools deployment context identity projectId requestSha input row).wp
      (timely engine tools deployment condition)
      (Preferred tools own projectId principal key requestSha input) now := by
  obtain ⟨selection, read⟩ := standing.intact.selections row standing.seen
  have anchored : Anchored tools projectId principal key requestSha row selection := ⟨chosen, read⟩
  have bound := decode_record read
  refine wp_decoded read (wp_require (fun foreign => ?_) fun _ => ?_)
  · refine .rival standing standing.seen chosen.principal chosen.key fun mine => ?_
    have digest : selection.requestSha256 = requestSha := by
      rw [← chosen.digest, bound]
      rfl
    have run : selection.runRequestSha256 = tools.digest input.runRequest.json := by
      rw [← mine.2.2, bound]
      rfl
    simp [digest, run] at foreign
  refine wp_read (fun later moved => ?_) fun later _ moved _ => ?_
  · exact .failed rfl (stable .chosen (.selection row) _ _ moved standing)
  have standing := stable .chosen (.selection row) _ _ moved standing
  split
  · rename_i settled found
    obtain ⟨there, named⟩ := Table.find_some.mp found
    refine preferred_then (owner_mild _ _) ((Lasting.selection row).and (.settlement settled))
      ⟨standing.intact, standing.own, standing.seen, there⟩ fun _ _ _ standing => ?_
    obtain ⟨settlement, shown, -⟩ := standing.intact.settlements settled standing.seen.2
    exact wp_decoded shown (receipt_wp anchored same named shown standing)
  · refine preferred_then (require_mild _ _ _ rfl) (.selection row) standing fun _ _ _ standing => ?_
    refine wp_bind (wp_mono (dispatchOf_wp anchored same caller owner' standing) ?_)
    intro result final reached
    cases result with
    | error failure => exact reached
    | ok dispatch =>
      obtain ⟨offer, owned, keyed, shown, standing⟩ := reached
      exact settlePreferred_wp anchored owned keyed shown standing

theorem settleSelection_wp
    (selected : Selected tools projectId principal key requestSha input.runRequest selection)
    (same : ∀ purpose world, condition purpose world →
      UndisputedSelection tools projectId principal key requestSha input purpose world)
    (standing : Standing tools own (IsChosen projectId principal key requestSha) (fun _ => True) now) :
    (settleSelection engine tools context selection principal key).wp
      (timely engine tools deployment condition) (fun result later =>
        match result with
        | .ok row => Chosen projectId principal key requestSha row ∧
          Standing tools own (IsChosen projectId principal key requestSha)
            (fun world => row ∈ world.preferred.selections) later
        | .error failure =>
          Preferred tools own projectId principal key requestSha input (.error failure) later) now := by
  refine wp_mild (owner_mild _ _) .chosen .nothing standing (fun _ _ mild later => .failed mild later)
    fun _ now _ standing => ?_
  have mine : Chosen projectId principal key requestSha (selection.row tools) :=
    ⟨selected.project, selected.principal, selected.key, selected.digest⟩
  refine wp_write (Standing tools own (IsChosen projectId principal key requestSha) fun _ => True)
    (fun later moved => stable .chosen .nothing _ _ moved standing) ?_ ?_
  · intro later authority after moved stored
    have standing := stable .chosen .nothing _ _ moved standing
    obtain ⟨preferred, inserted, rfl⟩ := Option.map_eq_some_iff.mp stored
    have selects : Changes engine tools later { later with preferred } :=
      .single (.select selected.valid inserted)
    obtain ⟨selections, keys, added, rfl⟩ := insertSelection_some inserted
    exact ⟨(Changes.intact selects standing.intact).1,
      .inr ⟨_, (Table.mem_insert added).mpr (.inr rfl), mine⟩, trivial⟩
  intro _ now standing
  refine wp_read (fun later moved => ?_) fun later _ moved met => ?_
  · exact .failed rfl (stable .chosen .nothing _ _ moved standing)
  have standing := stable .chosen .nothing _ _ moved standing
  split
  · exact .failed rfl standing
  rename_i row found
  have there := mem_of_find?_eq_some found
  obtain ⟨owned, keyed⟩ : row.ownerPrincipalRef = principal ∧ row.idempotencyKey = key := by
    simpa using find?_some found
  obtain ⟨recorded, read⟩ := standing.intact.selections row there
  have bound := decode_record read
  refine wp_decoded read (wp_require (fun foreign => ?_) fun settled => ?_)
  · refine .rival standing there owned keyed fun mine => ?_
    have record := (same _ _ met row there owned keyed mine.2.1).1 _ rfl
    rw [decode_unique selected.valid record read] at foreign
    simp at foreign
  · rw [decide_eq_true_eq] at settled
    have record : row.recordJson = Json.canonicalJson selection.json := by
      rw [← settled, bound]
      rfl
    rw [decode_unique selected.valid record read] at bound
    exact ⟨bound ▸ mine, standing.intact, standing.own, there⟩

/-- A call for a preferred dispatch that finds its own records where it reads back returns those that
    are stored, and is only refused for another request under its key or under the internal one. -/
theorem createPreferred_wp
    (keyed : context.idempotencyKey = some key)
    (digest : requestSha = preferredSha tools projectId context.principalRef input)
    (same : ∀ purpose world, condition purpose world →
      UndisputedSelection tools projectId context.principalRef key requestSha input purpose world)
    (standing : Standing tools own (IsChosen projectId context.principalRef key requestSha)
      (fun _ => True) now) :
    (createPreferred engine tools deployment context projectId input).wp
      (timely engine tools deployment condition)
      (Preferred tools own projectId context.principalRef key requestSha input) now := by
  refine preferred_then (requireSchema_mild _) .nothing standing fun _ _ _ standing => ?_
  refine preferred_then (owner_mild _ _) .nothing standing fun identity _ known standing => ?_
  subst known
  refine preferred_then (identifier_mild _ _) .nothing standing fun project _ known standing => ?_
  subst known
  refine preferred_then (require_mild _ _ _ rfl) .nothing standing fun _ _ _ standing => ?_
  refine preferred_then (preferredKey_mild _) .nothing standing fun other _ known standing => ?_
  obtain rfl := Option.some.inj (keyed.symm.trans known)
  dsimp only
  rw [← digest]
  refine wp_read (fun later moved => ?_) fun later _ moved _ => ?_
  · exact .failed rfl (stable .chosen .nothing _ _ moved standing)
  have standing := stable .chosen .nothing _ _ moved standing
  split
  · rename_i row found
    have there := mem_of_find?_eq_some found
    obtain ⟨owned, keyed⟩ : row.ownerPrincipalRef = context.principalRef ∧ row.idempotencyKey = key := by
      simpa using find?_some found
    refine wp_require (fun foreign => ?_) fun mine => ?_
    · refine .rival standing there owned keyed fun mine => ?_
      simp [mine.1, mine.2.1] at foreign
    · simp only [Bool.and_eq_true, decide_eq_true_eq] at mine
      exact settleRequest_wp ⟨mine.1, owned, keyed, mine.2⟩ same rfl rfl
        ⟨standing.intact, standing.own, there⟩
  · refine preferred_then (prepareSelection_mild _ _ _ _ _) .nothing standing
      fun selection _ selected standing => ?_
    refine wp_bind (wp_mono (settleSelection_wp selected same standing) ?_)
    intro result final reached
    cases result with
    | error failure => exact reached
    | ok row => exact settleRequest_wp reached.1 same rfl rfl reached.2

end

section
variable (engine : Engine) (tools : PreferredTools) (deployment : Text)

def RunsTimely {α : Type} (condition : Purpose → World → Prop) (call : Calls α) (start : World)
    (result : Except Failure α) (final : World) : Prop :=
  Changes engine tools World.empty start ∧
    Call.Runs (timely engine tools deployment condition) call start result final

def Refused {α : Type} (start : World) (result : Except Failure α) (final : World) : Prop :=
  final.own = start.own ∧ ∃ failure, result = .error failure

/-- What the results of the four calls that may be repeated are: a record that is stored, or a failure
    that tells neither of a conflict nor of a corrupt record unless another request is in the way; and
    where another request has the key, the call is refused. -/
structure Reconciles : Prop where
  create : ∀ {internal : Bool} {context : Context} {projectId key requestSha : Text}
    {input : ComputerAgentDispatchCreate} {start final : World}
    {result : Except Failure ComputerAgentDispatch}, context.idempotencyKey = some key →
    requestSha = createSha tools.toTools projectId context.principalRef input →
    RunsTimely engine tools deployment (Undisputed context.principalRef key requestSha)
      (create engine tools.toTools deployment internal context projectId input) start result final →
    Created tools start.own context.principalRef key projectId requestSha (fun _ => True) result final ∧
    ((∃ row ∈ final.tables.dispatches, row.ownerPrincipalRef = context.principalRef ∧
      row.idempotencyKey = key ∧ row.requestSha256 ≠ requestSha) → Refused start result final)
  accept : ∀ {number : Nat} {context : Context} {dispatchId : Text} {start final : World}
    {result : Except Failure ComputerAgentDispatchAcceptance},
    RunsTimely engine tools deployment (UndisputedAcceptance dispatchId)
      (accept engine tools.toTools deployment number context dispatchId) start result final →
    Accepted tools dispatchId result final
  abandon : ∀ {context : Context} {projectId dispatchId key requestSha : Text} {input : Reasoned}
    {start final : World} {result : Except Failure ComputerAgentDispatchAbandonment},
    context.idempotencyKey = some key →
    requestSha = abandonSha tools.toTools dispatchId projectId context.principalRef key input →
    RunsTimely engine tools deployment (UndisputedAbandonment dispatchId key requestSha)
      (abandon engine tools.toTools context projectId dispatchId input) start result final →
    Abandoned tools start.own projectId context.principalRef dispatchId key requestSha result final ∧
    ((∃ row ∈ final.tables.abandonments, row.ownerPrincipalRef = context.principalRef ∧
      row.idempotencyKey = key ∧ row.requestSha256 ≠ requestSha) → Refused start result final)
  preferred : ∀ {context : Context} {projectId key requestSha : Text}
    {input : ComputerAgentPreferredDispatchCreate} {start final : World}
    {result : Except Failure ComputerAgentPreferredDispatchReceipt}, context.idempotencyKey = some key →
    requestSha = preferredSha tools projectId context.principalRef input →
    RunsTimely engine tools deployment
      (UndisputedSelection tools projectId context.principalRef key requestSha input)
      (createPreferred engine tools deployment context projectId input) start result final →
    Preferred tools start.own projectId context.principalRef key requestSha input result final ∧
    ((∃ row ∈ final.preferred.selections, row.ownerPrincipalRef = context.principalRef ∧
      row.idempotencyKey = key ∧ row.requestSha256 ≠ requestSha) → Refused start result final)

variable {engine tools deployment}

theorem RunsTimely.intact {α : Type} {condition : Purpose → World → Prop} {call : Calls α}
    {start final : World} {result : Except Failure α}
    (runs : RunsTimely engine tools deployment condition call start result final) :
    Intact tools start.tables start.preferred :=
  (Changes.intact runs.1 Intact.empty).1

theorem refused_of {α : Type} {start final : World} {result : Except Failure α} {stored : Prop}
    (own : final.own = start.own ∨ stored) (returned : ∀ value, result = .ok value → stored)
    (absent : ¬stored) : Refused start result final := by
  refine ⟨own.resolve_right absent, ?_⟩
  cases result with
  | error failure => exact ⟨failure, rfl⟩
  | ok value => exact absurd (returned value rfl) absent

end

section
open Text (prose)

def Choice.trusts (deployment : Text) (choice : Choice) : Bool :=
  !corrupt choice.route && !corrupt choice.currentRoute && !corrupt choice.exact &&
  !corrupt choice.current && !corrupt choice.forTask && !corrupt choice.grant &&
  !corrupt choice.lease && !corrupt choice.leaseCurrent && !corrupt choice.status &&
  !corrupt choice.qualification && !corrupt choice.readiness &&
  (match choice.readiness with
  | .ok readiness => readiness.preferredReadyConnection.all fun preferred =>
    (readiness.preferred deployment preferred).isSome
  | .error _ => true) && decide (choice.runFailure ≠ some .conflict)

theorem trusty_of_trusts {deployment : Text} {choice : Choice}
    (trusts : choice.trusts deployment = true) : choice.Trusty deployment := by
  simp only [Choice.trusts, Bool.and_eq_true, Bool.not_eq_true', decide_eq_true_eq] at trusts
  obtain ⟨⟨⟨⟨⟨⟨⟨⟨⟨⟨⟨⟨route, currentRoute⟩, exact⟩, current⟩, forTask⟩, grant⟩, lease⟩, leaseCurrent⟩,
    status⟩, qualification⟩, readiness⟩, consistent⟩, started⟩ := trusts
  refine ⟨route, currentRoute, exact, current, forTask, grant, lease, leaseCurrent, status,
    qualification, readiness, fun report preferred told some => ?_, started⟩
  rw [told] at consistent
  simpa [some] using consistent

def undisputed (principal key requestSha : Text) (purpose : Purpose) (world : World) : Bool :=
  match purpose with
  | .settled record => world.tables.dispatches.rows.all fun row =>
    !(row.ownerPrincipalRef = principal && row.idempotencyKey = key && row.requestSha256 = requestSha) ||
      row.recordJson = record
  | _ => true

theorem undisputed_sound {principal key requestSha : Text} {purpose : Purpose} {world : World}
    (checked : undisputed principal key requestSha purpose world = true) :
    Undisputed principal key requestSha purpose world := by
  rintro record rfl row there ⟨owned, keyed, digest⟩
  have holds := all_eq_true.mp checked row there
  simpa [owned, keyed, digest] using holds

def Samples.preferredTools (samples : Samples) : PreferredTools where
  toTools := samples.tools
  preferredSchema _ := true
  selection := sampleCodec _ []
  settlement := sampleCodec _ []
  receiptSchema _ := true

def twice : Samples where
  dispatches := [sampleDispatch firstId sampleClock, sampleDispatch firstId (sampleClock + 1000)]
  acceptances := [sampleAcceptance firstId sampleClock, sampleAcceptance firstId (sampleClock + 1000)]
  abandonments := []
  reassignments := []

def twiceEngine : Engine := sampleEngine twice.documents

def offerSha : Text := createSha twice.tools (prose "project" rfl) (prose "owner" rfl) sampleInput

def put (insert : Insert) (world : World) : World :=
  match world.tables.insert twiceEngine (sampleAuthority [firstId]) insert with
  | some tables => { world with tables }
  | none => world

theorem put_changes {insert : Insert} (made : Made twice.preferredTools insert) (world : World) :
    Changes twiceEngine twice.preferredTools world (put insert world) := by
  unfold put
  split
  · rename_i tables stored
    exact .single (.store made stored)
  · exact .refl

def offer (created : Int) : Insert :=
  .dispatch ((sampleDispatch firstId created).row twice.tools (text "offer") offerSha)

def acceptanceAt (accepted : Int) : Insert :=
  .acceptance ((sampleAcceptance firstId accepted).row twice.tools)

def createOffer : Calls ComputerAgentDispatch :=
  create twiceEngine twice.tools (prose "deployment" rfl) false (sampleOwner (text "offer"))
    (prose "project" rfl) sampleInput

def acceptOffer : Calls ComputerAgentDispatchAcceptance :=
  accept twiceEngine twice.tools (prose "deployment" rfl) 0 sampleAgent firstId

def crossed (count : Nat) (insert : Insert) (after : Nat) : List ((World → World) × Choice) :=
  List.replicate count (id, obliging [firstId] firstId) ++ (put insert, obliging [firstId] firstId) ::
    List.replicate after (id, obliging [firstId] firstId)

def code {α : Type} : Except Failure α → Option ErrorCode
  | .error (.dispatch error) => some error.code
  | _ => none

theorem code_dispatch {α : Type} {result : Except Failure α} {found : ErrorCode} (told : code result = some found) :
    ∃ error, result = .error (.dispatch error) ∧ error.code = found := by
  unfold code at told
  split at told
  · exact ⟨_, rfl, Option.some.inj told⟩
  · cases told

theorem crossed_moves {insert : Insert} (made : Made twice.preferredTools insert) (count after : Nat) :
    ∀ step ∈ crossed count insert after, ∀ world,
      Changes twiceEngine twice.preferredTools world (step.1 world) := by
  intro step listed world
  rcases mem_append.mp listed with idle | last
  · rw [eq_of_mem_replicate idle]
    exact .refl
  · rcases mem_cons.mp last with rfl | idle
    · exact put_changes made world
    · rw [eq_of_mem_replicate idle]
      exact .refl

theorem offer_made (created : Int) (valid : twice.tools.dispatch.schema (sampleDispatch firstId created) = true) :
    Made twice.preferredTools (offer created) := .dispatch _ _ valid rfl

end

end Dispatch
