import Mathlib.Data.List.Sort
import Eliot.Investigation.Receipts

namespace Investigation
open Async List
open Relational (Table)
open Sqlite (Engine)

section
variable {tools : Tools} {ledger : Ledger} {id : Text} {head : HeadRow} {last : Int}

theorem mem_selectEvents {event : EventRow} : event ∈ ledger.selectEvents id last ↔
    event ∈ ledger.events.rows ∧ event.investigationId = id ∧ event.sequence ≤ last := by
  simp [Ledger.selectEvents, mem_insertionSort]

theorem selectEvents_sequences (sound : ledger.chart.Sound) (found : ledger.heads.find id = some head)
    (positive : 0 ≤ last) (bound : last ≤ head.eventHead) :
    (ledger.selectEvents id last).map EventRow.sequence =
      (List.range last.toNat).map fun place : Nat => (place : Int) + 1 := by
  refine List.Perm.eq_of_pairwise (fun _ _ _ _ => Int.le_antisymm) ?_ ?_ ?_
  · rw [pairwise_map]
    have total : Std.Total fun one other : EventRow => one.sequence ≤ other.sequence :=
      ⟨fun _ _ => Int.le_total _ _⟩
    have through : IsTrans EventRow fun one other => one.sequence ≤ other.sequence :=
      ⟨fun _ _ _ => Int.le_trans⟩
    exact pairwise_insertionSort _ _
  · rw [pairwise_map]
    exact pairwise_lt_range.imp fun below => by omega
  · rw [perm_ext_iff_of_nodup]
    · intro sequence
      have listed := sound.sequences id head found sequence
      simp only [mem_map, mem_selectEvents, mem_range]
      constructor
      · rintro ⟨event, ⟨there, own, below⟩, rfl⟩
        have within := listed.mp ⟨event, there, own, rfl⟩
        exact ⟨(event.sequence - 1).toNat, by omega, by omega⟩
      · rintro ⟨place, within, rfl⟩
        obtain ⟨event, there, own, same⟩ := listed.mpr (by omega)
        exact ⟨event, ⟨there, own, by omega⟩, same⟩
    · refine List.Nodup.map_on ?_ ?_
      · intro one first other second same
        have left := mem_selectEvents.mp first
        have right := mem_selectEvents.mp second
        refine @Table.eq_of_key _ _ _ ledger.events _ _ left.1 right.1 ?_
        rw [left.2.1, right.2.1, same]
      · refine (perm_insertionSort _ _).nodup_iff.mpr ?_
        exact (List.Nodup.of_map _ ledger.events.unique).filter _
    · exact List.Nodup.map (fun one other same => by simpa using same) nodup_range

theorem assertContiguous_ok {decoded : LedgerHead} (sound : ledger.chart.Sound)
    (found : ledger.heads.find id = some head) (own : decoded.investigationId = id)
    (positive : 0 ≤ decoded.eventHead) (bound : decoded.eventHead ≤ head.eventHead) :
    assertContiguous decoded (ledger.selectEvents id decoded.eventHead) = .ok () := by
  have sequences := selectEvents_sequences sound found positive bound
  have count : (ledger.selectEvents id decoded.eventHead).length = decoded.eventHead.toNat := by
    have lengths := congrArg List.length sequences
    simpa using lengths
  unfold assertContiguous
  rw [if_neg (by omega), if_pos]
  · rfl
  · rw [all_eq_true]
    rintro ⟨event, place⟩ listed
    have there : (ledger.selectEvents id decoded.eventHead)[place]? = some event :=
      mk_mem_zipIdx_iff_getElem?.mp listed
    have numbered : ((ledger.selectEvents id decoded.eventHead).map EventRow.sequence)[place]? =
        some event.sequence := by rw [getElem?_map, there, Option.map_some]
    have within : place < decoded.eventHead.toNat := by
      rw [← count]
      exact (List.getElem?_eq_some_iff.mp there).1
    rw [sequences, getElem?_map, getElem?_range within, Option.map_some] at numbered
    have member := mem_selectEvents.mp (mem_of_getElem? there)
    simp only [decide_eq_true_eq]
    exact ⟨(Option.some.inj numbered).symm, member.2.1.trans own.symm⟩

theorem selectEvents_head (sound : ledger.chart.Sound) (found : ledger.heads.find id = some head)
    (positive : 1 ≤ last) (bound : last ≤ head.eventHead) {event : EventRow}
    (there : event ∈ ledger.events.rows) (own : event.investigationId = id)
    (first : event.sequence = 1) : (ledger.selectEvents id last).head? = some event := by
  have sequences := selectEvents_sequences sound found (by omega) bound
  obtain ⟨count, same⟩ : ∃ count, last.toNat = count + 1 := ⟨last.toNat - 1, by omega⟩
  rw [same, range_succ_eq_map] at sequences
  cases listed : ledger.selectEvents id last with
  | nil => simp [listed] at sequences
  | cons other rest =>
    rw [listed] at sequences
    simp only [map_cons, List.cons.injEq] at sequences
    have member := mem_selectEvents.mp (by rw [listed]; exact mem_cons_self : other ∈ ledger.selectEvents id last)
    have equal : other = event := by
      refine @Table.eq_of_key _ _ _ ledger.events _ _ member.1 there ?_
      rw [member.2.1, own, first, sequences.1]
      rfl
    rw [head?_cons, equal]

theorem decodeEvents_ok (receipts : Receipts tools ledger) {rows : List EventRow}
    (stored : ∀ event ∈ rows, event ∈ ledger.events.rows) :
    rows.mapM (decodeEvent tools) = .ok rows := by
  refine Fallible.mapM_ok.mpr (forall₂_same.mpr fun event listed => ?_)
  have valid := receipts.events event (stored event listed)
  rw [decodeEvent, decodeLedgerEvent, if_pos valid]
  rfl

end

section
variable (tools : Tools) (engine : Engine)

def Moves (before after : World) : Prop :=
  after.own = before.own ∧ ∃ statements : List (Authority × CommandRow),
    (∀ statement ∈ statements, Built tools statement.2) ∧
      after.ledger = statements.foldl (step engine) before.ledger

variable {tools engine} {before middle after : World}

theorem Moves.refl (world : World) : Moves tools engine world world :=
  ⟨rfl, [], fun _ none => absurd none not_mem_nil, rfl⟩

theorem Moves.trans (one : Moves tools engine before middle) (two : Moves tools engine middle after) :
    Moves tools engine before after := by
  obtain ⟨own, first, firstBuilt, firstRan⟩ := one
  obtain ⟨still, second, secondBuilt, secondRan⟩ := two
  refine ⟨still.trans own, first ++ second, fun statement listed => ?_, ?_⟩
  · rcases mem_append.mp listed with listed | listed
    · exact firstBuilt statement listed
    · exact secondBuilt statement listed
  · rw [secondRan, firstRan, foldl_append]

theorem Moves.receipts (moves : Moves tools engine before after)
    (receipts : Receipts tools before.ledger) :
    Receipts tools after.ledger ∧ Later before.ledger after.ledger := by
  obtain ⟨-, statements, built, ran⟩ := moves
  rw [ran]
  exact steps_receipts built receipts

end

section
variable {tools : Tools} {engine : Engine} {allowed : Purpose → Choice → World → Prop}
  {α β : Type} {now : World}

def readUnknown : StoreError :=
  .ledger ⟨.settlementUncertain, text "ledger read outcome is unknown", true⟩

variable {setting : Setting World Purpose Choice}

theorem wp_check {result : Except LedgerError α}
    {rest : α → Store β} {post : Except StoreError β → World → Prop}
    (failed : ∀ error, result = .error error → post (.error (.ledger error)) now)
    (passed : ∀ value, result = .ok value → (rest value).wp setting post now) :
    ((check result).bind rest).wp setting post now := by
  cases result with
  | error error => exact failed error rfl
  | ok value => exact passed value rfl

theorem wp_require {condition : Bool}
    {code : LedgerErrorCode} {message : String} {rest : Unit → Store β}
    {post : Except StoreError β → World → Prop}
    (failed : condition = false → post (.error (.ledger ⟨code, text message, false⟩)) now)
    (passed : condition = true → (rest ()).wp setting post now) :
    ((require condition code message).bind rest).wp setting post now := by
  cases condition with
  | false => exact failed rfl
  | true => exact passed rfl

theorem wp_read {purpose : Purpose}
    {query : Authority → Ledger → α} {post : Except StoreError α → World → Prop}
    (answered : ∀ later, setting.moves now later → ∀ choice, setting.allowed purpose choice later →
      choice.outcome = .answered → post (.ok (query choice.authority later.ledger)) later)
    (lost : ∀ later, setting.moves now later → ∀ choice, setting.allowed purpose choice later →
      choice.outcome ≠ .answered → post (.error (.d1 .lost)) later) :
    (read purpose query).wp setting post now := by
  intro later moved choice met
  cases outcome : choice.outcome with
  | answered =>
    have reached := answered later moved choice met outcome
    simp only [outcome]
    exact reached
  | lost ran =>
    have reached := lost later moved choice met (by simp [outcome])
    simp only [outcome]
    exact reached

theorem wp_guarded {purpose : Purpose}
    {query : Authority → Ledger → α} {post : Except StoreError α → World → Prop}
    (answered : ∀ later, setting.moves now later → ∀ choice, setting.allowed purpose choice later →
      post (.ok (query choice.authority later.ledger)) later)
    (lost : ∀ later, setting.moves now later → post (.error readUnknown) later) :
    (guarded (read purpose query)).wp setting post now := by
  refine Call.wp_bind (Call.wp_attempt (wp_read ?_ ?_))
  · exact fun later moved choice met _ => answered later moved choice met
  · exact fun later moved _ _ _ => lost later moved

theorem readEvents_wp {head : LedgerHead} {post : Except StoreError (List LedgerEvent) → World → Prop}
    (receipts : Receipts tools now.ledger) (valid : tools.headSchema head = true)
    (found : now.ledger.heads.find head.investigationId = some (ledgerHeadBindings tools head))
    (answered : ∀ later, Moves tools engine now later →
      post (.ok (later.ledger.selectEvents head.investigationId head.eventHead)) later)
    (lost : ∀ later, Moves tools engine now later → post (.error readUnknown) later) :
    (readEvents tools head).wp ⟨Moves tools engine, allowed⟩ post now := by
  have started : 1 ≤ head.eventHead := receipts.sound.started _ _ found
  have bounded := tools.eventHead_bounded head valid
  refine wp_require (fun failed => ?_) fun _ => Call.wp_bind (wp_guarded (fun later moved _ _ => ?_) lost)
  · have room : (1000000 : Int) ≤ Text.maxSafeInteger := by decide
    simp only [Bool.and_eq_false_iff, decide_eq_false_iff_not] at failed
    omega
  obtain ⟨kept, further⟩ := moved.receipts receipts
  obtain ⟨live, present, -, above⟩ := further.heads _ _ found
  have balanced : head.revision = head.eventHead := receipts.sound.revision _ _ found
  have bound : head.eventHead ≤ live.eventHead := by
    rw [← balanced, ← kept.sound.revision _ live present]
    exact above
  refine wp_check (fun error refused => ?_) fun events decoded => ?_
  · rw [decodeEvents_ok kept fun event listed => (mem_selectEvents.mp listed).1] at refused
    cases refused
  rw [decodeEvents_ok kept fun event listed => (mem_selectEvents.mp listed).1] at decoded
  cases decoded
  refine wp_check (fun error refused => ?_) fun _ _ => answered later moved
  rw [assertContiguous_ok kept.sound present rfl (by omega) bound] at refused
  cases refused

theorem readSnapshot_wp {purpose : Purpose} {id : Text}
    {post : Except StoreError (Option (LedgerHead × List LedgerEvent)) → World → Prop}
    (receipts : Receipts tools now.ledger)
    (absent : ∀ later, Moves tools engine now later → later.ledger.heads.find id = none →
      post (.ok none) later)
    (present : ∀ middle, Moves tools engine now middle → ∀ choice, allowed purpose choice middle →
      ∀ head, middle.ledger.heads.find id = some (ledgerHeadBindings tools head) →
        ∀ later, Moves tools engine middle later →
          post (.ok (some (head, later.ledger.selectEvents id head.eventHead))) later)
    (lost : ∀ later, Moves tools engine now later → post (.error readUnknown) later) :
    (readSnapshot tools purpose id).wp ⟨Moves tools engine, allowed⟩ post now := by
  refine Call.wp_bind (wp_guarded (fun middle moved choice met => ?_) lost)
  dsimp only
  cases found : middle.ledger.heads.find id with
  | none => exact absent middle moved found
  | some row =>
    obtain ⟨stored, -⟩ := moved.receipts receipts
    obtain ⟨there, own⟩ := Table.find_some.mp found
    obtain ⟨head, valid, rfl⟩ := stored.heads row there
    have decoded : decodeHead tools (ledgerHeadBindings tools head) = .done (.ok head) := by
      rw [decodeHead, decode_bindings valid]
      rfl
    dsimp only
    rw [decoded]
    have own : head.investigationId = id := own
    subst own
    refine Call.wp_bind ?_
    exact Call.wp_bind (readEvents_wp stored valid found
      (fun later onward => present middle moved choice met head found later onward)
      (fun later onward => lost later (moved.trans onward)))

end
end Investigation
