import Eliot.Investigation.Snapshots

namespace Investigation
open Async List Call
open Relational (Table)
open Sqlite (Engine)

section
variable {α β : Type} (tools : Tools) (op : OpKind) (head : LedgerHead) (event : LedgerEvent)

def Committed (ledger : Ledger) : Prop :=
  ∃ command ∈ ledger.commands, command.opKind = op ∧
    command.newHead = ledgerHeadBindings tools head ∧ command.newEvent = event

def Clashes (ledger : Ledger) : Prop :=
  ∃ command ∈ ledger.commands, command.opKind ≠ .supersede ∧
    (command.newEvent.eventId = event.eventId ∨ op = .create ∧ command.opKind = .create ∧
      command.newHead.idempotencyKey = head.idempotencyKey) ∧
    ¬(command.newHead = ledgerHeadBindings tools head ∧ command.newEvent = event)

/-- `LEDGER_SETTLEMENT_UNCERTAIN`, to be tried again -/
def Uncertain (result : Except StoreError α) : Prop :=
  ∃ message, result = .error (.ledger ⟨.settlementUncertain, message, true⟩)

structure Settled (answer : α → Prop) (result : Except StoreError α) (ledger : Ledger) : Prop where
  answered : Committed tools op head event ledger →
    (∃ value, result = .ok value ∧ answer value) ∨ Uncertain result
  refused : Clashes tools op head event ledger → ∃ error, result = .error error

/-- While the command with these bytes is committed, the reads whose failures nothing catches are
    answered, and the head that is checked against is not read any more; a head that is compared is
    the one that the event came with exactly where the call has that head. -/
def Undisturbed : Purpose → Choice → World → Prop
  | .lookup, choice, world | .epoch, choice, world =>
    Committed tools op head event world.ledger → choice.outcome = .answered
  | .committed, choice, world =>
    op = .create → Committed tools op head event world.ledger → choice.outcome = .answered
  | .current, _, world => ¬Committed tools op head event world.ledger
  | .compared, _, world => ∀ command ∈ world.ledger.commands, command.opKind ≠ .supersede →
    command.newEvent = event →
      (world.ledger.heads.find head.investigationId = some (ledgerHeadBindings tools head) ↔
        command.newHead = ledgerHeadBindings tools head)
  | _, _, _ => True

variable {tools op head event} {ledger : Ledger} {answer : α → Prop}

theorem Settled.uncommitted {error : StoreError} (none : ¬Committed tools op head event ledger) :
    Settled tools op head event answer (.error error) ledger :=
  ⟨fun committed => absurd committed none, fun _ => ⟨error, rfl⟩⟩

theorem Settled.uncertain (message : Text) :
    Settled tools op head event answer
      (.error (.ledger ⟨.settlementUncertain, message, true⟩)) ledger :=
  ⟨fun _ => .inr ⟨message, rfl⟩, fun _ => ⟨_, rfl⟩⟩

theorem uncommitted_of_absent (receipts : Receipts tools ledger)
    (absent : ∀ stored ∈ ledger.events.rows, stored.eventId ≠ event.eventId) :
    ¬Committed tools op head event ledger := by
  rintro ⟨command, listed, -, -, same⟩
  exact absent _ (receipts.event command listed) (congrArg EventRow.eventId same)

theorem command_unique (receipts : Receipts tools ledger) {first second : CommandRow}
    (one : first ∈ ledger.commands) (other : second ∈ ledger.commands)
    (firstKind : first.opKind ≠ .supersede) (secondKind : second.opKind ≠ .supersede)
    (same : first.newEvent.eventId = second.newEvent.eventId) : first = second := by
  refine Table.eq_of_key one other ?_
  rw [(receipts.built first one).commandId firstKind, (receipts.built second other).commandId secondKind,
    same]

theorem event_unique {first second : EventRow} (one : first ∈ ledger.events.rows)
    (other : second ∈ ledger.events.rows) (same : first.eventId = second.eventId) : first = second :=
  inj_on_of_nodup_map ledger.eventIds one other same

theorem head_unique {first second : HeadRow} (one : first ∈ ledger.heads)
    (other : second ∈ ledger.heads) (same : first.idempotencyKey = second.idempotencyKey) :
    first = second :=
  inj_on_of_nodup_map ledger.keys one other same

theorem create_unique (receipts : Receipts tools ledger) {first second : CommandRow}
    (one : first ∈ ledger.commands) (other : second ∈ ledger.commands)
    (firstKind : first.opKind = .create) (secondKind : second.opKind = .create)
    (same : first.newHead.idempotencyKey = second.newHead.idempotencyKey) : first = second := by
  obtain ⟨live, found, key, -⟩ := receipts.head first one
  obtain ⟨live', found', key', -⟩ := receipts.head second other
  obtain ⟨listed, id⟩ := Table.find_some.mp found
  obtain ⟨listed', id'⟩ := Table.find_some.mp found'
  have equal : live = live' := head_unique listed listed' (by rw [key, key', same])
  have begins {command : CommandRow} (there : command ∈ ledger.commands)
      (kind : command.opKind = .create) : command.newEvent.sequence = 1 := by
    rw [(receipts.bound command there).2.1, ((receipts.built command there).first kind).2]
  have event : first.newEvent = second.newEvent := by
    refine @Table.eq_of_key _ _ _ ledger.events _ _ (receipts.event first one) (receipts.event second other) ?_
    rw [(receipts.bound first one).1, (receipts.bound second other).1, begins one firstKind,
      begins other secondKind, ← id, ← id', equal]
  exact command_unique receipts one other (by rw [firstKind]; decide) (by rw [secondKind]; decide)
    (congrArg EventRow.eventId event)

theorem Committed.not_clashes (committed : Committed tools op head event ledger)
    (receipts : Receipts tools ledger) (real : op ≠ .supersede) :
    ¬Clashes tools op head event ledger := by
  obtain ⟨own, listed, kind, headBytes, eventBytes⟩ := committed
  rintro ⟨other, there, otherKind, same | ⟨create, otherCreate, key⟩, differs⟩
  · have equal := command_unique receipts there listed otherKind (by rw [kind]; exact real)
      (by rw [same, eventBytes])
    rw [equal] at differs
    exact differs ⟨headBytes, eventBytes⟩
  · have equal := create_unique receipts there listed otherCreate (kind.trans create)
      (by rw [key, headBytes]; rfl)
    rw [equal] at differs
    exact differs ⟨headBytes, eventBytes⟩

end

variable {ledger : Ledger} {before after : Ledger}

section
variable {α : Type} (tools : Tools) (engine : Engine) (op : OpKind) (head : LedgerHead)
  (event : LedgerEvent)

def undisturbed : Setting World Purpose Choice :=
  ⟨Moves tools engine, Undisturbed tools op head event⟩

structure Track (start : World) (wrote : Bool) (now : World) : Prop where
  receipts : Receipts tools now.ledger
  later : Later start.ledger now.ledger
  own : now.own = start.own + wrote.toNat
  written : wrote = true → ¬Committed tools op head event start.ledger ∧
    Committed tools op head event now.ledger

def Ended (answer : Bool → α → Prop) (start : World) (result : Except StoreError α) (final : World) :
    Prop :=
  ∃ wrote, Track tools op head event start wrote final ∧
    Settled tools op head event (answer wrote) result final.ledger

variable {tools engine op head event} {start now : World} {wrote : Bool}

theorem Committed.mono (committed : Committed tools op head event before)
    (later : Later before after) : Committed tools op head event after := by
  obtain ⟨command, listed, bytes⟩ := committed
  exact ⟨command, later.commands command listed, bytes⟩

theorem Track.moves {later : World} (track : Track tools op head event start wrote now)
    (moves : Moves tools engine now later) : Track tools op head event start wrote later := by
  obtain ⟨receipts, onward⟩ := moves.receipts track.receipts
  refine ⟨receipts, track.later.trans onward, moves.1.trans track.own, fun wrote => ?_⟩
  obtain ⟨none, committed⟩ := track.written wrote
  exact ⟨none, committed.mono onward⟩

theorem selectByEventId_none {id : Text} (found : ledger.selectByEventId id = none) :
    ∀ stored ∈ ledger.events.rows, stored.eventId ≠ id := by
  intro stored listed
  simpa using find?_eq_none.mp found stored listed

theorem selectByEventId_some {id : Text} {stored : EventRow}
    (found : ledger.selectByEventId id = some stored) :
    stored ∈ ledger.events.rows ∧ stored.eventId = id :=
  ⟨mem_of_find?_eq_some found, by simpa using find?_some found⟩

theorem storedEvent_wp {post : Except StoreError (Option LedgerEvent) → World → Prop}
    (receipts : Receipts tools now.ledger)
    (absent : ∀ later, Moves tools engine now later →
      (∀ stored ∈ later.ledger.events.rows, stored.eventId ≠ event.eventId) → post (.ok none) later)
    (present : ∀ later, Moves tools engine now later → ∀ stored ∈ later.ledger.events.rows,
      stored.eventId = event.eventId → post (.ok (some stored)) later)
    (lost : ∀ later, Moves tools engine now later → ¬Committed tools op head event later.ledger →
      post (.error (.d1 .lost)) later) :
    (storedEvent tools event.eventId).wp (undisturbed tools engine op head event) post now := by
  refine wp_bind (wp_read (fun later moved choice met _ => ?_) fun later moved choice met failed => ?_)
  · dsimp only
    cases found : later.ledger.selectByEventId event.eventId with
    | none => exact absent later moved (selectByEventId_none found)
    | some stored =>
      obtain ⟨there, same⟩ := selectByEventId_some found
      have decoded : decodeEvent tools stored = .ok stored := by
        rw [decodeEvent, decodeLedgerEvent, if_pos ((moved.receipts receipts).1.events stored there)]
        rfl
      dsimp only
      rw [decoded]
      exact present later moved stored there same
  · exact lost later moved fun committed => failed (met committed)

end

variable {command : CommandRow}

section
variable {tools : Tools} {engine : Engine} {head : LedgerHead} {event : LedgerEvent} {start now : World}
  {wrote : Bool}

theorem compared_iff {before middle after : World} (moved : Moves tools engine before middle)
    (onward : Moves tools engine middle after) (receipts : Receipts tools before.ledger)
    (stored : event ∈ before.ledger.events.rows) {fresh : LedgerHead} {choice : Choice}
    (met : Undisturbed tools .append head event .compared choice middle)
    (found : middle.ledger.heads.find head.investigationId = some (ledgerHeadBindings tools fresh))
    (listed : command ∈ after.ledger.commands)
    (kind : command.opKind ≠ .supersede) (same : command.newEvent = event) :
    fresh = head ↔ command.newHead = ledgerHeadBindings tools head := by
  obtain ⟨middleReceipts, one⟩ := moved.receipts receipts
  obtain ⟨-, two⟩ := onward.receipts middleReceipts
  have early : command ∈ before.ledger.commands := by
    by_contra new
    exact (one.trans two).eventIds command listed new event stored (congrArg EventRow.eventId same.symm)
  rw [← met command (one.commands command early) kind same, found]
  constructor
  · rintro rfl
    rfl
  · exact fun equal => bindings_injective (Option.some.inj equal)

theorem appliedAlready_wp {post : Except StoreError (Option LedgerHead) → World → Prop}
    (track : Track tools .append head event start wrote now)
    (absent : ∀ later, Track tools .append head event start wrote later →
      ¬Committed tools .append head event later.ledger → post (.ok none) later)
    (found : ∀ later, Ended tools .append head event (fun _ => (· = head)) start (.ok head) later →
      post (.ok (some head)) later)
    (failed : ∀ later error, Ended tools .append head event (fun _ => (· = head)) start (.error error) later →
      post (.error error) later) :
    (appliedAlready tools head event).wp (undisturbed tools engine .append head event) post now := by
  refine wp_bind (storedEvent_wp track.receipts ?_ ?_ ?_)
  · intro later moved none
    have kept := track.moves moved
    exact absent later kept (uncommitted_of_absent kept.receipts none)
  · intro first moved stored there same
    have kept := track.moves moved
    refine wp_require (fun differs => failed _ _ ⟨_, kept, .uncommitted ?_⟩) fun equal => ?_
    · rintro ⟨command, listed, -, -, own⟩
      have whole := event_unique there (kept.receipts.event command listed)
        (by rw [same, own])
      exact of_decide_eq_false differs (whole.trans own)
    obtain rfl : stored = event := of_decide_eq_true equal
    refine wp_bind (readSnapshot_wp kept.receipts ?_ ?_ ?_)
    · intro later onward none
      have last := kept.moves onward
      refine failed _ _ ⟨_, last, .uncommitted ?_⟩
      rintro ⟨command, listed, -, bytes, -⟩
      obtain ⟨live, present, -⟩ := last.receipts.head command listed
      rw [bytes] at present
      cases none.symm.trans present
    · intro middle onward choice met fresh live later further
      have last := (kept.moves onward).moves further
      have agrees {command : CommandRow} (listed : command ∈ later.ledger.commands)
          (kind : command.opKind ≠ .supersede) (same : command.newEvent = stored) :=
        compared_iff onward further kept.receipts there met live listed kind same
      refine wp_require (fun differs => failed _ _ ⟨_, last, .uncommitted ?_⟩) fun equal => ?_
      · rintro ⟨command, listed, kind, bytes, own⟩
        obtain rfl := (agrees listed (by rw [kind]; decide) own).mpr bytes
        refine of_decide_eq_false differs ⟨rfl, mem_selectEvents.mpr ⟨?_, ?_, ?_⟩⟩
        · rw [← own]
          exact last.receipts.event command listed
        · rw [← own, (last.receipts.bound command listed).1, bytes]
          rfl
        · rw [← own, (last.receipts.bound command listed).2.1, bytes]
          exact le_refl _
      · obtain ⟨rfl, listed⟩ := of_decide_eq_true equal
        refine found later ⟨_, last, fun _ => .inl ⟨fresh, rfl, rfl⟩, ?_⟩
        rintro ⟨command, committed, kind, named | ⟨other, -⟩, differs⟩
        · have whole := event_unique (last.receipts.event command committed)
            (mem_selectEvents.mp listed).1 named
          exact absurd ⟨(agrees committed kind whole).mp rfl, whole⟩ differs
        · cases other
    · intro later onward
      exact failed _ _ ⟨_, kept.moves onward, .uncertain _⟩
  · intro later moved none
    exact failed _ _ ⟨_, track.moves moved, .uncommitted none⟩

end

section
variable {tools : Tools} {engine : Engine} {op : OpKind} {head : LedgerHead} {event : LedgerEvent}
  {start now : World} {wrote : Bool}

theorem readCommandFence_wp {post : Except StoreError LedgerCommandFence → World → Prop}
    (track : Track tools op head event start wrote now)
    (answered : ∀ later fence, Track tools op head event start wrote later → post (.ok fence) later)
    (lost : ∀ later message, Track tools op head event start wrote later →
      post (.error (.ledger ⟨.settlementUncertain, message, true⟩)) later) :
    (readCommandFence head).wp (undisturbed tools engine op head event) post now := by
  refine wp_bind (wp_attempt (wp_bind (wp_read (fun middle moved _ _ _ => ?_)
    fun later moved _ _ _ => lost later _ (track.moves moved))))
  refine wp_bind (wp_read (fun later onward _ _ _ => ?_) fun later onward _ _ _ => ?_)
  · exact answered later _ ((track.moves moved).moves onward)
  · exact lost later _ ((track.moves moved).moves onward)

theorem readEpoch_wp {post : Except StoreError Int → World → Prop}
    (track : Track tools op head event start wrote now)
    (answered : ∀ later epoch, Track tools op head event start wrote later → post (.ok epoch) later)
    (missing : ∀ later message, Track tools op head event start wrote later →
      post (.error (.ledger ⟨.settlementUncertain, message, true⟩)) later)
    (lost : ∀ later, Track tools op head event start wrote later →
      ¬Committed tools op head event later.ledger → post (.error (.d1 .lost)) later) :
    readEpoch.wp (undisturbed tools engine op head event) post now := by
  refine wp_bind (wp_read (fun later moved choice _ _ => ?_) fun later moved choice met failed => ?_)
  · dsimp only
    cases choice.authority.investigationLedgerEpoch with
    | some epoch => exact answered later epoch (track.moves moved)
    | none => exact missing later _ (track.moves moved)
  · exact lost later (track.moves moved) fun committed => failed (met committed)

theorem text_ofList (chars : List Char) : text (String.ofList chars) = chars.map Char.toNat := by
  rw [text, String.toList_ofList]

theorem isProtocolChange_of_slash {message : Text} (plain : 47 ∉ message) :
    isProtocolChange message = false := by
  rw [Bool.eq_false_iff]
  intro heard
  have part : text "protocol/grade change requires explicit supersession" <:+: lowerCase message :=
    of_decide_eq_true heard
  obtain ⟨unit, listed, same⟩ := mem_map.mp (part.subset (by decide : 47 ∈ _))
  split at same
  · omega
  · exact plain (same ▸ listed)

theorem triggers_silent : ∀ trigger ∈ triggers, isProtocolChange trigger.message = false := by
  simp only [triggers, forall_mem_cons, not_mem_nil, false_implies, implies_true,
    and_true, timeCanonicalOld, timeCanonicalNew, timeCanonicalObserved, appendJsonValid,
    appendKindAllow, acceptVerifier, acceptSupersede, appendMaskHyprec, appendMaskOblreg,
    appendMaskLane, appendMaskReopened, appendMaskClosed, appendMaskObserved, deviationSingle,
    appendMaskDeviation, acceptSingle, appendMaskAccept, appendMaskCheckpoint, supersedeShape,
    supersedeCas, supersedeOldPresent, appendShape, appendCas, appendOldPresent, createShape,
    verifierOld, verifierNew, actorOwner, purgeCurrent, deploymentCurrent, policyCurrent,
    grantActive, scopeCurrent, ttlBound, timeFresh, epochCurrent]
  repeat' apply And.intro
  all_goals
    apply isProtocolChange_of_slash
    rw [text_ofList]
    decide

theorem Committed.taken (committed : Committed tools op head event ledger)
    (receipts : Receipts tools ledger) (real : op ≠ .supersede) :
    ledger.commands.find (ledgerCommandIdFor event.eventId) ≠ none := by
  obtain ⟨command, listed, kind, -, same⟩ := committed
  have id : command.commandId = ledgerCommandIdFor event.eventId := by
    rw [(receipts.built command listed).commandId (by rw [kind]; exact real), same]
  rw [Table.find_some.mpr ⟨listed, id⟩]
  exact Option.some_ne_none command

theorem insertCommand_taken {authority : Authority}
    {failure : Failure} (failed : insertCommand engine authority command ledger = .error failure)
    (taken : ledger.commands.find command.commandId ≠ none) :
    isProtocolChange (D1Error.failed failure).message = false := by
  unfold insertCommand at failed
  cases fired : triggers.find? fun trigger => trigger.fires engine authority ledger command with
  | some trigger =>
    rw [fired] at failed
    cases failed
    exact triggers_silent trigger (mem_of_find?_eq_some fired)
  | none =>
    simp only [fired] at failed
    split at failed
    · cases failed
      exact isProtocolChange_of_slash (by decide)
    cases inserted : ledger.commands.insert command with
    | none =>
      rw [inserted] at failed
      cases failed
      exact isProtocolChange_of_slash (by decide)
    | some commands => exact absurd (Table.insert_some inserted).1 taken

theorem insertStatement_wp {post : Except StoreError Unit → World → Prop}
    (built : Built tools command) (kind : command.opKind = op) (real : op ≠ .supersede)
    (headBytes : command.newHead = ledgerHeadBindings tools head)
    (eventBytes : command.newEvent = event) (track : Track tools op head event start false now)
    (done : ∀ later, Track tools op head event start true later → post (.ok ()) later)
    (failed : ∀ later wrote error, Track tools op head event start wrote later →
      (isProtocolChange error.message = true → ¬Committed tools op head event later.ledger) →
        post (.error (.d1 error)) later) :
    (insertStatement engine command).wp (undisturbed tools engine op head event) post now := by
  intro later moved choice _
  have kept := track.moves moved
  have silent : isProtocolChange D1Error.lost.message = false :=
    isProtocolChange_of_slash (by decide)
  have unheard (committed : Committed tools op head event later.ledger) :
      later.ledger.commands.find command.commandId ≠ none := by
    rw [built.commandId (by rw [kind]; exact real), eventBytes]
    exact committed.taken kept.receipts real
  dsimp only
  by_cases dropped : choice.outcome = .lost false
  · rw [if_pos dropped]
    exact failed later false .lost kept fun heard => by rw [silent] at heard; cases heard
  rw [if_neg dropped]
  cases ran : insertCommand engine choice.authority command later.ledger with
  | error failure =>
    cases choice.outcome with
    | answered =>
      refine failed later false (.failed failure) kept fun heard committed => ?_
      rw [insertCommand_taken ran (unheard committed)] at heard
      cases heard
    | lost reached => exact failed later false .lost kept fun heard => by rw [silent] at heard; cases heard
  | ok after =>
    have inserted := insertCommand_commands ran
    have written : Track tools op head event start true ⟨after, later.own + 1⟩ := by
      refine ⟨kept.receipts.step built ran, kept.later.trans (Later.step ran), ?_, fun _ => ⟨?_, ?_⟩⟩
      · rw [kept.own]
        rfl
      · exact fun committed => unheard (committed.mono kept.later) (Table.insert_some inserted).1
      · exact ⟨command, (Table.mem_insert inserted).mpr (.inr rfl), kind, headBytes, eventBytes⟩
    cases choice.outcome with
    | answered => exact done _ written
    | lost reached => exact failed _ true .lost written fun heard => by rw [silent] at heard; cases heard

theorem hasCommittedCommand_wp {commandId : Text} {post : Except StoreError Bool → World → Prop}
    (found : ∀ later, Moves tools engine now later → later.ledger.commands.find commandId ≠ none →
      post (.ok true) later)
    (absent : ∀ later, Moves tools engine now later → later.ledger.commands.find commandId = none ∨
      (op = .create → ¬Committed tools op head event later.ledger) → post (.ok false) later) :
    (hasCommittedCommand commandId).wp (undisturbed tools engine op head event) post now := by
  refine wp_bind (wp_attempt (wp_read (fun later moved _ _ _ => ?_)
    fun later moved choice met failed => ?_))
  · dsimp only
    cases there : later.ledger.commands.find commandId with
    | none => exact absent later moved (.inl there)
    | some command => exact found later moved (by rw [there]; exact Option.some_ne_none command)
  · exact absent later moved (.inr fun create committed => failed (met create committed))

theorem mapTriggerError_throws {α : Type} (error : D1Error) :
    ∃ thrown, (mapTriggerError error : Store α) = .done (.error thrown) := by
  unfold mapTriggerError
  split
  · split
    · split
      · exact ⟨_, rfl⟩
      · exact ⟨_, rfl⟩
    · exact ⟨_, rfl⟩
  · exact ⟨_, rfl⟩

end

section
variable {tools : Tools} {engine : Engine} {head : LedgerHead} {event : LedgerEvent} {start now : World}
  {wrote : Bool}

theorem Track.ended_ok (track : Track tools .append head event start true now) :
    Ended tools .append head event (fun _ => (· = head)) start (.ok head) now := by
  obtain ⟨-, committed⟩ := track.written rfl
  exact ⟨true, track, fun _ => .inl ⟨head, rfl, rfl⟩,
    fun clashes => absurd clashes (committed.not_clashes track.receipts (by decide))⟩

theorem settleAppend_wp {commandId : Text} {error : D1Error}
    (track : Track tools .append head event start wrote now)
    (silent : isProtocolChange error.message = true → ¬Committed tools .append head event now.ledger) :
    (settleAppend tools head event commandId error).wp (undisturbed tools engine .append head event)
      (Ended tools .append head event (fun _ => (· = head)) start) now := by
  obtain ⟨thrown, throws⟩ := @mapTriggerError_throws LedgerHead error
  refine wp_require (fun heard => ⟨_, track, .uncommitted (silent (by simpa using heard))⟩) fun _ => ?_
  refine wp_bind (hasCommittedCommand_wp (fun later moved _ => ?_) fun later moved _ => ?_)
  · exact wp_bind (appliedAlready_wp (track.moves moved)
      (fun _ last none => ⟨_, last, .uncommitted none⟩) (fun _ ended => ended) fun _ _ ended => ended)
  · refine wp_bind (appliedAlready_wp (track.moves moved) (fun last kept none => ?_)
      (fun _ ended => ended) fun _ _ ended => ended)
    dsimp only
    rw [throws]
    exact ⟨_, kept, .uncommitted none⟩

theorem writeAppend_wp (built : Built tools command)
    (kind : command.opKind = .append) (headBytes : command.newHead = ledgerHeadBindings tools head)
    (eventBytes : command.newEvent = event) (track : Track tools .append head event start false now) :
    (writeAppend tools engine head event command).wp (undisturbed tools engine .append head event)
      (Ended tools .append head event (fun _ => (· = head)) start) now := by
  refine wp_bind (wp_attempt (insertStatement_wp built kind (by decide) headBytes eventBytes
    track (fun later written => ?_) fun later wrote error kept silent => settleAppend_wp kept silent))
  refine wp_bind (readSnapshot_wp written.receipts (fun last moved _ => ?_)
    (fun middle moved _ _ fresh _ last onward => ?_) fun last moved => ?_)
  · exact ⟨_, written.moves moved, .uncertain _⟩
  · have kept := (written.moves moved).moves onward
    dsimp only
    split
    · rename_i same
      subst same
      exact kept.ended_ok
    · exact ⟨_, kept, .uncertain _⟩
  · exact ⟨_, written.moves moved, .uncertain _⟩

theorem Committed.append_checked (committed : Committed tools .append head event ledger)
    (receipts : Receipts tools ledger) : checkAppendInput tools head event = .ok () ∧
      assertHeadEventTimes tools head event head.updatedAt = .ok () := by
  obtain ⟨command, listed, kind, headBytes, eventBytes⟩ := committed
  cases receipts.built command listed with
  | create => cases kind
  | append checked times =>
    obtain rfl := bindings_injective headBytes
    cases eventBytes
    exact ⟨checked, times⟩
  | supersede => cases kind

theorem checkAppendShape_immediate {current : LedgerHead} {expectedRevision : Int} :
    ∃ result, checkAppendShape head current event expectedRevision = .done result := by
  have step {condition : Bool} {code : LedgerErrorCode} {message : String} {rest : Unit → Store Unit}
      (ends : ∃ result, rest () = .done result) :
      ∃ result, (require condition code message).bind rest = .done result := by
    cases condition with
    | false => exact ⟨_, rfl⟩
    | true => exact ends
  exact step (step (step (step ⟨_, rfl⟩)))

theorem freshAppend_wp {expectedRevision : Int} (checked : checkAppendInput tools head event = .ok ())
    (track : Track tools .append head event start false now) :
    (freshAppend tools engine head expectedRevision event).wp
      (undisturbed tools engine .append head event) (Ended tools .append head event (fun _ => (· = head)) start)
      now := by
  refine wp_bind (wp_read (fun later moved choice met _ => ?_) fun later moved choice met _ =>
    ⟨_, track.moves moved, .uncommitted met⟩)
  have kept := track.moves moved
  have refused (error : StoreError) :
      Ended tools .append head event (fun _ => (· = head)) start (.error error) later :=
    ⟨_, kept, .uncommitted met⟩
  dsimp only
  cases found : later.ledger.heads.find head.investigationId with
  | none => exact refused _
  | some row =>
    obtain ⟨current, valid, rfl⟩ := kept.receipts.heads row (Table.find_some.mp found).1
    have decoded : decodeHead tools (ledgerHeadBindings tools current) = .done (.ok current) := by
      rw [decodeHead, decode_bindings valid]
      rfl
    dsimp only
    rw [decoded]
    refine wp_bind ?_
    obtain ⟨shape, ends⟩ := @checkAppendShape_immediate head event current expectedRevision
    refine wp_bind ?_
    rw [ends]
    cases shape with
    | error error => exact refused error
    | ok _ =>
      refine wp_check (fun error _ => refused _) fun _ _ => ?_
      refine wp_bind (appliedAlready_wp kept (fun last clean _ => ?_) (fun _ ended => ended)
        fun _ _ ended => ended)
      refine wp_bind (readCommandFence_wp clean (fun last fence clean => ?_)
        fun last message clean => ⟨_, clean, .uncertain message⟩)
      refine wp_bind (readEpoch_wp clean (fun last epoch clean => ?_)
        (fun last message clean => ⟨_, clean, .uncertain message⟩)
        fun last clean none => ⟨_, clean, .uncommitted none⟩)
      refine wp_check (fun error failed => ⟨_, clean, .uncommitted fun committed => ?_⟩) fun _ times => ?_
      · rw [(committed.append_checked clean.receipts).2] at failed
        cases failed
      · exact writeAppend_wp (.append checked times) rfl rfl rfl clean

theorem append_wp {expectedRevision : Int} {cancelled : Bool} (start : World)
    (receipts : Receipts tools start.ledger) :
    (append tools engine head expectedRevision event cancelled).wp
      (undisturbed tools engine .append head event) (Ended tools .append head event (fun _ => (· = head)) start)
      start := by
  have track : Track tools .append head event start false start :=
    ⟨receipts, .refl _, rfl, fun none => by cases none⟩
  refine wp_bind ?_
  cases cancelled with
  | true => exact ⟨_, track, .uncertain _⟩
  | false =>
    refine wp_check (fun error failed => ⟨_, track, .uncommitted fun committed => ?_⟩)
      fun _ checked => ?_
    · rw [(committed.append_checked receipts).1] at failed
      cases failed
    · exact wp_bind (appliedAlready_wp track (fun last clean _ => freshAppend_wp checked clean)
        (fun _ ended => ended) fun _ _ ended => ended)

end

section
variable {tools : Tools} {engine : Engine} {head : LedgerHead} {event : LedgerEvent} {start now : World}
  {wrote : Bool}

theorem Committed.create_checked (committed : Committed tools .create head event ledger)
    (receipts : Receipts tools ledger) : checkCreateInput tools head event = .ok () ∧
      assertHeadEventTimes tools head event head.updatedAt = .ok () := by
  obtain ⟨command, listed, kind, headBytes, eventBytes⟩ := committed
  cases receipts.built command listed with
  | create checked times =>
    obtain rfl := bindings_injective headBytes
    cases eventBytes
    exact ⟨checked, times⟩
  | append => cases kind
  | supersede => cases kind

theorem first_early (earlier : Receipts tools before)
    (later : Later before after) {row : HeadRow}
    (found : before.heads.find event.investigationId = some row) (first : event.sequence = 1)
    (stored : event ∈ after.events.rows) : event ∈ before.events.rows := by
  have started := earlier.sound.started _ _ found
  obtain ⟨other, there, own, numbered⟩ :=
    (earlier.sound.sequences _ row found 1).mpr ⟨le_refl 1, started⟩
  have same : other = event := by
    refine @Table.eq_of_key _ _ _ after.events _ _ (later.events other there) stored ?_
    rw [own, numbered, first]
  exact same ▸ there

theorem creation_early (earlier : Receipts tools before)
    (receipts : Receipts tools after) (later : Later before after) {row : HeadRow}
    (found : before.heads.find event.investigationId = some row) (first : event.sequence = 1)
    (listed : command ∈ after.commands) (same : command.newEvent = event) :
    command ∈ before.commands := by
  have stored : event ∈ before.events.rows :=
    first_early earlier later found first (same ▸ receipts.event command listed)
  by_contra new
  exact later.eventIds command listed new event stored (congrArg EventRow.eventId same.symm)

theorem creation_alone {middle later : Ledger} (earlier : Receipts tools middle)
    (receipts : Receipts tools later) (onward : Later middle later)
    (bound : event.investigationId = head.investigationId) (first : event.sequence = 1)
    (agrees : ∀ command ∈ middle.commands, command.opKind ≠ .supersede → command.newEvent = event →
      command.newHead = ledgerHeadBindings tools head)
    (found : middle.heads.find head.investigationId = some (ledgerHeadBindings tools head))
    (stored : event ∈ later.events.rows) : ¬Clashes tools .create head event later := by
  rintro ⟨other, listed, kind, named, differs⟩
  have live : middle.heads.find event.investigationId = some (ledgerHeadBindings tools head) :=
    bound.symm ▸ found
  have same : other.newEvent = event := by
    rcases named with named | ⟨-, create, key⟩
    · exact event_unique (receipts.event other listed) stored named
    · obtain ⟨own, present, ownKey, -⟩ := receipts.head other listed
      obtain ⟨kept, there, keptKey, -⟩ := onward.heads _ _ found
      have equal : own = kept := by
        refine head_unique (Table.find_some.mp present).1 (Table.find_some.mp there).1 ?_
        rw [ownKey, key, keptKey]
        rfl
      have id : other.newHead.investigationId = head.investigationId := by
        rw [← (Table.find_some.mp present).2, equal, (Table.find_some.mp there).2]
      refine @Table.eq_of_key _ _ _ later.events _ _ (receipts.event other listed) stored ?_
      rw [(receipts.bound other listed).1, (receipts.bound other listed).2.1, id, bound, first,
        ((receipts.built other listed).first create).2]
  exact differs ⟨agrees other (creation_early earlier receipts onward live first listed same) kind same, same⟩

theorem sameCreation_wp {id : Text} {gone bad : StoreError}
    {post : Except StoreError LedgerHead → World → Prop}
    (track : Track tools .create head event start wrote now)
    (checked : checkCreateInput tools head event = .ok ())
    (known : ∀ after, Receipts tools after → Later now.ledger after →
      Committed tools .create head event after → id = head.investigationId)
    (found : ∀ later, Track tools .create head event start wrote later →
      ¬Clashes tools .create head event later.ledger → post (.ok head) later)
    (failed : ∀ later error, Track tools .create head event start wrote later →
      ¬Committed tools .create head event later.ledger → post (.error error) later)
    (lost : ∀ later, Track tools .create head event start wrote later → post (.error readUnknown) later) :
    (sameCreation tools head event (.done (.error gone)) (.done (.error bad)) id).wp
      (undisturbed tools engine .create head event) post now := by
  obtain ⟨-, -, ⟨first, -, bound⟩, -, begun⟩ := checkCreateInput_ok checked
  refine wp_bind (readSnapshot_wp track.receipts ?_ ?_ ?_)
  · intro later moved absent
    have kept := track.moves moved
    refine failed later gone kept fun committed => ?_
    rw [known later.ledger kept.receipts (moved.receipts track.receipts).2 committed] at absent
    obtain ⟨command, listed, -, bytes, -⟩ := committed
    obtain ⟨live, present, -⟩ := kept.receipts.head command listed
    rw [bytes] at present
    cases absent.symm.trans present
  · intro middle moved choice met existing live later onward
    have kept := track.moves moved
    have last := kept.moves onward
    have further := (onward.receipts kept.receipts).2
    dsimp only
    split
    · rename_i same
      obtain ⟨rfl, listed⟩ := same
      obtain rfl : existing.investigationId = id := (Table.find_some.mp live).2
      have stored := (mem_selectEvents.mp (mem_of_head? listed)).1
      refine found later last (creation_alone kept.receipts last.receipts further bound first ?_ live stored)
      exact fun command there kind own => (met command there kind own).mp live
    · rename_i differs
      refine failed later bad last fun committed => differs ?_
      obtain rfl := known later.ledger last.receipts ((moved.receipts track.receipts).2.trans further) committed
      obtain ⟨command, listed, kind, bytes, own⟩ := committed
      have early : command ∈ middle.ledger.commands :=
        creation_early kept.receipts last.receipts further (bound.symm ▸ live) first listed own
      have equal := (met command early (by rw [kind]; decide) own).mpr bytes
      obtain rfl : existing = head := bindings_injective (Option.some.inj (live.symm.trans equal))
      obtain ⟨after, present, -⟩ := further.heads _ _ live
      refine ⟨rfl, selectEvents_head last.receipts.sound present (by omega) ?_ ?_ bound first⟩
      · rw [begun]
        exact last.receipts.sound.started _ _ present
      · exact own ▸ last.receipts.event command listed
  · exact fun later moved => lost later (track.moves moved)

theorem selectByIdempotency_some {key : Text} {row : HeadRow}
    (found : ledger.selectByIdempotency key = some row) : row ∈ ledger.heads ∧ row.idempotencyKey = key :=
  ⟨mem_of_find?_eq_some found, by simpa using find?_some found⟩

theorem Committed.bound (committed : Committed tools .create head event after)
    (receipts : Receipts tools after) (later : Later before after) {row : HeadRow}
    (there : row ∈ before.heads) (key : row.idempotencyKey = head.idempotencyKey) :
    row.investigationId = head.investigationId := by
  obtain ⟨command, listed, -, bytes, -⟩ := committed
  obtain ⟨live, present, liveKey, -⟩ := receipts.head command listed
  obtain ⟨kept, found, keptKey, -⟩ := later.heads _ row (Table.find_some.mpr ⟨there, rfl⟩)
  have same : kept = live := by
    refine head_unique (Table.find_some.mp found).1 (Table.find_some.mp present).1 ?_
    rw [keptKey, key, liveKey, bytes]
    rfl
  rw [bytes] at present
  rw [← (Table.find_some.mp found).2, same, (Table.find_some.mp present).2]
  rfl

def Creation (head : LedgerHead) (wrote : Bool) (value : LedgerHead × Disposition) : Prop :=
  value.1 = head ∧ (wrote = false → value.2 = .existing)

theorem writeCreation_wp (checked : checkCreateInput tools head event = .ok ())
    (built : Built tools command) (kind : command.opKind = .create)
    (headBytes : command.newHead = ledgerHeadBindings tools head) (eventBytes : command.newEvent = event)
    (track : Track tools .create head event start false now) :
    (writeCreation tools engine head event command).wp (undisturbed tools engine .create head event)
      (Ended tools .create head event (Creation head) start) now := by
  refine wp_bind (wp_attempt (insertStatement_wp built kind (by decide) headBytes eventBytes
    track (fun later written => ?_) fun later wrote error kept _ => ?_))
  · refine wp_bind (readSnapshot_wp written.receipts (fun last moved _ => ?_)
      (fun middle moved _ _ fresh _ last onward => ?_) fun last moved => ?_)
    · exact ⟨_, written.moves moved, .uncertain _⟩
    · have kept := (written.moves moved).moves onward
      obtain ⟨-, committed⟩ := kept.written rfl
      dsimp only
      split
      · rename_i same
        exact ⟨true, kept, fun _ => .inl ⟨_, rfl, same, fun none => by cases none⟩,
          fun clashes => absurd clashes (committed.not_clashes kept.receipts (by decide))⟩
      · exact ⟨_, kept, .uncertain _⟩
    · exact ⟨_, written.moves moved, .uncertain _⟩
  · refine wp_bind (hasCommittedCommand_wp (fun last moved _ => ?_) fun last moved unknown => ?_)
    · refine wp_bind (sameCreation_wp (kept.moves moved) checked (fun _ _ _ _ => rfl)
        (fun final clean alone => ?_) (fun final error clean none => ?_) fun final clean => ?_)
      · exact ⟨wrote, clean, fun _ => .inl ⟨_, rfl, rfl, fun _ => rfl⟩,
          fun clashes => absurd clashes alone⟩
      · exact ⟨wrote, clean, .uncommitted none⟩
      · exact ⟨wrote, clean, .uncertain _⟩
    · have clean := kept.moves moved
      have none : ¬Committed tools .create head event last.ledger := by
        rcases unknown with absent | none
        · intro committed
          rw [built.commandId (by rw [kind]; decide), eventBytes] at absent
          exact committed.taken clean.receipts (by decide) absent
        · exact none rfl
      obtain ⟨thrown, throws⟩ := @mapTriggerError_throws (LedgerHead × Disposition) error
      dsimp only
      rw [if_neg Bool.false_ne_true, throws]
      exact ⟨wrote, clean, .uncommitted none⟩

theorem create_wp {cancelled : Bool} (start : World) (receipts : Receipts tools start.ledger) :
    (create tools engine head event cancelled).wp (undisturbed tools engine .create head event)
      (Ended tools .create head event (Creation head) start) start := by
  have track : Track tools .create head event start false start :=
    ⟨receipts, .refl _, rfl, fun none => by cases none⟩
  refine wp_bind ?_
  cases cancelled with
  | true => exact ⟨_, track, .uncertain _⟩
  | false =>
    refine wp_check (fun error failed => ⟨_, track, .uncommitted fun committed => ?_⟩)
      fun _ checked => ?_
    · rw [(committed.create_checked receipts).1] at failed
      cases failed
    refine wp_bind (wp_read (fun later moved _ _ _ => ?_) fun later moved choice met failed =>
      ⟨_, track.moves moved, .uncommitted fun committed => failed (met committed)⟩)
    have kept := track.moves moved
    dsimp only
    cases found : later.ledger.selectByIdempotency head.idempotencyKey with
    | some byKey =>
      obtain ⟨there, key⟩ := selectByIdempotency_some found
      obtain ⟨bound, valid, rfl⟩ := kept.receipts.heads byKey there
      have decoded : decodeHead tools (ledgerHeadBindings tools bound) = .done (.ok bound) := by
        rw [decodeHead, decode_bindings valid]
        rfl
      dsimp only
      rw [decoded]
      refine wp_bind (wp_bind (sameCreation_wp kept checked ?_ (fun final clean alone => ?_)
        (fun final error clean none => ?_) fun final clean => ?_))
      · intro after receipts onward committed
        exact committed.bound receipts onward there key
      · exact ⟨false, clean, fun _ => .inl ⟨_, rfl, rfl, fun _ => rfl⟩,
          fun clashes => absurd clashes alone⟩
      · exact ⟨false, clean, .uncommitted none⟩
      · exact ⟨false, clean, .uncertain _⟩
    | none =>
      dsimp only
      refine wp_bind (wp_read (fun first moved choice absent _ => ?_) fun first moved choice absent _ =>
        ⟨_, kept.moves moved, .uncommitted absent⟩)
      have clean := kept.moves moved
      refine wp_require (fun _ => ⟨_, clean, .uncommitted absent⟩) fun _ => ?_
      refine wp_bind (wp_read (fun second moved choice absent _ => ?_) fun second moved choice absent _ =>
        ⟨_, clean.moves moved, .uncommitted absent⟩)
      have clean := clean.moves moved
      refine wp_require (fun _ => ⟨_, clean, .uncommitted absent⟩) fun _ => ?_
      refine wp_bind (readCommandFence_wp clean (fun third fence clean => ?_)
        fun third message clean => ⟨_, clean, .uncertain message⟩)
      refine wp_bind (readEpoch_wp clean (fun fourth epoch clean => ?_)
        (fun fourth message clean => ⟨_, clean, .uncertain message⟩)
        fun fourth clean none => ⟨_, clean, .uncommitted none⟩)
      refine wp_check (fun error failed => ⟨_, clean, .uncommitted fun committed => ?_⟩) fun _ times => ?_
      · rw [(committed.create_checked clean.receipts).2] at failed
        cases failed
      · exact writeCreation_wp checked (.create checked times) rfl rfl rfl clean

end

end Investigation
