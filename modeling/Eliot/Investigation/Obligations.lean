import Eliot.Investigation.Lineage

namespace Investigation

open List
open Sqlite (Engine Value rows)

section
variable (engine : Engine)

def Kept (old new : Text) : Prop := engine.jsonEach new = engine.jsonEach old

def Grown (old new : Text) : Prop :=
  ∃ values value, engine.jsonEach old = rows 0 values ∧ engine.jsonEach new = rows 0 (values ++ [value])

def Flipped (old new : Text) (entry : Value) (before : List Text) (after : Text) : Prop :=
  ∃ values position next, engine.jsonEach old = rows 0 values ∧ values[position]? = some entry ∧
    engine.jsonEach new = rows 0 (values.set position next) ∧
    (∃ status ∈ before, engine.jsonExtract entry (text "status") = .text status) ∧
    engine.jsonExtract next (text "status") = .text after ∧
    engine.jsonExtract next (text "obligation_id") = engine.jsonExtract entry (text "obligation_id") ∧
    engine.jsonExtract next (text "verifier_ref") = engine.jsonExtract entry (text "verifier_ref")

inductive Explained (old new : HeadRow) (events : List EventRow) : Prop where
  | kept (obligations : Kept engine old.obligationsJson new.obligationsJson)
      (hypotheses : Kept engine old.hypothesesJson new.hypothesesJson)
      (lanes : Kept engine old.laneRegistrationsJson new.laneRegistrationsJson)
  | obligation {event : EventRow} (single : events = [event])
      (kind : event.kind = .obligationRegistered)
      (obligations : Grown engine old.obligationsJson new.obligationsJson)
      (hypotheses : Kept engine old.hypothesesJson new.hypothesesJson)
      (lanes : Kept engine old.laneRegistrationsJson new.laneRegistrationsJson)
  | hypothesis {event : EventRow} (single : events = [event])
      (kind : event.kind = .hypothesisRecorded)
      (obligations : Kept engine old.obligationsJson new.obligationsJson)
      (hypotheses : Grown engine old.hypothesesJson new.hypothesesJson)
      (lanes : Kept engine old.laneRegistrationsJson new.laneRegistrationsJson)
  | lane {event : EventRow} (single : events = [event])
      (kind : event.kind = .laneRegistered)
      (obligations : Kept engine old.obligationsJson new.obligationsJson)
      (hypotheses : Kept engine old.hypothesesJson new.hypothesesJson)
      (lanes : Grown engine old.laneRegistrationsJson new.laneRegistrationsJson)
  | accepted {event : EventRow} {entry : Value} (single : events = [event])
      (kind : event.kind = .obligationAccepted)
      (verifier : event.verifierRef = some event.actorRef)
      (named : engine.jsonExtract entry (text "verifier_ref") = .text event.actorRef)
      (obligations : Flipped engine old.obligationsJson new.obligationsJson entry
        [text "REGISTERED"] (text "ACCEPTED"))
      (hypotheses : Kept engine old.hypothesesJson new.hypothesesJson)
      (lanes : Kept engine old.laneRegistrationsJson new.laneRegistrationsJson)
  | deviated {event : EventRow} {entry : Value} (single : events = [event])
      (kind : event.kind = .deviation)
      (obligations : Flipped engine old.obligationsJson new.obligationsJson entry
        [text "REGISTERED", text "ACCEPTED"] (text "DEVIATED"))
      (hypotheses : Kept engine old.hypothesesJson new.hypothesesJson)
      (lanes : Kept engine old.laneRegistrationsJson new.laneRegistrationsJson)

def LedgerEventKind.list : LedgerEventKind → Option (HeadRow → Text)
  | .obligationRegistered | .obligationAccepted | .deviation => some HeadRow.obligationsJson
  | .hypothesisRecorded => some HeadRow.hypothesesJson
  | .laneRegistered => some HeadRow.laneRegistrationsJson
  | _ => none

structure KeepsLists (ledger : Ledger) (command : CommandRow) : Prop where
  mark : command.opKind = .supersede → ∀ head, ledger.marked command = some head →
    command.oldHead.obligationsJson.map engine.jsonEach = some (engine.jsonEach head.obligationsJson) ∧
      command.oldHead.hypothesesJson.map engine.jsonEach =
        some (engine.jsonEach head.hypothesesJson) ∧
      command.oldHead.laneRegistrationsJson.map engine.jsonEach =
        some (engine.jsonEach head.laneRegistrationsJson)
  array : command.opKind = .append → ∀ head, ledger.live command = some head →
    ∀ column, command.newEvent.kind.list = some column → engine.Listed (column head)
  status : command.opKind = .append → command.newEvent.kind = .deviation →
    ∀ head, ledger.live command = some head →
      engine.jsonExtract (change engine head.obligationsJson command.newHead.obligationsJson).1
        (text "status") ≠ .null

variable {engine : Engine} {old new : Text}

theorem grown_of_passed (listed : engine.Listed old) (passed : misgrown engine old new = false) :
    Grown engine old new := by
  simp only [misgrown, Bool.or_eq_false_iff, decide_eq_false_iff_not, not_not, ne_eq] at passed
  obtain ⟨longer, kept⟩ := passed
  have listed' : engine.Listed new := engine.array new (by omega)
  have lengths : (engine.entries new).length = (engine.entries old).length + 1 := by
    rw [listed.length, listed'.length, longer]
  rw [listed.each, listed'.each, Sqlite.joined_rows, ← listed.length] at kept
  obtain ⟨value, appended⟩ := Sqlite.append_of_kept lengths kept
  exact ⟨engine.entries old, value, listed.each, by rw [← appended, listed'.each.symm]⟩

theorem field_passed {misplaced : Value → Bool} {fields : List Text} {after field : Text}
    (passed : misflipped engine misplaced after fields old new = false) (listed : field ∈ fields) :
    engine.jsonExtract (change engine old new).1 field =
      engine.jsonExtract (change engine old new).2 field := by
  simp only [misflipped, Bool.or_eq_false_iff, any_eq_false, Bool.not_eq_true] at passed
  exact Value.eq_of_not_differs (passed.2 field listed)

theorem flipped_of_passed {misplaced : Value → Bool} {before fields : List Text} {after : Text}
    (listed : engine.Listed old) (passed : misflipped engine misplaced after fields old new = false)
    (placed : misplaced (engine.jsonExtract (change engine old new).1 (text "status")) = false →
      ∃ status ∈ before,
        engine.jsonExtract (change engine old new).1 (text "status") = .text status)
    (identity : text "obligation_id" ∈ fields) (verifier : text "verifier_ref" ∈ fields) :
    Flipped engine old new (change engine old new).1 before after := by
  have same := field_passed passed identity
  have named := field_passed passed verifier
  simp only [misflipped, Bool.or_eq_false_iff, decide_eq_false_iff_not, not_not, ne_eq] at passed
  obtain ⟨⟨⟨⟨length, once⟩, start⟩, finish⟩, -⟩ := passed
  obtain ⟨pair, single⟩ := length_eq_one_iff.mp once
  have first : change engine old new = pair := by
    rw [change, single]
    rfl
  have filled : engine.jsonArrayLength old ≠ 0 := by
    intro empty
    have none : engine.jsonEach old = [] := by
      rw [listed.each, length_eq_zero_iff.mp (listed.length.trans empty)]
      rfl
    rw [changed, none] at single
    cases single
  have listed' : engine.Listed new := engine.array new (by omega)
  have lengths : (engine.entries new).length = (engine.entries old).length := by
    rw [listed.length, listed'.length, length]
  rw [changed, listed.each, listed'.each, Sqlite.joined_rows] at single
  obtain ⟨position, found, rest⟩ := Sqlite.set_of_changed lengths single
  rw [first] at start finish same named placed ⊢
  exact ⟨engine.entries old, position, pair.2, listed.each, found, by rw [← rest, listed'.each.symm],
    placed start, Value.eq_of_not_differs finish, same.symm, named.symm⟩

end

section
variable {engine : Engine} {ledger : Ledger} {command : CommandRow} {head : HeadRow}

theorem mask_passed {trigger : Trigger} {message : Text} {authority : Authority}
    {kind : LedgerEventKind} {before after : LedgerStatus} {families : List Family}
    {also : Engine → HeadRow → HeadRow → Bool}
    (passed : trigger.fires engine authority ledger command = false)
    (masked : trigger = ⟨message, mask kind before after families also⟩)
    (append : command.opKind = .append) (same : command.newEvent.kind = kind)
    (found : ledger.live command = some head) :
    (∀ family ∈ families, family.kept head command.newHead = true) ∧
      also engine head command.newHead = false := by
  simp only [masked, mask, onAppend, append, same, found, decide_true, Bool.true_and, Option.any_some,
    Bool.or_eq_false_iff, any_eq_false, Bool.not_eq_true, Bool.not_eq_false'] at passed
  exact ⟨passed.1.2, passed.2⟩

theorem onAppend_passed {trigger : Trigger} {message : Text} {authority : Authority}
    {kind : LedgerEventKind} {condition : Engine → CommandRow → HeadRow → Bool}
    (passed : trigger.fires engine authority ledger command = false)
    (conditioned : trigger = ⟨message, onAppend kind condition⟩)
    (append : command.opKind = .append) (same : command.newEvent.kind = kind)
    (found : ledger.live command = some head) : condition engine command head = false := by
  simpa [conditioned, onAppend, append, same, found] using passed

theorem kept_obligations (kept : Family.obligations.kept head command.newHead = true) :
    Kept engine head.obligationsJson command.newHead.obligationsJson :=
  congrArg engine.jsonEach (of_decide_eq_true kept)

theorem kept_hypotheses (kept : Family.hypotheses.kept head command.newHead = true) :
    Kept engine head.hypothesesJson command.newHead.hypothesesJson :=
  congrArg engine.jsonEach (of_decide_eq_true kept)

theorem kept_lanes (kept : Family.laneRegistrations.kept head command.newHead = true) :
    Kept engine head.laneRegistrationsJson command.newHead.laneRegistrationsJson :=
  congrArg engine.jsonEach (of_decide_eq_true kept)

theorem append_explained {authority : Authority} (append : command.opKind = .append)
    (found : ledger.live command = some head)
    (passed : ∀ trigger ∈ triggers, trigger.fires engine authority ledger command = false)
    (keeps : KeepsLists engine ledger command) :
    Explained engine head command.newHead [command.newEvent] := by
  cases same : command.newEvent.kind with
  | created =>
    have allowed := passed appendKindAllow (by simp [triggers])
    simp [appendKindAllow, append, same] at allowed
  | superseded =>
    have allowed := passed appendKindAllow (by simp [triggers])
    simp [appendKindAllow, append, same] at allowed
  | checkpoint =>
    have kept := (mask_passed (passed appendMaskCheckpoint (by simp [triggers])) rfl append same found).1
    exact .kept (kept_obligations (kept _ (by simp))) (kept_hypotheses (kept _ (by simp)))
      (kept_lanes (kept _ (by simp)))
  | observed =>
    have kept := (mask_passed (passed appendMaskObserved (by simp [triggers])) rfl append same found).1
    exact .kept (kept_obligations (kept _ (by simp))) (kept_hypotheses (kept _ (by simp)))
      (kept_lanes (kept _ (by simp)))
  | closed =>
    have kept := (mask_passed (passed appendMaskClosed (by simp [triggers])) rfl append same found).1
    exact .kept (kept_obligations (kept _ (by simp))) (kept_hypotheses (kept _ (by simp)))
      (kept_lanes (kept _ (by simp)))
  | reopened =>
    have kept := (mask_passed (passed appendMaskReopened (by simp [triggers])) rfl append same found).1
    exact .kept (kept_obligations (kept _ (by simp))) (kept_hypotheses (kept _ (by simp)))
      (kept_lanes (kept _ (by simp)))
  | laneRegistered =>
    obtain ⟨kept, grown⟩ := mask_passed (passed appendMaskLane (by simp [triggers])) rfl append same found
    have array := keeps.array append head found _ (by rw [same]; rfl)
    exact .lane rfl same (kept_obligations (kept _ (by simp))) (kept_hypotheses (kept _ (by simp)))
      (grown_of_passed array grown)
  | hypothesisRecorded =>
    obtain ⟨kept, grown⟩ := mask_passed (passed appendMaskHyprec (by simp [triggers])) rfl append same found
    have array := keeps.array append head found _ (by rw [same]; rfl)
    exact .hypothesis rfl same (kept_obligations (kept _ (by simp))) (grown_of_passed array grown)
      (kept_lanes (kept _ (by simp)))
  | obligationRegistered =>
    obtain ⟨kept, grown⟩ := mask_passed (passed appendMaskOblreg (by simp [triggers])) rfl append same found
    have array := keeps.array append head found _ (by rw [same]; rfl)
    simp only [Bool.or_eq_false_iff] at grown
    exact .obligation rfl same (grown_of_passed array grown.1.1) (kept_hypotheses (kept _ (by simp)))
      (kept_lanes (kept _ (by simp)))
  | obligationAccepted =>
    have kept := (mask_passed (passed appendMaskAccept (by simp [triggers])) rfl append same found).1
    have array := keeps.array append head found _ (by rw [same]; rfl)
    have single := onAppend_passed (passed acceptSingle (by simp [triggers])) rfl append same found
    have signed := passed acceptVerifier (by simp [triggers])
    simp only [acceptVerifier, append, same, decide_true, Bool.true_and, decide_eq_false_iff_not,
      not_not, ne_eq] at signed
    simp only [Bool.or_eq_false_iff] at single
    obtain ⟨flipped, verifier⟩ := single
    have named : engine.jsonExtract (change engine head.obligationsJson
        command.newHead.obligationsJson).1 (text "verifier_ref") = .text command.newEvent.actorRef := by
      rw [field_passed flipped (by simp), Value.eq_of_not_differs verifier, signed]
      rfl
    refine .accepted rfl same signed named (flipped_of_passed array flipped (fun placed => ?_)
      (by simp) (by simp)) (kept_hypotheses (kept _ (by simp))) (kept_lanes (kept _ (by simp)))
    exact ⟨_, mem_singleton_self _, Value.eq_of_not_differs placed⟩
  | deviation =>
    have kept := (mask_passed (passed appendMaskDeviation (by simp [triggers])) rfl append same found).1
    have array := keeps.array append head found _ (by rw [same]; rfl)
    have single := onAppend_passed (passed deviationSingle (by simp [triggers])) rfl append same found
    simp only [Bool.or_eq_false_iff] at single
    have status := keeps.status append same head found
    refine .deviated rfl same (flipped_of_passed array single.1 (fun placed => ?_) (by simp) (by simp))
      (kept_hypotheses (kept _ (by simp))) (kept_lanes (kept _ (by simp)))
    rcases Value.mem_of_not_outside placed with none | listed
    · exact absurd none status
    · simpa using listed

variable {before after : Ledger} {authority : Authority}

def Ledger.about (ledger : Ledger) (id : Text) : List EventRow :=
  ledger.events.rows.filter (·.investigationId = id)

theorem about_append {more : List EventRow} {id : Text}
    (events : after.events.rows = before.events.rows ++ more) :
    after.about id = before.about id ++ more.filter (·.investigationId = id) := by
  rw [Ledger.about, events, filter_append]
  rfl

theorem Explained.refl {events : List EventRow} : Explained engine head head events :=
  .kept rfl rfl rfl

theorem insertCommand_explained (ran : insertCommand engine authority command before = .ok after)
    (keeps : KeepsLists engine before command) {id : Text} {old : HeadRow}
    (found : before.heads.find id = some old) :
    ∃ new events, after.heads.find id = some new ∧ after.about id = before.about id ++ events ∧
      Explained engine old new events := by
  have named := (Relational.Table.find_some.mp found).2
  have passed := (insertCommand_ok ran).1
  cases insertCommand_effect ran with
  | create kind fresh first alone heads events =>
    have other : id ≠ command.newHead.investigationId := by
      rintro rfl
      rw [fresh] at found
      cases found
    refine ⟨old, _, ?_, about_append events, .refl⟩
    rw [heads, if_neg other, found]
  | @append live kind there status next lineage heads events =>
    by_cases own : id = command.newHead.investigationId
    · rw [own, next.same, there] at found
      cases found
      refine ⟨command.newHead, [command.newEvent], ?_, ?_, ?_⟩
      · rw [heads, if_pos own]
      · rw [about_append events, filter_cons_of_pos, filter_nil]
        rw [decide_eq_true_eq, next.bound, own, next.same]
      · refine append_explained kind ?_ passed keeps
        rw [Ledger.live, next.same, there]
    · refine ⟨old, _, ?_, about_append events, .refl⟩
      rw [heads, if_neg own, found]
  | @supersede live mark event kind target there status assigned marked next fresh first opened link
      heads events =>
    by_cases own : id = live.investigationId
    · rw [own, there] at found
      cases found
      refine ⟨mark, _, ?_, about_append events, ?_⟩
      · rw [heads, if_pos own]
      · have here : before.marked command = some old := by
          rw [Ledger.marked, target, Option.bind_some, there]
        obtain ⟨obligations, hypotheses, lanes⟩ := keeps.mark kind old here
        have bytes := (assign_some assigned).2.2
        rw [bytes] at obligations hypotheses lanes
        exact .kept (Option.some.inj obligations) (Option.some.inj hypotheses) (Option.some.inj lanes)
    · have other : id ≠ command.newHead.investigationId := by
        rintro rfl
        rw [fresh] at found
        cases found
      refine ⟨old, _, ?_, about_append events, .refl⟩
      rw [heads, if_neg own, if_neg other, found]

inductive History (engine : Engine) (old : HeadRow) : List EventRow → HeadRow → Prop where
  | refl : History engine old [] old
  | tail {events more : List EventRow} {middle new : HeadRow}
      (history : History engine old events middle) (explained : Explained engine middle new more) :
      History engine old (events ++ more) new

structure Ledger.Explains (engine : Engine) (earlier later : Ledger) : Prop where
  history : ∀ id old, earlier.heads.find id = some old → ∃ new events,
    later.heads.find id = some new ∧ later.about id = earlier.about id ++ events ∧
      History engine old events new

theorem Ledger.Explains.refl (ledger : Ledger) : ledger.Explains engine ledger :=
  ⟨fun _ old found => ⟨old, [], found, (append_nil _).symm, .refl⟩⟩

end

/-- The verifier accepts the obligation of `a`. -/
def acceptA : CommandRow := sampleCommand "cmd-2" .append 1 noHead noEvent
  { sampleHead "a" with
    revision := 2
    eventHead := 2
    obligationsJson := listOf (obligation "ACCEPTED") }
  { sampleEvent "a" "2" 2 .obligationAccepted with
    actorRef := text "v"
    verifierRef := some (text "v") }

theorem createA_keeps : KeepsLists sample Ledger.empty createA where
  mark kind := by cases kind
  array kind := by cases kind
  status kind := by cases kind

theorem acceptA_keeps : KeepsLists sample (run sample [(sampleAuthority, createA)]) acceptA where
  mark kind := by cases kind
  array _ head found column named := by
    cases named
    have here : (run sample [(sampleAuthority, createA)]).live acceptA = some (sampleHead "a") := by
      decide +kernel
    rw [here] at found
    cases found
    exact sample.array _ (by decide)
  status _ kind := by cases kind

/-- The marked head of `a` with an accepted obligation. -/
def forgedA : HeadRow := { markedA with obligationsJson := listOf (obligation "ACCEPTED") }

def forgedRun : List (Authority × CommandRow) :=
  [(sampleAuthority, createA), (sampleAuthority, supersedeA forgedA)]

end Investigation
