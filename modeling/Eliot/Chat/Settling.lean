import Eliot.Chat.Handover

namespace Chat
open Relational Async Discipline Program

variable {name : Text} {me : Nat} {job : Job} {start now before after : World} {t : Text}

structure Own (me : Nat) (t : Text) (world : World) : Prop where
  current : world.current = some me
  active : world.agent.active = some t
  handed : ∀ {queued}, world.agent.queued = some queued → queued.turnId ≠ t

theorem Own.occupied {world : World} (own : Own me t world) : world.Occupied t :=
  ⟨own.active, .inl (by rw [own.current]; rfl)⟩

theorem Own.stable (own : Own me t before) (sees : (discipline name).Sees me before after) :
    Own me t after := by
  have frame := sees.2.frame own.current own.active
  refine ⟨frame.current.trans own.current, frame.active.trans own.active, ?_⟩
  intro queued waits same
  exact own.handed ((frame.handoff queued same).mp waits) same

structure Touch (t : Text) (before after : World) : Prop where
  evolves : Evolves before after
  agent : after.agent = before.agent
  current : after.current = before.current
  started : after.started = before.started
  frames : ∀ {other}, other ≠ t → Frame other before after
  alive : ∀ {later}, after.turn t = some later → later.zombie →
    ∃ old, before.turn t = some old ∧ old.zombie
  ended : ∀ {later}, after.turn t = some later → later.state = .started →
    ∃ old, before.turn t = some old ∧ old.state = .started

structure Owns (name : Text) (me : Nat) (t : Text) (kept : World → Prop) : Prop where
  claim : ∀ {world}, kept world → world.Retired t ∨ Own me t world
  stable : ∀ {before after}, (discipline name).Sees me before after → kept before → kept after
  touch : ∀ {before after}, Touch t before after → kept before → kept after

namespace Touch

theorem holds (touch : Touch t before after) (holds : Holds me job before) :
    Holds me job after := by
  obtain ⟨started, holds⟩ := holds
  refine ⟨touch.started.trans started, ?_⟩
  cases job with
  | runTurn input => exact ⟨touch.current.trans holds.1, touch.agent ▸ holds.2⟩
  | advanceQueue ending =>
    refine ⟨touch.current.trans holds.1, touch.agent ▸ holds.2.1, ?_⟩
    by_cases same : ending = t
    · subst same
      intro found zombie
      obtain ⟨old, stored, dead⟩ := touch.alive found zombie
      rw [touch.agent]
      exact (holds.2.2 stored dead).imp_left fun lost => touch.evolves.lost lost
    · exact Finished.stable holds.2.2 touch.evolves (touch.frames same)
  | onStart | submitTurn | stopTurn | getTurnPage | getStoredTurn => exact trivial

theorem guards (touch : Touch t before after) (claim : before.Retired t ∨ Own me t before)
    {task : Nat} (other : task ≠ me) : Guards task before after := by
  refine ⟨fun started => touch.started.trans started, fun current active slot => ?_⟩
  rcases claim with retired | own
  · apply touch.frames
    rintro rfl
    exact retired.2 ⟨slot, .inl (by rw [current]; rfl)⟩
  · cases own.current.symm.trans current
    exact absurd rfl other

theorem sees (touch : Touch t before after) (retired : before.Retired t) :
    (discipline name).Sees me before after := by
  refine ⟨touch.evolves, fun started => touch.started.trans started,
    fun current active slot => touch.frames ?_⟩
  rintro rfl
  exact retired.2 ⟨slot, .inl (by rw [current]; rfl)⟩

end Touch

theorem Here.touch {kept : World → Prop} (here : Here me job start now)
    (owns : Owns name me t kept) (keeps : kept now) (durable : Durable after)
    (touch : Touch t now after) : Here me job start after where
  durable := durable
  guards _ other := (here.guards _ other).trans (touch.guards (owns.claim keeps) other)
  holds := touch.holds here.holds

theorem owns_retired (now : World) : Owns name me t fun world =>
    (discipline name).Sees me now world ∧ world.Retired t where
  claim keeps := .inl keeps.2
  stable sees keeps := ⟨sees_trans keeps.1 sees, (Evolves.retired sees.1 keeps.2).1⟩
  touch touch keeps :=
    ⟨sees_trans keeps.1 (touch.sees keeps.2), (touch.evolves.retired keeps.2).1⟩

theorem owns_running : Owns name me t fun world =>
    Own me t world ∧ ∃ stored, world.turn t = some stored ∧ stored.state ≠ .started where
  claim keeps := .inr keeps.1
  stable sees keeps := by
    obtain ⟨own, stored, found, ended⟩ := keeps
    have frame := sees.2.frame own.current own.active
    exact ⟨own.stable sees, stored, frame.turn.trans found, ended⟩
  touch touch keeps := by
    obtain ⟨own, stored, found, ended⟩ := keeps
    obtain ⟨later, last, _⟩ := touch.evolves.turns found
    refine ⟨⟨touch.current.trans own.current, touch.agent ▸ own.active, ?_⟩, later, last, ?_⟩
    · rw [touch.agent]
      exact own.handed
    · intro started
      obtain ⟨old, same, unsent⟩ := touch.ended last started
      cases found.symm.trans same
      exact ended unsent

structure Settles (turn : TurnView) (world : World) : Prop where
  stored : ∃ old, world.turn turn.turnId = some old ∧ old.question = turn.question ∧
    ((world.row turn.turnId).isSome → old.usage = turn.usage)
  ended : turn.state ≠ .started

structure LastRead (world : World) (t : Text) (row : Option ChatTurnRow) : Prop where
  absent : row = none → world.row t = none
  present : ∀ {read}, row = some read → ∃ later, world.row t = some later ∧
    (read.receipt.state.terminal = true → later = read)
  unknown : ∀ {read}, row = some read → read.receipt.state = .started →
    read.receipt.usage = .unknown

variable {row : Option ChatTurnRow}

section
variable {kept : World → Prop} (owns : Owns name me t kept)
include owns

theorem row_absent (keeps : kept before) (sees : (discipline name).Sees me before after)
    (absent : before.row t = none) : after.row t = none := by
  rcases owns.claim keeps with retired | own
  · exact (Evolves.retired sees.1 retired).2.1 absent
  · exact (sees.2.frame own.current own.active).row.trans absent

theorem LastRead.stable (keeps : kept before)
    (sees : (discipline name).Sees me before after) (read : LastRead before t row) :
    LastRead after t row where
  absent none := row_absent owns keeps sees (read.absent none)
  present := by
    intro receipt some
    obtain ⟨row, found, fixed⟩ := read.present some
    obtain ⟨later, found, same, _⟩ := Evolves.rows sees.1 found
    refine ⟨later, found, fun terminal => ?_⟩
    have last := fixed terminal
    subst last
    exact same terminal
  unknown := read.unknown

theorem Settles.stable {turn : TurnView} (own : turn.turnId = t) (keeps : kept before)
    (sees : (discipline name).Sees me before after) (settles : Settles turn before) :
    Settles turn after where
  stored := by
    subst own
    obtain ⟨old, found, question, usage⟩ := settles.stored
    rcases owns.claim keeps with retired | own
    · obtain ⟨_, absent, same⟩ := Evolves.retired sees.1 retired
      obtain ⟨later, last, asked, _⟩ := Evolves.turns sees.1 found
      refine ⟨later, last, asked.trans question, fun present => ?_⟩
      cases row : before.row turn.turnId with
      | none =>
        rw [absent row] at present
        cases present
      | some receipt =>
        have present : (before.row turn.turnId).isSome := by rw [row]; rfl
        have equal := same present
        rw [found, last, Option.map_some, Option.map_some, Option.some.injEq] at equal
        exact equal.trans (usage present)
    · have frame := sees.2.frame own.current own.active
      exact ⟨old, frame.turn.trans found, question, frame.row ▸ usage⟩
  ended := settles.ended

end

theorem LastRead.own {world : World} (durable : Durable world) (t : Text) :
    LastRead world t (world.row t) where
  absent := id
  present found := ⟨_, found, fun _ => rfl⟩
  unknown found := (durable.receipt found).2

section
variable {kept : World → Prop} {turn : TurnView}

theorem settling_writable (owns : Owns name me turn.turnId kept) (keeps : kept now)
    (durable : Durable now) (question : ∀ {old}, now.turn turn.turnId = some old →
      old.question = turn.question) (alive : ¬turn.zombie) : Writable now turn := by
  have free : ∀ {queued}, now.agent.queued = some queued → queued.turnId = turn.turnId →
      now.agent.active ≠ some turn.turnId := by
    intro queued waits same active
    rcases owns.claim keeps with retired | own
    · exact retired.2 ⟨active, .inr ⟨queued, waits, same⟩⟩
    · exact own.handed waits same
  have stored : (now.turn turn.turnId).isSome ∨ now.agent.active = some turn.turnId :=
    (owns.claim keeps).imp (fun retired => retired.1) fun own => own.active
  refine ⟨question, ?_, ?_, ?_, fun zombie => absurd zombie alive⟩
  · intro queued waits same
    obtain ⟨old, found⟩ : ∃ old, now.turn turn.turnId = some old := by
      rcases stored with stored | active
      · exact Option.isSome_iff_exists.mp stored
      · exact absurd active (free waits same)
    exact (question found).symm.trans (durable.asked waits (same ▸ found))
  · exact fun waits same active => absurd active (free waits same)
  · intro busy queued waits same
    by_contra apart
    rcases stored with stored | active
    · rw [← same, durable.waiting busy waits (same ▸ apart)] at stored
      cases stored
    · exact apart active

theorem record_touch {new : List Settlement} {time : Nat} (preserves : Preserves now turn new)
    (own : ∀ settlement ∈ new, settlement.turn.turnId = turn.turnId)
    (alive : turn.zombie → ∃ old, now.turn turn.turnId = some old ∧ old.zombie)
    (ended : turn.state = .started → ∃ old, now.turn turn.turnId = some old ∧
      old.state = .started) : Touch turn.turnId now (now.record turn time new) where
  evolves := record_evolves preserves
  agent := rfl
  current := rfl
  started := rfl
  frames := by
    intro other apart
    refine ⟨rfl, rfl, ?_, rfl, rfl, ?_, fun _ _ => Iff.rfl⟩
    · rw [turn_record, if_neg apart.symm]
    · intro settlement member same
      rcases List.mem_append.mp member with member | member
      · exact absurd ((own settlement member).symm.trans same) apart.symm
      · exact member
  alive := by
    intro later found zombie
    rw [turn_record, if_pos rfl, Option.some.injEq] at found
    subst found
    exact alive zombie
  ended := by
    intro later found started
    rw [turn_record, if_pos rfl, Option.some.injEq] at found
    subst found
    exact ended started

theorem updateRow_touch (durable : Durable now) {test : D1TurnProjection → Bool}
    {change : D1TurnProjection → D1TurnProjection}
    (open' : ∀ row, test row = true → row.state = .started)
    (usage : ∀ row, row.usage = .unknown → (change row).state = .started →
      (change row).usage = .unknown) : Touch t now (now.updateRow t test change).2 := by
  have evolves := (updateRow_sound durable t open' usage).2
  have rows : ∀ {other}, other ≠ t → (now.updateRow t test change).2.row other = now.row other :=
    fun apart => updateRow_other apart
  rw [updateRow_frame] at evolves rows ⊢
  exact ⟨evolves, rfl, rfl, rfl,
    fun apart => ⟨rfl, rfl, rfl, rows apart, rfl, fun _ member _ => member, fun _ _ => Iff.rfl⟩,
    fun found zombie => ⟨_, found, zombie⟩, fun found started => ⟨_, found, started⟩⟩

theorem terminalise_touch (durable : Durable now) (ended : turn.state ≠ .started) :
    Durable (now.terminalise turn).2 ∧ Touch turn.turnId now (now.terminalise turn).2 := by
  have open' : ∀ row : D1TurnProjection, (row.state == .started &&
      row.model == (turnProjection turn).model &&
      row.scopeMode == (turnProjection turn).scopeMode) = true → row.state = .started := by
    intro row chosen
    simp only [Bool.and_eq_true, beq_iff_eq] at chosen
    exact chosen.1.1
  constructor
  · exact (updateRow_sound durable turn.turnId open' fun _ _ started => absurd started ended).1
  · exact updateRow_touch durable open' fun _ _ started => absurd started ended

theorem Settles.terminalise (settles : Settles turn now) :
    Settles turn (now.terminalise turn).2 := by
  obtain ⟨old, found, question, usage⟩ := settles.stored
  refine ⟨⟨old, ?_, question, fun present => usage ?_⟩, settles.ended⟩
  · rw [World.terminalise, updateRow_frame]
    exact found
  · cases row : now.row turn.turnId with
    | none =>
      rw [World.terminalise, updateRow_none row] at present
      cases present
    | some _ => rfl

end

section
variable {kept : World → Prop} {turn : TurnView}

theorem wp_settlementRow {post : Post (Option ChatTurnRow)} (owns : Owns name me t kept)
    (here : Here me job start now) (keeps : kept now)
    (done : ∀ row after, Here me job after after → kept after →
      (discipline name).Sees me now after → LastRead after t row →
      post job (.ok row) [] after after)
    (failed : ∀ after, Here me job after after → kept after →
      (discipline name).Sees me now after → post job (.error storageFailure) [] after after) :
    (discipline name).wp me job (settlementRow t) post [] start now := by
  apply wp_d1 here
  · intro sent durable sees choice
    exact ⟨durable, .refl _, fun task _ => .refl task _, holds_stable sees.1 sees.2 here.holds⟩
  · intro sent durable sees choice back returned later
    have all := sees_trans sees later
    have read := (LastRead.own durable t).stable owns (owns.stable sees keeps) later
    exact done _ _ (.resumed here.holds returned all) (owns.stable all keeps) all read
  · intro sent durable sees choice back returned later
    rw [or_self] at later
    have all := sees_trans sees later
    exact failed _ (.resumed here.holds returned all) (owns.stable all keeps) all

theorem wp_terminalise {post : Post Nat} (owns : Owns name me turn.turnId kept)
    (here : Here me job start now) (keeps : kept now) (settles : Settles turn now)
    (next : ∀ result after, Here me job after after → kept after → Settles turn after →
      post job result [] after after) :
    (discipline name).wp me job (terminalise turn) post [] start now := by
  apply wp_d1 here
  · intro sent durable sees choice
    obtain ⟨still, touch⟩ := terminalise_touch durable settles.ended
    exact ⟨still, touch.evolves, fun task other =>
      touch.guards (owns.claim (owns.stable sees keeps)) other,
      touch.holds (holds_stable sees.1 sees.2 here.holds)⟩
  · intro sent durable sees choice back returned later
    obtain ⟨still, touch⟩ := terminalise_touch durable settles.ended
    have holds := touch.holds (holds_stable sees.1 sees.2 here.holds)
    have moved := owns.touch touch (owns.stable sees keeps)
    have settled := (settles.stable owns rfl keeps sees).terminalise
    exact next _ _ (.resumed holds returned later) (owns.stable later moved)
      (settled.stable owns rfl moved later)
  · intro sent durable sees choice back returned later
    have holds := holds_stable sees.1 sees.2 here.holds
    have asked := owns.stable sees keeps
    have settled := settles.stable owns rfl keeps sees
    rcases later with later | later
    · obtain ⟨still, touch⟩ := terminalise_touch durable settles.ended
      have moved := owns.touch touch asked
      exact next _ _ (.resumed (touch.holds holds) returned later) (owns.stable later moved)
        (settled.terminalise.stable owns rfl moved later)
    · exact next _ _ (.resumed holds returned later) (owns.stable later asked)
        (settled.stable owns rfl asked later)

/-- What a program leaves that settles the turn `t`, when it returns and when it throws. -/
structure Leaves {α : Type} (me : Nat) (job : Job) (kept : World → Prop) (post : Post α)
    (good : α → World → Prop) : Prop where
  done : ∀ {value back after}, Here me job back after → kept after → good value after →
    post job (.ok value) [] back after
  failed : ∀ {failure back after}, Here me job back after → kept after →
    post job (.error failure) [] back after

/-- The turn and the row that `reconcile` and `confirm` go on with. -/
def Reconciled (t : Text) : TurnView × Option ChatTurnRow × Text → World → Prop
  | (turn, row, _), world => turn.turnId = t ∧ Settles turn world ∧ LastRead world t row

theorem recovered (turn : TurnView) {row : D1TurnProjection} (unknown : row.usage = .unknown) :
    (recoverKnown turn row).turnId = turn.turnId ∧
      (recoverKnown turn row).question = turn.question ∧
      (recoverKnown turn row).state = turn.state ∧ (recoverKnown turn row).usage = turn.usage := by
  unfold recoverKnown
  rw [unknown]
  dsimp only
  rw [Usage.orElse_unknown]
  split <;> exact ⟨rfl, rfl, rfl, rfl⟩

theorem Settles.recover (settles : Settles turn now) {row : D1TurnProjection}
    (unknown : row.usage = .unknown) : Settles (recoverKnown turn row) now := by
  obtain ⟨id, question, state, usage⟩ := recovered turn unknown
  obtain ⟨old, found, asked, same⟩ := settles.stored
  refine ⟨⟨old, id ▸ found, asked.trans question.symm, fun present => ?_⟩, state ▸ settles.ended⟩
  rw [usage]
  exact same (id ▸ present)

theorem Settles.question (settles : Settles turn now) {old : TurnView}
    (found : now.turn turn.turnId = some old) : old.question = turn.question := by
  obtain ⟨stored, same, question, _⟩ := settles.stored
  cases found.symm.trans same
  exact question

theorem Settles.preserves {new : List Settlement} (settles : Settles turn now)
    (usage : (now.row turn.turnId).isSome ∨ turn.usage = .zero)
    (pending : turn.settlementPending = false →
      ∃ settlement ∈ new, settlement.turn.turnId = turn.turnId) : Preserves now turn new := by
  obtain ⟨stored, found, _, same⟩ := settles.stored
  refine ⟨settles.question, ?_, fun _ _ cleared => pending cleared, ?_⟩
  · intro old known
    cases found.symm.trans known
    rcases usage with present | zero
    · rw [same present]
      exact .refl _
    · rw [zero]
      exact .zero _
  · intro _ present old known
    cases found.symm.trans known
    exact same present

theorem Settles.record (settles : Settles turn now) (time : Nat) (new : List Settlement) :
    Settles turn (now.record turn time new) :=
  ⟨⟨turn.saved, (turn_record _ _ _ _ _).trans (if_pos rfl), rfl, fun _ => rfl⟩, settles.ended⟩

theorem Settles.touch {new : List Settlement} {time : Nat} (settles : Settles turn now)
    (preserves : Preserves now turn new)
    (own : ∀ settlement ∈ new, settlement.turn.turnId = turn.turnId) :
    Touch turn.turnId now (now.record turn time new) :=
  record_touch preserves own (fun zombie => absurd zombie.1 settles.ended)
    fun started => absurd started settles.ended

theorem wp_settlingWrite {post : Post Unit} (owns : Owns name me turn.turnId kept)
    (here : Here me job start now) (keeps : kept now) (settles : Settles turn now)
    (present : (now.row turn.turnId).isSome) (pending : turn.settlementPending = true)
    (leaves : Leaves me job kept post fun _ => Settles turn) :
    (discipline name).wp me job (writeTurn turn) post [] start now := by
  have writable : Writable now turn := settling_writable owns keeps here.durable settles.question
    fun zombie => settles.ended zombie.1
  have preserves : Preserves now turn [] := settles.preserves (.inl present) fun cleared => by
    rw [pending] at cleared
    cases cleared
  apply wp_writeTurn here.durable writable preserves
  · intro time durable _
    have touch : Touch turn.turnId now (now.record turn time []) :=
      settles.touch preserves fun _ member => by cases member
    exact leaves.done (here.touch owns keeps durable touch) (owns.touch touch keeps)
      (settles.record time [])
  · exact leaves.failed here keeps

theorem wp_reconcile {row : ChatTurnRow} {post : Post (TurnView × Option ChatTurnRow × Text)}
    (owns : Owns name me turn.turnId kept) (here : Here me job start now) (keeps : kept now)
    (settles : Settles turn now) (read : LastRead now turn.turnId (some row))
    (unsettled : row.receipt.state = .started) (pending : turn.settlementPending = true)
    (leaves : Leaves me job kept post (Reconciled turn.turnId)) :
    (discipline name).wp me job (reconcile turn row) post [] start now := by
  have unknown := read.unknown rfl unsettled
  obtain ⟨id, _⟩ := recovered turn unknown
  have settled := settles.recover unknown
  have still : (recoverKnown turn row.receipt).settlementPending = true := by
    unfold recoverKnown
    dsimp only
    split <;> exact pending
  unfold reconcile
  generalize recoverKnown turn row.receipt = known at *
  rw [← id] at owns read leaves
  simp only [bind_eq, pure_eq]
  split
  · exact leaves.done here keeps ⟨rfl, settled, read⟩
  · apply wp_bind
    obtain ⟨_, found, _⟩ := read.present rfl
    apply wp_settlingWrite owns here keeps settled (by rw [found]; rfl) still
    refine ⟨?_, fun here keeps => leaves.failed here keeps⟩
    intro _ back after here keeps settled
    apply wp_bind
    apply wp_attempt
    apply wp_terminalise owns here keeps settled
    intro result after here keeps settled
    apply wp_bind
    apply wp_settlementRow owns here keeps
    · intro row later here keeps' sees read
      exact leaves.done here keeps' ⟨rfl, settled.stable owns rfl keeps sees, read⟩
    · exact fun later here keeps _ => leaves.failed here keeps

theorem LastRead.confirmed (read : LastRead now t row)
    (ended : turn.state ≠ .started) (matched : confirmed turn row = true) : now.row t = row := by
  cases row with
  | none => exact read.absent rfl
  | some receipt =>
    obtain ⟨later, found, same⟩ := read.present rfl
    have terminal : receipt.receipt.state.terminal = true := by
      simpa [TurnState.terminal] using confirmed_terminal ended matched
    rw [found, same terminal]

theorem settles_cleared {time : Nat}
    (owns : Owns name me turn.turnId kept) (keeps : kept now) (durable : Durable now)
    (settles : Settles turn now) (read : LastRead now turn.turnId row)
    (matched : confirmed turn row = true) :
    Durable (now.record turn time [⟨turn, row⟩]) ∧
      Touch turn.turnId now (now.record turn time [⟨turn, row⟩]) := by
  have own : ∀ settlement ∈ [(⟨turn, row⟩ : Settlement)],
      settlement.turn.turnId = turn.turnId := by simp
  have usage : (now.row turn.turnId).isSome ∨ turn.usage = .zero := by
    cases row with
    | some receipt =>
      obtain ⟨later, found, _⟩ := read.present rfl
      exact .inl (by rw [found]; rfl)
    | none =>
      simp only [confirmed, noAdmission, Bool.and_eq_true, beq_iff_eq] at matched
      exact .inr matched.2
  have preserves : Preserves now turn [⟨turn, row⟩] :=
    settles.preserves usage fun _ => ⟨_, List.mem_singleton.mpr rfl, rfl⟩
  refine ⟨?_, settles.touch preserves own⟩
  apply record_durable durable
  · exact settling_writable owns keeps durable settles.question fun zombie =>
      settles.ended zombie.1
  · intro settlement member
    rw [List.mem_singleton.mp member]
    refine ⟨matched, settles.ended, read.confirmed settles.ended matched, ?_⟩
    rw [turn_record, if_pos rfl]
    rfl

theorem Settles.provenUnsent (settles : Settles turn now)
    (read : LastRead now turn.turnId row) : Settles (provenUnsent turn row) now := by
  unfold Chat.provenUnsent
  split
  · rename_i unsent
    simp only [Bool.and_eq_true, Option.isNone_iff_eq_none] at unsent
    obtain ⟨old, found, question, _⟩ := settles.stored
    refine ⟨⟨old, found, question, fun present => ?_⟩, settles.ended⟩
    dsimp only at present
    rw [read.absent unsent.1] at present
    cases present
  · exact settles

theorem provenUnsent_turnId (turn : TurnView) (row : Option ChatTurnRow) :
    (provenUnsent turn row).turnId = turn.turnId := by
  unfold provenUnsent
  split <;> rfl

theorem wp_clear {failure : Text} {post : Post (TurnView ⊕ Text)}
    (owns : Owns name me turn.turnId kept) (here : Here me job start now) (keeps : kept now)
    (settles : Settles turn now) (read : LastRead now turn.turnId row)
    (leaves : Leaves me job kept post fun _ _ => True) :
    (discipline name).wp me job (clear turn row failure) post [] start now := by
  unfold clear
  simp only [bind_eq, pure_eq]
  split
  · rename_i matched
    have settled : Settles turn.cleared now := ⟨settles.stored, settles.ended⟩
    have sound : ∀ time, Durable (now.record turn.cleared time [⟨turn.cleared, row⟩]) ∧
        Touch turn.turnId now (now.record turn.cleared time [⟨turn.cleared, row⟩]) :=
      fun time => settles_cleared owns keeps here.durable settled read matched
    apply wp_bind
    apply wp_store here.durable
    · exact fun choice => ⟨(sound choice.now).1, (sound choice.now).2.evolves⟩
    · intro choice
      obtain ⟨durable, touch⟩ := sound choice.now
      exact leaves.done (here.touch owns keeps durable touch) (owns.touch touch keeps) trivial
    · exact leaves.failed here keeps
  · split <;> exact leaves.done here keeps trivial

theorem wp_confirm {post : Post (TurnView ⊕ Text)} (owns : Owns name me turn.turnId kept)
    (here : Here me job start now) (keeps : kept now) (settles : Settles turn now)
    (pending : turn.settlementPending = true) (leaves : Leaves me job kept post fun _ _ => True) :
    (discipline name).wp me job (confirm turn) post [] start now := by
  unfold confirm
  simp only [bind_eq, pure_eq]
  apply wp_bind
  apply wp_settlementRow owns here keeps
  · intro row after here keeps' sees read
    have settles := settles.stable owns rfl keeps sees
    -- Both the read row and what `reconcile` makes of it are cleared in the same way.
    have clears : ∀ {value : TurnView × Option ChatTurnRow × Text} {back after : World},
        Here me job back after → kept after → Reconciled turn.turnId value after →
        (discipline name).wp me job (clear (provenUnsent value.1 value.2.1) value.2.1 value.2.2)
          post [] back after := by
      rintro ⟨turn', row, failure⟩ back after here keeps ⟨id, settles, read⟩
      rw [← id] at owns read
      have settled := settles.provenUnsent read
      rw [← provenUnsent_turnId turn' row] at owns read
      exact wp_clear owns here keeps settled read leaves
    cases row with
    | none => exact clears here keeps' ⟨rfl, settles, read⟩
    | some row =>
      dsimp only
      split
      · rename_i unsettled
        apply wp_bind
        exact wp_reconcile owns here keeps' settles read unsettled pending ⟨clears, leaves.failed⟩
      · exact clears here keeps' ⟨rfl, settles, read⟩
  · exact fun after here keeps _ => leaves.failed here keeps

theorem wp_leavePending {failure : Text} {post : Post TurnView}
    (owns : Owns name me turn.turnId kept) (here : Here me job start now) (keeps : kept now)
    (leaves : Leaves me job kept post fun _ _ => True) :
    (discipline name).wp me job (leavePending turn failure) post [] start now := by
  unfold leavePending
  simp only [bind_eq, pure_eq]
  apply wp_bind
  apply wp_look here.durable
  dsimp only
  split
  · exact leaves.done here keeps trivial
  · rename_i latest found
    split
    · rename_i pending
      have own := here.durable.keyed found
      let failed : TurnView := { latest with settlementError := some failure }
      have same : failed.turnId = turn.turnId := own
      have alive : ¬failed.zombie := fun zombie => by
        cases pending.symm.trans zombie.2
      have question : ∀ {old}, now.turn failed.turnId = some old →
          old.question = failed.question := by
        intro old stored
        cases (same ▸ found).symm.trans stored
        rfl
      have preserves : Preserves now failed [] := by
        constructor
        · exact question
        · intro old stored
          cases (same ▸ found).symm.trans stored
          exact .refl _
        · intro _ _ _ cleared
          cases pending.symm.trans cleared
        · intro _ _ old stored
          cases (same ▸ found).symm.trans stored
          rfl
      rw [← same] at owns
      have writable := settling_writable owns keeps here.durable question alive
      apply wp_bind
      apply wp_writeTurn here.durable writable preserves
      · intro time durable _
        have touch : Touch failed.turnId now (now.record failed time []) := by
          apply record_touch preserves (fun _ member => by cases member)
            (fun zombie => absurd zombie alive)
          exact fun started => ⟨latest, same ▸ found, started⟩
        exact leaves.done (here.touch owns keeps durable touch) (owns.touch touch keeps) trivial
      · exact leaves.failed here keeps
    · exact leaves.done here keeps trivial

theorem wp_settleTurn {post : Post TurnView} (owns : Owns name me turn.turnId kept)
    (here : Here me job start now) (keeps : kept now)
    (settles : turn.state ≠ .started → Settles turn now)
    (leaves : Leaves me job kept post fun _ _ => True) :
    (discipline name).wp me job (settleTurn turn) post [] start now := by
  unfold settleTurn
  simp only [bind_eq, pure_eq]
  split
  · exact leaves.done here keeps trivial
  · rename_i unsettled
    simp only [Bool.or_eq_true, Bool.not_eq_true', decide_eq_true_eq, not_or,
      Bool.not_eq_false] at unsettled
    obtain ⟨pending, ended⟩ := unsettled
    apply wp_bind
    apply wp_attempt
    apply wp_confirm owns here keeps (settles ended) pending
    constructor
    · intro value back after here keeps _
      cases value with
      | inl settled => exact leaves.done here keeps trivial
      | inr failure => exact wp_leavePending owns here keeps leaves
    · exact fun here keeps => wp_leavePending owns here keeps leaves

end

end Chat
