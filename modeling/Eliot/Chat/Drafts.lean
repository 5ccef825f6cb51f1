import Eliot.Chat.Calls

namespace Chat
open Relational Async Drafting Discipline
open Citations (resolveCitations)

abbrev Assertion := Draft → World → Prop

variable {name : Text} {me : Nat} {input : RunTurnInput} {α β : Type}

/-- A triple about a program inside a run: from `pre` it returns with `good` of its value, or
    throws with `bad`. -/
def Does (name : Text) (me : Nat) (input : RunTurnInput) (pre : World → Prop) (program : Agent α)
    (good : α → World → Prop) (bad : World → Prop) : Prop :=
  ∀ {start now : World} {post : Post α}, Here me (.runTurn input) start now → pre now →
    (∀ value back after, Here me (.runTurn input) back after → good value after →
      post (.runTurn input) (.ok value) [] back after) →
    (∀ failure back after, Here me (.runTurn input) back after → bad after →
      post (.runTurn input) (.error failure) [] back after) →
    (discipline name).wp me (.runTurn input) program post [] start now

def Draws (name : Text) (me : Nat) (input : RunTurnInput) (pre : Assertion)
    (program : Drafting α) (good : α → Assertion) (bad : Assertion) : Prop :=
  ∀ draft, Does name me input (pre draft) (program draft) (fun result world =>
    match result with
    | (.ok value, draft) => good value draft world
    | (.error _, draft) => bad draft world) fun _ => False

namespace Does

variable {pre pre' bad bad' : World → Prop} {program : Agent α} {good good' : α → World → Prop}

theorem quiet (quiet : Quiet name program)
    (stable : ∀ {before after}, (discipline name).Sees me before after → pre before → pre after) :
    Does name me input pre program (fun _ => pre) pre := by
  intro start now post here holds done failed
  apply quiet here
  rintro (failure | value) back after here sees
  · exact failed _ _ _ here (stable sees holds)
  · exact done _ _ _ here (stable sees holds)

theorem bind {rest : α → Agent β} {last : β → World → Prop}
    (first : Does name me input pre program good bad)
    (later : ∀ value, Does name me input (good value) (rest value) last bad) :
    Does name me input pre (program.bind rest) last bad := by
  intro start now post here holds done failed
  apply wp_bind
  apply first here holds
  · exact fun value back after here holds => later value here holds done failed
  · exact failed

theorem through {rest : α → Agent β} {last : β → World → Prop} (middle : α → World → Prop)
    (first : Does name me input pre program middle bad)
    (later : ∀ value, Does name me input (middle value) (rest value) last bad) :
    Does name me input pre (program.bind rest) last bad := bind first later

theorem mono (triple : Does name me input pre program good bad)
    (weaker : ∀ {value world}, good value world → good' value world)
    (worse : ∀ {world}, bad world → bad' world) :
    Does name me input pre program good' bad' :=
  fun here holds done failed =>
    triple here holds (fun _ _ _ here holds => done _ _ _ here (weaker holds))
      fun _ _ _ here holds => failed _ _ _ here (worse holds)

theorem look {read : World → α} : Does name me input pre (.look read) (fun _ => pre) bad :=
  fun {_ _ _} here holds done _ => wp_look here.durable (done _ _ _ here holds)

theorem clock : Does name me input pre (.act fun choice (world : World) => (.ok choice.now, world))
    (fun _ => pre) bad :=
  fun {_ _ _} here holds done _ choice => ⟨here.durable, .refl _, done choice.now _ _ here holds⟩

theorem pause
    (stable : ∀ {before after}, (discipline name).Sees me before after → pre before → pre after) :
    Does name me input pre .pause (fun _ => pre) bad :=
  fun {_ _ _} here holds done _ =>
    wp_pause here fun _ here sees => done () _ _ here (stable sees holds)

theorem attempt (triple : Does name me input pre program good bad) :
    Does name me input pre program.attempt (fun result world =>
      match result with
      | .ok value => good value world
      | .error _ => bad world) fun _ => False := by
  intro start now post here holds done _
  apply wp_attempt
  apply triple here holds
  · exact fun value back after here holds => done (.ok value) back after here holds
  · exact fun failure back after here holds => done (.error failure) back after here holds

end Does

variable {rest : α → Drafting β}

namespace Draws

variable {pre pre' bad bad' : Assertion} {program : Drafting α} {good good' : α → Assertion}

theorem lift {program : Agent α}
    (triple : ∀ draft, Does name me input (pre draft) program (fun value => good value draft)
      (bad draft)) : Draws name me input pre (.lift program) good bad := by
  intro draft start now post here holds done _
  apply wp_bind
  apply wp_attempt
  apply triple draft here holds
  · exact fun value back after here holds => done (.ok value, draft) back after here holds
  · exact fun failure back after here holds => done (.error failure, draft) back after here holds

theorem bind {last : β → Assertion}
    (first : Draws name me input pre program good bad)
    (later : ∀ value, Draws name me input (good value) (rest value) last bad) :
    Draws name me input pre (program.bind rest) last bad := by
  intro draft start now post here holds done failed
  apply wp_bind
  apply first draft here holds
  · rintro ⟨failure | value, draft⟩ back after here holds
    · exact done _ back after here holds
    · exact later value draft here holds done failed
  · exact fun _ _ _ _ impossible => impossible.elim

theorem through {last : β → Assertion} (middle : α → Assertion)
    (first : Draws name me input pre program middle bad)
    (later : ∀ value, Draws name me input (middle value) (rest value) last bad) :
    Draws name me input pre (program.bind rest) last bad := bind first later

theorem consequence (triple : Draws name me input pre program good bad)
    (stronger : ∀ {draft world}, pre' draft world → pre draft world)
    (weaker : ∀ {value draft world}, good value draft world → good' value draft world) :
    Draws name me input pre' program good' bad := by
  intro draft start now post here holds done failed
  apply triple draft here (stronger holds)
  · rintro ⟨failure | value, draft⟩ back after here holds
    · exact done _ back after here holds
    · exact done _ back after here (weaker holds)
  · exact failed

theorem done {value : α} (holds : ∀ {draft world}, pre draft world → good value draft world) :
    Draws name me input pre (pure value) good bad :=
  fun _ {_ _ _} here before finish _ => finish _ _ _ here (holds before)

theorem throw {failure : Failure} : Draws name me input bad (Drafting.throw failure) good bad :=
  fun _ {_ _ _} here before finish _ => finish _ _ _ here before

theorem get {rest : Draft → Drafting β} {last : β → Assertion}
    (later : ∀ value, Draws name me input (fun draft world => draft = value ∧ pre draft world)
      (rest value) last bad) : Draws name me input pre (Drafting.get.bind rest) last bad :=
  fun draft {_ _ _} here before => later draft draft here ⟨rfl, before⟩

theorem modify {change : Draft → Draft} {good : Unit → Assertion}
    (holds : ∀ {draft world}, pre draft world → good () (change draft) world) :
    Draws name me input pre (Drafting.modify change) good bad :=
  fun _ {_ _ _} here before finish _ => finish _ _ _ here (holds before)

end Draws

structure Running (me : Nat) (input : RunTurnInput) (sent : Bool) (draft : Draft)
    (world : World) : Prop where
  own : Own me input.turnId world
  stored : ∃ old, world.turn input.turnId = some old ∧ old.question = input.question ∧
    old.usage = .unknown ∧ (old.settlementPending = true → draft.turn.settlementPending = true)
  turnId : draft.turn.turnId = input.turnId
  question : draft.turn.question = input.question
  usage : draft.turn.usage = .unknown
  unsettled : ∀ settlement ∈ world.history.settled, settlement.turn.turnId ≠ input.turnId
  unsent : sent = false → input.turnId ∉ world.history.dispatched

namespace Running

variable {sent : Bool} {draft : Draft} {before after world : World}

theorem stable (running : Running me input sent draft before)
    (sees : (discipline name).Sees me before after) : Running me input sent draft after := by
  have frame := sees.2.frame running.own.current running.own.active
  refine ⟨running.own.stable sees, ?_, running.turnId, running.question, running.usage, ?_, ?_⟩
  · rw [frame.turn]
    exact running.stored
  · exact fun settlement member same =>
      running.unsettled settlement (frame.settled settlement member same) same
  · rw [frame.dispatched]
    exact running.unsent

theorem weaken (running : Running me input sent draft world) :
    Running me input true draft world :=
  ⟨running.own, running.stored, running.turnId, running.question, running.usage,
    running.unsettled, fun unsent => by cases unsent⟩

theorem redraft {changed : Draft} (running : Running me input sent draft world)
    (turnId : changed.turn.turnId = draft.turn.turnId)
    (question : changed.turn.question = draft.turn.question)
    (usage : changed.turn.usage = draft.turn.usage)
    (pending : draft.turn.settlementPending = true → changed.turn.settlementPending = true) :
    Running me input sent changed world := by
  obtain ⟨old, found, asked, unknown, kept⟩ := running.stored
  exact ⟨running.own, ⟨old, found, asked, unknown, pending ∘ kept⟩,
    turnId.trans running.turnId, question.trans running.question, usage.trans running.usage,
    running.unsettled, running.unsent⟩

theorem here {start : World} (before : Running me input sent draft world)
    (running : Running me input sent draft after) (stays : after.started = world.started)
    (here : Here me (.runTurn input) start world) (durable : Durable after) :
    Here me (.runTurn input) start after :=
  here.alone before.own.current stays durable
    ⟨stays.trans here.holds.1, running.own.current, running.own.active⟩

theorem write {turn : TurnView} (running : Running me input sent draft world)
    (turnId : turn.turnId = draft.turn.turnId)
    (question : turn.question = draft.turn.question) (usage : turn.usage = draft.turn.usage)
    (pending : turn.settlementPending = draft.turn.settlementPending) :
    Writable world turn ∧ Preserves world turn [] ∧
      ∀ time, Running me input sent draft (world.write time turn) := by
  have id := turnId.trans running.turnId
  have same := question.trans running.question
  have unknown := usage.trans running.usage
  obtain ⟨old, found, asked, unused, kept⟩ := running.stored
  have owned : ∀ {stored}, world.turn turn.turnId = some stored → stored = old := by
    intro stored again
    rw [id] at again
    exact Option.some.inj (again.symm.trans found)
  refine ⟨⟨?_, ?_, ?_, ?_, ?_⟩, ⟨?_, ?_, ?_, ?_⟩, fun time => ?_⟩
  · exact fun again => by rw [owned again, asked, same]
  · exact fun waits own => absurd (own.trans id) (running.own.handed waits)
  · exact fun waits own => absurd (own.trans id) (running.own.handed waits)
  · exact fun _ _ _ _ => id ▸ running.own.active
  · exact fun _ => .inl (id ▸ running.own.active)
  · exact fun again => by rw [owned again, asked, same]
  · exact fun again => by
      rw [owned again, unused, unknown]
      exact .refl _
  · intro stored again settled cleared
    rw [owned again] at settled
    rw [pending, kept settled] at cleared
    cases cleared
  · exact fun retired => absurd (id ▸ running.own.occupied) retired.2
  · refine ⟨⟨running.own.current, running.own.active, running.own.handed⟩,
      ⟨turn.saved, ?_, same, unknown, fun settled => pending ▸ settled⟩, running.turnId,
      running.question, running.usage, running.unsettled, running.unsent⟩
    rw [turn_write, if_pos id]

theorem ledger (running : Running me input sent draft world) (ledger : Ledger) :
    Running me input sent draft { world with ledger } :=
  ⟨⟨running.own.current, running.own.active, running.own.handed⟩, running.stored, running.turnId,
    running.question, running.usage, running.unsettled, running.unsent⟩

theorem dispatch (running : Running me input false draft world) (durable : Durable world) :
    let history := { world.history with
      dispatched := draft.turn.turnId :: world.history.dispatched }
    Durable { world with history } ∧ Evolves world { world with history } ∧
      Running me input true draft { world with history } := by
  intro history
  have fresh : draft.turn.turnId ∉ world.history.dispatched := running.turnId ▸ running.unsent rfl
  have stored : (world.turn draft.turn.turnId).isSome := by
    obtain ⟨old, found, _⟩ := running.stored
    rw [running.turnId, found]
    rfl
  refine ⟨?_, ?_, ?_⟩
  · apply note_durable durable history rfl (List.Subset.refl _)
      (List.nodup_cons.mpr ⟨fresh, durable.once⟩)
    · intro t member
      rcases List.mem_cons.mp member with rfl | member
      · exact stored
      · exact durable.dispatched member
    · exact fun member => accepted_mono durable history (List.Subset.refl _)
        (List.Subset.refl _) (List.Subset.refl _) member
  · apply note_evolves history rfl (List.Subset.refl _) (List.Subset.refl _)
    intro t idle
    apply List.count_cons_of_ne
    rintro rfl
    apply idle.2
    rw [running.turnId, running.own.current]
    exact ⟨running.own.active, rfl⟩
  · exact ⟨⟨running.own.current, running.own.active, running.own.handed⟩, running.stored,
      running.turnId, running.question, running.usage, running.unsettled,
      fun unsent => by cases unsent⟩

end Running

def Keeps (name : Text) (me : Nat) (input : RunTurnInput) (program : Agent α) : Prop :=
  ∀ {sent draft}, Does name me input (Running me input sent draft) program
    (fun _ => Running me input sent draft) (Running me input sent draft)

def Stays (name : Text) (me : Nat) (input : RunTurnInput) (sent : Bool)
    (program : Drafting α) : Prop :=
  Draws name me input (Running me input sent) program (fun _ => Running me input sent)
    (Running me input true)

namespace Keeps

theorem quiet {program : Agent α} (quiet : Quiet name program) : Keeps name me input program :=
  fun {_ _ _ _ _} => Does.quiet quiet fun sees running => Running.stable running sees

theorem bind {program : Agent α} {rest : α → Agent β} (first : Keeps name me input program)
    (later : ∀ value, Keeps name me input (rest value)) :
    Keeps name me input (program.bind rest) :=
  fun {_ _ _ _ _} => Does.bind first fun value => later value

theorem d1 {statement : Choice → World → Except Failure α × World}
    (sound : ∀ {world}, Durable world → world.Occupied input.turnId →
      (world.turn input.turnId).isSome →
      (∀ settlement ∈ world.history.settled, settlement.turn.turnId ≠ input.turnId) → ∀ choice,
      Durable (statement choice world).2 ∧ Evolves world (statement choice world).2 ∧
      ∃ ledger, (statement choice world).2 = { world with ledger }) :
    Keeps name me input (Chat.d1 statement) := by
  intro sent draft start now post here running done failed
  have steps : ∀ world, Durable world → (discipline name).Sees me now world → ∀ choice,
      Durable (statement choice world).2 ∧ Evolves world (statement choice world).2 ∧
      Running me input sent draft (statement choice world).2 ∧
      Here me (.runTurn input) world (statement choice world).2 := by
    intro world durable sees choice
    have running := running.stable sees
    have resumed := Here.resumed here.holds durable sees
    obtain ⟨old, found, _⟩ := running.stored
    have stored : (world.turn input.turnId).isSome := by rw [found]; rfl
    obtain ⟨still, evolves, ledger, same⟩ :=
      sound durable running.own.occupied stored running.unsettled choice
    have kept : Running me input sent draft (statement choice world).2 :=
      same ▸ running.ledger ledger
    exact ⟨still, evolves, kept, running.here kept (by rw [same]) resumed still⟩
  apply wp_d1 here
  · intro world durable sees choice
    obtain ⟨still, evolves, _, stepped⟩ := steps world durable sees choice
    exact ⟨still, evolves, stepped.guards, stepped.holds⟩
  · intro world durable sees choice back returned later
    obtain ⟨_, _, kept, stepped⟩ := steps world durable sees choice
    have resumed := Here.resumed stepped.holds returned later
    have running := kept.stable later
    cases result : (statement choice world).1 with
    | ok value => exact done value _ _ resumed running
    | error failure => exact failed failure _ _ resumed running
  · rintro world durable sees choice back returned (later | later)
    · obtain ⟨_, _, kept, stepped⟩ := steps world durable sees choice
      exact failed _ _ _ (.resumed stepped.holds returned later) (kept.stable later)
    · have all := sees_trans sees later
      exact failed _ _ _ (.resumed here.holds returned all) (running.stable all)

theorem updateRow (turnId : Text) {test : D1TurnProjection → Bool}
    {change : D1TurnProjection → D1TurnProjection}
    (open' : ∀ row, test row = true → row.state = .started)
    (usage : ∀ row, row.usage = .unknown → (change row).usage = .unknown) :
    Keeps name me input (Chat.d1 fun _ world => world.updateRow turnId test change) := by
  apply Keeps.d1
  intro world durable _ _ _ _
  obtain ⟨still, evolves⟩ := updateRow_sound durable turnId open' fun row unknown _ =>
    usage row unknown
  exact ⟨still, evolves, _, updateRow_frame turnId test change⟩

theorem insertRow {turn : TurnView} (own : turn.turnId = input.turnId) :
    Keeps name me input (Chat.d1 fun _ world => world.insertRow turn) := by
  apply Keeps.d1
  intro world durable occupied stored unsettled _
  rw [← own] at occupied stored unsettled
  obtain ⟨still, evolves⟩ := insertRow_sound durable stored occupied unsettled
  refine ⟨still, evolves, ?_⟩
  unfold World.insertRow
  dsimp only
  split
  · exact ⟨_, rfl⟩
  · exact ⟨world.ledger, rfl⟩

theorem admitTurn (turnId : Text) (model : ModelSpec) :
    Keeps name me input (admitTurn turnId model) := by
  unfold Chat.admitTurn
  split
  · exact Keeps.quiet (Quiet.done _)
  · apply Keeps.bind
    · apply Keeps.updateRow
      · intro row chosen
        simp only [Bool.and_eq_true, beq_iff_eq] at chosen
        exact chosen.1.1
      · exact fun row unknown => unknown
    · intro changes
      split <;> exact Keeps.quiet (Quiet.done _)

theorem write {sent : Bool} (turn : TurnView) {draft : Draft}
    (turnId : turn.turnId = draft.turn.turnId) (question : turn.question = draft.turn.question)
    (usage : turn.usage = draft.turn.usage)
    (pending : turn.settlementPending = draft.turn.settlementPending) :
    Does name me input (Running me input sent draft) (writeTurn turn)
      (fun _ => Running me input sent draft) (Running me input sent draft) := by
  intro start now post here running done failed
  obtain ⟨writable, preserves, next⟩ := running.write turnId question usage pending
  apply wp_writeTurn here.durable writable preserves
  · exact fun time durable _ =>
      done () _ _ (running.here (next time) rfl here durable) (next time)
  · exact failed _ _ _ here running

end Keeps

namespace Stays

variable {sent : Bool} {program : Drafting α}

theorem bind (first : Stays name me input sent program)
    (later : ∀ value, Stays name me input sent (rest value)) :
    Stays name me input sent (program.bind rest) := Draws.bind first later

theorem done (value : α) : Stays name me input sent (pure value : Drafting α) := Draws.done id

theorem throw (failure : Failure) : Stays name me input sent (Drafting.throw failure : Drafting α) :=
  fun _ {_ _ _} here before finish _ => finish _ _ _ here before.weaken

theorem modify {change : Draft → Draft}
    (turnId : ∀ draft, (change draft).turn.turnId = draft.turn.turnId)
    (question : ∀ draft, (change draft).turn.question = draft.turn.question)
    (usage : ∀ draft, (change draft).turn.usage = draft.turn.usage)
    (pending : ∀ draft, draft.turn.settlementPending = true →
      (change draft).turn.settlementPending = true) :
    Stays name me input sent (Drafting.modify change) :=
  Draws.modify fun running =>
    running.redraft (turnId _) (question _) (usage _) (pending _)

theorem lift {program : Agent α} (keeps : Keeps name me input program) :
    Stays name me input sent (.lift program) :=
  Draws.lift fun _ {_ _ _} here running done failed =>
    keeps here running done fun failure back after here running =>
      failed failure back after here running.weaken

theorem get {rest : Draft → Drafting β}
    (later : ∀ value : Draft, value.turn.turnId = input.turnId →
      Draws name me input (fun draft world => draft = value ∧ Running me input sent draft world)
        (rest value) (fun _ => Running me input sent) (Running me input true)) :
    Stays name me input sent (Drafting.get.bind rest) :=
  Draws.get fun value draft {_ _ _} here before =>
    later value (before.1 ▸ before.2.turnId) draft here before

theorem forget (stays : Stays name me input sent program) {value : Draft} :
    Draws name me input (fun draft world => draft = value ∧ Running me input sent draft world)
      program (fun _ => Running me input sent) (Running me input true) :=
  Draws.consequence stays (fun holds => holds.2) id

theorem written {value : Draft} :
    Draws name me input (fun draft world => draft = value ∧ Running me input sent draft world)
      (.lift (writeTurn value.turn)) (fun _ => Running me input sent) (Running me input true) := by
  apply Draws.lift
  rintro draft start now post here ⟨rfl, running⟩ done failed
  exact Keeps.write _ rfl rfl rfl rfl here running done fun failure back after here running =>
    failed failure back after here running.weaken

end Stays

theorem admitRun_stays : Stays name me input false (admitRun input) := by
  unfold admitRun
  simp only [bind_eq, Drafting.modifyTurn]
  refine Stays.bind (Stays.lift (Keeps.quiet (Quiet.d1 fun _ _ => rfl))) fun settings => ?_
  refine Stays.bind (Stays.modify (fun _ => rfl) (fun _ => rfl) (fun _ => rfl) fun _ => id) fun _ => ?_
  refine Stays.bind (Stays.lift (Keeps.quiet Quiet.request)) fun model => ?_
  refine Stays.bind (Stays.modify (fun _ => rfl) (fun _ => rfl) (fun _ => rfl) fun _ => id) fun _ => ?_
  refine Stays.bind (Stays.modify (fun _ => rfl) (fun _ => rfl) (fun _ => rfl) fun _ _ => rfl)
    fun _ => ?_
  refine Stays.get fun value _ => Draws.bind Stays.written fun _ => ?_
  refine Stays.get fun value own => Stays.forget ?_
  refine Stays.bind (Stays.lift (Keeps.insertRow own)) fun _ => ?_
  refine Stays.bind (Stays.lift (Keeps.admitTurn _ _)) fun bound => ?_
  refine Stays.bind (Stays.modify (fun _ => rfl) (fun _ => rfl) (fun _ => rfl) fun _ => id) fun _ => ?_
  exact Stays.get fun value _ => Stays.written

theorem freezeContext_stays : Stays name me input false (freezeContext input) := by
  unfold freezeContext
  simp only [bind_eq]
  refine Stays.bind (Stays.lift (Keeps.quiet (Quiet.ensureProject _))) fun _ => ?_
  refine Stays.bind (Stays.lift (Keeps.quiet Quiet.requireRecoveredHandoff)) fun _ => ?_
  refine Stays.bind (Stays.lift (Keeps.quiet Quiet.recoverFinishedTurn)) fun _ => ?_
  refine Stays.bind (Stays.lift (Keeps.quiet Quiet.pause)) fun _ => ?_
  refine Stays.bind (Stays.lift (Keeps.quiet Quiet.request)) fun context => ?_
  refine Stays.bind (Stays.modify (fun _ => rfl) (fun _ => rfl) (fun _ => rfl) fun _ => id) fun _ => ?_
  refine Stays.bind (Stays.lift (Keeps.quiet Quiet.request)) fun _ => ?_
  refine Stays.get fun value _ => Draws.bind Stays.written fun _ => ?_
  refine Stays.get fun value _ => Stays.forget ?_
  refine Stays.bind (Stays.lift ?_) fun _ => Stays.done _
  apply Keeps.updateRow
  · intro row chosen
    exact beq_iff_eq.mp chosen
  · exact fun row unknown => unknown

theorem throwIfAborted_stays {sent : Bool} : Stays name me input sent throwIfAborted := by
  unfold throwIfAborted
  simp only [bind_eq]
  refine Stays.get fun value _ => Stays.forget ?_
  refine Stays.bind (Stays.lift (Keeps.quiet Quiet.look)) fun aborted => ?_
  split
  · exact Stays.throw _
  · exact Stays.done _

theorem checkpoint_stays {sent : Bool} : Stays name me input sent checkpoint := by
  unfold checkpoint
  simp only [bind_eq]
  apply Stays.get
  intro value _
  refine Draws.through (fun _ draft world => draft = value ∧
    Running me input sent draft world) ?_ fun aborted => ?_
  · apply Draws.lift
    rintro draft start now post here ⟨rfl, running⟩ done failed
    exact Keeps.quiet Quiet.look here running
      (fun value back after here running => done value back after here ⟨rfl, running⟩)
      fun failure back after here running => failed failure back after here running.weaken
  · split
    · exact Stays.forget (Stays.done _)
    · refine Draws.through (fun _ => Running me input sent) ?_ fun written => ?_
      · apply Draws.lift
        rintro draft start now post here ⟨rfl, running⟩ done failed
        apply Does.attempt (Keeps.write (checkpointed draft) rfl rfl rfl rfl) here running
        · rintro (failure | value) back after here running <;>
            exact done _ back after here running
        · exact fun _ _ _ _ impossible => impossible.elim
      · split
        · exact Stays.done _
        · refine Stays.bind (Stays.modify (fun _ => rfl) (fun _ => rfl) (fun _ => rfl) fun _ => id)
            fun _ => ?_
          exact Stays.lift (Keeps.quiet (Quiet.abort _))

theorem onCallback_stays {sent : Bool} (callback : Callback) :
    Stays name me input sent (onCallback callback) := by
  cases callback with
  | timer => exact checkpoint_stays
  | onError report undispatched =>
    exact Stays.modify (fun _ => rfl) (fun _ => rfl) (fun _ => rfl) fun _ => id

theorem onStreamEvent_stays {sent : Bool} (event : StreamEvent) :
    Stays name me input sent (onStreamEvent event) := by
  cases event with
  | chunk chunk due elapsed =>
    unfold onStreamEvent
    simp only [bind_eq, Drafting.modifyTurn]
    split
    · exact Stays.done _
    · refine Stays.bind (Stays.modify (fun _ => rfl) (fun _ => rfl) (fun _ => rfl) fun _ => id)
        fun _ => ?_
      refine Stays.get fun value _ => Stays.forget ?_
      refine Stays.bind (Stays.modify ?_ ?_ ?_ ?_) fun _ => ?_
      · intro draft
        dsimp only
        split <;> rfl
      · intro draft
        dsimp only
        split <;> rfl
      · intro draft
        dsimp only
        split <;> rfl
      · intro draft pending
        dsimp only
        split <;> exact pending
      · split
        · exact checkpoint_stays
        · exact Stays.done _
  | callback callback => exact onCallback_stays callback
  | broken failure => exact Stays.throw failure

theorem readStream_stays {sent : Bool} (events : List StreamEvent) :
    Stays name me input sent (readStream events) := by
  induction events with
  | nil => exact Stays.lift (Keeps.quiet Quiet.pause)
  | cons event events ih =>
    exact Stays.bind (Stays.lift (Keeps.quiet Quiet.pause)) fun _ =>
      Stays.bind (onStreamEvent_stays event) fun _ => ih

theorem streamText_draws : Draws name me input (Running me input false) streamText
    (fun _ => Running me input true) (Running me input true) := by
  unfold streamText
  simp only [bind_eq]
  refine Draws.through (fun _ => Running me input false)
    (Draws.modify fun running => running.redraft rfl rfl rfl id) fun _ => ?_
  refine Draws.get fun value => ?_
  apply Draws.lift
  rintro draft start now post here ⟨rfl, running⟩ done _
  obtain ⟨durable, evolves, sent⟩ := running.dispatch here.durable
  intro choice
  exact ⟨durable, evolves, done _ _ _ (running.weaken.here sent rfl here durable) sent⟩

theorem finished_same (turn : TurnView) (finish : Finish) (streamError : Text) :
    (finished turn finish streamError).turnId = turn.turnId ∧
      (finished turn finish streamError).question = turn.question ∧
      (finished turn finish streamError).usage = turn.usage ∧
      (finished turn finish streamError).settlementPending = turn.settlementPending ∧
      (finished turn finish streamError).state ≠ .started := by
  unfold finished
  cases finish with
  | stop =>
    dsimp only
    by_cases plain : streamError.isEmpty = true
    · rw [if_pos plain]
      split <;> simp
    · rw [if_neg plain]
      split <;> simp
  | other detail =>
    dsimp only
    split <;> simp

theorem streamAnswer_draws : Draws name me input (Running me input false) streamAnswer
    (fun _ draft world => Running me input true draft world ∧ draft.turn.state ≠ .started)
    (Running me input true) := by
  unfold streamAnswer
  simp only [bind_eq, Drafting.modifyTurn]
  refine Draws.bind throwIfAborted_stays fun _ => ?_
  refine Draws.through (fun _ => Running me input true) streamText_draws fun stream => ?_
  refine Draws.bind (readStream_stays _) fun _ => ?_
  refine Draws.bind (Stays.lift (Keeps.quiet Quiet.request)) fun usage => ?_
  refine Draws.bind (Stays.modify (fun _ => rfl) (fun _ => rfl) (fun _ => rfl) fun _ => id)
    fun _ => ?_
  refine Draws.bind (Stays.lift (Keeps.quiet Quiet.request)) fun answer => ?_
  refine Draws.bind (Stays.modify (fun _ => rfl) (fun _ => rfl) (fun _ => rfl) fun _ => id)
    fun _ => ?_
  refine Draws.bind (readStream_stays _) fun _ => ?_
  refine Draws.bind (Stays.lift (Keeps.quiet Quiet.request)) fun finish => ?_
  refine Draws.bind throwIfAborted_stays fun _ => ?_
  refine Draws.through (fun _ draft world => Running me input true draft world ∧
    draft.turn.state ≠ .started) (Draws.modify fun {draft world} running => ?_) fun _ => ?_
  · obtain ⟨turnId, question, usage, pending, ended⟩ :=
      finished_same draft.turn finish draft.streamError
    exact ⟨running.redraft turnId question usage fun settled => pending.trans settled, ended⟩
  · refine Draws.get fun value => ?_
    split
    · apply Draws.lift
      rintro draft start now post here ⟨_, running, ended⟩ done failed
      exact Keeps.quiet Quiet.pause here running
        (fun value back after here running => done value back after here ⟨running, ended⟩)
        fun failure back after here running => failed failure back after here running
    · exact Draws.done fun holds => holds.2

theorem tryRun_draws : Draws name me input (Running me input false) (tryRun input)
    (fun _ draft world => Running me input true draft world ∧ draft.turn.state ≠ .started)
    (Running me input true) :=
  Draws.bind admitRun_stays fun _ => Draws.bind freezeContext_stays fun _ => streamAnswer_draws

end Chat
