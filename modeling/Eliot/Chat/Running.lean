import Eliot.Chat.Drafts

namespace Chat
open Relational Async Discipline Does Program
open Citations (resolveCitations)

variable {name : Text} {me : Nat} {input : RunTurnInput} {start now : World}

/-- What the code after the `try` block leaves of a turn. -/
structure Concludes (before after : TurnView) : Prop where
  turnId : after.turnId = before.turnId
  question : after.question = before.question
  pending : after.settlementPending = before.settlementPending
  ended : before.state ≠ .started → after.state ≠ .started

theorem Concludes.trans {first second third : TurnView} (before : Concludes first second)
    (after : Concludes second third) : Concludes first third :=
  ⟨after.turnId.trans before.turnId, after.question.trans before.question,
    after.pending.trans before.pending, after.ended ∘ before.ended⟩

theorem catchRun_concludes (ownerStop : Bool) (failure : Failure) (draft : Draft) :
    Concludes draft.turn (catchRun ownerStop failure draft) ∧
      (catchRun ownerStop failure draft).state ≠ .started := by
  unfold catchRun
  dsimp only
  have ended : ∀ otherwise : TurnState, otherwise ≠ .started →
      (if draft.turn.answer.isEmpty then otherwise else .partially) ≠ .started := by
    intro otherwise apart
    split
    · exact apart
    · simp
  split
  · exact ⟨⟨rfl, rfl, rfl, fun _ => ended _ (by simp)⟩, ended _ (by simp)⟩
  · exact ⟨⟨rfl, rfl, rfl, fun _ => ended _ (by simp)⟩, ended _ (by simp)⟩

variable {outcome : Except Failure Unit}

theorem caught_concludes (ownerStop : Bool) {draft : Draft}
    (ended : outcome = .ok () → draft.turn.state ≠ .started) :
    Concludes draft.turn (caught ownerStop draft outcome) ∧
      (caught ownerStop draft outcome).state ≠ .started := by
  cases outcome with
  | ok _ => exact ⟨⟨rfl, rfl, rfl, id⟩, ended rfl⟩
  | error failure => exact catchRun_concludes ownerStop failure draft

theorem afterCheckpoints_concludes (draft : Draft) :
    Concludes draft.turn (afterCheckpoints draft) := by
  unfold afterCheckpoints
  split
  · refine ⟨rfl, rfl, rfl, fun _ => ?_⟩
    dsimp only
    split <;> simp
  · exact ⟨rfl, rfl, rfl, id⟩

theorem graded_concludes (draft : Draft) (turn : TurnView) : Concludes turn (graded draft turn) := by
  unfold graded
  dsimp only
  split <;> split <;> exact ⟨rfl, rfl, rfl, fun ended => by first | exact ended | simp⟩

theorem usage_concludes (dispatched : Bool) (usage : Option Usage) (turn : TurnView) (time : Nat) :
    Concludes turn
      { turnUsageProjection dispatched usage turn with totalMs := some time } := by
  unfold turnUsageProjection
  dsimp only
  split <;> exact ⟨rfl, rfl, rfl, id⟩

theorem readPassages_does {pre bad : World → Prop} (count : Nat)
    (stable : ∀ {before after}, (discipline name).Sees me before after → pre before → pre after) :
    Does name me input pre (readPassages count) (fun _ => pre) bad := by
  induction count with
  | zero => exact fun here holds done _ => done _ _ _ here holds
  | succ count ih => exact bind (pause stable) fun _ => ih

theorem concludeTurn_does {draft : Draft}
    (ended : outcome = .ok () → draft.turn.state ≠ .started) :
    Does name me input (Running me input true draft) (concludeTurn draft outcome)
      (fun turn world => Running me input true draft world ∧ Concludes draft.turn turn ∧
        turn.state ≠ .started) fun _ => False := by
  unfold concludeTurn
  simp only [bind_eq, pure_eq]
  refine bind look fun world => ?_
  refine bind (readPassages_does _ fun sees running => running.stable sees) fun _ => ?_
  refine bind clock fun time => ?_
  intro start now post here running done _
  obtain ⟨catches, final⟩ :=
    caught_concludes (world.signalAborted draft.controller && world.agent.stopRequested) ended
  generalize caught _ draft outcome = turn at catches final ⊢
  have marked : Concludes turn (afterCheckpoints { draft with turn }) :=
    afterCheckpoints_concludes { draft with turn }
  have rest := (marked.trans (graded_concludes draft _)).trans
    (usage_concludes draft.dispatched draft.usage _ time)
  exact done _ _ _ here ⟨running, catches.trans rest, rest.ended final⟩

theorem begins_writable (ready : Ready me (.runTurn input) now) :
    Writable now (startedTurn input) ∧ Preserves now (startedTurn input) [] := by
  obtain ⟨_, _, active, queued, fresh⟩ := ready
  have unknown : ∀ {old}, now.turn (startedTurn input).turnId = some old → False := by
    intro old found
    cases fresh.symm.trans found
  refine ⟨⟨fun found => (unknown found).elim, ?_, ?_, fun _ _ _ _ => active, fun _ => .inl active⟩,
    fun found => (unknown found).elim, fun found => (unknown found).elim,
    fun found => (unknown found).elim, fun _ _ _ found => (unknown found).elim⟩
  · intro other waits _
    cases queued.symm.trans waits
    rfl
  · exact fun _ _ _ => ⟨rfl, fun _ => ⟨rfl, rfl, rfl⟩, fun ended => absurd rfl ended⟩

def Begun (me : Nat) (input : RunTurnInput) (world : World) : Prop :=
  ∀ draft : Draft, draft.turn = startedTurn input → Running me input false draft world

theorem Begun.stable {before after : World} (begun : Begun me input before)
    (sees : (discipline name).Sees me before after) : Begun me input after :=
  fun draft same => (begun draft same).stable sees

theorem beginTurn_does : Does name me input (Ready me (.runTurn input)) (beginTurn input)
    (fun _ => Begun me input)
    (fun world => Finished world input.turnId) := by
  intro start now post here ready done failed
  obtain ⟨writable, preserves⟩ := begins_writable ready
  obtain ⟨started, current, active, queued, fresh⟩ := ready
  have unsettled : ∀ settlement ∈ now.history.settled,
      settlement.turn.turnId ≠ input.turnId := by
    intro settlement member same
    obtain ⟨_, _, _, stored⟩ := here.durable.settled member
    rw [same, fresh] at stored
    cases stored
  have unsent : input.turnId ∉ now.history.dispatched := by
    intro member
    have stored := here.durable.dispatched member
    rw [fresh] at stored
    cases stored
  unfold beginTurn
  simp only [bind_eq, pure_eq]
  apply wp_bind
  apply wp_writeTurn here.durable writable preserves
  · intro time durable _
    have found : (now.write time (startedTurn input)).turn input.turnId =
        some (startedTurn input).saved := (turn_write _ _ _ _).trans (if_pos rfl)
    generalize written : now.write time (startedTurn input) = world at durable found
    have same : world.agent = now.agent ∧ world.current = now.current ∧
        world.started = now.started ∧ world.history = now.history := by
      rw [← written]
      exact ⟨rfl, rfl, rfl, rfl⟩
    obtain ⟨agent, running, begun, history⟩ := same
    have here : Here me (.runTurn input) start world := here.alone current begun durable
      ⟨begun.trans started, running.trans current, agent ▸ active⟩
    apply wp_bind
    apply wp_look durable
    dsimp only
    rw [agent, queued, Option.any_some, beq_self_eq_true, if_pos rfl]
    have saved : ∀ {other}, world.agent.queued = some other →
        (world.turn other.turnId).isSome ∨ world.agent.active ≠ some other.turnId ∧
          other.turnId ∈ world.history.removed := by
      intro other waits
      rw [agent] at waits
      cases queued.symm.trans waits
      exact .inl (by rw [found]; rfl)
    have unqueued := unqueue_durable durable saved
    rw [agent] at unqueued
    have evolves : Evolves world _ := unqueue_evolves
    rw [agent] at evolves
    apply wp_store durable
    · exact fun _ => ⟨unqueued, evolves⟩
    · intro _
      have mine := running.trans current
      refine done () _ _ (here.alone mine rfl unqueued ⟨begun.trans started, mine, active⟩) ?_
      intro draft same
      refine ⟨⟨mine, active, fun waits => by cases waits⟩, ⟨_, found, rfl, rfl, ?_⟩,
        same ▸ rfl, same ▸ rfl, same ▸ rfl, history ▸ unsettled, fun _ => history ▸ unsent⟩
      intro pending
      cases pending
    · refine failed _ _ _ here fun {turn} _ _ => .inr ⟨input, ?_, rfl⟩
      rw [agent, queued]
  · exact failed _ _ _ here fun {turn} stored _ => by cases fresh.symm.trans stored

theorem newController_does {pre bad : World → Prop}
    (stable : ∀ {before after}, (discipline name).Sees me before after → pre before → pre after) :
    Does name me input pre newController (fun _ => pre) bad := by
  unfold newController
  simp only [bind_eq, pure_eq]
  refine bind look fun world => ?_
  refine through (fun _ => pre) ?_ fun _ => ?_
  · intro start now post here holds done _
    have durable := memory_durable here.durable now.started now.current (some now.controllers)
      (now.controllers + 1) now.aborted here.durable.busy here.durable.booting here.durable.waiting
    have calm : Calm now { now with
        controller := some now.controllers, controllers := now.controllers + 1 } :=
      ⟨memory_evolves now.started now.current _ _ now.aborted fun busy _ _ _ => busy,
        memory_guards now.started _ _ now.aborted id⟩
    exact wp_assign durable calm.evolves (done () _ _ (here.calm durable calm)
      (stable calm.sees holds))
  · split
    · refine through (fun _ => pre) ?_ fun _ => ?_
      · intro start now post here holds done _
        have calm := abort_calm here.durable world.controllers
        exact wp_assign calm.1 calm.2.evolves (done () _ _ (here.calm calm.1 calm.2)
          (stable calm.2.sees holds))
      · exact fun here holds done _ => done _ _ _ here holds
    · exact fun here holds done _ => done _ _ _ here holds

def Ended (me : Nat) (t : Text) (world : World) : Prop :=
  Own me t world ∧ ∃ stored, world.turn t = some stored ∧ stored.state ≠ .started

theorem Ended.finished {t : Text} (ended : Ended me t now) : Finished now t := by
  intro turn found zombie
  obtain ⟨_, stored, same, final⟩ := ended
  cases found.symm.trans same
  exact absurd zombie.1 final

theorem writeResult_does {draft : Draft} {turn : TurnView}
    (concludes : Concludes draft.turn turn) (ended : turn.state ≠ .started) :
    Does name me input (Running me input true draft) (writeResult turn)
      (fun _ world => Ended me input.turnId world ∧ turn.turnId = input.turnId ∧
        Settles turn world)
      (fun world => Finished world input.turnId) := by
  intro start now post here running done failed
  have id : turn.turnId = input.turnId := concludes.turnId.trans running.turnId
  have question : turn.question = input.question := concludes.question.trans running.question
  obtain ⟨old, found, asked, unknown, pending⟩ := running.stored
  intro choice
  dsimp only
  split
  · split
    · rename_i settling
      refine ⟨here.durable, .refl _, failed _ _ _ here fun {other} stored zombie => ?_⟩
      rw [id, stored, Option.any_some, zombie.2] at settling
      cases settling
    · let history : History := { now.history with lost := turn.turnId :: now.history.lost }
      have grown : now.history.lost ⊆ history.lost := List.subset_cons_self _ _
      have durable : Durable { now with history } :=
        note_durable here.durable history rfl grown here.durable.once here.durable.dispatched
          fun member => accepted_mono here.durable history (List.Subset.refl _)
            (List.Subset.refl _) (List.Subset.refl _) member
      have calm : Calm now { now with history } :=
        ⟨note_evolves history rfl grown (List.Subset.refl _) fun _ => rfl, note_guards history rfl rfl⟩
      refine ⟨durable, calm.evolves, failed _ _ _ (here.calm durable calm) fun {other} _ _ => ?_⟩
      exact .inl (id ▸ List.mem_cons_self)
  · have owned : ∀ {stored}, now.turn turn.turnId = some stored → stored = old := by
      intro stored again
      rw [id, found] at again
      exact (Option.some.inj again).symm
    have writable : Writable now turn := by
      refine ⟨?_, ?_, ?_, ?_, fun zombie => absurd zombie.1 ended⟩
      · exact fun again => by rw [owned again, asked, question]
      · exact fun waits own => absurd (own.trans id) (running.own.handed waits)
      · exact fun waits own => absurd (own.trans id) (running.own.handed waits)
      · exact fun _ _ _ _ => id ▸ running.own.active
    have preserves : Preserves now turn [] := by
      refine ⟨?_, ?_, ?_, fun retired => absurd (id ▸ running.own.occupied) retired.2⟩
      · exact fun again => by rw [owned again, asked, question]
      · exact fun again => by
          rw [owned again, unknown]
          exact .unknown _
      · intro stored again settling cleared
        rw [owned again] at settling
        rw [concludes.pending, pending settling] at cleared
        cases cleared
    have durable : Durable (now.write choice.now turn) := write_durable here.durable writable
    have written : (now.write choice.now turn).turn turn.turnId = some turn.saved :=
      (turn_write _ _ _ _).trans (if_pos rfl)
    have own : Own me input.turnId (now.write choice.now turn) :=
      ⟨running.own.current, running.own.active, running.own.handed⟩
    refine ⟨durable, write_evolves preserves, done () _ _ ?_ ⟨⟨own, turn.saved, ?_, ended⟩, id, ?_⟩⟩
    · exact here.alone own.current rfl durable ⟨here.holds.1, own.current, own.active⟩
    · rw [← id]
      exact written
    · exact ⟨⟨turn.saved, written, rfl, fun _ => rfl⟩, ended⟩

theorem settleTurn_does {turn : TurnView} :
    Does name me input (fun world => Ended me input.turnId world ∧
        turn.turnId = input.turnId ∧ Settles turn world) (settleTurn turn)
      (fun _ => Ended me input.turnId) (Ended me input.turnId) := by
  intro start now post here ⟨ended, id, settles⟩ done failed
  have owns : Owns name me turn.turnId (Ended me turn.turnId) := owns_running
  rw [← id] at ended
  apply wp_settleTurn owns here ended fun _ => settles
  exact ⟨fun here ended _ => done _ _ _ here (id ▸ ended),
    fun here ended => failed _ _ _ here (id ▸ ended)⟩

theorem Ended.quiet {α : Type} {program : Agent α} (quiet : Quiet name program) :
    Does name me input (Ended me input.turnId) program (fun _ => Ended me input.turnId)
      (Ended me input.turnId) :=
  Does.quiet quiet fun sees ended => Owns.stable owns_running sees ended

/-- From the end of the `try` block to the settled result. -/
theorem finishes {draft : Draft}
    (ended : outcome = .ok () → draft.turn.state ≠ .started) :
    Does name me input (Running me input true draft)
      ((concludeTurn draft outcome).bind fun turn => (writeResult turn).bind fun _ =>
        (settleTurn turn).bind fun settled => Program.pause.bind fun _ =>
          touchChat.bind fun _ => .done (.ok settled))
      (fun _ world => Finished world input.turnId) fun world => Finished world input.turnId := by
  refine bind (mono (concludeTurn_does ended) id False.elim) fun turn => ?_
  intro start now post here ⟨running, concludes, final⟩ done failed
  refine bind (writeResult_does concludes final) (fun _ => ?_) here running done failed
  refine bind (mono settleTurn_does id Ended.finished) fun settled => ?_
  refine bind (mono (Ended.quiet Quiet.pause) id Ended.finished) fun _ => ?_
  refine bind (mono (Ended.quiet (Quiet.d1 fun _ _ => rfl)) id Ended.finished) fun _ => ?_
  exact fun here ended done _ => done _ _ _ here ended.finished

theorem answerTurn_does : Does name me input (Ready me (.runTurn input)) (answerTurn input)
    (fun _ world => Finished world input.turnId) (fun world => Finished world input.turnId) := by
  unfold answerTurn
  simp only [bind_eq, pure_eq]
  refine bind beginTurn_does fun _ => ?_
  refine bind (newController_does fun sees begun => Begun.stable begun sees)
    fun controller => ?_
  intro start now post here begun done failed
  apply wp_bind
  apply tryRun_draws _ here (begun _ rfl)
  · rintro ⟨failure | _, draft⟩ back after here holds
    · exact finishes (fun ended => by cases ended) here holds done failed
    · exact finishes (fun _ => holds.2) here holds.1 done failed
  · exact fun _ _ _ _ impossible => impossible.elim

theorem rejectRun_does (failure : Failure) :
    Does name me input (Ready me (.runTurn input)) (rejectRun input failure)
      (fun _ world => Finished world input.turnId) (fun world => Finished world input.turnId) := by
  intro start now post here ready done failed
  obtain ⟨started, current, active, queued, fresh⟩ := ready
  have untouched : Finished now input.turnId := by
    intro turn found
    cases fresh.symm.trans found
  unfold rejectRun
  simp only [bind_eq, pure_eq]
  apply wp_bind
  apply wp_look here.durable
  dsimp only
  split
  · exact failed _ _ _ here untouched
  · rename_i other matched
    obtain ⟨waits, _⟩ := Option.filter_eq_some_iff.mp matched
    cases queued.symm.trans waits
    apply wp_bind
    apply wp_preserveUndispatched here.durable waits fun _ => active
    · intro turn after durable evolves preserved
      obtain ⟨stored, found, state⟩ := preserved.stored
      have ended : stored.state ≠ .started := state ▸ preserved.ended active
      have finished : ∀ agent, Finished { after with agent } input.turnId := by
        intro agent other same zombie
        cases found.symm.trans same
        exact absurd zombie.1 ended
      have mine := preserved.current.trans current
      have slot : after.agent.active = some input.turnId := preserved.agent ▸ active
      have here : Here me (.runTurn input) start after := here.alone current preserved.started durable
        ⟨preserved.started.trans started, mine, slot⟩
      have saved : ∀ {other}, after.agent.queued = some other →
          (after.turn other.turnId).isSome ∨ after.agent.active ≠ some other.turnId ∧
            other.turnId ∈ after.history.removed := by
        intro other same
        rw [preserved.agent] at same
        cases queued.symm.trans same
        exact .inl (by rw [found]; rfl)
      have unqueued := unqueue_durable durable saved
      have unqueues : Evolves after _ := unqueue_evolves
      rw [preserved.agent] at unqueued unqueues
      apply wp_bind
      apply wp_store durable
      · exact fun _ => ⟨unqueued, unqueues⟩
      · exact fun _ => done _ _ _ (here.alone mine rfl unqueued ⟨here.holds.1, mine, active⟩)
          (finished _)
      · exact failed _ _ _ here (finished after.agent)
    · exact failed _ _ _ here untouched

theorem runTurn_does : Does name me input (Ready me (.runTurn input)) (runTurn input)
    (fun _ world => Finished world input.turnId) (fun world => Finished world input.turnId) := by
  unfold runTurn
  simp only [bind_eq]
  have checks : Does name me input (Ready me (.runTurn input)) (ensureProject input.projectId)
      (fun _ => Ready me (.runTurn input)) (Ready me (.runTurn input)) :=
    Does.quiet (Quiet.ensureProject _) fun sees ready => ready_stable sees.2 ready
  intro start now post here ready done failed
  apply wp_bind
  apply attempt checks here ready
  · rintro (failure | _) back after here ready
    · exact rejectRun_does failure here ready done failed
    · apply wp_bind
      apply wp_look here.durable
      dsimp only
      split
      · exact answerTurn_does here ready done failed
      · refine failed _ _ _ here fun {turn} found => ?_
        cases ready.2.2.2.2.symm.trans found
  · exact fun _ _ _ _ impossible => impossible.elim

theorem Finished.advance {t : Text} (finished : Finished now t)
    (other : now.agent.queued.any (·.turnId == t) = false) {turn : TurnView}
    (found : now.turn t = some turn) (zombie : turn.zombie) : t ∈ now.history.lost := by
  rcases finished found zombie with lost | ⟨queued, waits, own⟩
  · exact lost
  · simp [waits, own] at other

theorem advanceQueue_ends {t : Text} (here : Here me (.advanceQueue t) now now) :
    (discipline name).wp me (.advanceQueue t) (advanceQueue t)
      (fun _ _ => (discipline name).Ends me) [] now now := by
  obtain ⟨durable, _, started, current, active, finished⟩ := here
  -- Nobody else runs, so the task owes only what holds at every moment.
  have owes : ∀ {task after}, task ≠ me → (now.started = true → after.started = true) →
      Guards task now after := by
    intro task after other stays
    refine ⟨stays, fun busy => ?_⟩
    cases current.symm.trans busy
    exact absurd rfl other
  let freed : World := { now with current := none, controller := none }
  have free : Durable freed := memory_durable durable now.started none none now.controllers
    now.aborted (fun busy => by cases busy) (fun _ => rfl) fun busy => by cases busy
  have frees : Evolves now freed := memory_evolves now.started none none now.controllers
    now.aborted fun busy => by cases busy
  have ends : ∀ after, Durable after → after.started = now.started →
      (discipline name).Ends me [] now after := fun after durable same =>
    ⟨durable, fun _ other => owes other fun up => same.trans up, fun _ member => by cases member⟩
  have same := ends freed free rfl
  unfold advanceQueue
  simp only [bind_eq, pure_eq]
  apply wp_bind
  apply wp_look durable
  dsimp only
  rw [active, if_neg (fun apart => apart rfl)]
  apply wp_bind
  apply wp_assign free frees
  dsimp only
  split
  · apply wp_bind
    apply wp_recoverStoppedHandoff free
    · exact fun _ => same
    · exact fun _ _ after durable _ _ begun => ends after durable begun
  · rename_i other
    rw [Bool.not_eq_true] at other
    apply wp_bind
    apply wp_look free
    dsimp only
    split
    · apply wp_bind
      apply wp_attempt
      apply wp_preserveWaitingQuestion free rfl
      exact fun _ after durable _ _ begun _ _ => ends after durable begun
    · have left : ∀ {t' turn}, freed.agent.active = some t' → freed.turn t' = some turn →
          turn.zombie → t' ∈ freed.history.lost := by
        intro t' turn slot found zombie
        cases active.symm.trans slot
        exact Finished.advance finished other found zombie
      split
      · rename_i empty
        have cleared : Durable { freed with agent := emptyState } := by
          apply reset_durable free none false rfl
          · intro t' slot
            cases slot
          · intro queued waits
            cases empty.symm.trans waits
          · exact fun slot _ => left slot
        apply wp_store free
        · exact fun _ => ⟨cleared, reset_evolves none false rfl⟩
        · exact fun _ => ends _ cleared rfl
        · exact same
      · rename_i queued waits
        have apart : now.agent.active ≠ some queued.turnId := by
          intro slot
          cases active.symm.trans slot
          simp [waits] at other
        have fresh : freed.turn queued.turnId = none :=
          durable.waiting (by rw [current]; rfl) waits apart
        apply wp_bind
        apply wp_startRun free started rfl fresh
        · intro again same
          cases waits.symm.trans same
          rfl
        · exact left
        · intro task
          apply Crew.starts rfl
          intro busy same
          exact (Option.some.inj (current.symm.trans same)).symm
        · intro task after durable _ ready
          refine ⟨durable, fun _ other => owes other fun _ => ready.1, fun started member => ?_⟩
          rw [List.mem_singleton.mp member]
          exact ready
        · exact same

theorem runTurn_runs (here : Here me (.runTurn input) now now)
    (ready : Ready me (.runTurn input) now) :
    (discipline name).Runs me (.runTurn input) (body name (.runTurn input)) [] now now := by
  unfold Discipline.Runs body
  simp only [bind_eq]
  have turns : ∀ back after, Here me (.runTurn input) back after → Finished after input.turnId →
      (discipline name).wp me (.runTurn input)
        ((Program.continueAs (.advanceQueue input.turnId)).bind fun _ => Program.pause.bind fun _ =>
          advanceQueue input.turnId) (fun _ _ => (discipline name).Ends me) [] back after := by
    intro back after here finished
    obtain ⟨durable, guards, started, current, active⟩ := here
    apply wp_bind
    refine ⟨⟨(fun run => by cases run), (fun _ member => by cases member), Nat.zero_le 1⟩, ?_⟩
    apply wp_bind
    have holds : Holds me (.advanceQueue input.turnId) after :=
      ⟨started, current, active, finished⟩
    apply wp_pause ⟨durable, guards, holds⟩
    exact fun back here _ => advanceQueue_ends here
  apply wp_bind
  apply wp_attempt
  apply runTurn_does here ready
  · exact fun _ back after here finished => turns back after here finished
  · exact fun _ back after here finished => turns back after here finished

end Chat
