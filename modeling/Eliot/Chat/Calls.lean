import Eliot.Chat.Recovery

namespace Chat
open Relational Async List Discipline Quiet Program

variable {name : Text} {me : Nat} {job : Job} {start now : World} {α : Type}

namespace Quiet

theorem ensureProject (projectId : Text) : Quiet name (ensureProject projectId) :=
  d1 fun _ _ => rfl

theorem recoverStoppedHandoff : Quiet name recoverStoppedHandoff := by
  intro me job start now post here next
  apply wp_recoverStoppedHandoff here.durable
  · exact fun recovered => next _ _ _ here (sees_refl me now)
  · intro idle recovered after durable evolves _ started
    have calm := Calm.idle idle evolves started
    exact next _ _ _ (here.calm durable calm) calm.sees

theorem requireRecoveredHandoff : Quiet name requireRecoveredHandoff := by
  apply bind recoverStoppedHandoff
  intro recovered
  cases recovered <;> exact done _

theorem getTurnPage (projectId : Text) : Quiet name (getTurnPage projectId) :=
  bind (Quiet.ensureProject projectId) fun _ =>
    bind Quiet.requireRecoveredHandoff fun _ => Quiet.recoverFinishedTurn

theorem getStoredTurn (projectId turnId : Text) : Quiet name (getStoredTurn projectId turnId) := by
  refine bind (Quiet.ensureProject projectId) fun _ =>
    bind Quiet.recoverFinishedTurn fun _ => bind pause fun _ =>
      bind look fun turn => ?_
  cases turn with
  | none => exact done _
  | some turn =>
    dsimp only
    split <;> exact done _

end Quiet

theorem Here.ends (here : Here me job start now) :
    (discipline name).Ends me [] start now :=
  ⟨here.durable, here.guards, fun _ member => by cases member⟩

theorem Quiet.runs {program : Agent Unit} (quiet : Quiet name program) (durable : Durable now)
    (holds : Holds me job now) : (discipline name).Runs me job program [] now now :=
  quiet ⟨durable, fun task _ => .refl task now, holds⟩ fun _ _ _ here _ => here.ends

/-- What `stopTurn` leaves when it takes back the waiting question. -/
theorem remove_sound (durable : Durable now) {turnId : Text}
    (waits : now.agent.queued.any (·.turnId == turnId) = true)
    (apart : now.agent.active ≠ some turnId) :
    Durable { now with
      agent := { now.agent with queued := none }
      history := { now.history with removed := turnId :: now.history.removed } } ∧
    Calm now { now with
      agent := { now.agent with queued := none }
      history := { now.history with removed := turnId :: now.history.removed } } := by
  let history : History := { now.history with removed := turnId :: now.history.removed }
  have grown : now.history.removed ⊆ history.removed := subset_cons_self _ _
  have noted : Durable { now with history } := note_durable durable history rfl
    (List.Subset.refl _) durable.once durable.dispatched fun member =>
      accepted_mono durable history grown (List.Subset.refl _) (List.Subset.refl _) member
  have notes : Calm now { now with history } :=
    ⟨note_evolves history rfl (List.Subset.refl _) (List.Subset.refl _) fun _ => rfl,
      note_guards history rfl rfl⟩
  have behind : ∀ {queued}, now.agent.queued = some queued →
      queued.turnId = turnId := by
    intro queued same
    rw [same, Option.any_some, beq_iff_eq] at waits
    exact waits
  refine ⟨unqueue_durable noted ?_, notes.evolves.trans unqueue_evolves, fun task =>
    (notes.guards task).trans (unqueue_guards ?_ task)⟩
  · intro queued same
    have own := behind same
    exact .inr ⟨own ▸ apart, own ▸ mem_cons_self⟩
  · intro queued same
    exact behind same ▸ apart

theorem Quiet.removeQueued (turnId : Text) : Quiet name (removeQueued turnId) := by
  intro me job start now post here next
  unfold Chat.removeQueued
  simp only [bind_eq, pure_eq]
  apply wp_bind
  apply wp_look here.durable
  dsimp only
  split
  · rename_i waits
    simp only [Bool.and_eq_true, bne_iff_ne] at waits
    obtain ⟨durable, calm⟩ := remove_sound here.durable waits.1 waits.2
    apply wp_store here.durable
    · exact fun _ => ⟨durable, calm.evolves⟩
    · exact fun _ => next _ _ _ (here.calm durable calm) calm.sees
    · exact next _ _ _ here (sees_refl me now)
  · exact next _ _ _ here (sees_refl me now)

theorem abort_calm {world : World} (durable : Durable world) (controller : Nat) :
    Durable { world with aborted := controller :: world.aborted } ∧
      Calm world { world with aborted := controller :: world.aborted } :=
  ⟨memory_durable durable world.started world.current world.controller world.controllers _
      durable.busy durable.booting durable.waiting,
    memory_evolves world.started world.current world.controller world.controllers _
      fun busy _ _ _ => busy,
    memory_guards world.started world.controller world.controllers _ id⟩

theorem Quiet.abort (controller : Nat) : Quiet name (abort controller) := by
  intro me job start now post here next
  obtain ⟨durable, calm⟩ := abort_calm here.durable controller
  exact wp_assign durable calm.evolves (next _ _ _ (here.calm durable calm) calm.sees)

theorem Quiet.requestStop (turnId : Text) : Quiet name (requestStop turnId) := by
  intro me job start now post here next
  unfold Chat.requestStop
  simp only [bind_eq, pure_eq]
  apply wp_bind
  apply wp_look here.durable
  dsimp only
  split
  · apply wp_bind
    have durable := stop_durable here.durable true
    have calm : Calm now { now with agent := { now.agent with stopRequested := true } } :=
      ⟨stop_evolves true, stop_guards true⟩
    apply wp_store here.durable
    · exact fun _ => ⟨durable, calm.evolves⟩
    · intro _
      refine bind look (fun controller => ?_) (here.calm durable calm)
        fun result back after here sees => next _ _ _ here (sees_trans calm.sees sees)
      cases controller with
      | none => exact done _
      | some controller => exact abort controller
    · exact next _ _ _ here (sees_refl me now)
  · exact next _ _ _ here (sees_refl me now)

theorem Quiet.stopTurn (projectId turnId : Text) : Quiet name (stopTurn projectId turnId) :=
  bind (Quiet.ensureProject projectId) fun _ =>
    bind Quiet.requireRecoveredHandoff fun _ =>
      bind Quiet.recoverFinishedTurn fun _ => bind pause fun _ =>
        bind (removeQueued turnId) fun _ => requestStop turnId

section
variable {input : RunTurnInput}

theorem wp_startRun {post : Post Nat} (durable : Durable now) (started : now.started = true)
    (idle : now.current = none)
    (fresh : now.turn input.turnId = none)
    (only : ∀ {queued}, now.agent.queued = some queued → queued = input)
    (finished : ∀ {t turn}, now.agent.active = some t → now.turn t = some turn → turn.zombie →
      t ∈ now.history.lost)
    (crew : ∀ task, Crew me job [(task, .runTurn input)] start)
    (done : ∀ task after, Durable after → Evolves now after → Ready task (.runTurn input) after →
      post job (.ok task) [(task, .runTurn input)] start after)
    (failed : post job (.error storageFailure) [] start now) :
    (discipline name).wp me job (startRun input) post [] start now := by
  unfold startRun
  simp only [bind_eq, pure_eq]
  have claimed := claim_durable durable input idle fresh only finished
  have claims := claim_evolves input idle fresh
  apply wp_bind
  apply wp_store durable
  · exact fun _ => ⟨claimed, claims⟩
  · intro _
    apply wp_bind
    apply wp_start
    intro task
    refine ⟨crew task, ?_⟩
    let running : World := { now with
      agent := ⟨some input.turnId, some input, false⟩
      current := some task }
    have durable : Durable running := by
      apply memory_durable claimed now.started (some task) now.controller now.controllers
        now.aborted (fun _ => rfl)
      · intro booting
        cases started.symm.trans booting
      · intro _ queued waits apart
        cases waits
        exact absurd rfl apart
    have evolves : Evolves
        { now with agent := ⟨some input.turnId, some input, false⟩ } running := by
      apply memory_evolves now.started (some task) now.controller now.controllers now.aborted
      intro _ t stored active
      cases active
      cases stored.symm.trans (congrArg Option.isSome fresh)
    apply wp_bind
    apply wp_assign durable evolves
    exact done task running durable (claims.trans evolves) ⟨started, rfl, rfl, rfl, fresh⟩
  · exact failed

theorem sameTurnRequest_same {queued input : RunTurnInput}
    (same : sameTurnRequest queued input = true) :
    queued.turnId = input.turnId ∧ queued.question = input.question := by
  simp only [sameTurnRequest, Bool.and_eq_true, decide_eq_true_eq] at same
  exact ⟨same.1.1.1.1.2, same.1.1.1.2⟩

theorem wp_accept {result : SubmitResult} {spawned : List (Nat × Job)} {post : Post SubmitResult}
    (durable : Durable now) (placed : now.Kept input ∨ now.Gone input)
    (done : ∀ after, Durable after → Calm now after → post job (.ok result) spawned start after) :
    (discipline name).wp me job (accept input result) post spawned start now := by
  let history : History := { now.history with accepted := input :: now.history.accepted }
  have noted : Durable { now with history } := by
    apply note_durable durable history rfl (List.Subset.refl _) durable.once durable.dispatched
    intro other member
    rcases mem_cons.mp member with rfl | member
    · exact placed
    · exact durable.accepted member
  have calm : Calm now { now with history } :=
    ⟨note_evolves history rfl (List.Subset.refl _) (subset_cons_self _ _) fun _ => rfl,
      note_guards history rfl rfl⟩
  apply wp_bind
  apply wp_assign noted calm.evolves
  exact done _ noted calm

theorem wp_repeatActive {result : SubmitResult} {post : Post SubmitResult} (durable : Durable now)
    (fresh : now.turn input.turnId = none) (active : now.agent.active = some input.turnId)
    (done : ∀ after, Durable after → Calm now after → post job (.ok result) [] start after) :
    (discipline name).wp me job (repeatActive input result) post [] start now := by
  unfold repeatActive
  simp only [bind_eq]
  apply wp_bind
  apply wp_look durable
  dsimp only
  split
  · let history : History := { now.history with mismatched := input :: now.history.mismatched }
    have grown : now.history.mismatched ⊆ history.mismatched := subset_cons_self _ _
    have noted : Durable { now with history } := note_durable durable history rfl
      (List.Subset.refl _) durable.once durable.dispatched fun member =>
        accepted_mono durable history (List.Subset.refl _) grown (List.Subset.refl _) member
    have notes : Calm now { now with history } :=
      ⟨note_evolves history rfl (List.Subset.refl _) (List.Subset.refl _) fun _ => rfl, note_guards history rfl rfl⟩
    apply wp_bind
    apply wp_assign noted notes.evolves
    apply wp_accept noted (.inr (.inr (.inl mem_cons_self)))
    exact fun after durable calm => done after durable (notes.trans calm)
  · rename_i same
    apply wp_accept durable _ done
    rcases durable.slot active with stored | ⟨queued, waits, own⟩
    · rw [fresh] at stored
      cases stored
    · simp only [waits, Option.any_some, Bool.not_eq_true', Bool.not_eq_false, beq_iff_eq] at same
      exact .inl (.inr ⟨queued, waits, own, same⟩)

theorem wp_admitQuestion {wait : Bool} (here : Here me (.submitTurn input wait) now now) :
    (discipline name).wp me (.submitTurn input wait) (admitQuestion input wait)
      (fun _ _ => (discipline name).Ends me) [] now now := by
  have ends : ∀ after, Durable after → Calm now after → (discipline name).Ends me [] now after :=
    fun after durable calm => (here.calm durable calm).ends
  have same := ends now here.durable (.refl now)
  unfold admitQuestion
  simp only [bind_eq, pure_eq]
  apply wp_bind
  apply wp_look here.durable
  dsimp only
  split
  · split
    · split <;> exact same
    · exact same
  · rename_i fresh
    split
    · rename_i active slot
      split
      · rename_i own
        subst own
        split
        · exact wp_repeatActive here.durable fresh slot ends
        · exact wp_repeatActive here.durable fresh slot ends
      · rename_i other
        split
        · exact same
        · split
          · exact same
          · split
            · rename_i queued waits
              split
              · exact same
              · split
                · exact same
                · split
                  · exact same
                  · rename_i equal
                    simp only [Bool.not_eq_true', Bool.not_eq_false] at equal
                    obtain ⟨id, question⟩ := sameTurnRequest_same equal
                    exact wp_accept here.durable (.inl (.inr ⟨queued, waits, id, question⟩)) ends
            · rename_i empty
              have queued := enqueue_durable here.durable slot empty other fresh
              have calm : Calm now { now with agent := { now.agent with queued := some input } } :=
                ⟨enqueue_evolves slot other, enqueue_guards slot empty other⟩
              apply wp_bind
              apply wp_store here.durable
              · exact fun _ => ⟨queued, calm.evolves⟩
              · intro _
                apply wp_accept queued (.inl (.inr ⟨input, rfl, rfl, rfl⟩))
                exact fun after durable later => ends after durable (calm.trans later)
              · exact same
    · rename_i empty
      have idle : now.current = none := by
        cases running : now.current with
        | none => rfl
        | some task =>
          have busy := here.durable.busy (by rw [running]; rfl)
          rw [empty] at busy
          cases busy
      have vacant := here.durable.vacant empty
      apply wp_bind
      apply wp_startRun here.durable here.holds.1 idle fresh
      · intro queued waits
        cases vacant.symm.trans waits
      · intro t turn active
        cases empty.symm.trans active
      · intro task
        apply Crew.starts rfl
        intro other busy
        cases idle.symm.trans busy
      · intro task after durable evolves ready
        have kept : after.Kept input := .inr ⟨input, ready.2.2.2.1, rfl, rfl⟩
        have still : after.started = true := ready.1
        apply wp_accept durable (.inl kept)
        intro last durable calm
        refine ⟨durable, fun other _ => ?_, fun started member => ?_⟩
        · exact .idle idle fun _ => (calm.guards other).stays still
        · rw [mem_singleton.mp member]
          exact ready_stable (calm.guards task) ready
      · exact same

theorem submitTurn_runs {wait : Bool} (here : Here me (.submitTurn input wait) now now) :
    (discipline name).Runs me (.submitTurn input wait) (body name (.submitTurn input wait)) []
      now now := by
  unfold Discipline.Runs body submitTurn
  simp only [bind_eq, pure_eq, bind_assoc]
  apply wp_bind
  apply Quiet.ensureProject _ here
  rintro (failure | _) back after here _
  · exact here.ends
  · dsimp only
    split
    · exact here.ends
    · apply wp_bind
      apply wp_bind
      apply Quiet.requireRecoveredHandoff here
      rintro (failure | _) back after here _
      · exact here.ends
      · apply wp_bind
        apply Quiet.recoverFinishedTurn here
        rintro (failure | _) back after here _
        · exact here.ends
        · apply wp_bind
          apply wp_pause here
          intro after here _
          apply wp_mono _ (wp_admitQuestion here)
          rintro _ (failure | _) _ _ _ ends <;> exact ends

end

structure Restarting (world : World) : Prop where
  durable : Durable world
  idle : world.current = none
  stored : ∀ {queued}, world.agent.queued = some queued → ∃ turn,
    world.turn queued.turnId = some turn ∧
      (world.agent.active = some queued.turnId → turn.state ≠ .started)

theorem Restarting.mark {turn marked : TurnView} (restarting : Restarting now)
    (active : now.agent.active = some marked.turnId) (found : now.turn marked.turnId = some turn)
    (cut : turn.state = .started ∨ turn.input.isNone) (question : turn.question = marked.question)
    (usage : turn.usage = marked.usage) (pending : marked.settlementPending = true) :
    Writable now marked ∧ Preserves now marked [] := by
  have apart : ∀ {queued}, now.agent.queued = some queued → queued.turnId ≠ marked.turnId := by
    intro queued waits same
    obtain ⟨stored, same', ended⟩ := restarting.stored waits
    rw [same] at same' ended
    cases found.symm.trans same'
    rcases cut with started | bare
    · exact ended active started
    · have handed := restarting.durable.handoff waits (same ▸ active) (same ▸ found)
      have kept := handed.kept (ended active)
      rw [Option.isNone_iff_eq_none.mp bare] at kept
      cases kept
  constructor
  · constructor
    · intro old same
      cases found.symm.trans same
      exact question
    · exact fun waits same => absurd same (apart waits)
    · exact fun waits same => absurd same (apart waits)
    · exact fun _ _ waits same => absurd same (apart waits)
    · intro zombie
      cases pending.symm.trans zombie.2
  · constructor
    · intro old same
      cases found.symm.trans same
      exact question
    · intro old same
      cases found.symm.trans same
      exact usage ▸ .refl _
    · intro _ _ _ cleared
      cases pending.symm.trans cleared
    · intro _ _ old same
      cases found.symm.trans same
      exact usage

theorem wp_interruptActive {post : Post Unit} (restarting : Restarting now)
    (done : ∀ after, Restarting after → Evolves now after → after.agent = now.agent →
      (∀ {t turn}, after.agent.active = some t → after.turn t = some turn → ¬turn.zombie) →
      post job (.ok ()) [] start after)
    (failed : post job (.error storageFailure) [] start now) :
    (discipline name).wp me job interruptActive post [] start now := by
  unfold interruptActive
  simp only [bind_eq, pure_eq]
  apply wp_bind
  apply wp_look restarting.durable
  dsimp only
  -- Marking the turn leaves the hand-over as it is and no zombie behind.
  have marks : ∀ {turn : TurnView} (marked : TurnView), now.agent.active = some marked.turnId →
      now.turn marked.turnId = some turn → (turn.state = .started ∨ turn.input.isNone) →
      turn.question = marked.question → turn.usage = marked.usage → marked.state ≠ .started →
      marked.settlementPending = true →
      (discipline name).wp me job (writeTurn marked) post [] start now := by
    intro turn marked active found cut question usage ended pending
    obtain ⟨writable, preserves⟩ := restarting.mark active found cut question usage pending
    apply wp_writeTurn restarting.durable writable preserves
    · intro time durable evolves
      refine done _ ⟨durable, restarting.idle, ?_⟩ evolves rfl ?_
      · intro queued waits
        obtain ⟨stored, same, apart⟩ := restarting.stored waits
        rw [turn_write]
        split
        · exact ⟨marked.saved, rfl, fun _ => ended⟩
        · exact ⟨stored, same, apart⟩
      · intro t other slot same zombie
        cases active.symm.trans slot
        rw [turn_write, if_pos rfl, Option.some.injEq] at same
        subst same
        exact ended zombie.1
    · exact failed
  split
  · rename_i turn found
    obtain ⟨t, active, found⟩ := Option.bind_eq_some_iff.mp found
    have own := restarting.durable.keyed found
    subst own
    split
    · rename_i started
      exact marks { interrupted turn with settlementPending := true } active found
        (.inl started) rfl rfl (interrupted_ended turn) rfl
    · rename_i ended
      split
      · rename_i bare
        exact marks { turn with settlementPending := true } active found
          (.inr bare) rfl rfl ended rfl
      · refine done now restarting (.refl now) rfl ?_
        intro t other slot same zombie
        cases active.symm.trans slot
        cases found.symm.trans same
        exact ended zombie.1
  · rename_i absent
    refine done now restarting (.refl now) rfl ?_
    intro t turn active found _
    rw [active, Option.bind_some, found] at absent
    cases absent

theorem wp_resetSlot {queued : Option RunTurnInput} {post : Post Unit}
    (restarting : Restarting now)
    (alive : ∀ {t turn}, now.agent.active = some t → now.turn t = some turn → ¬turn.zombie)
    (done : ∀ after, Durable after → Evolves now after → after.current = none →
      post job (.ok ()) [] start after)
    (failed : post job (.error storageFailure) [] start now) :
    (discipline name).wp me job (resetSlot queued) post [] start now := by
  unfold resetSlot
  simp only [bind_eq, pure_eq]
  apply wp_bind
  apply wp_look restarting.durable
  dsimp only
  split
  · generalize slot : now.agent.active.filter _ = active
    have reset : Durable { now with agent := ⟨active, none, false⟩ } := by
      apply reset_durable restarting.durable active false restarting.idle
      · intro t same
        rw [same] at slot
        obtain ⟨_, pending⟩ := Option.filter_eq_some_iff.mp slot
        cases found : now.turn t with
        | none => simp [found] at pending
        | some turn => rfl
      · intro queued waits
        obtain ⟨turn, found, _⟩ := restarting.stored waits
        exact .inl (by rw [found]; rfl)
      · exact fun occupied _ found zombie => absurd zombie (alive occupied found)
    have evolves := reset_evolves active false restarting.idle
    apply wp_store restarting.durable
    · exact fun _ => ⟨reset, evolves⟩
    · exact fun _ => done _ reset evolves restarting.idle
    · exact failed
  · exact done now restarting.durable (.refl now) restarting.idle

theorem wp_restore {post : Post Unit} (durable : Durable now) (idle : now.current = none)
    (done : ∀ after, Durable after → after.current = none → post job (.ok ()) [] start after)
    (failed : ∀ after, Durable after → post job (.error storageFailure) [] start after) :
    (discipline name).wp me job restore post [] start now := by
  have resets : ∀ {queued} after, Restarting after →
      (discipline name).wp me job (interruptActive.bind fun _ => resetSlot queued) post []
        start after := by
    intro queued after restarting
    apply wp_bind
    apply wp_interruptActive restarting
    · intro after restarting _ _ alive
      apply wp_resetSlot restarting alive
      · exact fun after durable _ idle => done after durable idle
      · exact failed _ restarting.durable
    · exact failed _ restarting.durable
  unfold restore
  simp only [bind_eq]
  apply wp_bind
  apply wp_look durable
  dsimp only
  split
  · rename_i queued waits
    apply wp_bind
    have quiet : now.current.isSome → now.agent.active = some queued.turnId := by
      intro busy
      rw [idle] at busy
      cases busy
    apply wp_preserveUndispatched durable waits quiet
    · intro turn after durable _ preserved
      refine resets after ⟨durable, preserved.current.trans idle, ?_⟩
      intro other same
      rw [preserved.agent] at same ⊢
      cases waits.symm.trans same
      obtain ⟨stored, found, state⟩ := preserved.stored
      exact ⟨stored, found, fun active => state ▸ preserved.ended active⟩
    · exact failed now durable
  · rename_i empty
    refine resets now ⟨durable, idle, fun waits => ?_⟩
    cases empty.symm.trans waits

theorem onStart_runs (durable : Durable now) (idle : now.current = none)
    (booting : now.started = false) :
    (discipline name).Runs me .onStart (body name .onStart) [] now now := by
  have ends : ∀ after, Durable after → (discipline name).Ends me [] now after := by
    refine fun after durable => ⟨durable, fun task _ => .idle idle ?_, fun _ member => by cases member⟩
    intro started
    cases booting.symm.trans started
  unfold Discipline.Runs body onStart
  simp only [bind_eq]
  apply wp_bind
  apply wp_restore durable idle
  · intro after durable idle'
    have started : Durable { after with started := true } := by
      apply memory_durable durable true after.current after.controller after.controllers
        after.aborted durable.busy (fun booting => by cases booting) durable.waiting
    have evolves : Evolves after { after with started := true } :=
      memory_evolves true after.current after.controller after.controllers after.aborted
        fun busy _ _ _ => busy
    apply wp_bind
    apply wp_assign started evolves
    have here : Here me .onStart now { after with started := true } :=
      ⟨started, fun task _ => .idle idle fun _ => rfl, rfl, trivial⟩
    exact Quiet.recoverFinishedTurn here fun _ _ _ here _ => here.ends
  · exact ends

end Chat
