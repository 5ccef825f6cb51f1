import Eliot.Chat.Discipline

namespace Chat
open Relational Async Discipline Program

variable {name : Text} {me : Nat} {job : Job} {start now : World} {spawned : List (Nat × Job)}

structure Preserved (queued : RunTurnInput) (turn : TurnView) (before after : World) : Prop where
  agent : after.agent = before.agent
  current : after.current = before.current
  started : after.started = before.started
  stored : ∃ saved, after.turn queued.turnId = some saved ∧ saved.state = turn.state
  ended : before.agent.active = some queued.turnId → turn.state ≠ .started

variable {queued : RunTurnInput}

theorem handoff_of_handedOver {state : ChatState} {prior : TurnView}
    (waits : state.queued = some queued) (active : state.active = some queued.turnId)
    (handed : prior.HandedOver) (unsent : prior.state = .started) :
    handoff state queued prior = true := by
  obtain ⟨answer, limit, scope⟩ := handed.unsent unsent
  simp [handoff, waits, active, unsent, answer, limit, scope]

theorem handoff_self {state : ChatState} (prior : TurnView)
    (handed : handoff state queued prior = true) : state.active = some queued.turnId := by
  simp only [handoff, Bool.and_eq_true, beq_iff_eq] at handed
  exact handed.1.1.1.1.1

theorem undispatched_writable (durable : Durable now) (error : Text)
    (waits : now.agent.queued = some queued)
    (busy : now.current.isSome → now.agent.active = some queued.turnId) :
    Writable now (undispatchedTurn queued error) where
  question found := durable.asked waits found
  asked same _ := by
    cases waits.symm.trans same
    rfl
  handoff _ _ _ := ⟨rfl, (fun started => by cases started), fun _ => rfl⟩
  waiting running _ _ _ := busy running
  zombie zombie := by cases zombie.1

theorem undispatched_preserves (durable : Durable now) (error : Text)
    (waits : now.agent.queued = some queued)
    (absent : ∀ {prior}, now.turn queued.turnId = some prior →
      now.agent.active = some queued.turnId) :
    Preserves now (undispatchedTurn queued error) [] where
  question found := durable.asked waits found
  usage _ := .zero _
  pending found pending _ := by
    have handed := durable.handoff waits (absent found) found
    rw [handed.unsettled] at pending
    cases pending
  retired retired := by
    obtain ⟨prior, found⟩ := Option.isSome_iff_exists.mp retired.1
    exact absurd ⟨absent found, .inr ⟨queued, waits, rfl⟩⟩ retired.2

theorem wp_preserveUndispatched {error : Text} {post : Post TurnView}
    (durable : Durable now) (waits : now.agent.queued = some queued)
    (busy : now.current.isSome → now.agent.active = some queued.turnId)
    (done : ∀ turn after, Durable after → Evolves now after → Preserved queued turn now after →
      post job (.ok turn) spawned start after)
    (failed : post job (.error storageFailure) spawned start now) :
    (discipline name).wp me job (preserveUndispatched queued error) post spawned start now := by
  unfold preserveUndispatched
  simp only [bind_eq]
  apply wp_bind
  apply wp_look durable
  dsimp only [id]
  split
  · rename_i prior found
    obtain ⟨stored, apart⟩ := Option.filter_eq_some_iff.mp found
    refine done prior now durable (.refl now) ⟨rfl, rfl, rfl, ⟨prior, stored, rfl⟩, ?_⟩
    intro active unsent
    have handed := durable.handoff waits active stored
    rw [handoff_of_handedOver waits active handed unsent] at apart
    cases apart
  · rename_i missing
    have absent : ∀ {prior}, now.turn queued.turnId = some prior →
        now.agent.active = some queued.turnId := by
      intro prior found
      apply handoff_self prior
      have excluded := Option.filter_eq_none_iff.mp missing prior found
      simpa using excluded
    have writable := undispatched_writable durable error waits busy
    have preserves := undispatched_preserves durable error waits absent
    apply wp_bind
    apply wp_writeTurn durable writable preserves
    · intro time durable evolves
      refine done _ _ durable evolves
        ⟨rfl, rfl, rfl, ⟨(undispatchedTurn queued error).saved, ?_, rfl⟩, ?_⟩
      · exact (turn_write _ _ _ _).trans (if_pos rfl)
      · intro _ unsent
        cases unsent
    · exact failed

theorem drop_handoff (durable : Durable now) {stored : TurnView}
    (idle : now.current = none) (waits : now.agent.queued = some queued)
    (active : now.agent.active = some queued.turnId) (found : now.turn queued.turnId = some stored)
    (ended : stored.state ≠ .started) :
    Durable { now with agent := emptyState } := by
  apply reset_durable durable none false idle
  · intro t own
    cases own
  · intro other same
    cases waits.symm.trans same
    exact .inl (by rw [found]; rfl)
  · intro t turn slot _ other zombie
    cases active.symm.trans slot
    cases found.symm.trans other
    exact absurd zombie.1 ended

theorem wp_recoverStoppedHandoff {post : Post Bool} (durable : Durable now)
    (kept : ∀ recovered, post job (.ok recovered) spawned start now)
    (moved : now.current = none → ∀ recovered after, Durable after → Evolves now after →
      after.current = none → after.started = now.started →
      post job (.ok recovered) spawned start after) :
    (discipline name).wp me job recoverStoppedHandoff post spawned start now := by
  unfold recoverStoppedHandoff
  simp only [bind_eq, pure_eq]
  apply wp_bind
  apply wp_look durable
  dsimp only [id]
  split
  · exact kept true
  · rename_i queued waits
    split
    · exact kept true
    · rename_i own
      simp only [Bool.or_eq_true, not_or, Bool.not_eq_true, Option.isSome_eq_false_iff,
        Option.isNone_iff_eq_none, bne_eq_false_iff_eq] at own
      obtain ⟨idle, active⟩ := own
      apply wp_bind
      apply wp_attempt
      apply wp_bind
      apply wp_preserveUndispatched durable waits (fun _ => active)
      · intro turn after durable evolves preserved
        obtain ⟨stored, found, same⟩ := preserved.stored
        have ended : turn.state ≠ .started := preserved.ended active
        have idle : after.current = none := preserved.current.trans idle
        have started := preserved.started
        dsimp only
        rw [if_neg ended]
        apply wp_bind
        have dropped := drop_handoff durable idle (preserved.agent ▸ waits)
          (preserved.agent ▸ active) found (same ▸ ended)
        have after := evolves.trans (reset_evolves none false idle)
        apply wp_store durable
        · exact fun _ => ⟨dropped, reset_evolves none false idle⟩
        · exact fun _ => moved (by assumption) true _ dropped after idle started
        · exact moved (by assumption) false _ durable evolves idle started
      · exact kept false

theorem wp_preserveWaitingQuestion {post : Post Unit} (durable : Durable now)
    (idle : now.current = none)
    (next : ∀ result after, Durable after → Evolves now after → after.current = none →
      after.started = now.started → after.agent.active = now.agent.active →
      (now.agent.queued = none → after.agent.queued = none) →
      post job result spawned start after) :
    (discipline name).wp me job preserveWaitingQuestion post spawned start now := by
  unfold preserveWaitingQuestion
  simp only [bind_eq, pure_eq]
  apply wp_bind
  apply wp_look durable
  dsimp only
  split
  · exact next _ _ durable (.refl now) idle rfl rfl id
  · rename_i queued waits
    split
    · exact next _ _ durable (.refl now) idle rfl rfl id
    · rename_i apart
      apply wp_bind
      have quiet : now.current.isSome → now.agent.active = some queued.turnId := by
        intro busy
        rw [idle] at busy
        cases busy
      apply wp_preserveUndispatched durable waits quiet
      · intro turn after durable evolves preserved
        obtain ⟨stored, found, _⟩ := preserved.stored
        have still : after.current = none := preserved.current.trans idle
        have active : after.agent.active = now.agent.active := by rw [preserved.agent]
        dsimp only
        rw [← preserved.agent]
        apply wp_store durable
        · intro _
          refine ⟨unqueue_durable durable ?_, unqueue_evolves⟩
          intro other same
          rw [preserved.agent] at same
          cases waits.symm.trans same
          exact .inl (by rw [found]; rfl)
        · intro _
          refine next _ _ (unqueue_durable durable ?_) (evolves.trans unqueue_evolves) still
            preserved.started active fun _ => rfl
          intro other same
          rw [preserved.agent] at same
          cases waits.symm.trans same
          exact .inl (by rw [found]; rfl)
        · refine next _ _ durable evolves still preserved.started active fun empty => ?_
          cases waits.symm.trans empty
      · exact next _ _ durable (.refl now) idle rfl rfl id

end Chat
