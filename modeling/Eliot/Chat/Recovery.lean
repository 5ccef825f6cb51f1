import Eliot.Chat.Settling

namespace Chat
open Relational Async Quiet Discipline Program

variable {name : Text} {me : Nat} {job : Job} {start now : World}

theorem retired_of_pending (durable : Durable now) {id : Text} {turn : TurnView}
    (found : now.turn id = some turn) (pending : turn.settlementPending = true)
    (apart : ¬(now.current.isSome ∧ now.agent.active = some id)) : now.Retired id := by
  refine ⟨by rw [found]; rfl, ?_⟩
  rintro ⟨active, busy | ⟨queued, waits, rfl⟩⟩
  · exact apart ⟨busy, active⟩
  · have handed := durable.handoff waits active found
    cases pending.symm.trans handed.unsettled

theorem interrupted_ended (turn : TurnView) : (interrupted turn).state ≠ .started := by
  unfold interrupted
  dsimp only
  split <;> simp

theorem wp_settleRetired {turn : TurnView} {post : Post TurnView} (here : Here me job start now)
    (retired : now.Retired turn.turnId) (settles : turn.state ≠ .started → Settles turn now)
    (next : ∀ result back after, Here me job back after → (discipline name).Sees me now after →
      post job result [] back after) :
    (discipline name).wp me job (settleTurn turn) post [] start now := by
  apply wp_settleTurn (owns_retired now) here ⟨sees_refl me now, retired⟩ settles
  exact ⟨fun here kept _ => next _ _ _ here kept.1, fun here kept => next _ _ _ here kept.1⟩

theorem wp_interrupt {turn : TurnView} {post : Post Unit} (here : Here me job start now)
    (found : now.turn turn.turnId = some turn) (pending : turn.settlementPending = true)
    (retired : now.Retired turn.turnId)
    (done : ∀ after, Here me job start after → (discipline name).Sees me now after →
      after.Retired turn.turnId → Settles (interrupted turn) after →
      post job (.ok ()) [] start after)
    (failed : post job (.error storageFailure) [] start now) :
    (discipline name).wp me job (writeTurn (interrupted turn)) post [] start now := by
  have owns : Owns name me (interrupted turn).turnId _ := owns_retired now
  have keeps : (discipline name).Sees me now now ∧ now.Retired turn.turnId :=
    ⟨sees_refl me now, retired⟩
  have settles : Settles (interrupted turn) now :=
    ⟨⟨turn, found, rfl, fun _ => rfl⟩, interrupted_ended turn⟩
  have writable : Writable now (interrupted turn) := settling_writable owns keeps here.durable
    settles.question fun zombie => interrupted_ended turn zombie.1
  have preserves : Preserves now (interrupted turn) [] := by
    constructor
    · exact settles.question
    · intro old stored
      cases found.symm.trans stored
      exact .refl _
    · intro _ _ _ cleared
      cases pending.symm.trans cleared
    · intro _ _ old stored
      cases found.symm.trans stored
      rfl
  apply wp_writeTurn here.durable writable preserves
  · intro time durable _
    have touch : Touch turn.turnId now (now.write time (interrupted turn)) :=
      settles.touch preserves fun _ member => by cases member
    obtain ⟨sees, still⟩ := owns.touch touch keeps
    exact done _ (here.touch owns keeps durable touch) sees still (settles.record time [])
  · exact failed

theorem Quiet.settleAll (ids : List Text) : Quiet name (settleAll ids) := by
  induction ids with
  | nil => exact done _
  | cons id ids ih =>
    intro me job start now post here next
    unfold Chat.settleAll
    simp only [bind_eq, pure_eq]
    apply wp_bind
    apply wp_look here.durable
    dsimp only
    split
    · exact ih here next
    · rename_i apart
      simp only [Bool.and_eq_true, beq_iff_eq] at apart
      split
      · exact ih here next
      · rename_i turn found
        obtain ⟨found, pending⟩ := Option.filter_eq_some_iff.mp found
        have retired := retired_of_pending here.durable found pending apart
        have own : turn.turnId = id := here.durable.keyed found
        subst own
        -- Whatever was written before, the turn is settled and the loop given back.
        have settle : ∀ {settling : TurnView} {after : World}, Here me job start after →
            (discipline name).Sees me now after → after.Retired settling.turnId →
            (settling.state ≠ .started → Settles settling after) →
            (discipline name).wp me job ((settleTurn settling).bind fun _ =>
              Program.pause.bind fun _ => Chat.settleAll ids) post [] start after := by
          intro settling after here sees retired settles
          apply wp_bind
          apply wp_settleRetired here retired settles
          rintro (failure | settled) back later here more
          · exact next _ _ _ here (sees_trans sees more)
          · refine (pause.bind fun _ => ih) here fun result back last here final => ?_
            exact next _ _ _ here (sees_trans (sees_trans sees more) final)
        split
        · apply wp_bind
          apply wp_interrupt here found pending retired
          · exact fun after here sees retired settles => settle here sees retired fun _ => settles
          · exact next _ _ _ here (sees_refl me now)
        · exact settle here (sees_refl me now) retired fun ended =>
            ⟨⟨turn, found, rfl, fun _ => rfl⟩, ended⟩

theorem Calm.idle {before after : World} (idle : before.current = none)
    (evolves : Evolves before after) (started : after.started = before.started) :
    Calm before after :=
  ⟨evolves, fun _ => .idle idle fun same => started.trans same⟩

theorem Quiet.preserveBehindFinished : Quiet name preserveBehindFinished := by
  intro me job start now post here next
  unfold Chat.preserveBehindFinished
  simp only [bind_eq, pure_eq]
  apply wp_bind
  apply wp_look here.durable
  dsimp only
  split
  · rename_i finished
    simp only [Bool.and_eq_true, Option.isNone_iff_eq_none] at finished
    have idle : now.current = none := finished.1.1
    apply wp_preserveWaitingQuestion here.durable idle
    intro result after durable evolves _ started _ _
    have calm : Calm now after := .idle idle evolves started
    exact next _ _ _ (here.calm durable calm) calm.sees
  · exact next _ _ _ here (sees_refl me now)

theorem Quiet.settlePending (active : Option Text) : Quiet name (settlePending active) :=
  bind look fun _ => settleAll _

theorem Quiet.releaseFinished (active : Option Text) : Quiet name (releaseFinished active) := by
  intro me job start now post here next
  unfold Chat.releaseFinished
  simp only [bind_eq, pure_eq]
  apply wp_bind
  apply wp_look here.durable
  dsimp only
  split
  · rename_i settled
    simp only [Bool.and_eq_true, Option.isNone_iff_eq_none, beq_iff_eq] at settled
    obtain ⟨⟨⟨⟨-, slot⟩, idle⟩, -⟩, finished⟩ := settled
    have released := release_durable here.durable idle fun active' found zombie => by
      rw [← slot, active', Option.bind_some, found] at finished
      simp [zombie.1] at finished
    have evolves := release_evolves idle
    have calm := Calm.idle idle evolves rfl
    apply wp_store here.durable
    · exact fun _ => ⟨released, evolves⟩
    · exact fun _ => next _ _ _ (here.calm released calm) calm.sees
    · exact next _ _ _ here (sees_refl me now)
  · exact next _ _ _ here (sees_refl me now)

theorem Quiet.exposePending : Quiet name exposePending := by
  intro me job start now post here next
  unfold Chat.exposePending
  simp only [bind_eq, pure_eq]
  apply wp_bind
  apply wp_look here.durable
  dsimp only
  split
  · exact next _ _ _ here (sees_refl me now)
  · rename_i pending first
    split
    · rename_i free
      simp only [Bool.and_eq_true, Option.isNone_iff_eq_none] at free
      obtain ⟨idle, empty⟩ := free
      have vacant := here.durable.vacant empty
      obtain ⟨turn, found, _⟩ := (mem_pending now).mp (List.mem_of_head? first)
      apply wp_bind
      apply wp_preserveWaitingQuestion here.durable idle
      intro result after durable evolves still started active queue
      have saved := Calm.idle idle evolves started
      cases result with
      | error failure => exact next _ _ _ (here.calm durable saved) saved.sees
      | ok _ =>
        have here := here.calm durable saved
        obtain ⟨later, stored, _⟩ := evolves.turns found
        have exposed : Durable { after with agent := ⟨some pending, none, false⟩ } := by
          apply reset_durable durable (some pending) false still
          · intro t same
            cases same
            rw [stored]
            rfl
          · intro queued waits
            cases (queue vacant).symm.trans waits
          · intro t turn occupied
            cases (active.trans empty).symm.trans occupied
        have calm := Calm.idle still (reset_evolves (some pending) false still) rfl
        apply wp_store durable
        · exact fun _ => ⟨exposed, calm.evolves⟩
        · exact fun _ => next _ _ _ (here.calm exposed calm) (sees_trans saved.sees calm.sees)
        · exact next _ _ _ here saved.sees
    · exact next _ _ _ here (sees_refl me now)

theorem Quiet.recoverFinishedTurn : Quiet name recoverFinishedTurn :=
  bind look fun active =>
    bind preserveBehindFinished fun _ =>
      bind (settlePending active) fun _ =>
        bind (releaseFinished active) fun _ => exposePending

end Chat
