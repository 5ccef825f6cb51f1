import Eliot.Chat.Ledger

namespace Chat
open Relational Async

def Job.isRun : Job → Bool
  | .runTurn _ => true
  | _ => false

def Finished (world : World) (t : Text) : Prop :=
  ∀ {turn}, world.turn t = some turn → turn.zombie → t ∈ world.history.lost ∨
    ∃ queued, world.agent.queued = some queued ∧ queued.turnId = t

def Holds (me : Nat) (job : Job) (world : World) : Prop :=
  world.started = true ∧ match job with
  | .runTurn input => world.current = some me ∧ world.agent.active = some input.turnId
  | .advanceQueue t => world.current = some me ∧ world.agent.active = some t ∧ Finished world t
  | _ => True

def Ready (me : Nat) (job : Job) (world : World) : Prop :=
  world.started = true ∧ match job with
  | .runTurn input => world.current = some me ∧ world.agent.active = some input.turnId ∧
      world.agent.queued = some input ∧ world.turn input.turnId = none
  | _ => False

structure Crew (me : Nat) (job : Job) (spawned : List (Nat × Job)) (start : World) : Prop where
  own : job.isRun = true → start.current = some me
  alone : ∀ task ∈ spawned, task.2.isRun = true →
    job.isRun = false ∧ ∀ other, start.current = some other → other = me
  single : (spawned.filter (·.2.isRun)).length ≤ 1

theorem Crew.starts {me task : Nat} {job started : Job} {start : World}
    (call : job.isRun = false) (free : ∀ other, start.current = some other → other = me) :
    Crew me job [(task, started)] start where
  own run := by
    rw [call] at run
    cases run
  alone _ _ _ := ⟨call, free⟩
  single := List.length_filter_le _ _

def discipline (name : Text) : Discipline (object name) where
  durable := Durable
  evolve := Evolves
  inv := Durable
  guarantee me before after := ∀ task, task ≠ me → Guards task before after
  rely := Guards
  holds := Holds
  ready := Ready
  crew := Crew

variable {before after : World}

theorem Finished.stable {t : Text} (finished : Finished before t)
    (evolves : Evolves before after) (frame : Frame t before after) : Finished after t := by
  intro turn found zombie
  rw [frame.turn] at found
  rcases finished found zombie with lost | ⟨queued, waits, own⟩
  · exact .inl (evolves.lost lost)
  · exact .inr ⟨queued, (frame.handoff queued own).mpr waits, own⟩

theorem holds_stable {me : Nat} {job : Job} (evolves : Evolves before after)
    (guards : Guards me before after) (holds : Holds me job before) : Holds me job after := by
  obtain ⟨started, holds⟩ := holds
  refine ⟨guards.stays started, ?_⟩
  cases job with
  | runTurn input =>
    have frame := guards.frame holds.1 holds.2
    exact ⟨frame.current.trans holds.1, frame.active.trans holds.2⟩
  | advanceQueue t =>
    have frame := guards.frame holds.1 holds.2.1
    exact ⟨frame.current.trans holds.1, frame.active.trans holds.2.1,
      Finished.stable holds.2.2 evolves frame⟩
  | onStart | submitTurn | stopTurn | getTurnPage | getStoredTurn => exact trivial

theorem ready_stable {me : Nat} {job : Job} (guards : Guards me before after)
    (ready : Ready me job before) : Ready me job after := by
  obtain ⟨started, ready⟩ := ready
  refine ⟨guards.stays started, ?_⟩
  cases job with
  | runTurn input =>
    obtain ⟨current, active, queued, fresh⟩ := ready
    have frame := guards.frame current active
    exact ⟨frame.current.trans current, frame.active.trans active,
      (frame.handoff input rfl).mpr queued, frame.turn.trans fresh⟩
  | advanceQueue | onStart | submitTurn | stopTurn | getTurnPage | getStoredTurn => exact ready.elim

theorem ready_holds {me : Nat} {job : Job} {world : World} (ready : Ready me job world) :
    Holds me job world := by
  obtain ⟨started, ready⟩ := ready
  refine ⟨started, ?_⟩
  cases job with
  | runTurn input => exact ⟨ready.1, ready.2.1⟩
  | advanceQueue | onStart | submitTurn | stopTurn | getTurnPage | getStoredTurn => exact ready.elim

structure Here (me : Nat) (job : Job) (start now : World) : Prop where
  durable : Durable now
  guards : ∀ task, task ≠ me → Guards task start now
  holds : Holds me job now

structure Calm (before after : World) : Prop where
  evolves : Evolves before after
  guards : ∀ task, Guards task before after

theorem Calm.refl (world : World) : Calm world world := ⟨.refl _, fun task => .refl task _⟩

theorem Calm.trans {first second third : World} (before : Calm first second)
    (after : Calm second third) : Calm first third :=
  ⟨before.evolves.trans after.evolves, fun task => (before.guards task).trans (after.guards task)⟩

variable {name : Text} {me : Nat} {job : Job} {start now : World} {α β : Type}

theorem sees_refl (me : Nat) (world : World) : (discipline name).Sees me world world :=
  ⟨Evolves.refl _, Guards.refl _ _⟩

theorem sees_trans {first second third : World} (before : (discipline name).Sees me first second)
    (after : (discipline name).Sees me second third) : (discipline name).Sees me first third :=
  ⟨Evolves.trans before.1 after.1, Guards.trans before.2 after.2⟩

theorem Calm.sees (calm : Calm before after) :
    (discipline name).Sees me before after := ⟨calm.evolves, calm.guards me⟩

theorem Here.calm {after : World} (here : Here me job start now) (durable : Durable after)
    (calm : Calm now after) : Here me job start after where
  durable := durable
  guards task other := (here.guards task other).trans (calm.guards task)
  holds := holds_stable calm.evolves (calm.guards me) here.holds

theorem Here.alone {after : World} (here : Here me job start now) (mine : now.current = some me)
    (started : after.started = now.started) (durable : Durable after)
    (holds : Holds me job after) : Here me job start after where
  durable := durable
  guards task other := by
    refine (here.guards task other).trans ⟨fun up => started.trans up, fun busy => ?_⟩
    cases mine.symm.trans busy
    exact absurd rfl other
  holds := holds

theorem Here.resumed {after : World} (holds : Holds me job now) (durable : Durable after)
    (sees : (discipline name).Sees me now after) : Here me job after after where
  durable := durable
  guards task _ := .refl task _
  holds := holds_stable sees.1 sees.2 holds

abbrev Post (α : Type) := Job → Except Failure α → List (Nat × Job) → World → World → Prop

section
variable {post : Post α} {spawned : List (Nat × Job)}

theorem wp_look {read : World → α} (durable : Durable now)
    (next : post job (.ok (read now)) spawned start now) :
    (discipline name).wp me job (.look read) post spawned start now :=
  fun _ => ⟨durable, .refl now, next⟩

theorem wp_assign {change : World → World} {post : Post Unit} (durable : Durable (change now))
    (evolves : Evolves now (change now)) (next : post job (.ok ()) spawned start (change now)) :
    (discipline name).wp me job (.assign change) post spawned start now :=
  fun _ => ⟨durable, evolves, next⟩

theorem wp_start {task : Job} {post : Post Nat}
    (next : ∀ id, Crew me job (spawned ++ [(id, task)]) start ∧
      post job (.ok id) (spawned ++ [(id, task)]) start now) :
    (discipline name).wp me job (.start task) post spawned start now := next

theorem wp_store {change : Choice → World → World} {post : Post Unit} (durable : Durable now)
    (sound : ∀ choice, Durable (change choice now) ∧ Evolves now (change choice now))
    (done : ∀ choice, post job (.ok ()) spawned start (change choice now))
    (failed : post job (.error storageFailure) spawned start now) :
    (discipline name).wp me job (store change) post spawned start now := by
  intro choice
  dsimp only
  split
  · exact ⟨durable, .refl now, failed⟩
  · exact ⟨(sound choice).1, (sound choice).2, done choice⟩

theorem wp_writeTurn {turn : TurnView} {post : Post Unit} (durable : Durable now)
    (writable : Writable now turn) (preserves : Preserves now turn [])
    (done : ∀ time, Durable (now.write time turn) → Evolves now (now.write time turn) →
      post job (.ok ()) spawned start (now.write time turn))
    (failed : post job (.error storageFailure) spawned start now) :
    (discipline name).wp me job (writeTurn turn) post spawned start now :=
  wp_store durable (fun _ => ⟨write_durable durable writable, write_evolves preserves⟩)
    (fun choice => done choice.now (write_durable durable writable) (write_evolves preserves)) failed

theorem wp_d1 {statement : Choice → World → Except Failure α × World}
    (here : Here me job start now)
    (sound : ∀ sent, Durable sent → (discipline name).Sees me now sent → ∀ choice,
      Durable (statement choice sent).2 ∧ Evolves sent (statement choice sent).2 ∧
      (∀ task, task ≠ me → Guards task sent (statement choice sent).2) ∧
      Holds me job (statement choice sent).2)
    (done : ∀ sent, Durable sent → (discipline name).Sees me now sent → ∀ choice back,
      Durable back → (discipline name).Sees me (statement choice sent).2 back →
      post job (statement choice sent).1 [] back back)
    (failed : ∀ sent, Durable sent → (discipline name).Sees me now sent → ∀ choice back,
      Durable back → (discipline name).Sees me (statement choice sent).2 back ∨
        (discipline name).Sees me sent back → post job (.error storageFailure) [] back back) :
    (discipline name).wp me job (d1 statement) post [] start now := by
  refine ⟨⟨here.durable, here.guards, by simp⟩, here.holds, ?_⟩
  intro sent inv sees choice
  obtain ⟨durable, evolves, guards, holds⟩ := sound sent inv sees choice
  dsimp only
  cases choice.reply with
  | delivered =>
    exact ⟨evolves, durable, guards, holds, fun back kept later =>
      done sent inv sees choice back kept later⟩
  | refused =>
    exact ⟨.refl _, inv, fun task _ => .refl task _, holds_stable sees.1 sees.2 here.holds,
      fun back kept later => failed sent inv sees choice back kept (.inr later)⟩
  | lost =>
    exact ⟨evolves, durable, guards, holds, fun back kept later =>
      failed sent inv sees choice back kept (.inl later)⟩

theorem wp_ask {answer : Choice → Except Failure α} (here : Here me job start now)
    (next : ∀ result back, Here me job back back → (discipline name).Sees me now back →
      post job result [] back back) :
    (discipline name).wp me job (ask answer) post [] start now := by
  refine ⟨⟨here.durable, here.guards, by simp⟩, here.holds, ?_⟩
  intro sent inv sees choice
  refine ⟨.refl _, inv, fun task _ => .refl task _, holds_stable sees.1 sees.2 here.holds, ?_⟩
  intro back durable later
  have all := sees_trans sees later
  exact next _ _ (.resumed here.holds durable all) all

theorem wp_pause {post : Post Unit} (here : Here me job start now)
    (next : ∀ back, Here me job back back → (discipline name).Sees me now back →
      post job (.ok ()) [] back back) :
    (discipline name).wp me job .pause post [] start now := by
  refine ⟨⟨here.durable, here.guards, by simp⟩, here.holds, ?_⟩
  intro sent inv sees choice
  refine ⟨.refl _, inv, fun task _ => .refl task _, holds_stable sees.1 sees.2 here.holds, ?_⟩
  intro back durable later
  have all := sees_trans sees later
  exact next _ (.resumed here.holds durable all) all

end

def Quiet (name : Text) (program : Agent α) : Prop :=
  ∀ {me job start now} {post : Post α}, Here me job start now →
    (∀ result back after, Here me job back after → (discipline name).Sees me now after →
      post job result [] back after) →
    (discipline name).wp me job program post [] start now

namespace Quiet

theorem done (result : Except Failure α) : Quiet name (.done result) :=
  fun here next => next result _ _ here (sees_refl _ _)

theorem bind {first : Agent α} {rest : α → Agent β} (quiet : Quiet name first)
    (later : ∀ value, Quiet name (rest value)) : Quiet name (first.bind rest) := by
  intro me job start now post here next
  apply Discipline.wp_bind
  apply quiet here
  rintro (failure | value) back after here sees
  · exact next _ _ _ here sees
  · exact later value here fun result back after here more =>
      next result back after here (sees_trans sees more)

theorem look {read : World → α} : Quiet name (.look read) :=
  fun here next => wp_look here.durable (next _ _ _ here (sees_refl _ _))

theorem d1 {statement : Choice → World → Except Failure α × World}
    (reads : ∀ choice world, (statement choice world).2 = world) :
    Quiet name (Chat.d1 statement) := by
  intro me job start now post here next
  refine wp_d1 here ?_ ?_ ?_
  · intro sent inv sees choice
    rw [reads]
    exact ⟨inv, .refl _, fun task _ => .refl task _, holds_stable sees.1 sees.2 here.holds⟩
  · intro sent inv sees choice back durable later
    rw [reads] at later
    have all := sees_trans sees later
    exact next _ _ _ (.resumed here.holds durable all) all
  · intro sent inv sees choice back durable later
    rw [reads, or_self] at later
    have all := sees_trans sees later
    exact next _ _ _ (.resumed here.holds durable all) all

theorem request {answer : Choice → Except Failure α} : Quiet name (ask answer) :=
  fun here next => wp_ask here fun _ _ here sees => next _ _ _ here sees

theorem pause : Quiet name (.pause : Agent Unit) :=
  fun here next => wp_pause here fun _ here sees => next _ _ _ here sees

end Quiet

end Chat
