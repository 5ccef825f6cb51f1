import Eliot.Async.Interleaving

namespace Async

variable {State Choice Job Error α β : Type}

/-- What a proof about a system fixes beforehand: what holds at every moment and across every
    step, what holds whenever the loop is free, and for each task what it may do in one
    segment, what it may rely on and what it keeps while it is suspended, what it needs to
    start, and which tasks may be about while it holds the loop. -/
structure Discipline (system : System State Choice Job Error) where
  durable : State → Prop
  evolve : State → State → Prop
  inv : State → Prop
  guarantee : Nat → State → State → Prop
  rely : Nat → State → State → Prop
  holds : Nat → Job → State → Prop
  ready : Nat → Job → State → Prop
  crew : Nat → Job → List (Nat × Job) → State → Prop

namespace Discipline

variable {system : System State Choice Job Error} (d : Discipline system)

def Sees (me : Nat) (before after : State) : Prop :=
  d.evolve before after ∧ d.rely me before after

def Ends (me : Nat) (spawned : List (Nat × Job)) (start now : State) : Prop :=
  d.inv now ∧ d.guarantee me start now ∧ ∀ task ∈ spawned, d.ready task.1 task.2 now

/-- The weakest precondition of a task under interference. Between its start and its next
    `await` a task is alone; at an `await` it settles what it owes and afterwards knows only
    what `Sees` leaves it, once before its request is executed and once more after it. -/
def wp (me : Nat) : Job → Program State Choice Job Error α →
    (Job → Except Error α → List (Nat × Job) → State → State → Prop) →
    List (Nat × Job) → State → State → Prop
  | job, .done result, post, spawned, start, now => post job result spawned start now
  | job, .sync action next, post, spawned, start, now =>
    ∀ choice, d.durable (action choice now).2 ∧ d.evolve now (action choice now).2 ∧
      wp me job (next (action choice now).1) post spawned start (action choice now).2
  | job, .await request next, post, spawned, start, now =>
    d.Ends me spawned start now ∧ d.holds me job now ∧
    ∀ sent, d.inv sent → d.Sees me now sent → ∀ choice,
      d.evolve sent (request choice sent).2 ∧ d.inv (request choice sent).2 ∧
      d.guarantee me sent (request choice sent).2 ∧ d.holds me job (request choice sent).2 ∧
      ∀ back, d.inv back → d.Sees me (request choice sent).2 back →
        wp me job (next (request choice sent).1) post [] back back
  | job, .spawn task next, post, spawned, start, now =>
    ∀ id, d.crew me job (spawned ++ [(id, task)]) start ∧
      wp me job (next id) post (spawned ++ [(id, task)]) start now
  | _, .become job next, post, spawned, start, now =>
    d.crew me job spawned start ∧ wp me job next post spawned start now

def Runs (me : Nat) (job : Job) (program : Program State Choice Job Error Unit)
    (spawned : List (Nat × Job)) (start now : State) : Prop :=
  d.wp me job program (fun _ _ => d.Ends me) spawned start now

def Parked (task : Task State Choice Job Error) (now : State) : Prop :=
  d.holds task.id task.job now ∧
  match task.ready, task.program with
  | true, program => ∀ back, d.inv back → d.Sees task.id now back →
      d.Runs task.id task.job program [] back back
  | false, .await request next =>
    ∀ sent, d.inv sent → d.Sees task.id now sent → ∀ choice,
      d.evolve sent (request choice sent).2 ∧ d.inv (request choice sent).2 ∧
      d.guarantee task.id sent (request choice sent).2 ∧
      d.holds task.id task.job (request choice sent).2 ∧
      ∀ back, d.inv back → d.Sees task.id (request choice sent).2 back →
        d.Runs task.id task.job (next (request choice sent).1) [] back back
  | false, _ => False

structure Lawful : Prop where
  evolve_refl : ∀ state, d.evolve state state
  evolve_trans : ∀ {first second third}, d.evolve first second → d.evolve second third →
    d.evolve first third
  rely_refl : ∀ me state, d.rely me state state
  rely_trans : ∀ {me first second third}, d.rely me first second → d.rely me second third →
    d.rely me first third
  inv_durable : ∀ {state}, d.inv state → d.durable state
  compatible : ∀ {me other before after}, me ≠ other → d.evolve before after →
    d.guarantee me before after → d.rely other before after
  ready_holds : ∀ {me job state}, d.ready me job state → d.holds me job state
  ready_stable : ∀ {me job before after}, d.inv after → d.Sees me before after →
    d.ready me job before → d.ready me job after
  holds_stable : ∀ {me job before after}, d.inv after → d.Sees me before after →
    d.holds me job before → d.holds me job after
  crew_alone : ∀ {me job state}, d.holds me job state → d.crew me job [] state
  correct : ∀ {me job state}, d.inv state → d.ready me job state →
    d.Runs me job (system.body job) [] state state
  entry : ∀ {job state}, d.inv state → system.admits state job = true → ∀ me,
    d.crew me job [] state ∧ d.Runs me job (system.body job) [] state state
  restart : ∀ {keep}, system.restart = some keep → ∀ {state}, d.durable state →
    d.evolve state (keep state) ∧ d.inv (keep state)

section
variable {me : Nat} {job : Job} {spawned : List (Nat × Job)} {start now : State}
variable {program : Program State Choice Job Error α}

theorem wp_mono
    {strong weak : Job → Except Error α → List (Nat × Job) → State → State → Prop}
    (h : d.wp me job program strong spawned start now)
    (weaken : ∀ job result spawned start now,
      strong job result spawned start now → weak job result spawned start now) :
    d.wp me job program weak spawned start now := by
  induction program generalizing job spawned start now with
  | done result => exact weaken _ _ _ _ _ h
  | sync action next ih =>
    intro choice
    obtain ⟨durable, evolves, rest⟩ := h choice
    exact ⟨durable, evolves, ih _ rest⟩
  | await request next ih =>
    obtain ⟨ends, holds, rest⟩ := h
    refine ⟨ends, holds, fun sent inv sees choice => ?_⟩
    obtain ⟨evolves, kept, owed, still, rest⟩ := rest sent inv sees choice
    exact ⟨evolves, kept, owed, still, fun back inv sees => ih _ (rest back inv sees)⟩
  | spawn task next ih => exact fun id => ⟨(h id).1, ih _ (h id).2⟩
  | become job next ih => exact ⟨h.1, ih h.2⟩

theorem wp_bind
    {rest : α → Program State Choice Job Error β}
    {post : Job → Except Error β → List (Nat × Job) → State → State → Prop}
    (h : d.wp me job program (fun job result spawned start now =>
      match result with
      | .ok value => d.wp me job (rest value) post spawned start now
      | .error error => post job (.error error) spawned start now) spawned start now) :
    d.wp me job (program.bind rest) post spawned start now := by
  induction program generalizing job spawned start now with
  | done result => cases result <;> exact h
  | sync action next ih =>
    intro choice
    obtain ⟨durable, evolves, after⟩ := h choice
    exact ⟨durable, evolves, ih _ after⟩
  | await request next ih =>
    obtain ⟨ends, holds, after⟩ := h
    refine ⟨ends, holds, fun sent inv sees choice => ?_⟩
    obtain ⟨evolves, kept, owed, still, after⟩ := after sent inv sees choice
    exact ⟨evolves, kept, owed, still, fun back inv sees => ih _ (after back inv sees)⟩
  | spawn task next ih => exact fun id => ⟨(h id).1, ih _ (h id).2⟩
  | become job next ih => exact ⟨h.1, ih h.2⟩

theorem wp_attempt
    {post : Job → Except Error (Except Error α) → List (Nat × Job) → State → State → Prop}
    (h : d.wp me job program (fun job result => post job (.ok result)) spawned start now) :
    d.wp me job program.attempt post spawned start now := by
  induction program generalizing job spawned start now with
  | done result => exact h
  | sync action next ih =>
    intro choice
    obtain ⟨durable, evolves, after⟩ := h choice
    exact ⟨durable, evolves, ih _ after⟩
  | await request next ih =>
    obtain ⟨ends, holds, after⟩ := h
    refine ⟨ends, holds, fun sent inv sees choice => ?_⟩
    obtain ⟨evolves, kept, owed, still, after⟩ := after sent inv sees choice
    exact ⟨evolves, kept, owed, still, fun back inv sees => ih _ (after back inv sees)⟩
  | spawn task next ih => exact fun id => ⟨(h id).1, ih _ (h id).2⟩
  | become job next ih => exact ⟨h.1, ih h.2⟩

end

namespace Lawful

variable {d} (lawful : d.Lawful)
include lawful

theorem sees_refl (me : Nat) (state : State) : d.Sees me state state :=
  ⟨lawful.evolve_refl state, lawful.rely_refl me state⟩

theorem sees_trans {me : Nat} {first second third : State}
    (before : d.Sees me first second) (after : d.Sees me second third) : d.Sees me first third :=
  ⟨lawful.evolve_trans before.1 after.1, lawful.rely_trans before.2 after.2⟩

theorem parked_stable {task : Task State Choice Job Error} {before after : State}
    (inv : d.inv after) (sees : d.Sees task.id before after) (parked : d.Parked task before) :
    d.Parked task after := by
  obtain ⟨id, job, ready, program⟩ := task
  obtain ⟨holds, goes⟩ := parked
  refine ⟨lawful.holds_stable inv sees holds, ?_⟩
  cases ready with
  | true => exact fun back kept later => goes back kept (lawful.sees_trans sees later)
  | false =>
    cases program with
    | await request next =>
      exact fun sent kept later => goes sent kept (lawful.sees_trans sees later)
    | done _ | sync _ _ | spawn _ _ | become _ _ => exact goes

theorem parked_fresh {task : Nat × Job} {now : State} (ready : d.ready task.1 task.2 now) :
    d.Parked (system.fresh task) now :=
  ⟨lawful.ready_holds ready,
    fun _ inv sees => lawful.correct inv (lawful.ready_stable inv sees ready)⟩

end Lawful

end Discipline

end Async
