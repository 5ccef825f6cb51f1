import Eliot.Async.Program
import Mathlib.Data.List.Nodup

namespace Async

/-- The task programs of a system, which of them the environment may call in a state, and
    what a restart keeps where the system can be restarted. -/
structure System (State Choice Job Error : Type) where
  body : Job → Program State Choice Job Error Unit
  admits : State → Job → Bool
  restart : Option (State → State)

/-- A task that does not hold the loop. Until it is `ready` the request it stopped at has
    not been executed; afterwards it only waits for its turn on the loop. -/
structure Task (State Choice Job Error : Type) where
  id : Nat
  job : Job
  ready : Bool
  program : Program State Choice Job Error Unit

structure Segment (State Choice Job Error : Type) where
  id : Nat
  job : Job
  program : Program State Choice Job Error Unit
  spawned : List (Nat × Job)

structure Config (State Choice Job Error : Type) where
  state : State
  tasks : List (Task State Choice Job Error)
  running : Option (Segment State Choice Job Error)
  next : Nat

inductive Label (Choice Job : Type) where
  | call (job : Job)
  | deliver (id : Nat) (choice : Choice)
  | resume (id : Nat)
  | act (choice : Choice)
  | crash

variable {State Choice Job Error : Type}

namespace Config

variable (config : Config State Choice Job Error)

def task (id : Nat) : Option (Task State Choice Job Error) :=
  config.tasks.find? fun task => task.id == id

def others (id : Nat) : List (Task State Choice Job Error) :=
  config.tasks.filter fun task => task.id != id

def live : List (Nat × Job) :=
  config.tasks.map (fun task => (task.id, task.job)) ++
    match config.running with
    | none => []
    | some segment => (segment.id, segment.job) :: segment.spawned

end Config

namespace System

variable (system : System State Choice Job Error)

def fresh (task : Nat × Job) : Task State Choice Job Error :=
  ⟨task.1, task.2, true, system.body task.2⟩

def advance (choice : Choice) (config : Config State Choice Job Error)
    (segment : Segment State Choice Job Error) : Config State Choice Job Error :=
  match segment.program with
  | .done _ =>
    { config with running := none, tasks := config.tasks ++ segment.spawned.map system.fresh }
  | .sync action next =>
    let (result, state) := action choice config.state
    { config with state, running := some { segment with program := next result } }
  | .await request next =>
    { config with
      running := none
      tasks := config.tasks ++ ⟨segment.id, segment.job, false, .await request next⟩ ::
        segment.spawned.map system.fresh }
  | .spawn job next =>
    { config with
      running := some { segment with
        program := next config.next, spawned := segment.spawned ++ [(config.next, job)] }
      next := config.next + 1 }
  | .become job next =>
    { config with running := some { segment with job, program := next } }

def answer (choice : Choice) (config : Config State Choice Job Error)
    (task : Task State Choice Job Error) : Option (Config State Choice Job Error) :=
  match task.ready, task.program with
  | false, .await request next =>
    let (result, state) := request choice config.state
    some { config with
      state, tasks := { task with ready := true, program := next result } :: config.others task.id }
  | _, _ => none

def step (config : Config State Choice Job Error) :
    Label Choice Job → Option (Config State Choice Job Error)
  | .call job =>
    match config.running with
    | some _ => none
    | none =>
      if system.admits config.state job then
        some { config with
          running := some ⟨config.next, job, system.body job, []⟩, next := config.next + 1 }
      else none
  | .deliver id choice =>
    match config.running, config.task id with
    | none, some task => answer choice config task
    | _, _ => none
  | .resume id =>
    match config.running, config.task id with
    | none, some task =>
      if task.ready then
        some { config with
          tasks := config.others id, running := some ⟨task.id, task.job, task.program, []⟩ }
      else none
    | _, _ => none
  | .act choice =>
    match config.running with
    | some segment => some (system.advance choice config segment)
    | none => none
  | .crash =>
    match system.restart with
    | some keep => some ⟨keep config.state, [], none, config.next⟩
    | none => none

def run (config : Config State Choice Job Error) :
    List (Label Choice Job) → Option (Config State Choice Job Error)
  | [] => some config
  | label :: labels => (system.step config label).bind fun after => run after labels

def boot (state : State) : Config State Choice Job Error := ⟨state, [], none, 0⟩

inductive Reachable (allowed : State → State → Prop) (initial : State → Prop) :
    Config State Choice Job Error → Prop
  | boot {state : State} (start : initial state) : Reachable allowed initial (boot state)
  | step {before after : Config State Choice Job Error} (label : Label Choice Job)
      (reached : Reachable allowed initial before) (taken : system.step before label = some after)
      (meets : allowed before.state after.state) : Reachable allowed initial after

end System

section
variable {State Choice Job Error : Type}

structure Move (Choice Job : Type) where
  label : Label Choice Job
  choice : Choice

namespace System

variable (system : System State Choice Job Error) (meets : State → State → Bool)

def checked (config : Config State Choice Job Error) (label : Label Choice Job) :
    Option (Config State Choice Job Error) :=
  (system.step config label).filter fun after => meets config.state after.state

def drive (choice : Choice) : Nat → Config State Choice Job Error →
    Option (Config State Choice Job Error)
  | 0, _ => none
  | fuel + 1, config =>
    match config.running with
    | none => some config
    | some _ => (system.checked meets config (.act choice)).bind fun after => drive choice fuel after

def play (fuel : Nat) : List (Move Choice Job) → Config State Choice Job Error →
    Option (Config State Choice Job Error)
  | [], config => some config
  | move :: moves, config =>
    (system.checked meets config move.label).bind fun after =>
      (system.drive meets move.choice fuel after).bind fun after => play fuel moves after

section
variable {system meets} {allowed : State → State → Prop} {initial : State → Prop}
  (sound : ∀ {before after}, meets before after = true → allowed before after)
include sound

variable {before after : Config State Choice Job Error}

theorem checked_reachable {label : Label Choice Job}
    (reached : system.Reachable allowed initial before)
    (taken : system.checked meets before label = some after) :
    system.Reachable allowed initial after := by
  obtain ⟨taken, met⟩ := Option.filter_eq_some_iff.mp taken
  exact .step label reached taken (sound met)

theorem drive_reachable {choice : Choice} {fuel : Nat}
    (reached : system.Reachable allowed initial before)
    (driven : system.drive meets choice fuel before = some after) :
    system.Reachable allowed initial after := by
  induction fuel generalizing before with
  | zero => cases driven
  | succ fuel ih =>
    unfold drive at driven
    split at driven
    · cases driven
      exact reached
    · obtain ⟨middle, taken, rest⟩ := Option.bind_eq_some_iff.mp driven
      exact ih (checked_reachable sound reached taken) rest

theorem play_reachable {fuel : Nat} {moves : List (Move Choice Job)}
    (reached : system.Reachable allowed initial before)
    (played : system.play meets fuel moves before = some after) :
    system.Reachable allowed initial after := by
  induction moves generalizing before with
  | nil =>
    cases played
    exact reached
  | cons move moves ih =>
    obtain ⟨middle, taken, rest⟩ := Option.bind_eq_some_iff.mp played
    obtain ⟨free, driven, rest⟩ := Option.bind_eq_some_iff.mp rest
    exact ih (drive_reachable sound (checked_reachable sound reached taken) driven) rest

theorem play_shows {fuel : Nat} {moves : List (Move Choice Job)} {state : State}
    (start : initial state) {good : Config State Choice Job Error → Bool}
    (shown : (system.play meets fuel moves (boot state)).any good = true) :
    ∃ config, system.Reachable allowed initial config ∧ good config = true := by
  obtain ⟨config, played, good⟩ := (Option.any_eq_true _ _).mp shown
  exact ⟨config, play_reachable sound (.boot start) played, good⟩

end

end System

end

end Async
