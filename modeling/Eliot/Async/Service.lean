import Eliot.Async.Program
import Mathlib.Data.List.Basic

namespace Async

open List

/-- A service without memory of its own: it serves each request by a task that shares nothing
    with the others but the stores, and may stop between any two of its actions for ever. -/
structure Service (State Choice Request Error : Type) where
  serve : Nat → Request → Program State Choice Empty Error Unit
  admits : State → Request → Bool

namespace Program

variable {State Choice Error α β : Type}

def Steps (moves : State → State → Prop) : Program State Choice Empty Error α → Prop
  | .done _ => True
  | .sync action next | .await action next =>
    (∀ choice now, moves now (action choice now).2) ∧ ∀ result, (next result).Steps moves
  | .spawn job _ | .become job _ => nomatch job

variable {moves : State → State → Prop}

@[simp] theorem steps_done (result : Except Error α) :
    (.done result : Program State Choice Empty Error α).Steps moves := trivial

@[simp] theorem steps_act {action : Choice → State → Except Error α × State} :
    (Program.act action : Program State Choice Empty Error α).Steps moves ↔
      ∀ choice now, moves now (action choice now).2 :=
  ⟨fun steps => steps.1, fun steps => ⟨steps, fun _ => trivial⟩⟩

@[simp] theorem steps_request {action : Choice → State → Except Error α × State} :
    (Program.request action : Program State Choice Empty Error α).Steps moves ↔
      ∀ choice now, moves now (action choice now).2 :=
  ⟨fun steps => steps.1, fun steps => ⟨steps, fun _ => trivial⟩⟩

theorem Steps.bind {program : Program State Choice Empty Error α}
    {rest : α → Program State Choice Empty Error β} (first : program.Steps moves)
    (second : ∀ value, (rest value).Steps moves) : (program.bind rest).Steps moves := by
  induction program with
  | done result =>
    cases result with
    | ok value => exact second value
    | error error => exact trivial
  | sync action next ih | await action next ih => exact ⟨first.1, fun result => ih _ (first.2 result)⟩
  | spawn job next ih | become job next ih => cases job

theorem Steps.attempt {program : Program State Choice Empty Error α} (steps : program.Steps moves) :
    program.attempt.Steps moves := by
  induction program with
  | done result => exact trivial
  | sync action next ih | await action next ih => exact ⟨steps.1, fun result => ih _ (steps.2 result)⟩
  | spawn job next ih | become job next ih => cases job

theorem Steps.mono {stronger : State → State → Prop} {program : Program State Choice Empty Error α}
    (steps : program.Steps stronger) (weaken : ∀ before after, stronger before after → moves before after) :
    program.Steps moves := by
  induction program with
  | done result => exact trivial
  | sync action next ih | await action next ih =>
    exact ⟨fun choice now => weaken _ _ (steps.1 choice now), fun result => ih _ (steps.2 result)⟩
  | spawn job next ih | become job next ih => cases job

end Program

namespace Service

structure Config (State Choice Error : Type) where
  state : State
  tasks : List (Program State Choice Empty Error Unit)

inductive Label (Choice Request : Type) where
  | accept (request : Request)
  | act (number : Nat) (choice : Choice)

variable {State Choice Request Error α β : Type} (service : Service State Choice Request Error)

def Config.task (config : Config State Choice Error) (number : Nat) :
    Program State Choice Empty Error Unit :=
  config.tasks.getD number (.done (.ok ()))

def Config.act (config : Config State Choice Error) (number : Nat) (choice : Choice) :
    Option (Config State Choice Error) :=
  match config.task number with
  | .done _ => none
  | .sync action next | .await action next =>
    let (result, state) := action choice config.state
    some ⟨state, config.tasks.set number (next result)⟩
  | .spawn job _ | .become job _ => nomatch job

def step (config : Config State Choice Error) :
    Label Choice Request → Option (Config State Choice Error)
  | .accept request =>
    if service.admits config.state request then
      some ⟨config.state, config.tasks ++ [service.serve config.tasks.length request]⟩
    else none
  | .act number choice => config.act number choice

def run (config : Config State Choice Error) :
    List (Label Choice Request) → Option (Config State Choice Error)
  | [] => some config
  | label :: labels => (service.step config label).bind fun after => run after labels

def boot (state : State) : Config State Choice Error := ⟨state, []⟩

theorem run_append {config after : Config State Choice Error} {first second : List (Label Choice Request)} :
    service.run config (first ++ second) = some after ↔
      ∃ middle, service.run config first = some middle ∧ service.run middle second = some after := by
  induction first generalizing config with
  | nil => simp [run]
  | cons label first ih =>
    simp only [cons_append, run, Option.bind_eq_some_iff, ih]
    constructor
    · rintro ⟨next, taken, middle, ran, rest⟩
      exact ⟨middle, ⟨next, taken, ran⟩, rest⟩
    · rintro ⟨middle, ⟨next, taken, ran⟩, rest⟩
      exact ⟨next, taken, middle, ran, rest⟩

def Config.Steps (moves : State → State → Prop) (config : Config State Choice Error) : Prop :=
  ∀ program ∈ config.tasks, program.Steps moves

theorem step_moves {moves : State → State → Prop}
    (serves : ∀ number request, (service.serve number request).Steps moves)
    {before after : Config State Choice Error} {label : Label Choice Request}
    (steps : before.Steps moves) (taken : service.step before label = some after) :
    after.Steps moves ∧ (after.state = before.state ∨ moves before.state after.state) := by
  cases label with
  | accept request =>
    simp only [step, Option.ite_none_right_eq_some, Option.some.injEq] at taken
    obtain ⟨_, rfl⟩ := taken
    refine ⟨fun program member => ?_, .inl rfl⟩
    rcases mem_append.mp member with member | member
    · exact steps program member
    · rw [mem_singleton.mp member]
      exact serves _ _
  | act number choice =>
    have own : (before.task number).Steps moves := by
      unfold Config.task
      rw [getD_eq_getElem?_getD]
      cases found : before.tasks[number]? with
      | none => exact trivial
      | some program => exact steps program (mem_of_getElem? found)
    simp only [step, Config.act] at taken
    cases program : before.task number with
    | done result => simp [program] at taken
    | sync action next | await action next =>
      simp only [program, Option.some.injEq] at taken
      subst taken
      rw [program] at own
      refine ⟨fun other member => ?_, .inr (own.1 choice before.state)⟩
      rcases mem_or_eq_of_mem_set member with member | rfl
      · exact steps other member
      · exact own.2 _
    | spawn job next | become job next => cases job

end Service

/-- What a proof about a service fixes beforehand: what holds after every step, what no step
    undoes, what the other requests leave alone for one, that a request that was not accepted
    yet has left no trace, and what is true of each single step of a request. -/
structure Pact (State : Type) where
  inv : State → Prop
  evolve : State → State → Prop
  rely : Nat → State → State → Prop
  fresh : Nat → State → Prop
  guarantee : State → State → Prop := fun _ _ => True

namespace Pact

variable {State Choice Request Error α β : Type} (pact : Pact State)

structure Lawful : Prop where
  evolve_refl : ∀ state, pact.evolve state state
  evolve_trans : ∀ {first second third}, pact.evolve first second → pact.evolve second third →
    pact.evolve first third
  rely_refl : ∀ number state, pact.rely number state state
  rely_trans : ∀ {number first second third}, pact.rely number first second →
    pact.rely number second third → pact.rely number first third
  fresh_stable : ∀ {number before after}, pact.inv before → pact.inv after →
    pact.rely number before after → pact.fresh number before → pact.fresh number after
  stays : ∀ state, pact.guarantee state state

def granting (guarantee : State → State → Prop) : Pact State := { pact with guarantee }

def Sees (number : Nat) (before after : State) : Prop :=
  pact.evolve before after ∧ pact.rely number before after

structure Fair (number : Nat) (before after : State) : Prop where
  inv : pact.inv after
  evolve : pact.evolve before after
  others : ∀ other, other ≠ number → pact.rely other before after
  granted : pact.guarantee before after

def Stable (number : Nat) (known : State → Prop) : Prop :=
  ∀ {before after}, pact.inv before → pact.inv after → pact.Sees number before after →
    known before → known after

def wp (number : Nat) : Program State Choice Empty Error α → (Except Error α → State → Prop) →
    State → Prop
  | .done result, post, now => post result now
  | .sync action next, post, now | .await action next, post, now =>
    ∀ later, pact.inv later → pact.Sees number now later → ∀ choice,
      pact.Fair number later (action choice later).2 ∧
        wp number (next (action choice later).1) post (action choice later).2
  | .spawn job _, _, _ | .become job _, _, _ => nomatch job

def Does (number : Nat) (pre : State → Prop) (program : Program State Choice Empty Error α)
    (post : Except Error α → State → Prop) : Prop :=
  ∀ now, pact.inv now → pre now → pact.wp number program post now

section
variable {pact} {number : Nat} {pre : State → Prop}

theorem wp_mono {program : Program State Choice Empty Error α}
    {strong weak : Except Error α → State → Prop} {now : State} (inv : pact.inv now)
    (holds : pact.wp number program strong now)
    (weaken : ∀ result later, pact.inv later → strong result later → weak result later) :
    pact.wp number program weak now := by
  induction program generalizing now with
  | done result => exact weaken _ _ inv holds
  | sync action next ih | await action next ih =>
    intro later kept sees choice
    obtain ⟨fair, rest⟩ := holds later kept sees choice
    exact ⟨fair, ih _ fair.inv rest⟩
  | spawn job next ih | become job next ih => cases job

theorem wp_bind {program : Program State Choice Empty Error α}
    {rest : α → Program State Choice Empty Error β} {post : Except Error β → State → Prop}
    {now : State} (holds : pact.wp number program (fun result later =>
      match result with
      | .ok value => pact.wp number (rest value) post later
      | .error error => post (.error error) later) now) :
    pact.wp number (program.bind rest) post now := by
  induction program generalizing now with
  | done result => cases result <;> exact holds
  | sync action next ih | await action next ih =>
    intro later kept sees choice
    obtain ⟨fair, after⟩ := holds later kept sees choice
    exact ⟨fair, ih _ after⟩
  | spawn job next ih | become job next ih => cases job

theorem wp_attempt {program : Program State Choice Empty Error α}
    {post : Except Error (Except Error α) → State → Prop} {now : State}
    (holds : pact.wp number program (fun result => post (.ok result)) now) :
    pact.wp number program.attempt post now := by
  induction program generalizing now with
  | done result => exact holds
  | sync action next ih | await action next ih =>
    intro later kept sees choice
    obtain ⟨fair, after⟩ := holds later kept sees choice
    exact ⟨fair, ih _ after⟩
  | spawn job next ih | become job next ih => cases job

theorem wp_and {program : Program State Choice Empty Error α} {post other : Except Error α → State → Prop}
    {now : State} (first : pact.wp number program post now) (second : pact.wp number program other now) :
    pact.wp number program (fun result later => post result later ∧ other result later) now := by
  induction program generalizing now with
  | done result => exact ⟨first, second⟩
  | sync action next ih | await action next ih =>
    intro later kept sees choice
    obtain ⟨fair, one⟩ := first later kept sees choice
    exact ⟨fair, ih _ one (second later kept sees choice).2⟩
  | spawn job next ih | become job next ih => cases job

variable {post : Except Error α → State → Prop}

theorem wp_evolves (lawful : pact.Lawful) {program : Program State Choice Empty Error α}
    {origin now : State} (since : pact.evolve origin now)
    (holds : pact.wp number program post now) :
    pact.wp number program (fun result later => post result later ∧ pact.evolve origin later) now := by
  induction program generalizing now with
  | done result => exact ⟨holds, since⟩
  | sync action next ih | await action next ih =>
    intro later kept sees choice
    obtain ⟨fair, rest⟩ := holds later kept sees choice
    exact ⟨fair, ih _ (lawful.evolve_trans (lawful.evolve_trans since sees.1) fair.evolve) rest⟩
  | spawn job next ih | become job next ih => cases job

theorem Does.bind {program : Program State Choice Empty Error α}
    {rest : α → Program State Choice Empty Error β} {middle : Except Error α → State → Prop}
    {post : Except Error β → State → Prop} (first : pact.Does number pre program middle)
    (second : ∀ value, pact.Does number (middle (.ok value)) (rest value) post)
    (failed : ∀ error now, pact.inv now → middle (.error error) now → post (.error error) now) :
    pact.Does number pre (program.bind rest) post := by
  intro now inv known
  apply wp_bind
  apply wp_mono inv (first now inv known)
  intro result later kept reached
  cases result with
  | ok value => exact second value later kept reached
  | error error => exact failed error later kept reached

theorem Does.attempt {program : Program State Choice Empty Error α}
    {post : Except Error (Except Error α) → State → Prop}
    (holds : pact.Does number pre program fun result => post (.ok result)) :
    pact.Does number pre program.attempt post :=
  fun now inv known => wp_attempt (holds now inv known)

theorem Does.consequence {program : Program State Choice Empty Error α} {weaker : State → Prop}
    {post stronger : Except Error α → State → Prop} (holds : pact.Does number weaker program stronger)
    (before : ∀ now, pact.inv now → pre now → weaker now)
    (after : ∀ result now, pact.inv now → stronger result now → post result now) :
    pact.Does number pre program post :=
  fun now inv known => wp_mono inv (holds now inv (before now inv known)) after

theorem Does.fact {program : Program State Choice Empty Error α} {fact : Prop}
    (holds : fact → pact.Does number pre program post) :
    pact.Does number (fun now => fact ∧ pre now) program post :=
  fun now inv known => holds known.1 now inv known.2

theorem Does.act {action : Choice → State → Except Error α × State}
    (stable : pact.Stable number pre)
    (sound : ∀ now, pact.inv now → pre now → ∀ choice,
      pact.Fair number now (action choice now).2 ∧ post (action choice now).1 (action choice now).2) :
    pact.Does number pre (.act action : Program State Choice Empty Error α) post := by
  intro now inv known later kept sees choice
  exact sound later kept (stable inv kept sees known) choice

theorem Does.request {action : Choice → State → Except Error α × State}
    (stable : pact.Stable number pre)
    (sound : ∀ now, pact.inv now → pre now → ∀ choice,
      pact.Fair number now (action choice now).2 ∧ post (action choice now).1 (action choice now).2) :
    pact.Does number pre (.request action : Program State Choice Empty Error α) post :=
  Does.act stable sound

theorem wp_steps {moves : State → State → Prop} {program : Program State Choice Empty Error α}
    (steps : program.Steps moves)
    (fair : ∀ before after, pact.inv before → moves before after → pact.Fair number before after)
    (now : State) : pact.wp number program (fun _ _ => True) now := by
  induction program generalizing now with
  | done result => exact trivial
  | sync action next ih | await action next ih =>
    intro later kept _ choice
    exact ⟨fair _ _ kept (steps.1 choice later), ih _ (steps.2 _) _⟩
  | spawn job next ih | become job next ih => cases job

def Given (known : α → State → Prop) : Except Error α → State → Prop
  | .ok value, now => known value now
  | .error _, _ => True

theorem Does.throws {error : Error} {known : α → State → Prop} :
    pact.Does number pre (.done (.error error) : Program State Choice Empty Error α) (Given known) :=
  fun _ _ _ => trivial

theorem Does.returns {value : α} {known : α → State → Prop}
    (holds : ∀ now, pact.inv now → pre now → known value now) :
    pact.Does number pre (.done (.ok value) : Program State Choice Empty Error α) (Given known) := holds

theorem Does.then {program : Program State Choice Empty Error α}
    {rest : α → Program State Choice Empty Error β} (known : α → State → Prop)
    {later : β → State → Prop} (first : pact.Does number pre program (Given known))
    (second : ∀ value, pact.Does number (known value) (rest value) (Given later)) :
    pact.Does number pre (program.bind rest) (Given later) :=
  first.bind second fun _ _ _ _ => trivial

theorem Does.weaken {program : Program State Choice Empty Error α} {weaker : State → Prop}
    (holds : pact.Does number weaker program post)
    (before : ∀ now, pact.inv now → pre now → weaker now) : pact.Does number pre program post :=
  holds.consequence before fun _ _ _ known => known

theorem Does.loosen {program : Program State Choice Empty Error α} {known less : α → State → Prop}
    (holds : pact.Does number pre program (Given known))
    (after : ∀ value now, known value now → less value now) :
    pact.Does number pre program (Given less) := by
  refine holds.consequence (fun _ _ held => held) fun result now _ told => ?_
  cases result with
  | ok value => exact after value now told
  | error error => exact trivial

theorem Does.keeps {moves : State → State → Prop} {program : Program State Choice Empty Error α}
    (steps : program.Steps moves) (stable : pact.Stable number pre)
    (fair : ∀ before after, pact.inv before → pre before → moves before after →
      pact.Fair number before after ∧ pre after) :
    pact.Does number pre program fun _ => pre := by
  intro now inv known
  induction program generalizing now with
  | done result => exact known
  | sync action next ih | await action next ih =>
    intro later kept sees choice
    obtain ⟨fair, still⟩ := fair later _ kept (stable inv kept sees known) (steps.1 choice later)
    exact ⟨fair, ih _ (steps.2 _) _ fair.inv still⟩
  | spawn job next ih | become job next ih => cases job

end

section
variable {pact} {service : Service State Choice Request Error}
  {grant : Nat → Request → State → State → Prop}

/-- Where a service can be after it accepted some requests: nothing of those to come, and every
    task fit to go on by steps that are granted to its request. -/
structure Sound (pact : Pact State) (grant : Nat → Request → State → State → Prop)
    (requests : List Request) (config : Service.Config State Choice Error) : Prop where
  inv : pact.inv config.state
  fresh : ∀ number, requests.length ≤ number → pact.fresh number config.state
  length : config.tasks.length = requests.length
  fit : ∀ number request, requests[number]? = some request →
    (pact.granting (grant number request)).wp number (config.task number) (fun _ _ => True) config.state

theorem boot_sound {state : State} (inv : pact.inv state) (fresh : ∀ number, pact.fresh number state) :
    pact.Sound grant [] (Service.boot state : Service.Config State Choice Error) :=
  ⟨inv, fun number _ => fresh number, rfl, fun _ _ none => nomatch none⟩

variable (lawful : pact.Lawful)
include lawful

theorem wp_stable {guarantee : State → State → Prop} {number : Nat}
    {program : Program State Choice Empty Error Unit} {before after : State}
    (sees : pact.Sees number before after)
    (fit : (pact.granting guarantee).wp number program (fun _ _ => True) before) :
    (pact.granting guarantee).wp number program (fun _ _ => True) after := by
  cases program with
  | done result => exact trivial
  | sync action next | await action next =>
    exact fun later kept since => fit later kept
      ⟨lawful.evolve_trans sees.1 since.1, lawful.rely_trans sees.2 since.2⟩
  | spawn job next | become job next => cases job

variable {before after : Service.Config State Choice Error}

theorem act_sound {requests : List Request}
    {number : Nat} {choice : Choice} (taken : before.act number choice = some after)
    (sound : pact.Sound grant requests before) :
    pact.Sound grant requests after ∧ ∃ request, requests[number]? = some request ∧
      (pact.granting (grant number request)).Fair number before.state after.state := by
  have present : number < before.tasks.length := by
    by_contra absent
    have gone : before.task number = .done (.ok ()) := by
      simp [Service.Config.task, List.getD, getElem?_eq_none (Nat.le_of_not_lt absent)]
    simp [Service.Config.act, gone] at taken
  obtain ⟨request, asked⟩ : ∃ request, requests[number]? = some request :=
    ⟨_, getElem?_eq_getElem (sound.length ▸ present)⟩
  have own := sound.fit number request asked
  simp only [Service.Config.act] at taken
  cases program : before.task number with
  | done result => simp [program] at taken
  | sync action next | await action next =>
    simp only [program, Option.some.injEq] at taken
    subst taken
    rw [program] at own
    obtain ⟨fair, rest⟩ :=
      own before.state sound.inv ⟨lawful.evolve_refl _, lawful.rely_refl _ _⟩ choice
    refine ⟨⟨fair.inv, ?_, ?_, ?_⟩, request, asked, fair⟩
    · intro other above
      have apart : other ≠ number := by
        have := sound.length
        omega
      exact lawful.fresh_stable sound.inv fair.inv (fair.others other apart) (sound.fresh other above)
    · rw [length_set]
      exact sound.length
    · intro other another asked'
      by_cases same : other = number
      · subst same
        cases asked.symm.trans asked'
        simpa [Service.Config.task, List.getD, getElem?_set_self present] using rest
      · have unmoved : Service.Config.task ⟨(action choice before.state).2, before.tasks.set number
            (next (action choice before.state).1)⟩ other = before.task other := by
          simp [Service.Config.task, List.getD, getElem?_set_ne (Ne.symm same)]
        rw [unmoved]
        exact wp_stable lawful ⟨fair.evolve, fair.others other same⟩ (sound.fit other another asked')
  | spawn job next | become job next => cases job

def accepted : Service.Label Choice Request → List Request
  | .accept request => [request]
  | .act _ _ => []

theorem step_sound (correct : ∀ number request state, pact.inv state → pact.fresh number state →
      service.admits state request = true →
      (pact.granting (grant number request)).wp number (service.serve number request) (fun _ _ => True)
        state)
    {requests : List Request}
    {label : Service.Label Choice Request} (taken : service.step before label = some after)
    (sound : pact.Sound grant requests before) :
    pact.Sound grant (requests ++ accepted label) after ∧ pact.evolve before.state after.state := by
  cases label with
  | accept request =>
    simp only [Service.step, Option.ite_none_right_eq_some, Option.some.injEq] at taken
    obtain ⟨admitted, rfl⟩ := taken
    refine ⟨⟨sound.inv, ?_, ?_, ?_⟩, lawful.evolve_refl _⟩
    · intro number above
      rw [length_append] at above
      exact sound.fresh number (by omega)
    · simp [sound.length, accepted]
    · intro number another asked
      have length := sound.length
      rcases Nat.lt_trichotomy number before.tasks.length with earlier | rfl | later
      · rw [getElem?_append_left (length ▸ earlier)] at asked
        have old := sound.fit number another asked
        simpa [Service.Config.task, List.getD, getElem?_append_left earlier] using old
      · obtain rfl : request = another := by simpa [accepted, length] using asked
        have started := correct _ request _ sound.inv (sound.fresh _ (Nat.le_of_eq length.symm)) admitted
        simpa [Service.Config.task, List.getD] using started
      · rw [getElem?_eq_none (by simp [accepted]; omega)] at asked
        cases asked
  | act number choice =>
    obtain ⟨kept, _, _, fair⟩ := act_sound lawful taken sound
    rw [accepted, append_nil]
    exact ⟨kept, fair.evolve⟩

variable (grant) in
theorem run_sound (correct : ∀ number request state, pact.inv state → pact.fresh number state →
      service.admits state request = true →
      (pact.granting (grant number request)).wp number (service.serve number request) (fun _ _ => True)
        state)
    {requests : List Request}
    {labels : List (Service.Label Choice Request)} (ran : service.run before labels = some after)
    (sound : pact.Sound grant requests before) :
    pact.Sound grant (requests ++ labels.flatMap accepted) after ∧
      pact.evolve before.state after.state := by
  induction labels generalizing requests before with
  | nil =>
    cases ran
    exact ⟨by simpa using sound, lawful.evolve_refl _⟩
  | cons label labels ih =>
    obtain ⟨middle, taken, rest⟩ := Option.bind_eq_some_iff.mp ran
    obtain ⟨sound, first⟩ := step_sound lawful correct taken sound
    obtain ⟨sound, second⟩ := ih rest sound
    exact ⟨by simpa using sound, lawful.evolve_trans first second⟩

end

end Pact

end Async
