import Mathlib.Logic.Basic

namespace Async

/-- The call of a client: requests to a shared store one after the other, each under a label that
    says what it is for, and told by a `Choice` how the environment treats it. -/
inductive Call (State Label Choice Error : Type) (α : Type) : Type 1 where
  | done (result : Except Error α)
  | ask {β : Type} (label : Label) (request : Choice → State → Except Error β × State)
      (next : Except Error β → Call State Label Choice Error α)

structure Setting (State Label Choice : Type) where
  moves : State → State → Prop
  allowed : Label → Choice → State → Prop

namespace Call
variable {State Label Choice Error α β : Type}

def bind : Call State Label Choice Error α → (α → Call State Label Choice Error β) →
    Call State Label Choice Error β
  | .done (.ok value), rest => rest value
  | .done (.error error), _ => .done (.error error)
  | .ask label request next, rest => .ask label request fun result => (next result).bind rest

def attempt : Call State Label Choice Error α → Call State Label Choice Error (Except Error α)
  | .done result => .done (.ok result)
  | .ask label request next => .ask label request fun result => (next result).attempt

instance : Monad (Call State Label Choice Error) where
  pure value := .done (.ok value)
  bind := Call.bind

def throw (error : Error) : Call State Label Choice Error α := .done (.error error)

def request (label : Label) (action : Choice → State → Except Error α × State) :
    Call State Label Choice Error α := .ask label action .done

@[simp] theorem pure_eq (value : α) :
    (pure value : Call State Label Choice Error α) = .done (.ok value) := rfl

@[simp] theorem bind_eq (call : Call State Label Choice Error α)
    (rest : α → Call State Label Choice Error β) : call >>= rest = call.bind rest := rfl

inductive Runs (setting : Setting State Label Choice) :
    Call State Label Choice Error α → State → Except Error α → State → Prop
  | done {result : Except Error α} {now : State} : Runs setting (.done result) now result now
  | ask {γ : Type} {label : Label} {request : Choice → State → Except Error γ × State}
      {next : Except Error γ → Call State Label Choice Error α} {now later final : State}
      {choice : Choice} {result : Except Error α} (moved : setting.moves now later)
      (allowed : setting.allowed label choice later)
      (rest : Runs setting (next (request choice later).1) (request choice later).2 result final) :
      Runs setting (.ask label request next) now result final

def wp (setting : Setting State Label Choice) : Call State Label Choice Error α →
    (Except Error α → State → Prop) → State → Prop
  | .done result, post, now => post result now
  | .ask label request next, post, now => ∀ later, setting.moves now later → ∀ choice,
      setting.allowed label choice later →
        wp setting (next (request choice later).1) post (request choice later).2

variable {call : Call State Label Choice Error α}

section
variable {setting : Setting State Label Choice} {now : State}

theorem wp_sound {post : Except Error α → State → Prop}
    {result : Except Error α} {final : State} (runs : Runs setting call now result final)
    (holds : call.wp setting post now) : post result final := by
  induction runs with
  | done => exact holds
  | ask moved allowed rest ih => exact ih (holds _ moved _ allowed)

theorem wp_mono {strong weak : Except Error α → State → Prop}
    (holds : call.wp setting strong now) (weaken : ∀ result later, strong result later → weak result later) :
    call.wp setting weak now := by
  induction call generalizing now with
  | done result => exact weaken _ _ holds
  | ask label request next ih => exact fun later moved choice allowed => ih _ (holds later moved choice allowed)

theorem wp_bind {rest : α → Call State Label Choice Error β}
    {post : Except Error β → State → Prop}
    (holds : call.wp setting (fun result later =>
      match result with
      | .ok value => (rest value).wp setting post later
      | .error error => post (.error error) later) now) :
    (call.bind rest).wp setting post now := by
  induction call generalizing now with
  | done result => cases result <;> exact holds
  | ask label request next ih => exact fun later moved choice allowed => ih _ (holds later moved choice allowed)

theorem wp_attempt
    {post : Except Error (Except Error α) → State → Prop}
    (holds : call.wp setting (fun result => post (.ok result)) now) :
    call.attempt.wp setting post now := by
  induction call generalizing now with
  | done result => exact holds
  | ask label request next ih => exact fun later moved choice allowed => ih _ (holds later moved choice allowed)

end

def play (meets : Label → Choice → State → Bool) :
    Call State Label Choice Error α → List Choice → State → Option (Except Error α × State)
  | .done result, [], now => some (result, now)
  | .done _, _ :: _, _ => none
  | .ask _ _ _, [], _ => none
  | .ask label request next, choice :: choices, now =>
    if meets label choice now then
      play meets (next (request choice now).1) choices (request choice now).2
    else none

theorem play_runs {setting : Setting State Label Choice} {meets : Label → Choice → State → Bool}
    (idle : ∀ state, setting.moves state state)
    (met : ∀ label choice state, meets label choice state = true → setting.allowed label choice state)
    {choices : List Choice} {now final : State}
    {result : Except Error α} (played : call.play meets choices now = some (result, final)) :
    Runs setting call now result final := by
  induction call generalizing choices now with
  | done result =>
    cases choices with
    | nil =>
      cases played
      exact .done
    | cons choice choices => cases played
  | ask label request next ih =>
    cases choices with
    | nil => cases played
    | cons choice choices =>
      rw [play] at played
      split at played
      · exact .ask (idle now) (met _ _ _ ‹_›) (ih _ played)
      · cases played

def enact (meets : Label → Choice → State → Bool) :
    Call State Label Choice Error α → List ((State → State) × Choice) → State →
      Option (Except Error α × State)
  | .done result, [], now => some (result, now)
  | .done _, _ :: _, _ => none
  | .ask _ _ _, [], _ => none
  | .ask label request next, (move, choice) :: steps, now =>
    if meets label choice (move now) then
      enact meets (next (request choice (move now)).1) steps (request choice (move now)).2
    else none

theorem enact_runs {setting : Setting State Label Choice} {meets : Label → Choice → State → Bool}
    {steps : List ((State → State) × Choice)}
    (moves : ∀ step ∈ steps, ∀ state, setting.moves state (step.1 state))
    (met : ∀ label choice state, meets label choice state = true → setting.allowed label choice state)
    {now final : State} {result : Except Error α}
    (played : call.enact meets steps now = some (result, final)) : Runs setting call now result final := by
  induction call generalizing steps now with
  | done result =>
    cases steps with
    | nil =>
      cases played
      exact .done
    | cons step steps => cases played
  | ask label request next ih =>
    cases steps with
    | nil => cases played
    | cons step steps =>
      rw [enact] at played
      split at played
      · exact .ask (moves step List.mem_cons_self now) (met _ _ _ ‹_›)
          (ih _ (fun other listed => moves other (List.mem_cons_of_mem _ listed)) played)
      · cases played

end Call

end Async
