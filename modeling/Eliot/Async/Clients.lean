import Eliot.Async.Interference
import Eliot.Async.Service

namespace Async
namespace Call
variable {State Label Choice Error α β : Type}

def program : Call State Label Choice Error α → Program State Choice Empty Error α
  | .done result => .done result
  | .ask _ request next => .await request fun result => (next result).program

theorem program_bind (call : Call State Label Choice Error α)
    (rest : α → Call State Label Choice Error β) :
    (call.bind rest).program = call.program.bind fun value => (rest value).program := by
  induction call with
  | done result => cases result <;> rfl
  | ask label request next ih => simp only [bind, program, Program.bind, ih]

def Steps (moves : State → State → Prop) : Call State Label Choice Error α → Prop
  | .done _ => True
  | .ask _ request next =>
    (∀ choice now, moves now (request choice now).2) ∧ ∀ result, (next result).Steps moves

variable {moves : State → State → Prop}

theorem Steps.bind {call : Call State Label Choice Error α}
    {rest : α → Call State Label Choice Error β} (first : call.Steps moves)
    (second : ∀ value, (rest value).Steps moves) : (call.bind rest).Steps moves := by
  induction call with
  | done result =>
    cases result with
    | ok value => exact second value
    | error error => exact trivial
  | ask label request next ih => exact ⟨first.1, fun result => ih _ (first.2 result)⟩

theorem Steps.then {call : Call State Label Choice Error α}
    {rest : α → Call State Label Choice Error β} (first : call.Steps moves)
    (second : ∀ value, (rest value).Steps moves) : (call >>= rest).Steps moves := first.bind second

theorem Steps.program {call : Call State Label Choice Error α} (steps : call.Steps moves) :
    call.program.Steps moves := by
  induction call with
  | done result => exact trivial
  | ask label request next ih => exact ⟨steps.1, fun result => ih _ (steps.2 result)⟩

theorem Steps.mono {stronger : State → State → Prop} {call : Call State Label Choice Error α}
    (steps : call.Steps stronger) (weaken : ∀ before after, stronger before after → moves before after) :
    call.Steps moves := by
  induction call with
  | done result => exact trivial
  | ask label request next ih =>
    exact ⟨fun choice now => weaken _ _ (steps.1 choice now), fun result => ih _ (steps.2 result)⟩

end Call

namespace Pact
variable {State Label Choice Error α β : Type} {pact : Pact State} {number : Nat} {pre : State → Prop}

theorem Does.call {call : Call State Label Choice Error α}
    {rest : α → Call State Label Choice Error β} (known : α → State → Prop) {later : β → State → Prop}
    (first : pact.Does number pre call.program (Given known))
    (second : ∀ value, pact.Does number (known value) (rest value).program (Given later)) :
    pact.Does number pre (call >>= rest).program (Given later) := by
  rw [Call.bind_eq, Call.program_bind]
  exact first.then known second

theorem Does.ask {label : Label} {action : Choice → State → Except Error α × State}
    {post : Except Error α → State → Prop} (stable : pact.Stable number pre)
    (sound : ∀ now, pact.inv now → pre now → ∀ choice,
      pact.Fair number now (action choice now).2 ∧ post (action choice now).1 (action choice now).2) :
    pact.Does number pre (Call.request label action).program post :=
  Does.request stable sound

theorem Does.steps {moves : State → State → Prop} {call : Call State Label Choice Error α}
    (steps : call.Steps moves)
    (fair : ∀ before after, pact.inv before → moves before after → pact.Fair number before after) :
    pact.Does number pre call.program (Given fun _ _ => True) := by
  intro now inv _
  refine wp_mono inv (wp_steps steps.program fair now) fun result later _ _ => ?_
  cases result <;> exact trivial

end Pact
end Async
