import Mathlib.Logic.Basic

namespace Async

/-- A task of one event loop. A `sync` action touches the shared state without giving
    the loop back, an `await` sends a request and gives the loop back until the answer
    arrives, `spawn` starts another task and learns its identity, and `become` enters the
    part of a task that runs under another name, as the callback of a `finally` does.
    Every action is told by a `Choice` how the environment treats it: a write may fail,
    a reply be lost. -/
inductive Program (State Choice Job Error : Type) (α : Type) : Type 1 where
  | done (result : Except Error α)
  | sync {β : Type} (action : Choice → State → Except Error β × State)
      (next : Except Error β → Program State Choice Job Error α)
  | await {β : Type} (request : Choice → State → Except Error β × State)
      (next : Except Error β → Program State Choice Job Error α)
  | spawn (job : Job) (next : Nat → Program State Choice Job Error α)
  | become (job : Job) (next : Program State Choice Job Error α)

namespace Program

variable {State Choice Job Error α β : Type}

def bind : Program State Choice Job Error α → (α → Program State Choice Job Error β) →
    Program State Choice Job Error β
  | .done (.ok value), rest => rest value
  | .done (.error error), _ => .done (.error error)
  | .sync action next, rest => .sync action fun result => (next result).bind rest
  | .await request next, rest => .await request fun result => (next result).bind rest
  | .spawn job next, rest => .spawn job fun task => (next task).bind rest
  | .become job next, rest => .become job (next.bind rest)

def attempt : Program State Choice Job Error α → Program State Choice Job Error (Except Error α)
  | .done result => .done (.ok result)
  | .sync action next => .sync action fun result => (next result).attempt
  | .await request next => .await request fun result => (next result).attempt
  | .spawn job next => .spawn job fun task => (next task).attempt
  | .become job next => .become job next.attempt

instance : Monad (Program State Choice Job Error) where
  pure value := .done (.ok value)
  bind := Program.bind

def throw (error : Error) : Program State Choice Job Error α := .done (.error error)

def act (action : Choice → State → Except Error α × State) : Program State Choice Job Error α :=
  .sync action .done

def request (action : Choice → State → Except Error α × State) : Program State Choice Job Error α :=
  .await action .done

def look (read : State → α) : Program State Choice Job Error α :=
  .sync (fun _ state => (.ok (read state), state)) .done

def assign (change : State → State) : Program State Choice Job Error Unit :=
  .sync (fun _ state => (.ok (), change state)) .done

def start (job : Job) : Program State Choice Job Error Nat :=
  .spawn job fun task => .done (.ok task)

def continueAs (job : Job) : Program State Choice Job Error Unit :=
  .become job (.done (.ok ()))

/-- Gives the loop back once, as every `await` does even when its answer is ready. -/
def pause : Program State Choice Job Error Unit :=
  .await (fun _ state => (.ok (), state)) .done

@[simp] theorem pure_eq (value : α) :
    (pure value : Program State Choice Job Error α) = .done (.ok value) := rfl

@[simp] theorem bind_eq (program : Program State Choice Job Error α)
    (rest : α → Program State Choice Job Error β) : program >>= rest = program.bind rest := rfl

theorem bind_assoc {γ : Type} (program : Program State Choice Job Error α)
    (second : α → Program State Choice Job Error β) (third : β → Program State Choice Job Error γ) :
    (program.bind second).bind third = program.bind fun value => (second value).bind third := by
  induction program with
  | done result => cases result <;> rfl
  | sync action next ih => simp only [bind, ih]
  | await request next ih => simp only [bind, ih]
  | spawn job next ih => simp only [bind, ih]
  | become job next ih => simp only [bind, ih]

end Program

end Async
