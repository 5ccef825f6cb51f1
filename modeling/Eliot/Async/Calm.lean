import Eliot.Async.Clients

namespace Async
namespace Call
variable {State Label Choice Error α β : Type}

def Calm (setting : Setting State Label Choice) (fine : Error → Prop) (known : α → Prop) :
    Call State Label Choice Error α → Prop
  | .done (.ok value) => known value
  | .done (.error error) => fine error
  | .ask label request next => ∀ choice now, setting.allowed label choice now →
      setting.moves now (request choice now).2 ∧ (next (request choice now).1).Calm setting fine known

section
variable {setting : Setting State Label Choice} {fine : Error → Prop} {now : State}
variable {call : Call State Label Choice Error α}

variable {rest : α → Call State Label Choice Error β}

theorem Calm.then
    {middle : α → Prop} {known : β → Prop}
    (first : call.Calm setting fine middle)
    (second : ∀ value, middle value → (rest value).Calm setting fine known) :
    (call >>= rest).Calm setting fine known := by
  rw [bind_eq]
  induction call with
  | done result =>
    cases result with
    | ok value => exact second value first
    | error error => exact first
  | ask label request next ih =>
    intro choice state allowed
    obtain ⟨moved, after⟩ := first choice state allowed
    exact ⟨moved, ih _ after⟩

theorem Calm.mono {strong weak : α → Prop}
    (calm : call.Calm setting fine strong) (weaken : ∀ value, strong value → weak value) :
    call.Calm setting fine weak := by
  induction call with
  | done result =>
    cases result with
    | ok value => exact weaken value calm
    | error error => exact calm
  | ask label request next ih =>
    intro choice state allowed
    obtain ⟨moved, after⟩ := calm choice state allowed
    exact ⟨moved, ih _ after⟩

theorem wp_calm {known : α → Prop} {kept : State → Prop}
    (calm : call.Calm setting fine known)
    (stable : ∀ before after, setting.moves before after → kept before → kept after) (here : kept now) :
    call.wp setting (fun result later => kept later ∧
      match result with
      | .ok value => known value
      | .error error => fine error) now := by
  induction call generalizing now with
  | done result => cases result <;> exact ⟨here, calm⟩
  | ask label request next ih =>
    intro later moved choice allowed
    obtain ⟨own, after⟩ := calm choice later allowed
    exact ih _ after (stable _ _ own (stable _ _ moved here))

theorem wp_then
    {known : α → Prop} {kept : State → Prop}
    {post : Except Error β → State → Prop} (calm : call.Calm setting fine known)
    (stable : ∀ before after, setting.moves before after → kept before → kept after) (here : kept now)
    (failed : ∀ error later, fine error → kept later → post (.error error) later)
    (onward : ∀ value later, known value → kept later → (rest value).wp setting post later) :
    (call >>= rest).wp setting post now := by
  refine wp_bind (wp_mono (wp_calm calm stable here) fun result later reached => ?_)
  cases result with
  | ok value => exact onward value later reached.2 reached.1
  | error error => exact failed error later reached.2 reached.1

theorem wp_request {label : Label} {action : Choice → State → Except Error α × State}
    {post : Except Error β → State → Prop}
    (holds : ∀ later, setting.moves now later → ∀ choice, setting.allowed label choice later →
      match action choice later with
      | (.ok value, after) => (rest value).wp setting post after
      | (.error error, after) => post (.error error) after) :
    (request label action >>= rest).wp setting post now := by
  intro later moved choice allowed
  have reached := holds later moved choice allowed
  cases told : action choice later with
  | mk result after =>
    simp only [told] at reached ⊢
    cases result <;> exact reached

theorem wp_refine {loose : Setting State Label Choice}
    {post : Except Error α → State → Prop} {kept : State → Prop}
    (moves : ∀ before after, setting.moves before after → loose.moves before after)
    (allowed : ∀ label choice state, kept state → setting.allowed label choice state →
      loose.allowed label choice state)
    (stable : ∀ before after, setting.moves before after → kept before → kept after)
    (steps : call.Steps fun before after => kept before → kept after) (here : kept now)
    (holds : call.wp loose post now) :
    call.wp setting (fun result later => post result later ∧ kept later) now := by
  induction call generalizing now with
  | done result => exact ⟨holds, here⟩
  | ask label request next ih =>
    intro later moved choice met
    have still := stable _ _ moved here
    exact ih _ (steps.2 _) (steps.1 choice later still)
      (holds later (moves _ _ moved) choice (allowed _ _ _ still met))

end

end Call
end Async
