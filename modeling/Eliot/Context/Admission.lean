import Eliot.Context.Build

namespace Context
open Text Citations

structure Dispatch where
  request : ModelRequest
  inputTokens : Nat
  maxOutputTokens : Option ℚ

def turnRequest (context : ContextResult) (question instructions : Text) : ModelRequest where
  instructions := joinInstructions
    ((context.messages.filter (·.role = .system)).map (·.content) ++ [instructions])
  messages := chatModelMessages (context.messages.map (·.toRequestMessage)) question
  schema := none

def dispatch (model : CatalogModel) (context : ContextResult) (question instructions : Text) :
    Except LibraryError Dispatch := do
  let request := turnRequest context question instructions
  let inputTokens := estimateModelInput request false
  let limit ← model.modelInputLimit
  if limit < inputTokens then
    throw ⟨.invalid, "This question and source set exceed whole-reading context. Narrow the selection.", 400⟩
  let maxOutputTokens ← model.modelOutputLimit inputTokens
  return ⟨request, inputTokens, maxOutputTokens⟩

def Admitted (cap : ℚ) (caller : Caller) (context : ContextResult) : Prop :=
  (requestTokens context.messages caller : ℚ) ≤ cap

section
variable {World : Type} {env : Env World} {rounds : Nat} {cap : ℚ} {caller : Caller}

theorem assemble_admits (mixed : MixedInput World) (packing : Packing World) :
    Returns (assemble mixed packing)
      fun reached => ∀ context ∈ reached.2, Admitted mixed.cap mixed.caller context := by
  unfold assemble
  refine returns_then fun parts => returns_then fun sourcesText => ?_
  refine returns_then fun claimOrientation => returns_then fun ⟨plan, selected⟩ => ?_
  simp only
  split
  · exact returns_pure (by simp)
  · rename_i history _
    split
    · exact returns_pure (by simp)
    · rename_i within
      refine returns_pure ?_
      rintro context ⟨⟩
      exact not_lt.mp within

theorem compressMore_admits (mixed : MixedInput World) (candidates : List Candidate)
    (left : Nat) (packing : Packing World) :
    Returns (compressMore mixed candidates left packing)
      fun reached => ∀ context ∈ reached.2, Admitted mixed.cap mixed.caller context := by
  induction left generalizing packing with
  | zero => exact returns_pure (by simp)
  | succ left ih =>
    unfold compressMore
    split
    · exact returns_pure (by simp)
    · simp only
      split
      · exact returns_pure (by simp)
      · split
        · exact returns_pure (by simp)
        · refine returns_bind (assemble_admits mixed _) fun ⟨packing, result⟩ admitted => ?_
          cases result with
          | some context => exact returns_pure admitted
          | none => exact ih packing

theorem assembleUntil_admits (mixed : MixedInput World) (candidates : List Candidate)
    (packing : Packing World) :
    Returns (assembleUntil mixed candidates packing)
      fun reached => ∀ context ∈ reached.2, Admitted mixed.cap mixed.caller context := by
  unfold assembleUntil
  refine returns_bind (assemble_admits mixed packing) fun ⟨packing, result⟩ admitted => ?_
  cases result with
  | some context => exact returns_pure admitted
  | none => exact compressMore_admits mixed candidates candidates.length packing

theorem buildMixedContext_admits {frozen : List Frozen} {plan : HistoryPlan World}
    {frozenSet : List Text} {systemTokens callerTokens : Nat} {wholePrefitTokens : Int}
    {preloadedWhole : Option (List SourceText)} :
    Returns (buildMixedContext env rounds frozen plan frozenSet systemTokens callerTokens cap
      wholePrefitTokens caller preloadedWhole) (Admitted cap caller) := by
  unfold buildMixedContext
  refine returns_then fun compactParts => returns_then fun projected => ?_
  refine returns_bind (assembleUntil_admits _ _ _) fun ⟨packing, result⟩ admitted => ?_
  cases result with
  | some context => exact returns_pure (admitted context rfl)
  | none => exact returns_raise

theorem guideOrientation_fits (evidence history : List ContextMessage) (lines : List Text)
    (fits : (requestTokens (evidence ++ history) caller : ℚ) ≤ cap) :
    Returns (guideOrientation evidence history caller cap lines : Assembling World _)
      fun orientation => (requestTokens (evidence ++ orientation ++ history) caller : ℚ) ≤ cap := by
  have without : (requestTokens (evidence ++ [] ++ history) caller : ℚ) ≤ cap := by
    simpa using fits
  unfold guideOrientation
  refine returns_then fun assembly => ?_
  simp only
  split
  · exact returns_pure without
  · refine returns_then fun joined => returns_then fun guideText => ?_
    split
    · rename_i within
      exact returns_pure (by simpa using within)
    · exact returns_pure without

theorem liftLimit_ok (limit : Except LibraryError ℚ) :
    Returns (liftLimit limit : Assembling World ℚ) fun cap => limit = .ok cap := by
  intro before cap after run
  cases limit with
  | error error => cases run
  | ok found =>
    cases run
    rfl

theorem buildContext_admits (input : ContextInput World) :
    Returns (buildContext env rounds input) fun context =>
      ∃ cap, input.model.modelInputLimit = .ok cap ∧ Admitted cap input.toCaller context := by
  unfold buildContext
  refine returns_then fun _ => returns_then fun _ => returns_then fun _ => returns_then fun _ => ?_
  refine returns_bind (liftLimit_ok _) fun cap limited => ?_
  refine returns_then fun _ => returns_then fun frozen => returns_then fun _ => ?_
  refine returns_then fun newest => ?_
  simp only
  split
  · refine returns_then fun selected => ?_
    split
    · exact returns_raise
    · refine returns_bind returns_refuse fun _ within => returns_pure ⟨cap, limited, ?_⟩
      exact not_lt.mp within
  · split
    · refine returns_then fun wholeParts => returns_then fun sourcesText => ?_
      refine returns_then fun selected => ?_
      split
      · exact fun before context after run =>
          ⟨cap, limited, buildMixedContext_admits before context after run⟩
      · rename_i history fitted
        refine returns_bind (guideOrientation_fits _ _ _ (fitHistory_fits fitted)) ?_
        exact fun orientation within => returns_pure ⟨cap, limited, within⟩
    · exact fun before context after run =>
        ⟨cap, limited, buildMixedContext_admits before context after run⟩

end

theorem estimate_turnRequest (context : ContextResult) (caller : Caller) :
    estimateModelInput (turnRequest context (caller.question.getD [])
      (caller.instructions.getD [])) false = requestTokens context.messages caller := by
  unfold turnRequest requestTokens
  rw [chatModelMessages_eq, estimate_joined]
  · rw [List.filter_map]
    rfl
  · intro message member
    simp only [List.mem_append, List.mem_filter, List.mem_singleton, decide_eq_true_eq] at member
    rcases member with ⟨_, spoken⟩ | rfl
    · exact spoken
    · simp

/-- What building a context admits, sending it does not reject. -/
theorem dispatch_admitted {World : Type} {env : Env World} {rounds : Nat}
    {input : ContextInput World} {before after : Assembly World} {context : ContextResult}
    (built : buildContext env rounds input before = .ok (context, after)) :
    let question := input.question.getD []
    let instructions := input.instructions.getD []
    let estimate := requestTokens context.messages input.toCaller
    estimateModelInput (turnRequest context question instructions) false = estimate ∧
      (∃ cap, input.model.modelInputLimit = .ok cap ∧ estimate ≤ cap) ∧
      ∀ listed route, resolved listed route = .ok input.model →
        ∃ limit, input.model.modelOutputLimit estimate = .ok limit ∧
          dispatch input.model context question instructions =
            .ok ⟨turnRequest context question instructions, estimate, limit⟩ := by
  intro question instructions estimate
  have same : estimateModelInput (turnRequest context question instructions) false = estimate :=
    estimate_turnRequest context input.toCaller
  obtain ⟨cap, limited, within⟩ := buildContext_admits input before context after built
  refine ⟨same, ⟨cap, limited, within⟩, fun listed route found => ?_⟩
  obtain ⟨limit, left⟩ :=
    CatalogModel.modelOutputLimit_ok limited within (CatalogModel.resolved_ok found)
  refine ⟨limit, left, ?_⟩
  have fits : ¬cap < estimate := not_lt.mpr within
  have left' : input.model.modelOutputLimit (estimate : ℚ) = .ok limit := left
  simp only [dispatch, same, limited, bind, Except.bind, fits, if_false, left']
  rfl

def greetingEnv : Env Unit where
  findProject := fun _ => return true
  selectExplicit := fun _ _ => return []
  selectDefault := fun _ => return [⟨⟨text "s", text "Notes", text "r", some 12, none, none, none,
    none, 0⟩, false⟩]
  loadSourceText := fun entry index => return ⟨text "Hello world.",
    ⟨entry.sourceId, entry.revisionId, entry.title, [⟨1, 0, 12⟩], aliasOf index⟩⟩
  loadClaimContextPart := fun _ _ => return none

def greetingModel : CatalogModel :=
  ⟨"", some 4096, some 8192, some 1024, some 512, true, none⟩

def greeting : ContextInput Unit where
  history := some [⟨⟨.user, text "Hello?"⟩, none, none, none, false⟩,
    ⟨⟨.assistant, text "Hello [S1:1]."⟩, none, none, none, true⟩]
  earlierHistoryExists := false
  historyReader := none
  question := some (text "Who is \"greeted\"?")
  instructions := some (text "Be brief.")
  projectId := text "p"
  scopeMode := some .projectDefault
  sourceIds := none
  model := greetingModel

theorem dispatch_admitted_greeting : ∃ context after sent,
    buildContext greetingEnv 3 greeting ⟨0, ()⟩ = .ok (context, after) ∧
      dispatch greetingModel context (text "Who is \"greeted\"?") (text "Be brief.") = .ok sent ∧
      sent.inputTokens = requestTokens context.messages greeting.toCaller := by
  have returned : (buildContext greetingEnv 3 greeting ⟨0, ()⟩).isOk = true := by decide +kernel
  match built : buildContext greetingEnv 3 greeting ⟨0, ()⟩, returned with
  | .ok (context, after), _ =>
    obtain ⟨-, -, sends⟩ := dispatch_admitted built
    obtain ⟨limit, -, sent⟩ := sends (some greetingModel) "" (by decide +kernel)
    exact ⟨context, after, _, rfl, sent, rfl⟩

end Context
