import Mathlib.Data.Rat.Lemmas
import Mathlib.Algebra.Order.Field.Rat
import Mathlib.Tactic.Linarith

namespace Context

inductive ErrorCode where
  | invalid
  | unavailable
  | conflict
  | notFound
deriving DecidableEq

structure LibraryError where
  code : ErrorCode
  message : String
  status : Nat
deriving DecidableEq

def isSafeInteger (value : ℚ) : Bool := value.isInt && -(2 ^ 53 - 1) ≤ value && value ≤ 2 ^ 53 - 1

structure CatalogModel where
  route : String
  contextTokens : Option ℚ
  contextWindowTokens : Option ℚ
  maxOutputTokens : Option ℚ
  outputReserveTokens : Option ℚ
  enabled : Bool
  unavailableReason : Option String
deriving DecidableEq

namespace CatalogModel

def modelOutputReserve (model : CatalogModel) : ℚ :=
  let bound := (model.outputReserveTokens.or model.maxOutputTokens).getD 0
  min bound (model.maxOutputTokens.getD bound)

def modelInputLimit (model : CatalogModel) : Except LibraryError ℚ :=
  let input := model.contextTokens.getD 0
  let reserve := model.modelOutputReserve
  if isSafeInteger input = false ∨ input ≤ 0 ∨ isSafeInteger reserve = false ∨ reserve ≤ 0 ∨
      model.contextWindowTokens.any (fun window => !isSafeInteger window || window ≤ reserve) then
    .error ⟨.unavailable, "The model has no usable input capacity.", 503⟩
  else
    match model.contextWindowTokens with
    | none => .ok input
    | some window => .ok (min input (window - reserve))

def modelOutputLimit (model : CatalogModel) (inputEstimate : ℚ) : Except LibraryError (Option ℚ) :=
  let inputCeiling := model.contextTokens.getD 0
  if isSafeInteger inputCeiling = false ∨ inputCeiling ≤ 0 ∨ isSafeInteger inputEstimate = false ∨
      inputEstimate < 0 ∨ inputCeiling < inputEstimate ∨
      model.contextWindowTokens.any
        (fun window => !isSafeInteger window || window ≤ inputEstimate) then
    .error ⟨.unavailable, "This request has no usable output context.", 503⟩
  else
    match model.maxOutputTokens with
    | none => .ok none
    | some maxOutputTokens =>
      if isSafeInteger maxOutputTokens = false ∨ maxOutputTokens ≤ 0 then
        .error ⟨.unavailable, "The model has no usable output maximum.", 503⟩
      else
        match model.contextWindowTokens with
        | none => .ok (some maxOutputTokens)
        | some window => .ok (some (min maxOutputTokens (window - inputEstimate)))

def modelTokenLimit (model : CatalogModel) : Except LibraryError (Option ℚ) :=
  let input := model.contextTokens.getD 0
  if isSafeInteger input = false ∨ input ≤ 0 ∨
      model.contextWindowTokens.any (fun window => !isSafeInteger window || window ≤ 0) ∨
      model.maxOutputTokens.any
        (fun output => !isSafeInteger output || output ≤ 0 || !isSafeInteger (input + output)) then
    .error ⟨.unavailable, "The model has no usable input/output limits.", 503⟩
  else
    match model.maxOutputTokens with
    | none => .ok none
    | some output =>
      match model.contextWindowTokens with
      | none => .ok (some (input + output))
      | some window => .ok (some (min (input + output) window))

def missingMetadata (model : CatalogModel) : Option String :=
  if model.contextTokens.any isSafeInteger = false ∨ model.contextTokens.getD 0 ≤ 0 ∨
      isSafeInteger model.modelOutputReserve = false ∨ model.modelOutputReserve ≤ 0 then
    some "The provider has not published usable context/output metadata."
  else none

end CatalogModel

def resolved (model : Option CatalogModel) (route : String) : Except LibraryError CatalogModel :=
  match model with
  | none => .error ⟨.unavailable, "This model is absent from the current provider catalogue.", 503⟩
  | some model =>
    if model.enabled = false ∨ model.missingMetadata.isSome then
      .error ⟨.unavailable, (model.unavailableReason.or model.missingMetadata).getD
        "This model is unavailable.", 503⟩
    else
      match model.modelTokenLimit with
      | .error error => .error error
      | .ok _ => .ok { model with route }

theorem isSafeInteger_natCast {value : Nat} {bound : ℚ} (safe : isSafeInteger bound = true)
    (le : (value : ℚ) ≤ bound) : isSafeInteger value = true := by
  simp only [isSafeInteger, Bool.and_eq_true, decide_eq_true_eq] at safe ⊢
  have nonneg : (0 : ℚ) ≤ value := Nat.cast_nonneg value
  refine ⟨⟨?_, ?_⟩, le.trans safe.2⟩
  · simp [Rat.isInt]
  · norm_num
    linarith

namespace CatalogModel
variable {model : CatalogModel} {cap : ℚ}

theorem modelInputLimit_ok (limited : model.modelInputLimit = .ok cap) :
    isSafeInteger (model.contextTokens.getD 0) = true ∧ 0 < model.contextTokens.getD 0 ∧
      cap ≤ model.contextTokens.getD 0 ∧
      ∀ window, model.contextWindowTokens = some window →
        isSafeInteger window = true ∧ cap < window := by
  unfold modelInputLimit at limited
  simp only at limited
  split at limited
  · cases limited
  · rename_i usable
    simp only [not_or, Bool.not_eq_false, not_le] at usable
    obtain ⟨safe, positive, _, reserve, window⟩ := usable
    split at limited
    · rename_i none
      cases limited
      exact ⟨safe, positive, le_rfl, by simp [none]⟩
    · rename_i width published
      cases limited
      simp only [published, Option.any_some, Bool.or_eq_true, Bool.not_eq_true', decide_eq_true_eq,
        not_or, Bool.not_eq_false, not_le] at window
      refine ⟨safe, positive, min_le_left _ _, ?_⟩
      rintro _ same
      cases published.symm.trans same
      exact ⟨window.1, (min_le_right _ _).trans_lt (by linarith)⟩

theorem resolved_ok {model : Option CatalogModel} {route : String} {spec : CatalogModel}
    (found : resolved model route = .ok spec) :
    ∀ output, spec.maxOutputTokens = some output → isSafeInteger output = true ∧ 0 < output := by
  intro output published
  unfold resolved at found
  split at found
  · cases found
  · split at found
    · cases found
    · split at found
      · cases found
      · rename_i limit limited
        cases found
        simp only at published
        unfold modelTokenLimit at limited
        simp only [published, Option.any_some] at limited
        split at limited
        · cases limited
        · rename_i usable
          simp only [not_or, Bool.not_eq_true, Bool.or_eq_false_iff, Bool.not_eq_false',
            decide_eq_false_iff_not, not_le] at usable
          exact ⟨usable.2.2.2.1.1, usable.2.2.2.1.2⟩

theorem modelOutputLimit_ok {estimate : Nat} (limited : model.modelInputLimit = .ok cap)
    (within : (estimate : ℚ) ≤ cap)
    (published : ∀ output, model.maxOutputTokens = some output →
      isSafeInteger output = true ∧ 0 < output) :
    ∃ limit, model.modelOutputLimit estimate = .ok limit := by
  obtain ⟨safe, positive, ceiling, window⟩ := modelInputLimit_ok limited
  have below : (estimate : ℚ) ≤ model.contextTokens.getD 0 := within.trans ceiling
  have nonneg : (0 : ℚ) ≤ estimate := Nat.cast_nonneg estimate
  have usable : ¬(isSafeInteger (model.contextTokens.getD 0) = false ∨
      model.contextTokens.getD 0 ≤ 0 ∨ isSafeInteger (estimate : ℚ) = false ∨
      (estimate : ℚ) < 0 ∨ model.contextTokens.getD 0 < estimate ∨
      model.contextWindowTokens.any
        (fun window => !isSafeInteger window || window ≤ (estimate : ℚ))) := by
    simp only [not_or, Bool.not_eq_false, not_le, not_lt]
    refine ⟨safe, positive, isSafeInteger_natCast safe below, nonneg, below, ?_⟩
    cases width : model.contextWindowTokens with
    | none => simp
    | some width' =>
      obtain ⟨whole, above⟩ := window width' width
      simp only [Option.any_some, whole, Bool.not_true, Bool.false_or, decide_eq_true_eq, not_le]
      exact within.trans_lt above
  unfold modelOutputLimit
  simp only [usable, if_false]
  cases output : model.maxOutputTokens with
  | none => exact ⟨_, rfl⟩
  | some output' =>
    obtain ⟨whole, above⟩ := published output' output
    have fine : ¬(isSafeInteger output' = false ∨ output' ≤ 0) := by
      simp [whole, above]
    simp only [fine, if_false]
    cases model.contextWindowTokens <;> exact ⟨_, rfl⟩

end CatalogModel
end Context
