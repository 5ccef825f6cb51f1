import Eliot.Context.Models

namespace Context

def Safe (value : ℚ) : Prop := isSafeInteger value = true

theorem safe_iff {value : ℚ} : Safe value ↔ ∃ whole : ℤ, value = whole ∧ |whole| < 2 ^ 53 := by
  have bounds (whole : ℤ) : |whole| < 2 ^ 53 ↔ -(2 ^ 53 - 1) ≤ (whole : ℚ) ∧ (whole : ℚ) ≤ 2 ^ 53 - 1 := by
    rw [abs_lt]
    constructor
    · rintro ⟨low, high⟩
      constructor
      · have low : -(2 ^ 53 - 1) ≤ whole := by omega
        exact_mod_cast low
      · have high : whole ≤ 2 ^ 53 - 1 := by omega
        exact_mod_cast high
    · rintro ⟨low, high⟩
      have low : -(2 ^ 53 - 1) ≤ whole := by exact_mod_cast low
      have high : whole ≤ 2 ^ 53 - 1 := by exact_mod_cast high
      omega
  rw [Safe, isSafeInteger, Bool.and_eq_true, Bool.and_eq_true, decide_eq_true_eq, decide_eq_true_eq]
  constructor
  · rintro ⟨⟨whole, low⟩, high⟩
    have same : value = value.num := Rat.eq_num_of_isInt whole
    rw [same] at low high
    exact ⟨value.num, same, (bounds value.num).mpr ⟨low, high⟩⟩
  · rintro ⟨whole, rfl, small⟩
    obtain ⟨low, high⟩ := (bounds whole).mp small
    exact ⟨⟨by simp [Rat.isInt], low⟩, high⟩

theorem safe_sub {value part : ℚ} (whole : Safe value) (safe : Safe part) (nonneg : 0 ≤ part) (fits : part ≤ value) :
    Safe (value - part) := by
  obtain ⟨large, rfl, bound⟩ := safe_iff.mp whole
  obtain ⟨small, rfl, -⟩ := safe_iff.mp safe
  have nonneg : 0 ≤ small := by exact_mod_cast nonneg
  have fits : small ≤ large := by exact_mod_cast fits
  rw [abs_lt] at bound
  refine safe_iff.mpr ⟨large - small, by push_cast; rfl, ?_⟩
  rw [abs_lt]
  omega

theorem safe_add {value other bound : ℚ} (safe : Safe value) (too : Safe other) (limit : Safe bound)
    (nonneg : 0 ≤ value + other) (fits : value + other ≤ bound) : Safe (value + other) := by
  obtain ⟨first, rfl, -⟩ := safe_iff.mp safe
  obtain ⟨second, rfl, -⟩ := safe_iff.mp too
  obtain ⟨most, rfl, small⟩ := safe_iff.mp limit
  have nonneg : 0 ≤ first + second := by exact_mod_cast nonneg
  have fits : first + second ≤ most := by exact_mod_cast fits
  rw [abs_lt] at small
  refine safe_iff.mpr ⟨first + second, by push_cast; rfl, ?_⟩
  rw [abs_lt]
  omega

theorem safe_min {value other : ℚ} (safe : Safe value) (too : Safe other) : Safe (min value other) := by
  rcases min_choice value other with same | same
  · rwa [same]
  · rwa [same]

namespace CatalogModel

variable {model : CatalogModel} {limit : Option ℚ} {cap : ℚ}

def computed (model : CatalogModel) (input : ℚ) : List ℚ :=
  [model.modelOutputReserve] ++
    (model.maxOutputTokens.map fun output => model.contextTokens.getD 0 + output).toList ++
    (model.contextWindowTokens.map fun window => window - model.modelOutputReserve).toList ++
    (model.contextWindowTokens.map fun window => window - input).toList

theorem modelTokenLimit_ok (limited : model.modelTokenLimit = .ok limit) :
    (∀ output, model.maxOutputTokens = some output →
      Safe output ∧ 0 < output ∧ Safe (model.contextTokens.getD 0 + output)) ∧
    limit = model.maxOutputTokens.map fun output =>
      model.contextWindowTokens.elim (model.contextTokens.getD 0 + output)
        (min (model.contextTokens.getD 0 + output)) := by
  unfold modelTokenLimit at limited
  simp only at limited
  split at limited
  · cases limited
  · rename_i usable
    simp only [not_or] at usable
    obtain ⟨-, -, -, outputs⟩ := usable
    refine ⟨?_, ?_⟩
    · intro output published
      simp only [published, Option.any_some, Bool.or_eq_true, Bool.not_eq_true', decide_eq_true_eq, not_or,
        Bool.not_eq_false, not_le] at outputs
      exact ⟨outputs.1.1, outputs.1.2, outputs.2⟩
    · cases published : model.maxOutputTokens with
      | none =>
        rw [published] at limited
        cases limited
        rfl
      | some output =>
        rw [published] at limited
        cases width : model.contextWindowTokens with
        | none =>
          rw [width] at limited
          cases limited
          rfl
        | some window =>
          rw [width] at limited
          cases limited
          rfl

theorem modelInputLimit_reserves (limited : model.modelInputLimit = .ok cap) :
    Safe model.modelOutputReserve ∧ 0 < model.modelOutputReserve ∧
      ∀ window, model.contextWindowTokens = some window →
        Safe window ∧ model.modelOutputReserve < window ∧ cap ≤ window - model.modelOutputReserve := by
  unfold modelInputLimit at limited
  simp only at limited
  split at limited
  · cases limited
  · rename_i usable
    simp only [not_or, Bool.not_eq_false, not_le] at usable
    obtain ⟨-, -, safe, positive, windows⟩ := usable
    refine ⟨safe, positive, ?_⟩
    intro window width
    simp only [width, Option.any_some, Bool.or_eq_true, Bool.not_eq_true', decide_eq_true_eq, not_or,
      Bool.not_eq_false, not_le] at windows
    rw [width] at limited
    cases limited
    exact ⟨windows.1, windows.2, min_le_right _ _⟩

theorem reserve_le {output : ℚ} (published : model.maxOutputTokens = some output) :
    model.modelOutputReserve ≤ output := by
  rw [modelOutputReserve, published]
  exact min_le_right _ _

theorem modelOutputLimit_eq {input : ℚ} (safe : Safe input) (nonneg : 0 ≤ input)
    (ceiling : Safe (model.contextTokens.getD 0)) (positive : 0 < model.contextTokens.getD 0)
    (below : input ≤ model.contextTokens.getD 0)
    (windows : ∀ window, model.contextWindowTokens = some window → Safe window ∧ input < window)
    (outputs : ∀ output, model.maxOutputTokens = some output → Safe output ∧ 0 < output) :
    model.modelOutputLimit input = .ok (model.maxOutputTokens.map fun output =>
      model.contextWindowTokens.elim output fun window => min output (window - input)) := by
  have usable : ¬ (isSafeInteger (model.contextTokens.getD 0) = false ∨ model.contextTokens.getD 0 ≤ 0 ∨
      isSafeInteger input = false ∨ input < 0 ∨ model.contextTokens.getD 0 < input ∨
      model.contextWindowTokens.any (fun window => !isSafeInteger window || window ≤ input)) := by
    simp only [not_or, Bool.not_eq_false, not_le, not_lt]
    refine ⟨ceiling, positive, safe, nonneg, below, ?_⟩
    cases width : model.contextWindowTokens with
    | none => simp
    | some window =>
      obtain ⟨whole, above⟩ := windows window width
      have whole : isSafeInteger window = true := whole
      simp [whole, above]
  unfold modelOutputLimit
  simp only [usable, if_false]
  cases published : model.maxOutputTokens with
  | none => rfl
  | some output =>
    obtain ⟨whole, above⟩ := outputs output published
    have fine : ¬ (isSafeInteger output = false ∨ output ≤ 0) := by
      have whole : isSafeInteger output = true := whole
      simp [whole, above]
    simp only [fine, if_false]
    cases model.contextWindowTokens <;> rfl

/-- The limits of a model agree: a request of an admitted size has an output limit or an unknown one, and the
    limit leaves the reserve and keeps within the output maximum, the window and the total. -/
theorem limits_agree (totals : model.modelTokenLimit = .ok limit) (inputs : model.modelInputLimit = .ok cap)
    (input : ℤ) (nonneg : 0 ≤ input) (within : (input : ℚ) ≤ cap) :
    ∃ output, model.modelOutputLimit input = .ok output ∧
      (output = none ↔ model.maxOutputTokens = none) ∧
      (∀ tokens, output = some tokens → ∃ maximum, model.maxOutputTokens = some maximum ∧
        model.modelOutputReserve ≤ tokens ∧ tokens ≤ maximum ∧ Safe tokens ∧ Safe (input + tokens) ∧
        (∀ window, model.contextWindowTokens = some window → input + tokens ≤ window) ∧
        ∃ total, limit = some total ∧ input + tokens ≤ total) ∧
      ∀ value ∈ model.computed input, Safe value := by
  obtain ⟨ceiling, positive, below, -⟩ := modelInputLimit_ok inputs
  obtain ⟨reserveSafe, reserved, windows⟩ := modelInputLimit_reserves inputs
  obtain ⟨outputs, total⟩ := modelTokenLimit_ok totals
  have below : (input : ℚ) ≤ model.contextTokens.getD 0 := within.trans below
  have nonneg : (0 : ℚ) ≤ input := by exact_mod_cast nonneg
  have safe : Safe (input : ℚ) := by
    obtain ⟨whole, same, bound⟩ := safe_iff.mp ceiling
    rw [same] at below
    have below : input ≤ whole := by exact_mod_cast below
    have nonneg : 0 ≤ input := by exact_mod_cast nonneg
    rw [abs_lt] at bound
    refine safe_iff.mpr ⟨input, rfl, ?_⟩
    rw [abs_lt]
    omega
  have room : ∀ window, model.contextWindowTokens = some window → Safe window ∧ (input : ℚ) < window := by
    intro window width
    obtain ⟨whole, -, left⟩ := windows window width
    exact ⟨whole, by linarith⟩
  have output := modelOutputLimit_eq safe nonneg ceiling positive below room
    fun output published => ⟨(outputs output published).1, (outputs output published).2.1⟩
  refine ⟨_, output, by simp, ?_, ?_⟩
  · intro tokens limited
    obtain ⟨maximum, published, rfl⟩ := Option.map_eq_some_iff.mp limited
    obtain ⟨maximumSafe, -, sumSafe⟩ := outputs maximum published
    have least := reserve_le published
    rw [published, Option.map_some] at total
    cases width : model.contextWindowTokens with
    | none =>
      rw [width] at total
      refine ⟨maximum, published, least, le_refl _, maximumSafe, ?_, by simp, _, total, ?_⟩
      · refine safe_add safe maximumSafe sumSafe ?_ ?_
        · change (0 : ℚ) ≤ input + maximum
          linarith
        · exact add_le_add_left below maximum
      · exact add_le_add_left below maximum
    | some window =>
      obtain ⟨windowSafe, above⟩ := room window width
      obtain ⟨-, -, left⟩ := windows window width
      have tokens : Option.elim (some window) maximum (fun window => min maximum (window - input)) =
          min maximum (window - input) := rfl
      have high : min maximum (window - input) ≤ maximum := min_le_left _ _
      have room : min maximum (window - input) ≤ window - input := min_le_right _ _
      have low : model.modelOutputReserve ≤ min maximum (window - input) := le_min least (by linarith)
      have whole := safe_min maximumSafe (safe_sub windowSafe safe nonneg above.le)
      rw [width] at total
      rw [tokens]
      refine ⟨maximum, published, low, high, whole, ?_, ?_, _, total, ?_⟩
      · exact safe_add safe whole windowSafe (by linarith) (by linarith)
      · rintro _ ⟨⟩
        linarith
      · exact le_min (by linarith) (by linarith)
  · intro value member
    simp only [computed, List.mem_append, List.mem_singleton, Option.mem_toList, Option.map_eq_some_iff] at member
    rcases member with ((rfl | ⟨output, published, rfl⟩) | ⟨window, width, rfl⟩) | ⟨window, width, rfl⟩
    · exact reserveSafe
    · exact (outputs output published).2.2
    · obtain ⟨whole, above, -⟩ := windows window width
      exact safe_sub whole reserveSafe reserved.le above.le
    · obtain ⟨whole, above⟩ := room window width
      exact safe_sub whole safe nonneg above.le

def sharedWindow : CatalogModel where
  route := "openai:sample"
  contextTokens := some 128000
  contextWindowTokens := some 128000
  maxOutputTokens := some 16384
  outputReserveTokens := some 8192
  enabled := true
  unavailableReason := none

theorem sharedWindow_limits_agree :
    ∃ output, sharedWindow.modelOutputLimit (119808 : ℤ) = .ok output ∧
      (output = none ↔ sharedWindow.maxOutputTokens = none) ∧
      (∀ tokens, output = some tokens → ∃ maximum, sharedWindow.maxOutputTokens = some maximum ∧
        sharedWindow.modelOutputReserve ≤ tokens ∧ tokens ≤ maximum ∧ Safe tokens ∧
        Safe ((119808 : ℤ) + tokens) ∧
        (∀ window, sharedWindow.contextWindowTokens = some window → (119808 : ℤ) + tokens ≤ window) ∧
        ∃ total, some 128000 = some total ∧ (119808 : ℤ) + tokens ≤ total) ∧
      ∀ value ∈ sharedWindow.computed (119808 : ℤ), Safe value :=
  have totals : sharedWindow.modelTokenLimit = .ok (some 128000) := by decide +kernel
  have inputs : sharedWindow.modelInputLimit = .ok 119808 := by decide +kernel
  limits_agree totals inputs 119808 (by decide) (by norm_num)

end CatalogModel
end Context
