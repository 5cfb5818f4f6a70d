import CodexLb.Base.Models
import CodexLb.Cost.Pricing
import CodexLb.Machine.Integer
import Mathlib.Data.Rat.Cast.Order
import Mathlib.Tactic.Ring
import Mathlib.Tactic.Linarith

/-!
# Exact prices

`estimate_standard_api_cost` as a debug build executes it, with its assertions
and its operators that panic, `src/pricing.rs:113–247`. On `i64` counters it
panics nowhere. The price is the exact sum of the categories, and the checked
additions refuse it only where that sum is no `i64`.
-/

namespace CodexLb

open Machine

/-! ### The code with its panics -/

namespace Executed

/-- `checked_category_cost` with its assertions and products, `src/pricing.rs:234–247`. -/
def checkedCategoryCost (tokens nanoUsdPerToken numerator denominator : Int) :
    OptionT (Except Panic) Int := do
  assertion (0 ≤ tokens)
  assertion (0 ≤ nanoUsdPerToken)
  assertion (0 < denominator)
  let product ← unchecked 128 (tokens * nanoUsdPerToken)
  let product ← unchecked 128 (product * numerator)
  let value ← attempt (checkedDiv 128 product denominator)
  attempt (checked 64 value)

/-- `calculate_cost`, `src/pricing.rs:205–232`. -/
def calculateCost (rates : TokenRates) (uncachedInput cachedInput cacheWriteInput output : Int)
    (longContext : Bool) : OptionT (Except Panic) Int := do
  let inputMultiplier := if longContext then 2 else 1
  let (outputNumerator, outputDenominator) := if longContext then ((3, 2) : Int × Int) else (1, 1)
  let uncachedCost ← checkedCategoryCost uncachedInput rates.input inputMultiplier 1
  let cachedCost ← checkedCategoryCost cachedInput rates.cachedInput inputMultiplier 1
  let cacheWriteCost ← checkedCategoryCost cacheWriteInput rates.cacheWriteInput inputMultiplier 1
  let outputCost ← checkedCategoryCost output rates.output outputNumerator outputDenominator
  let sum ← attempt (checked 64 (uncachedCost + cachedCost))
  let sum ← attempt (checked 64 (sum + cacheWriteCost))
  attempt (checked 64 (sum + outputCost))

/-- The estimate for a known number of cache-write tokens, `src/pricing.rs:149–170`. -/
def estimateCacheWrite (rates : TokenRates) (input cachedInput cacheWriteInput output : Int)
    (longContext : Bool) : Except Panic ApiCostEstimate :=
  if cacheWriteInput < 0 ∨ ((checked 64 (cachedInput + cacheWriteInput)).map
      fun accounted ↦ decide (input < accounted)).getD true then .ok (.unpriced .invalidUsage)
  else do
    let uncachedInput ← unchecked 64 (input - cachedInput)
    let uncachedInput ← unchecked 64 (uncachedInput - cacheWriteInput)
    match ← (calculateCost rates uncachedInput cachedInput cacheWriteInput output
      longContext).run with
    | some cost => return .priced .complete cost cost
    | none => return .unpriced .invalidUsage

/-- The bounds for an unknown number of cache-write tokens, `src/pricing.rs:171–193`. -/
def estimateMissingCacheWrite (rates : TokenRates) (input cachedInput output : Int)
    (longContext : Bool) : Except Panic ApiCostEstimate := do
  let potentiallyWritten ← unchecked 64 (input - cachedInput)
  let lower ← (calculateCost rates potentiallyWritten cachedInput 0 output longContext).run
  let upper ← (calculateCost rates 0 cachedInput potentiallyWritten output longContext).run
  match lower, upper with
  | some lower, some upper => return .priced .missingCacheWrite lower upper
  | _, _ => return .unpriced .invalidUsage

/-- `estimate_standard_api_cost`, `src/pricing.rs:113–194`. -/
def estimateStandardApiCost (effectiveModel : Option String) (usage : UsageData) :
    Except Panic ApiCostEstimate :=
  match effectiveModel.bind tokenRates with
  | none => .ok (.unpriced .unknownModel)
  | some rates =>
    match usage.inputTokens, usage.outputTokens, usage.cachedInputTokens with
    | some input, some output, some cachedInput =>
      if input < 0 ∨ output < 0 ∨ cachedInput < 0 ∨ input < cachedInput then
        .ok (.unpriced .invalidUsage)
      else
        let longContext := decide (longContextInputThreshold < input)
        if input < minCacheableInputTokens then
          if cachedInput ≠ 0 ∨ (usage.cacheWriteInputTokens.map (decide <| · ≠ 0)).getD false then
            .ok (.unpriced .invalidUsage)
          else estimateCacheWrite rates input cachedInput 0 output longContext
        else
          match usage.cacheWriteInputTokens with
          | some cacheWriteInput =>
            estimateCacheWrite rates input cachedInput cacheWriteInput output longContext
          | none => estimateMissingCacheWrite rates input cachedInput output longContext
    | _, _, _ => .ok (.unpriced .missingUsage)

end Executed

/-! ### The embedded rates -/

/-- What the arithmetic relies on: no rate is negative or has more than fifteen bits, half an
output token has a whole price, and writing the cache is never cheaper than not writing it. -/
structure TokenRates.Sound (rates : TokenRates) : Prop where
  input : 0 ≤ rates.input ∧ rates.input < 2 ^ 15
  cachedInput : 0 ≤ rates.cachedInput ∧ rates.cachedInput < 2 ^ 15
  cacheWriteInput : 0 ≤ rates.cacheWriteInput ∧ rates.cacheWriteInput < 2 ^ 15
  output : 0 ≤ rates.output ∧ rates.output < 2 ^ 15
  halves : 2 ∣ rates.output
  dearer : rates.input ≤ rates.cacheWriteInput

/-- Every embedded rate card is sound. -/
theorem tokenRates_sound {model : String} {rates : TokenRates} (h : tokenRates model = some rates) :
    rates.Sound := by
  have hcards : rates = solRates ∨ rates = terraRates ∨ rates = lunaRates := by
    unfold tokenRates at h
    split at h
    · exact .inl (Option.some.inj h).symm
    · split at h
      · exact .inr (.inl (Option.some.inj h).symm)
      · split at h
        · exact .inr (.inr (Option.some.inj h).symm)
        · cases h
  rcases hcards with rfl | rfl | rfl <;> constructor <;> decide

/-! ### The price of a request -/

/-- The price of one category in whole billionths. -/
def categoryCost (tokens nanoUsdPerToken numerator denominator : Int) : Int :=
  (tokens * nanoUsdPerToken * numerator).tdiv denominator

/-- The price of a request, category by category. -/
def wholeCost (rates : TokenRates) (uncachedInput cachedInput cacheWriteInput output : Int)
    (longContext : Bool) : Int :=
  let inputMultiplier := if longContext then 2 else 1
  categoryCost uncachedInput rates.input inputMultiplier 1 +
    categoryCost cachedInput rates.cachedInput inputMultiplier 1 +
    categoryCost cacheWriteInput rates.cacheWriteInput inputMultiplier 1 +
    if longContext then categoryCost output rates.output 3 2
    else categoryCost output rates.output 1 1

/-- The exact price of a request in billionths of one US dollar: every input category at its rate,
doubled in a long context, and the output at its rate, times one and a half there. -/
def exactCost (rates : TokenRates) (input cachedInput cacheWriteInput output : Int) : Rat :=
  let uncachedInput := input - cachedInput - cacheWriteInput
  (if longContextInputThreshold < input then 2 else 1) *
      (uncachedInput * rates.input + cachedInput * rates.cachedInput +
        cacheWriteInput * rates.cacheWriteInput : Int) +
    (if longContextInputThreshold < input then 3 / 2 else 1) * (output * rates.output : Int)

variable {rates : TokenRates} {input uncachedInput cachedInput cacheWriteInput output : Int}
  {longContext : Bool}

/-- `checkedI64` is the checked operation of the signed type of 64 bits. -/
theorem checkedI64_eq (value : Int) : checkedI64 value = checked 64 value := rfl

/-- The price of a category of numbers that are not negative is not negative. -/
theorem categoryCost_nonneg {tokens rate numerator denominator : Int} (htokens : 0 ≤ tokens)
    (hrate : 0 ≤ rate) (hnumerator : 0 ≤ numerator) (hdenominator : 0 ≤ denominator) :
    0 ≤ categoryCost tokens rate numerator denominator :=
  Int.tdiv_nonneg (mul_nonneg (mul_nonneg htokens hrate) hnumerator) hdenominator

/-- A category is priced where its price is an `i64`. -/
theorem checkedCategoryCost_eq {tokens rate numerator denominator : Int}
    (hdenominator : 0 < denominator) : checkedCategoryCost tokens rate numerator denominator =
      checked 64 (categoryCost tokens rate numerator denominator) := by
  unfold checkedCategoryCost
  rw [if_neg hdenominator.ne', checkedI64_eq]
  rfl

/-- The additions of `calculate_cost` are one checked sum of the categories. -/
theorem calculateCost_eq (rates : TokenRates)
    (uncachedInput cachedInput cacheWriteInput output : Int) (longContext : Bool) :
    calculateCost rates uncachedInput cachedInput cacheWriteInput output longContext =
      (checked 64 (categoryCost uncachedInput rates.input (if longContext then 2 else 1) 1)).bind
        fun uncachedCost ↦
      (checked 64 (categoryCost cachedInput rates.cachedInput (if longContext then 2 else 1)
        1)).bind fun cachedCost ↦
      (checked 64 (categoryCost cacheWriteInput rates.cacheWriteInput
        (if longContext then 2 else 1) 1)).bind fun cacheWriteCost ↦
      (checked 64 (if longContext then categoryCost output rates.output 3 2
        else categoryCost output rates.output 1 1)).bind fun outputCost ↦
      checkedSum 64 uncachedCost [cachedCost, cacheWriteCost, outputCost] := by
  have hone : (0 : Int) < 1 := by decide
  have htwo : (0 : Int) < 2 := by decide
  unfold calculateCost
  simp only [checkedSum, List.foldlM_cons, List.foldlM_nil, bind_pure]
  cases longContext with
  | false =>
    simp only [Bool.false_eq_true, if_false, checkedCategoryCost_eq hone]
    rfl
  | true =>
    simp only [if_true, checkedCategoryCost_eq hone, checkedCategoryCost_eq htwo]
    rfl

/-- A price is the sum of the categories, where that sum is an `i64`. -/
theorem calculateCost_eq_some_iff (hrates : rates.Sound) (huncached : 0 ≤ uncachedInput)
    (hcached : 0 ≤ cachedInput) (hwrite : 0 ≤ cacheWriteInput) (houtput : 0 ≤ output) {cost : Int} :
    calculateCost rates uncachedInput cachedInput cacheWriteInput output longContext = some cost ↔
      cost = wholeCost rates uncachedInput cachedInput cacheWriteInput output longContext ∧
        cost < 2 ^ 63 := by
  have hmultiplier : (0 : Int) ≤ if longContext then 2 else 1 := by split <;> decide
  have h₁ := categoryCost_nonneg huncached hrates.input.1 hmultiplier (Int.zero_le_ofNat 1)
  have h₂ := categoryCost_nonneg hcached hrates.cachedInput.1 hmultiplier (Int.zero_le_ofNat 1)
  have h₃ := categoryCost_nonneg hwrite hrates.cacheWriteInput.1 hmultiplier (Int.zero_le_ofNat 1)
  have h₄ : 0 ≤ if longContext then categoryCost output rates.output 3 2
      else categoryCost output rates.output 1 1 := by
    split
    · exact categoryCost_nonneg houtput hrates.output.1 (by decide) (by decide)
    · exact categoryCost_nonneg houtput hrates.output.1 (by decide) (by decide)
  rw [calculateCost_eq, wholeCost]
  generalize categoryCost uncachedInput rates.input _ 1 = c₁ at *
  generalize categoryCost cachedInput rates.cachedInput _ 1 = c₂ at *
  generalize categoryCost cacheWriteInput rates.cacheWriteInput _ 1 = c₃ at *
  generalize (if longContext then categoryCost output rates.output 3 2
    else categoryCost output rates.output 1 1) = c₄ at *
  have hterms : ∀ term ∈ [c₂, c₃, c₄], 0 ≤ term := by simp [h₂, h₃, h₄]
  simp only [Option.bind_eq_some_iff, checked_eq_some_iff]
  constructor
  · rintro ⟨_, ⟨rfl, hfits⟩, _, ⟨rfl, -⟩, _, ⟨rfl, -⟩, _, ⟨rfl, -⟩, hsum⟩
    obtain ⟨rfl, hwhole⟩ := (checkedSum_eq_some_iff h₁ hfits hterms).mp hsum
    refine ⟨?_, hwhole.2⟩
    simp only [List.sum_cons, List.sum_nil]
    omega
  · rintro ⟨rfl, hlimit⟩
    -- each category is at most the whole sum
    have hpart : ∀ c : Int, 0 ≤ c → c ≤ c₁ + c₂ + c₃ + c₄ → Fits 64 c := by
      intro c hc hle
      rw [fits_of_nonneg hc]
      exact hle.trans_lt hlimit
    have hfits := hpart c₁ h₁ (by omega)
    refine ⟨_, ⟨rfl, hfits⟩, _, ⟨rfl, hpart c₂ h₂ (by omega)⟩, _, ⟨rfl, hpart c₃ h₃ (by omega)⟩,
      _, ⟨rfl, hpart c₄ h₄ (by omega)⟩, (checkedSum_eq_some_iff h₁ hfits hterms).mpr ?_⟩
    have hsum : c₁ + [c₂, c₃, c₄].sum = c₁ + c₂ + c₃ + c₄ := by
      simp only [List.sum_cons, List.sum_nil]
      omega
    rw [hsum]
    exact ⟨rfl, hpart _ (by omega) (Int.le_refl _)⟩

/-- At one and a half, the price of output is whole, since half an output token has a whole
price. -/
theorem categoryCost_halves {tokens rate : Int} (h : 2 ∣ rate) :
    (categoryCost tokens rate 3 2 : Rat) = 3 / 2 * (tokens * rate : Int) := by
  obtain ⟨half, rfl⟩ := h
  have hwhole : tokens * (2 * half) * 3 = tokens * half * 3 * 2 := by ring
  rw [categoryCost, hwhole, Int.mul_tdiv_cancel _ (by decide)]
  push_cast
  ring

/-- The whole price is the exact one. -/
theorem wholeCost_eq_exactCost (hrates : rates.Sound) :
    (wholeCost rates (input - cachedInput - cacheWriteInput) cachedInput cacheWriteInput output
      (decide (longContextInputThreshold < input)) : Rat) =
        exactCost rates input cachedInput cacheWriteInput output := by
  unfold wholeCost exactCost
  by_cases hlong : longContextInputThreshold < input
  · simp only [hlong, decide_true, if_true]
    rw [Int.cast_add, categoryCost_halves hrates.halves]
    simp only [categoryCost, Int.tdiv_one]
    push_cast
    ring
  · simp only [hlong, decide_false, Bool.false_eq_true, if_false, categoryCost, Int.tdiv_one]
    push_cast
    ring

/-! ### No panic -/

/-- The counters that pricing reads are `i64`. -/
def UsageData.IsI64 (usage : UsageData) : Prop :=
  ∀ counter ∈ [usage.inputTokens, usage.outputTokens, usage.cachedInputTokens,
    usage.cacheWriteInputTokens], ∀ value, counter = some value → Fits 64 value

/-- A category of `i64` tokens panics nowhere. -/
theorem executed_checkedCategoryCost {tokens rate numerator denominator : Int}
    (htokens : 0 ≤ tokens) (hfits : Fits 64 tokens) (hrate : 0 ≤ rate ∧ rate < 2 ^ 15)
    (hnumerator : 0 ≤ numerator ∧ numerator < 2 ^ 2) (hdenominator : 0 < denominator) :
    Executed.checkedCategoryCost tokens rate numerator denominator =
      attempt (checkedCategoryCost tokens rate numerator denominator) := by
  have hproduct := mul_nonneg htokens hrate.1
  have hscaled := mul_nonneg hproduct hnumerator.1
  have hbound : tokens * rate < 2 ^ (63 + 15) := mul_lt_two_pow htokens hfits.2 hrate.2
  have hbound' : tokens * rate * numerator < 2 ^ (63 + 15 + 2) :=
    mul_lt_two_pow hproduct hbound hnumerator.2
  have hfits₁ : Fits 128 (tokens * rate) :=
    (fits_of_nonneg hproduct).mpr (hbound.trans (by decide))
  have hfits₂ : Fits 128 (tokens * rate * numerator) :=
    (fits_of_nonneg hscaled).mpr (hbound'.trans (by decide))
  have hquotient : Fits 128 ((tokens * rate * numerator).tdiv denominator) := by
    apply fits_zero.between hfits₂ (Int.tdiv_nonneg hscaled hdenominator.le)
    rw [Int.tdiv_eq_ediv_of_nonneg hscaled]
    exact Int.ediv_le_self _ hscaled
  have hdiv : checkedDiv 128 (tokens * rate * numerator) denominator =
      some (categoryCost tokens rate numerator denominator) := by
    rw [checkedDiv, if_neg hdenominator.ne', checked, if_pos hquotient]
    rfl
  unfold Executed.checkedCategoryCost
  rw [assertion_of htokens, assertion_of hrate.1, assertion_of hdenominator,
    unchecked_of_fits hfits₁, checkedCategoryCost_eq hdenominator]
  show (liftM (unchecked 128 (tokens * rate * numerator)) >>= fun product ↦
    attempt (checkedDiv 128 product denominator) >>= fun value ↦ attempt (checked 64 value)) = _
  rw [unchecked_of_fits hfits₂]
  show (attempt (checkedDiv 128 (tokens * rate * numerator) denominator) >>= fun value ↦
    attempt (checked 64 value)) = _
  rw [hdiv]
  rfl

/-- A price of `i64` counters panics nowhere. -/
theorem executed_calculateCost (hrates : rates.Sound) (huncached : 0 ≤ uncachedInput)
    (huncachedFits : Fits 64 uncachedInput) (hcached : 0 ≤ cachedInput)
    (hcachedFits : Fits 64 cachedInput) (hwrite : 0 ≤ cacheWriteInput)
    (hwriteFits : Fits 64 cacheWriteInput) (houtput : 0 ≤ output) (houtputFits : Fits 64 output) :
    Executed.calculateCost rates uncachedInput cachedInput cacheWriteInput output longContext =
      attempt (calculateCost rates uncachedInput cachedInput cacheWriteInput output
        longContext) := by
  have hmultiplier : 0 ≤ (if longContext then 2 else 1 : Int) ∧
      (if longContext then 2 else 1 : Int) < 2 ^ 2 := by split <;> decide
  have hnumerator : 0 ≤ (if longContext then (3, 2) else (1, 1) : Int × Int).1 ∧
      (if longContext then (3, 2) else (1, 1) : Int × Int).1 < 2 ^ 2 := by split <;> decide
  have hdenominator : 0 < (if longContext then (3, 2) else (1, 1) : Int × Int).2 := by
    split <;> decide
  unfold Executed.calculateCost calculateCost
  simp only [executed_checkedCategoryCost huncached huncachedFits hrates.input hmultiplier
      Int.one_pos,
    executed_checkedCategoryCost hcached hcachedFits hrates.cachedInput hmultiplier Int.one_pos,
    executed_checkedCategoryCost hwrite hwriteFits hrates.cacheWriteInput hmultiplier Int.one_pos,
    executed_checkedCategoryCost houtput houtputFits hrates.output hnumerator hdenominator,
    attempt_bind]
  rfl

/-- A cache-write count is refused unless it fits into the input beside the cached tokens. -/
theorem cacheWrite_refused_iff (hcached : 0 ≤ cachedInput) (hinput : Fits 64 input) :
    (cacheWriteInput < 0 ∨ ((checked 64 (cachedInput + cacheWriteInput)).map
      fun accounted ↦ decide (input < accounted)).getD true = true) ↔
        ¬(0 ≤ cacheWriteInput ∧ cachedInput + cacheWriteInput ≤ input) := by
  by_cases hwrite : 0 ≤ cacheWriteInput
  · have hsum : 0 ≤ cachedInput + cacheWriteInput := Int.add_nonneg hcached hwrite
    by_cases hfits : Fits 64 (cachedInput + cacheWriteInput)
    · simp [checked, hfits, hwrite]
    · have hover : ¬cachedInput + cacheWriteInput ≤ input := fun hle ↦
        hfits (fits_zero.between hinput hsum hle)
      simp [checked, hfits, hover]
  · have hneg : cacheWriteInput < 0 := by omega
    simp [hneg, hwrite]

/-- A known cache-write count panics nowhere. -/
theorem executed_estimateCacheWrite (hrates : rates.Sound) (hinput : Fits 64 input)
    (hcached : 0 ≤ cachedInput) (hle : cachedInput ≤ input) (houtput : 0 ≤ output)
    (houtputFits : Fits 64 output) :
    Executed.estimateCacheWrite rates input cachedInput cacheWriteInput output longContext =
      .ok (estimateCacheWrite rates input cachedInput cacheWriteInput output longContext) := by
  unfold Executed.estimateCacheWrite estimateCacheWrite
  rw [checkedI64_eq]
  by_cases hroom : 0 ≤ cacheWriteInput ∧ cachedInput + cacheWriteInput ≤ input
  · have haccepted := mt (cacheWrite_refused_iff hcached hinput).mp (not_not.mpr hroom)
    have hpart : ∀ x, 0 ≤ x → x ≤ input → Fits 64 x := fun x ↦ fits_zero.between hinput
    have hfits₁ := hpart (input - cachedInput) (by omega) (by omega)
    have hfits₂ := hpart (input - cachedInput - cacheWriteInput) (by omega) (by omega)
    rw [if_neg haccepted, if_neg haccepted, unchecked_of_fits hfits₁, ok_bind,
      unchecked_of_fits hfits₂, ok_bind, executed_calculateCost hrates (by omega) hfits₂ hcached
      (hpart cachedInput hcached hle) hroom.1 (hpart cacheWriteInput hroom.1 (by omega)) houtput
      houtputFits]
    cases calculateCost rates (input - cachedInput - cacheWriteInput) cachedInput cacheWriteInput
      output longContext <;> rfl
  · have hrefused := (cacheWrite_refused_iff hcached hinput).mpr hroom
    rw [if_pos hrefused, if_pos hrefused]

/-- An unknown cache-write count panics nowhere. -/
theorem executed_estimateMissingCacheWrite (hrates : rates.Sound) (hinput : Fits 64 input)
    (hcached : 0 ≤ cachedInput) (hle : cachedInput ≤ input) (houtput : 0 ≤ output)
    (houtputFits : Fits 64 output) :
    Executed.estimateMissingCacheWrite rates input cachedInput output longContext =
      .ok (estimateMissingCacheWrite rates input cachedInput output longContext) := by
  have hpart : ∀ x, 0 ≤ x → x ≤ input → Fits 64 x := fun x ↦ fits_zero.between hinput
  have hrest : 0 ≤ input - cachedInput := by omega
  have hrestFits := hpart (input - cachedInput) hrest (by omega)
  have hcachedFits := hpart cachedInput hcached hle
  have hzero : Fits 64 0 := fits_zero
  unfold Executed.estimateMissingCacheWrite estimateMissingCacheWrite
  dsimp only
  rw [unchecked_of_fits hrestFits, ok_bind,
    executed_calculateCost hrates hrest hrestFits hcached hcachedFits (Int.le_refl 0) hzero
      houtput houtputFits,
    executed_calculateCost hrates (Int.le_refl 0) hzero hcached hcachedFits hrest hrestFits
      houtput houtputFits]
  cases calculateCost rates (input - cachedInput) cachedInput 0 output longContext with
  | none => rfl
  | some lower =>
    cases calculateCost rates 0 cachedInput (input - cachedInput) output longContext <;> rfl

/-- On `i64` counters no operator of `estimate_standard_api_cost` overflows and no assertion
fails. -/
theorem executed_estimateStandardApiCost {usage : UsageData} (husage : usage.IsI64)
    (effectiveModel : Option String) :
    Executed.estimateStandardApiCost effectiveModel usage =
      .ok (estimateStandardApiCost effectiveModel usage) := by
  unfold Executed.estimateStandardApiCost estimateStandardApiCost
  cases hmodel : effectiveModel.bind tokenRates with
  | none => rfl
  | some rates =>
    obtain ⟨model, -, hrates⟩ := Option.bind_eq_some_iff.mp hmodel
    have hsound := tokenRates_sound hrates
    dsimp only
    cases hinput : usage.inputTokens with
    | none => rfl
    | some input =>
      cases houtput : usage.outputTokens with
      | none => rfl
      | some output =>
        cases hcached : usage.cachedInputTokens with
        | none => rfl
        | some cachedInput =>
          have hinputFits := husage _ (by simp) input hinput
          have houtputFits := husage _ (by simp) output houtput
          dsimp only
          by_cases hinvalid : input < 0 ∨ output < 0 ∨ cachedInput < 0 ∨ input < cachedInput
          · rw [if_pos hinvalid, if_pos hinvalid]
          · rw [if_neg hinvalid, if_neg hinvalid]
            have hcachedLow : 0 ≤ cachedInput := by omega
            have hcachedHigh : cachedInput ≤ input := by omega
            have houtputLow : 0 ≤ output := by omega
            split
            · split
              · rfl
              · exact executed_estimateCacheWrite hsound hinputFits hcachedLow hcachedHigh
                  houtputLow houtputFits
            · cases usage.cacheWriteInputTokens with
              | some cacheWriteInput =>
                exact executed_estimateCacheWrite hsound hinputFits hcachedLow hcachedHigh
                  houtputLow houtputFits
              | none =>
                exact executed_estimateMissingCacheWrite hsound hinputFits hcachedLow hcachedHigh
                  houtputLow houtputFits

/-! ### Exact or refused -/

/-- The counters agree: none is negative, the cached and the written tokens are disjoint parts of
the input, and an input below the cacheable size has neither. -/
structure ConsistentUsage (input output cachedInput cacheWriteInput : Int) : Prop where
  inputNonneg : 0 ≤ input
  outputNonneg : 0 ≤ output
  cachedNonneg : 0 ≤ cachedInput
  writtenNonneg : 0 ≤ cacheWriteInput
  disjoint : cachedInput + cacheWriteInput ≤ input
  cacheable : input < minCacheableInputTokens → cachedInput = 0 ∧ cacheWriteInput = 0

private theorem exactCost_le_iff (hrates : rates.Sound) :
    exactCost rates input cachedInput cacheWriteInput output ≤ i64Max ↔
      wholeCost rates (input - cachedInput - cacheWriteInput) cachedInput cacheWriteInput output
        (decide (longContextInputThreshold < input)) < 2 ^ 63 := by
  rw [← wholeCost_eq_exactCost hrates, show ((i64Max : Nat) : Rat) = ((2 ^ 63 - 1 : Int) : Rat) by
    norm_num [i64Max], Int.cast_le]
  omega

/-- The estimate for consistent counts whose price is an `i64`. -/
theorem estimateCacheWrite_priced (hrates : rates.Sound) (hinput : Fits 64 input)
    (hcached : 0 ≤ cachedInput) (hwrite : 0 ≤ cacheWriteInput)
    (hroom : cachedInput + cacheWriteInput ≤ input) (houtput : 0 ≤ output)
    (hlimit : wholeCost rates (input - cachedInput - cacheWriteInput) cachedInput cacheWriteInput
      output longContext < 2 ^ 63) :
    estimateCacheWrite rates input cachedInput cacheWriteInput output longContext =
      .priced .complete
        (wholeCost rates (input - cachedInput - cacheWriteInput) cachedInput cacheWriteInput output
          longContext)
        (wholeCost rates (input - cachedInput - cacheWriteInput) cachedInput cacheWriteInput output
          longContext) := by
  have haccepted := mt (cacheWrite_refused_iff hcached hinput).mp (not_not.mpr ⟨hwrite, hroom⟩)
  have hcost := (calculateCost_eq_some_iff hrates (by omega) hcached hwrite houtput).mpr
    ⟨rfl, hlimit⟩
  unfold estimateCacheWrite
  rw [checkedI64_eq, if_neg haccepted, hcost]

/-- Counts that do not agree, or a price that is no `i64`, are refused. -/
theorem estimateCacheWrite_refused (hrates : rates.Sound) (hinput : Fits 64 input)
    (hcached : 0 ≤ cachedInput) (houtput : 0 ≤ output)
    (h : ¬(0 ≤ cacheWriteInput ∧ cachedInput + cacheWriteInput ≤ input ∧
      wholeCost rates (input - cachedInput - cacheWriteInput) cachedInput cacheWriteInput output
        longContext < 2 ^ 63)) :
    estimateCacheWrite rates input cachedInput cacheWriteInput output longContext =
      .unpriced .invalidUsage := by
  unfold estimateCacheWrite
  rw [checkedI64_eq]
  by_cases hroom : 0 ≤ cacheWriteInput ∧ cachedInput + cacheWriteInput ≤ input
  · have haccepted := mt (cacheWrite_refused_iff hcached hinput).mp (not_not.mpr hroom)
    rw [if_neg haccepted]
    cases hcost : calculateCost rates (input - cachedInput - cacheWriteInput) cachedInput
      cacheWriteInput output longContext with
    | none => rfl
    | some cost =>
      have hlimit := (calculateCost_eq_some_iff hrates (by omega) hcached hroom.1 houtput).mp hcost
      exact absurd ⟨hroom.1, hroom.2, hlimit.1 ▸ hlimit.2⟩ h
  · rw [if_pos ((cacheWrite_refused_iff hcached hinput).mpr hroom)]

/-- The estimate of a usage with all four counters. -/
theorem estimateStandardApiCost_known {effectiveModel : Option String}
    (hmodel : effectiveModel.bind tokenRates = some rates)
    {usage : UsageData} (hinput : usage.inputTokens = some input)
    (houtput : usage.outputTokens = some output)
    (hcached : usage.cachedInputTokens = some cachedInput)
    (hwrite : usage.cacheWriteInputTokens = some cacheWriteInput) :
    estimateStandardApiCost effectiveModel usage =
      if (input < 0 ∨ output < 0 ∨ cachedInput < 0 ∨ input < cachedInput) ∨
          input < minCacheableInputTokens ∧ (cachedInput ≠ 0 ∨ cacheWriteInput ≠ 0) then
        .unpriced .invalidUsage
      else estimateCacheWrite rates input cachedInput cacheWriteInput output
        (decide (longContextInputThreshold < input)) := by
  unfold estimateStandardApiCost
  simp only [hmodel, hinput, houtput, hcached, hwrite, Option.map_some,
    Option.getD_some, decide_eq_true_eq]
  by_cases hinvalid : input < 0 ∨ output < 0 ∨ cachedInput < 0 ∨ input < cachedInput
  · rw [if_pos hinvalid, if_pos (.inl hinvalid)]
  · rw [if_neg hinvalid]
    by_cases hsmall : input < minCacheableInputTokens
    · rw [if_pos hsmall]
      by_cases hactive : cachedInput ≠ 0 ∨ cacheWriteInput ≠ 0
      · rw [if_pos hactive, if_pos (.inr ⟨hsmall, hactive⟩)]
      · have hzero : cacheWriteInput = 0 := not_not.mp fun h ↦ hactive (.inr h)
        rw [if_neg hactive, if_neg (by simp [hinvalid, hactive]), hzero]
    · rw [if_neg hsmall, if_neg (by simp [hinvalid, hsmall])]

/-- **Prices are exact or refused.** For a recognised model and any `i64` counters, the code panics
nowhere; it returns the exact price where the counters agree and the price is an `i64`, and
refuses the usage otherwise. -/
theorem price_exact_or_refused {model : String} (hrates : tokenRates model = some rates)
    {usage : UsageData} (husage : usage.IsI64) (hinput : usage.inputTokens = some input)
    (houtput : usage.outputTokens = some output)
    (hcached : usage.cachedInputTokens = some cachedInput)
    (hwrite : usage.cacheWriteInputTokens = some cacheWriteInput) :
    ∃ estimate, Executed.estimateStandardApiCost (some model) usage = .ok estimate ∧
      (ConsistentUsage input output cachedInput cacheWriteInput ∧
          exactCost rates input cachedInput cacheWriteInput output ≤ i64Max →
        ∃ cost : Int, cost = exactCost rates input cachedInput cacheWriteInput output ∧
          estimate = .priced .complete cost cost) ∧
      (¬(ConsistentUsage input output cachedInput cacheWriteInput ∧
          exactCost rates input cachedInput cacheWriteInput output ≤ i64Max) →
        estimate = .unpriced .invalidUsage) := by
  have hsound := tokenRates_sound hrates
  have hinputFits := husage _ (by simp) input hinput
  have hmodel : (some model).bind tokenRates = some rates := hrates
  have hestimate := estimateStandardApiCost_known hmodel hinput houtput hcached hwrite
  refine ⟨_, executed_estimateStandardApiCost husage (some model), ?_, ?_⟩
  · rintro ⟨⟨hi, ho, hc, hw, hroom, hsmall⟩, hlimit⟩
    have hvalid : ¬((input < 0 ∨ output < 0 ∨ cachedInput < 0 ∨ input < cachedInput) ∨
        input < minCacheableInputTokens ∧ (cachedInput ≠ 0 ∨ cacheWriteInput ≠ 0)) := by omega
    refine ⟨_, wholeCost_eq_exactCost hsound, ?_⟩
    rw [hestimate, if_neg hvalid]
    apply estimateCacheWrite_priced hsound hinputFits hc hw hroom ho
    exact (exactCost_le_iff hsound).mp hlimit
  · intro hrefused
    rw [hestimate]
    by_cases hinvalid : (input < 0 ∨ output < 0 ∨ cachedInput < 0 ∨ input < cachedInput) ∨
        input < minCacheableInputTokens ∧ (cachedInput ≠ 0 ∨ cacheWriteInput ≠ 0)
    · rw [if_pos hinvalid]
    · rw [if_neg hinvalid]
      apply estimateCacheWrite_refused hsound hinputFits (by omega) (by omega)
      rintro ⟨hw, hroom, hlimit⟩
      have hconsistent : ConsistentUsage input output cachedInput cacheWriteInput := by
        constructor <;> omega
      exact hrefused ⟨hconsistent, (exactCost_le_iff hsound).mpr hlimit⟩

/-- A request of 300000 input tokens, some of them cached and some written to the cache. -/
theorem price_exact_or_refused_long_context :
    let usage : UsageData :=
      ⟨some 300000, some 1001, some 100000, some 50000, none, none, none⟩
    ∃ estimate, Executed.estimateStandardApiCost (some "gpt-5.6-sol") usage = .ok estimate ∧
      (ConsistentUsage 300000 1001 100000 50000 ∧
          exactCost solRates 300000 100000 50000 1001 ≤ i64Max →
        ∃ cost : Int, cost = exactCost solRates 300000 100000 50000 1001 ∧
          estimate = .priced .complete cost cost) ∧
      (¬(ConsistentUsage 300000 1001 100000 50000 ∧
          exactCost solRates 300000 100000 50000 1001 ≤ i64Max) →
        estimate = .unpriced .invalidUsage) := by
  have husage : UsageData.IsI64 ⟨some 300000, some 1001, some 100000, some 50000, none, none,
      none⟩ := by
    simp [UsageData.IsI64, Fits]
  exact price_exact_or_refused rfl husage rfl rfl rfl rfl

/-! ### Bounds without a cache-write count -/

/-- The more tokens were written to the cache, the higher the price. -/
theorem wholeCost_written_le (hrates : rates.Sound) {written written' : Int}
    (hle : written ≤ written') :
    wholeCost rates (uncachedInput - written) cachedInput written output longContext ≤
      wholeCost rates (uncachedInput - written') cachedInput written' output longContext := by
  -- a written token costs the difference of the two rates on top
  have hcost : ∀ w, wholeCost rates (uncachedInput - w) cachedInput w output longContext =
      wholeCost rates uncachedInput cachedInput 0 output longContext +
        (if longContext then 2 else 1) * (w * (rates.cacheWriteInput - rates.input)) := by
    intro w
    unfold wholeCost categoryCost
    simp only [Int.tdiv_one]
    ring
  have hdearer : 0 ≤ rates.cacheWriteInput - rates.input := Int.sub_nonneg.mpr hrates.dearer
  rw [hcost written, hcost written']
  gcongr

/-- A known number of cache-write tokens never gives bounds. -/
theorem estimateCacheWrite_status_ne : (estimateCacheWrite rates input cachedInput cacheWriteInput
    output longContext).status ≠ .missingCacheWrite := by
  unfold estimateCacheWrite
  split
  · simp [ApiCostEstimate.unpriced]
  · split <;> simp [ApiCostEstimate.unpriced, ApiCostEstimate.priced]

/-- The usages that are priced with bounds. -/
structure MissingCacheWrite (effectiveModel : Option String) (usage : UsageData)
    (rates : TokenRates) (input output cachedInput : Int) : Prop where
  model : effectiveModel.bind tokenRates = some rates
  inputTokens : usage.inputTokens = some input
  outputTokens : usage.outputTokens = some output
  cachedInputTokens : usage.cachedInputTokens = some cachedInput
  cacheWriteInputTokens : usage.cacheWriteInputTokens = none
  valid : ¬(input < 0 ∨ output < 0 ∨ cachedInput < 0 ∨ input < cachedInput)
  cacheable : ¬input < minCacheableInputTokens

/-- Only a usage without a cache-write count is priced with bounds. -/
theorem estimateStandardApiCost_missing {effectiveModel : Option String} {usage : UsageData}
    (h : (estimateStandardApiCost effectiveModel usage).status = .missingCacheWrite) :
    ∃ rates input output cachedInput,
      MissingCacheWrite effectiveModel usage rates input output cachedInput ∧
      estimateStandardApiCost effectiveModel usage = estimateMissingCacheWrite rates input
        cachedInput output (decide (longContextInputThreshold < input)) := by
  unfold estimateStandardApiCost at h ⊢
  cases hmodel : effectiveModel.bind tokenRates with
  | none => simp [hmodel, ApiCostEstimate.unpriced] at h
  | some rates =>
    cases hinput : usage.inputTokens with
    | none => simp [hmodel, hinput, ApiCostEstimate.unpriced] at h
    | some input =>
      cases houtput : usage.outputTokens with
      | none => simp [hmodel, hinput, houtput, ApiCostEstimate.unpriced] at h
      | some output =>
        cases hcached : usage.cachedInputTokens with
        | none => simp [hmodel, hinput, houtput, hcached, ApiCostEstimate.unpriced] at h
        | some cachedInput =>
          simp only [hmodel, hinput, houtput, hcached] at h ⊢
          split at h
          · cases h
          · next hvalid =>
            split at h
            · split at h
              · cases h
              · exact absurd h estimateCacheWrite_status_ne
            · next hcacheable =>
              cases hwrite : usage.cacheWriteInputTokens with
              | some cacheWriteInput =>
                simp only [hwrite] at h
                exact absurd h estimateCacheWrite_status_ne
              | none =>
                refine ⟨rates, input, output, cachedInput,
                  ⟨hmodel, hinput, houtput, hcached, hwrite, hvalid, hcacheable⟩, ?_⟩
                rw [if_neg hvalid, if_neg hcacheable]

/-- Bounds are the prices without any and with the most cache-write tokens. -/
theorem estimateMissingCacheWrite_priced {input : Int} (hrates : rates.Sound)
    (hcached : 0 ≤ cachedInput) (hle : cachedInput ≤ input) (houtput : 0 ≤ output)
    (h : (estimateMissingCacheWrite rates input cachedInput output longContext).status =
      .missingCacheWrite) :
    estimateMissingCacheWrite rates input cachedInput output longContext =
        .priced .missingCacheWrite
          (wholeCost rates (input - cachedInput) cachedInput 0 output longContext)
          (wholeCost rates 0 cachedInput (input - cachedInput) output longContext) ∧
      wholeCost rates 0 cachedInput (input - cachedInput) output longContext < 2 ^ 63 := by
  have hrest : 0 ≤ input - cachedInput := by omega
  unfold estimateMissingCacheWrite at h ⊢
  dsimp only at h ⊢
  cases hlower : calculateCost rates (input - cachedInput) cachedInput 0 output longContext with
  | none => simp [hlower, ApiCostEstimate.unpriced] at h
  | some lower =>
    cases hupper : calculateCost rates 0 cachedInput (input - cachedInput) output
      longContext with
    | none => simp [hlower, hupper, ApiCostEstimate.unpriced] at h
    | some upper =>
      obtain ⟨rfl, -⟩ := (calculateCost_eq_some_iff hrates hrest hcached (Int.le_refl 0)
        houtput).mp hlower
      obtain ⟨rfl, hlimit⟩ := (calculateCost_eq_some_iff hrates (Int.le_refl 0) hcached hrest
        houtput).mp hupper
      exact ⟨rfl, hlimit⟩

/-- The usage with a number of cache-write tokens. -/
def UsageData.withWritten (usage : UsageData) (written : Int) : UsageData :=
  { usage with cacheWriteInputTokens := some written }

/-- A usage with a possible number of cache-write tokens has its price. -/
theorem MissingCacheWrite.executed_withWritten {effectiveModel : Option String}
    {usage : UsageData} (hmissing : MissingCacheWrite effectiveModel usage rates input output
      cachedInput) (husage : usage.IsI64) {written : Int} (hwritten : 0 ≤ written)
    (hmost : written ≤ input - cachedInput)
    (hlimit : wholeCost rates (input - cachedInput - written) cachedInput written output
      (decide (longContextInputThreshold < input)) < 2 ^ 63) :
    Executed.estimateStandardApiCost effectiveModel (usage.withWritten written) =
      .ok (.priced .complete
        (wholeCost rates (input - cachedInput - written) cachedInput written output
          (decide (longContextInputThreshold < input)))
        (wholeCost rates (input - cachedInput - written) cachedInput written output
          (decide (longContextInputThreshold < input)))) := by
  obtain ⟨model, -, hmodel⟩ := Option.bind_eq_some_iff.mp hmissing.model
  have hrates := tokenRates_sound hmodel
  have hvalid := hmissing.valid
  have hcacheable := hmissing.cacheable
  have hinputFits := husage _ (by simp) input hmissing.inputTokens
  have hwrittenFits : Fits 64 written := fits_zero.between hinputFits hwritten (by omega)
  have hupdated : (usage.withWritten written).IsI64 := by
    intro counter hcounter value hvalue
    simp only [UsageData.withWritten, List.mem_cons, List.not_mem_nil, or_false] at hcounter
    rcases hcounter with rfl | rfl | rfl | rfl
    · exact husage _ (by simp) value hvalue
    · exact husage _ (by simp) value hvalue
    · exact husage _ (by simp) value hvalue
    · exact Option.some.inj hvalue ▸ hwrittenFits
  have hestimate : estimateStandardApiCost effectiveModel (usage.withWritten written) = _ :=
    estimateStandardApiCost_known hmissing.model hmissing.inputTokens hmissing.outputTokens
      hmissing.cachedInputTokens rfl
  rw [executed_estimateStandardApiCost hupdated, hestimate, if_neg (by omega),
    estimateCacheWrite_priced hrates hinputFits (by omega) hwritten (by omega) (by omega) hlimit]

/-- **Bounds without cache-write telemetry are sound and tight.** Whatever the number of cache-write
tokens was, the price with it is known and between the bounds, and none and the most of them give
the bounds themselves. -/
theorem missing_cache_write_bounds {effectiveModel : Option String} {usage : UsageData}
    (husage : usage.IsI64) {estimate : ApiCostEstimate}
    (hestimate : Executed.estimateStandardApiCost effectiveModel usage = .ok estimate)
    (hstatus : estimate.status = .missingCacheWrite) :
    ∃ input cachedInput lower upper,
      usage.inputTokens = some input ∧ usage.cachedInputTokens = some cachedInput ∧
      estimate = .priced .missingCacheWrite lower upper ∧ lower ≤ upper ∧
      ∀ written, 0 ≤ written → written ≤ input - cachedInput → ∃ cost,
        Executed.estimateStandardApiCost effectiveModel (usage.withWritten written) =
          .ok (.priced .complete cost cost) ∧
        lower ≤ cost ∧ cost ≤ upper ∧
        (written = 0 → cost = lower) ∧ (written = input - cachedInput → cost = upper) := by
  rw [executed_estimateStandardApiCost husage, Except.ok.injEq] at hestimate
  subst hestimate
  obtain ⟨rates, input, output, cachedInput, hmissing, hbounds⟩ :=
    estimateStandardApiCost_missing hstatus
  obtain ⟨model, -, hmodel⟩ := Option.bind_eq_some_iff.mp hmissing.model
  have hrates := tokenRates_sound hmodel
  have hvalid := hmissing.valid
  rw [hbounds] at hstatus ⊢
  obtain ⟨hpriced, hlimit⟩ := estimateMissingCacheWrite_priced hrates (by omega) (by omega)
    (by omega) hstatus
  -- the price for each number of written tokens; the bounds are two of its values
  generalize hprice : (fun written ↦ wholeCost rates (input - cachedInput - written) cachedInput
    written output (decide (longContextInputThreshold < input))) = price
  have hgrows : ∀ written written', written ≤ written' → price written ≤ price written' := by
    rw [← hprice]
    exact fun written written' hle ↦ wholeCost_written_le hrates hle
  have hlower : wholeCost rates (input - cachedInput) cachedInput 0 output
      (decide (longContextInputThreshold < input)) = price 0 := by
    simp only [← hprice, Int.sub_zero]
  have hupper : wholeCost rates 0 cachedInput (input - cachedInput) output
      (decide (longContextInputThreshold < input)) = price (input - cachedInput) := by
    simp only [← hprice, Int.sub_self]
  rw [hlower, hupper] at hpriced
  rw [hupper] at hlimit
  refine ⟨input, cachedInput, _, _, hmissing.inputTokens, hmissing.cachedInputTokens, hpriced,
    hgrows _ _ (by omega), ?_⟩
  intro written hwritten hmost
  have hhigh := hgrows written (input - cachedInput) hmost
  refine ⟨price written, ?_, hgrows 0 written hwritten, hhigh, ?_, ?_⟩
  · rw [← hprice] at hhigh hlimit ⊢
    exact hmissing.executed_withWritten husage hwritten hmost (hhigh.trans_lt hlimit)
  · rintro rfl
    rfl
  · rintro rfl
    rfl

/-- The request of the migration test, which has no cache-write count. -/
theorem missing_cache_write_bounds_sol :
    let usage : UsageData := ⟨some 1200, some 11, some 200, none, some 3, none, none⟩
    ∃ input cachedInput lower upper,
      usage.inputTokens = some input ∧ usage.cachedInputTokens = some cachedInput ∧
      ApiCostEstimate.priced .missingCacheWrite 5430000 6680000 =
        .priced .missingCacheWrite lower upper ∧ lower ≤ upper ∧
      ∀ written, 0 ≤ written → written ≤ input - cachedInput → ∃ cost,
        Executed.estimateStandardApiCost (some "gpt-5.6-sol") (usage.withWritten written) =
          .ok (.priced .complete cost cost) ∧
        lower ≤ cost ∧ cost ≤ upper ∧
        (written = 0 → cost = lower) ∧ (written = input - cachedInput → cost = upper) := by
  have husage : UsageData.IsI64 ⟨some 1200, some 11, some 200, none, some 3, none, none⟩ := by
    simp [UsageData.IsI64, Fits]
  have hestimate : Executed.estimateStandardApiCost (some "gpt-5.6-sol")
      ⟨some 1200, some 11, some 200, none, some 3, none, none⟩ =
        .ok (.priced .missingCacheWrite 5430000 6680000) := by
    rw [executed_estimateStandardApiCost husage]
    rfl
  exact missing_cache_write_bounds husage hestimate rfl

end CodexLb
