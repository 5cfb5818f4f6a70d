import Mathlib.Algebra.Group.Int.Defs
import Mathlib.Data.Int.Init

/-!
# API cost estimates

`src/pricing.rs:24–247` and `UsageData` of `src/models.rs:360–368`. Counters
and costs are `i64`; products are taken in `i128`, where they cannot overflow.
-/

namespace CodexLb

/-- An `i64` result, or nothing where it overflows: `checked_add` and `i64::try_from`. -/
def checkedI64 (value : Int) : Option Int :=
  if -2 ^ 63 ≤ value ∧ value < 2 ^ 63 then some value else none

/-- `UsageData`, `src/models.rs:360–368`. -/
structure UsageData where
  inputTokens : Option Int
  outputTokens : Option Int
  cachedInputTokens : Option Int
  cacheWriteInputTokens : Option Int
  reasoningTokens : Option Int
  effectiveModel : Option String
  effectiveServiceTier : Option String
  deriving DecidableEq, Repr

/-- `MIN_CACHEABLE_INPUT_TOKENS`, `src/pricing.rs:15`. -/
def minCacheableInputTokens : Int := 1024

/-- `LONG_CONTEXT_INPUT_THRESHOLD`, `src/pricing.rs:17`. -/
def longContextInputThreshold : Int := 272000

/-- `ApiCostStatus`, `src/pricing.rs:19–31`. -/
inductive ApiCostStatus where
  | complete
  | missingCacheWrite
  | unknownModel
  | missingUsage
  | invalidUsage
  deriving DecidableEq, Repr

namespace ApiCostStatus

/-- `ApiCostStatus::is_priced`, `src/pricing.rs:44–46`. -/
def isPriced : ApiCostStatus → Bool
  | complete | missingCacheWrite => true
  | _ => false

end ApiCostStatus

/-- `ApiCostEstimate`, `src/pricing.rs:49–56`, in billionths of one US dollar. -/
structure ApiCostEstimate where
  status : ApiCostStatus
  lowerNanoUsd : Option Int
  upperNanoUsd : Option Int
  deriving DecidableEq, Repr

namespace ApiCostEstimate

/-- `ApiCostEstimate::unpriced`, `src/pricing.rs:59–65`. -/
def unpriced (status : ApiCostStatus) : ApiCostEstimate := ⟨status, none, none⟩

/-- `ApiCostEstimate::priced`, `src/pricing.rs:67–73`. -/
def priced (status : ApiCostStatus) (lower upper : Int) : ApiCostEstimate :=
  ⟨status, some lower, some upper⟩

end ApiCostEstimate

/-- `TokenRates`, `src/pricing.rs:76–83`, in billionths of one US dollar per token. -/
structure TokenRates where
  input : Int
  cachedInput : Int
  cacheWriteInput : Int
  output : Int

/-- `SOL_RATES`, `src/pricing.rs:85–90`. -/
def solRates : TokenRates := ⟨5000, 500, 6250, 30000⟩

/-- `TERRA_RATES`, `src/pricing.rs:92–97`. -/
def terraRates : TokenRates := ⟨2500, 250, 3125, 15000⟩

/-- `LUNA_RATES`, `src/pricing.rs:99–104`. -/
def lunaRates : TokenRates := ⟨1000, 100, 1250, 6000⟩

/-- `token_rates`, `src/pricing.rs:196–203`. -/
def tokenRates (model : String) : Option TokenRates :=
  if model = "gpt-5.6" ∨ model = "gpt-5.6-sol" then some solRates
  else if model = "gpt-5.6-terra" then some terraRates
  else if model = "gpt-5.6-luna" then some lunaRates
  else none

/-- `checked_category_cost`, `src/pricing.rs:234–247`; the division truncates. -/
def checkedCategoryCost (tokens nanoUsdPerToken numerator denominator : Int) : Option Int :=
  if denominator = 0 then none
  else checkedI64 ((tokens * nanoUsdPerToken * numerator).tdiv denominator)

/-- `calculate_cost`, `src/pricing.rs:205–232`. -/
def calculateCost (rates : TokenRates) (uncachedInput cachedInput cacheWriteInput output : Int)
    (longContext : Bool) : Option Int := do
  let inputMultiplier := if longContext then 2 else 1
  let (outputNumerator, outputDenominator) := if longContext then ((3, 2) : Int × Int) else (1, 1)
  let uncachedCost ← checkedCategoryCost uncachedInput rates.input inputMultiplier 1
  let cachedCost ← checkedCategoryCost cachedInput rates.cachedInput inputMultiplier 1
  let cacheWriteCost ← checkedCategoryCost cacheWriteInput rates.cacheWriteInput inputMultiplier 1
  let outputCost ← checkedCategoryCost output rates.output outputNumerator outputDenominator
  let sum ← checkedI64 (uncachedCost + cachedCost)
  let sum ← checkedI64 (sum + cacheWriteCost)
  checkedI64 (sum + outputCost)

/-- The estimate for a known number of cache-write tokens, `src/pricing.rs:149–170`. -/
def estimateCacheWrite (rates : TokenRates) (input cachedInput cacheWriteInput output : Int)
    (longContext : Bool) : ApiCostEstimate :=
  if cacheWriteInput < 0 ∨ ((checkedI64 (cachedInput + cacheWriteInput)).map
      fun accounted ↦ decide (input < accounted)).getD true then .unpriced .invalidUsage
  else
    match calculateCost rates (input - cachedInput - cacheWriteInput) cachedInput cacheWriteInput
      output longContext with
    | some cost => .priced .complete cost cost
    | none => .unpriced .invalidUsage

/-- The bounds for an unknown number of cache-write tokens, `src/pricing.rs:171–193`. -/
def estimateMissingCacheWrite (rates : TokenRates) (input cachedInput output : Int)
    (longContext : Bool) : ApiCostEstimate :=
  let potentiallyWritten := input - cachedInput
  match calculateCost rates potentiallyWritten cachedInput 0 output longContext,
    calculateCost rates 0 cachedInput potentiallyWritten output longContext with
  | some lower, some upper => .priced .missingCacheWrite lower upper
  | _, _ => .unpriced .invalidUsage

/-- `estimate_standard_api_cost`, `src/pricing.rs:113–194`. -/
def estimateStandardApiCost (effectiveModel : Option String) (usage : UsageData) :
    ApiCostEstimate :=
  match effectiveModel.bind tokenRates with
  | none => .unpriced .unknownModel
  | some rates =>
    match usage.inputTokens, usage.outputTokens, usage.cachedInputTokens with
    | some input, some output, some cachedInput =>
      if input < 0 ∨ output < 0 ∨ cachedInput < 0 ∨ input < cachedInput then
        .unpriced .invalidUsage
      else
        let longContext := decide (longContextInputThreshold < input)
        if input < minCacheableInputTokens then
          if cachedInput ≠ 0 ∨ (usage.cacheWriteInputTokens.map (decide <| · ≠ 0)).getD false then
            .unpriced .invalidUsage
          else estimateCacheWrite rates input cachedInput 0 output longContext
        else
          match usage.cacheWriteInputTokens with
          | some cacheWriteInput =>
            estimateCacheWrite rates input cachedInput cacheWriteInput output longContext
          | none => estimateMissingCacheWrite rates input cachedInput output longContext
    | _, _, _ => .unpriced .missingUsage

/-- An estimate has both bounds when it is priced and none otherwise. -/
def WellFormed (estimate : ApiCostEstimate) : Prop :=
  estimate.lowerNanoUsd.isSome = estimate.status.isPriced ∧
    estimate.upperNanoUsd.isSome = estimate.status.isPriced

private theorem wellFormed_cacheWrite (rates : TokenRates)
    (input cachedInput cacheWriteInput output : Int) (longContext : Bool) :
    WellFormed
      (estimateCacheWrite rates input cachedInput cacheWriteInput output longContext) := by
  unfold estimateCacheWrite
  split
  · exact ⟨rfl, rfl⟩
  · split <;> exact ⟨rfl, rfl⟩

private theorem wellFormed_missingCacheWrite (rates : TokenRates) (input cachedInput output : Int)
    (longContext : Bool) :
    WellFormed (estimateMissingCacheWrite rates input cachedInput output longContext) := by
  unfold estimateMissingCacheWrite
  simp only
  split <;> exact ⟨rfl, rfl⟩

/-- Every estimate is well formed. -/
theorem estimateStandardApiCost_wellFormed (effectiveModel : Option String) (usage : UsageData) :
    WellFormed (estimateStandardApiCost effectiveModel usage) := by
  unfold estimateStandardApiCost
  split
  · exact ⟨rfl, rfl⟩
  · split
    · split
      · exact ⟨rfl, rfl⟩
      · simp only
        split
        · split
          · exact ⟨rfl, rfl⟩
          · exact wellFormed_cacheWrite _ _ _ _ _ _
        · split
          · exact wellFormed_cacheWrite _ _ _ _ _ _
          · exact wellFormed_missingCacheWrite _ _ _ _ _
    · exact ⟨rfl, rfl⟩

/-- The request of the migration test: 1200 input tokens, 200 of them cached, 11 output tokens. -/
example : estimateStandardApiCost (some "gpt-5.6-sol")
    ⟨some 1200, some 11, some 200, none, some 3, none, none⟩ =
      .priced .missingCacheWrite 5430000 6680000 := by decide

end CodexLb
