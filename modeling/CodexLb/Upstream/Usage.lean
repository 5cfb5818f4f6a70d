import CodexLb.Base.Json
import CodexLb.Cost.Pricing

/-!
# Usage in a response

What `src/upstream.rs:322–375` reads from a JSON event: the counters of every
usage object in it, the later ones over the earlier, and the model that
answered.
-/

namespace CodexLb

/-- `UsageData::default`. -/
def UsageData.none : UsageData := ⟨.none, .none, .none, .none, .none, .none, .none⟩

/-- An `i64` under a pointer. -/
def JsonValue.i64At (value : JsonValue) (pointer : List String) : Option Int :=
  (value.pointer pointer).bind JsonValue.asI64

/-- `merge_usage_fields`, `src/upstream.rs:340–365`. -/
def mergeUsageFields (usage : UsageData) (candidate : JsonValue) : UsageData :=
  { usage with
    inputTokens := (candidate.i64At ["input_tokens"]).or usage.inputTokens
    outputTokens := (candidate.i64At ["output_tokens"]).or usage.outputTokens
    cachedInputTokens :=
      (candidate.i64At ["input_tokens_details", "cached_tokens"]).or usage.cachedInputTokens
    cacheWriteInputTokens :=
      (candidate.i64At ["input_tokens_details", "cache_write_tokens"]).or
        usage.cacheWriteInputTokens
    reasoningTokens :=
      (candidate.i64At ["output_tokens_details", "reasoning_tokens"]).or usage.reasoningTokens }

/-- `merge_response_metadata`, `src/upstream.rs:367–375`. -/
def mergeResponseMetadata (usage : UsageData) (value : JsonValue) : UsageData :=
  let response := (value.get "response").getD value
  { usage with
    effectiveModel := ((response.get "model").bind JsonValue.asStr).or usage.effectiveModel
    effectiveServiceTier :=
      ((response.get "service_tier").bind JsonValue.asStr).or usage.effectiveServiceTier }

/-- `merge_usage`, `src/upstream.rs:328–338`. -/
def mergeUsage (usage : UsageData) (value : JsonValue) : UsageData :=
  let candidates := [value.get "usage", (value.get "response").bind fun v ↦ v.get "usage",
    (value.get "item").bind fun v ↦ v.get "usage"]
  (candidates.filterMap id).foldl mergeUsageFields (mergeResponseMetadata usage value)

/-- `extract_usage_from_json`, `src/upstream.rs:322–326`. -/
def extractUsageFromJson (value : JsonValue) : UsageData := mergeUsage .none value

end CodexLb
