import CodexLb.Base.Models
import CodexLb.Cost.Pricing
import CodexLb.Relational.Table
import CodexLb.Relational.Total

/-!
# Request logs and account totals

`insert_request_log`, `backfill_api_costs_batch` and the pruning of request
logs, `src/db.rs:135–320`, `2074–2156` and `2412–2417`, on the columns that
they read or write. The key of a log row is `AUTOINCREMENT`, so no key is
given twice.
-/

namespace CodexLb

open Relational (Table)

/-- A row of `request_logs`; `cost` is `NULL` until the row is priced. -/
structure RequestLogRow where
  accountId : Option Uuid
  model : Option String
  usage : UsageData
  createdAt : Instant
  cost : Option ApiCostEstimate
  deriving DecidableEq

/-- The totals in a row of `account_runtime_state`. -/
structure AccountTotals where
  requestCount : Int
  successfulRequestCount : Int
  failedRequestCount : Int
  inputTokens : Int
  outputTokens : Int
  cachedInputTokens : Int
  observedCacheWriteInputTokens : Int
  apiCostLowerNanoUsd : Int
  apiCostUpperNanoUsd : Int
  apiCostCompleteRequestCount : Int
  apiCostPartialRequestCount : Int
  apiCostUnpricedRequestCount : Int
  deriving DecidableEq

/-- The tables of cost accounting and the sequence of log keys. -/
structure Ledger where
  logs : Table Nat RequestLogRow
  nextId : Nat
  totals : Table Uuid AccountTotals
  below : ∀ id row, logs.find id = some row → id < nextId

/-- `NewRequestLog`, `src/models.rs:236–246`. -/
structure NewRequestLog where
  accountId : Option Uuid
  model : Option String
  status : String
  usage : UsageData
  deriving DecidableEq

/-- `NewRequestLog` with the columns that no total reads, `src/models.rs:236–246`. -/
structure RequestLogEntry extends NewRequestLog where
  requestId : String
  selectionReason : Option SelectionReason
  errorCode : Option String
  errorMessage : Option String
  latencyMs : Option Int
  deriving DecidableEq

/-- `elapsed.as_millis().min(i32::MAX as u128)`. -/
def latencyMillis (elapsed : Nat) : Int := min elapsed (2 ^ 31 - 1 : Nat)

/-- The estimate for a request: the effective model goes before the requested one. -/
def estimateRequest (model : Option String) (usage : UsageData) : ApiCostEstimate :=
  estimateStandardApiCost (usage.effectiveModel.or model) usage

/-- `i64::from` of a condition. -/
def countIf (p : Prop) [Decidable p] : Int := if p then 1 else 0

/-- A counter clamped at zero, absent as zero. -/
def observed (value : Option Int) : Int := max (value.getD 0) 0

/-! ### Live requests -/

/-- The update of the totals by a live request, `src/db.rs:2121–2138`. -/
def AccountTotals.addRequest (totals : AccountTotals) (entry : NewRequestLog) : AccountTotals :=
  let cost := estimateRequest entry.model entry.usage
  { requestCount := totals.requestCount + 1
    successfulRequestCount := totals.successfulRequestCount + countIf (entry.status = "success")
    failedRequestCount := totals.failedRequestCount + countIf (entry.status ≠ "success")
    inputTokens := totals.inputTokens + entry.usage.inputTokens.getD 0
    outputTokens := totals.outputTokens + entry.usage.outputTokens.getD 0
    cachedInputTokens := totals.cachedInputTokens + observed entry.usage.cachedInputTokens
    observedCacheWriteInputTokens :=
      totals.observedCacheWriteInputTokens + observed entry.usage.cacheWriteInputTokens
    apiCostLowerNanoUsd := totals.apiCostLowerNanoUsd + cost.lowerNanoUsd.getD 0
    apiCostUpperNanoUsd := totals.apiCostUpperNanoUsd + cost.upperNanoUsd.getD 0
    apiCostCompleteRequestCount :=
      totals.apiCostCompleteRequestCount + countIf (cost.status = .complete)
    apiCostPartialRequestCount :=
      totals.apiCostPartialRequestCount + countIf (cost.status = .missingCacheWrite)
    apiCostUnpricedRequestCount :=
      totals.apiCostUnpricedRequestCount + countIf (cost.status.isPriced = false) }

namespace Ledger

/-- The log row of a live request. -/
def newRow (entry : NewRequestLog) (now : Instant) : RequestLogRow :=
  ⟨entry.accountId, entry.model, entry.usage, now, some (estimateRequest entry.model entry.usage)⟩

private theorem below_insert (ledger : Ledger) (row : RequestLogRow) (id : Nat)
    (stored : RequestLogRow) (h : (ledger.logs.insert ledger.nextId row).find id = some stored) :
    id < ledger.nextId + 1 := by
  rw [Table.find_insert] at h
  split at h
  · next he => omega
  · exact Nat.lt_succ_of_lt (ledger.below _ _ h)

/-- `insert_request_log`, `src/db.rs:2074–2156`. -/
def insertRequestLog (ledger : Ledger) (entry : NewRequestLog) (now : Instant) : Ledger where
  logs := ledger.logs.insert ledger.nextId (newRow entry now)
  nextId := ledger.nextId + 1
  totals := ledger.totals.update (fun id _ ↦ entry.accountId = some id)
    fun totals ↦ totals.addRequest entry
  below := below_insert ledger (newRow entry now)

private theorem below_delete (ledger : Ledger) (p : Nat → RequestLogRow → Bool) (id : Nat)
    (stored : RequestLogRow) (h : (ledger.logs.delete p).find id = some stored) :
    id < ledger.nextId := by
  rw [Table.find_delete] at h
  exact ledger.below _ _ (Option.eq_some_of_filter_eq_some h)

/-- The deletion of old request logs in `prune_history`, `src/db.rs:2412–2417`. -/
def pruneRequestLogs (ledger : Ledger) (cutoff : Instant) : Ledger :=
  { ledger with
    logs := ledger.logs.delete fun _ row ↦ row.createdAt < cutoff
    below := below_delete ledger fun _ row ↦ row.createdAt < cutoff }

/-! ### The backfill -/

/-- `API_COST_BACKFILL_BATCH_SIZE`, `src/db.rs:35`. -/
def apiCostBackfillBatchSize : Int := 500

/-- The rows that a batch selects, `src/db.rs:221–235`. -/
def selectPending (ledger : Ledger) (batchSize : Int) : List (Nat × RequestLogRow) :=
  ((ledger.logs.select fun _ row ↦ row.cost.isNone).insertionSort fun a b ↦ a.1 ≤ b.1).take
    (max 1 (min batchSize apiCostBackfillBatchSize)).toNat

end Ledger

/-- `ApiCostAggregateDelta`, `src/db.rs:149–157`. -/
structure ApiCostAggregateDelta where
  cachedInputTokens : Int
  observedCacheWriteInputTokens : Int
  lowerNanoUsd : Int
  upperNanoUsd : Int
  completeRequests : Int
  partialRequests : Int
  deriving DecidableEq

namespace ApiCostAggregateDelta

/-- `ApiCostAggregateDelta::default`. -/
def zero : ApiCostAggregateDelta := ⟨0, 0, 0, 0, 0, 0⟩

/-- `checked_accumulate`, `src/db.rs:192–197`. -/
def checkedAccumulate (sum value : Int) : Except AppError Int :=
  match checkedI64 (sum + value) with
  | some sum => .ok sum
  | none => .error (.internal "API cost backfill aggregate overflowed")

/-- `ApiCostAggregateDelta::add`, `src/db.rs:159–190`. -/
def add (delta : ApiCostAggregateDelta) (row : RequestLogRow) (estimate : ApiCostEstimate) :
    Except AppError ApiCostAggregateDelta := do
  let cachedInputTokens ←
    checkedAccumulate delta.cachedInputTokens (observed row.usage.cachedInputTokens)
  let observedCacheWriteInputTokens ←
    checkedAccumulate delta.observedCacheWriteInputTokens
      (observed row.usage.cacheWriteInputTokens)
  let lowerNanoUsd ← checkedAccumulate delta.lowerNanoUsd (estimate.lowerNanoUsd.getD 0)
  let upperNanoUsd ← checkedAccumulate delta.upperNanoUsd (estimate.upperNanoUsd.getD 0)
  let completeRequests ←
    checkedAccumulate delta.completeRequests (countIf (estimate.status = .complete))
  let partialRequests ←
    checkedAccumulate delta.partialRequests (countIf (estimate.status = .missingCacheWrite))
  return ⟨cachedInputTokens, observedCacheWriteInputTokens, lowerNanoUsd, upperNanoUsd,
    completeRequests, partialRequests⟩

end ApiCostAggregateDelta

/-- The update of the totals by a batch, `src/db.rs:289–304`. -/
def AccountTotals.addDelta (totals : AccountTotals) (delta : ApiCostAggregateDelta) :
    AccountTotals :=
  { totals with
    cachedInputTokens := totals.cachedInputTokens + delta.cachedInputTokens
    observedCacheWriteInputTokens :=
      totals.observedCacheWriteInputTokens + delta.observedCacheWriteInputTokens
    apiCostLowerNanoUsd := totals.apiCostLowerNanoUsd + delta.lowerNanoUsd
    apiCostUpperNanoUsd := totals.apiCostUpperNanoUsd + delta.upperNanoUsd
    apiCostCompleteRequestCount := totals.apiCostCompleteRequestCount + delta.completeRequests
    apiCostPartialRequestCount := totals.apiCostPartialRequestCount + delta.partialRequests
    apiCostUnpricedRequestCount := max 0 (totals.requestCount -
      (totals.apiCostCompleteRequestCount + delta.completeRequests) -
      (totals.apiCostPartialRequestCount + delta.partialRequests)) }

namespace Ledger

private theorem below_update (ledger : Ledger) (p : Nat → RequestLogRow → Bool)
    (f : RequestLogRow → RequestLogRow) (id : Nat) (stored : RequestLogRow)
    (h : (ledger.logs.update p f).find id = some stored) : id < ledger.nextId := by
  rw [Table.find_update, Option.map_eq_some_iff] at h
  obtain ⟨old, hold, -⟩ := h
  exact ledger.below _ _ hold

/-- The guarded `UPDATE` of one log row, `src/db.rs:257–272`. -/
def price (ledger : Ledger) (id : Nat) (estimate : ApiCostEstimate) : Ledger :=
  { ledger with
    logs := ledger.logs.update (fun k row ↦ k = id ∧ row.cost = none) fun row ↦
      { row with cost := some estimate }
    below := below_update ledger _ _ }

/-- The totals after every delta of a batch, `src/db.rs:286–316`. -/
def addDeltas (totals : Table Uuid AccountTotals) (deltas : Table Uuid ApiCostAggregateDelta) :
    Table Uuid AccountTotals :=
  deltas.rows.foldl
    (fun totals delta ↦ totals.update (fun id _ ↦ id = delta.1) fun t ↦ t.addDelta delta.2) totals

end Ledger

/-- The state of a batch's transaction: the tables, the deltas and the count of updates. -/
structure BackfillTx where
  ledger : Ledger
  deltas : Table Uuid ApiCostAggregateDelta
  updated : Nat

/-- One row of a batch, `src/db.rs:246–284`: a row that is gone or priced already is skipped. -/
def backfillRow (tx : BackfillTx) (row : Nat × RequestLogRow) : Except AppError BackfillTx :=
  let estimate := estimateRequest row.2.model row.2.usage
  if ((tx.ledger.logs.find row.1).filter fun stored ↦ stored.cost = none).isSome then
    let ledger := tx.ledger.price row.1 estimate
    match row.2.accountId with
    | some accountId => do
      let delta ← ((tx.deltas.find accountId).getD .zero).add row.2 estimate
      return ⟨ledger, tx.deltas.upsert accountId delta fun _ ↦ delta, tx.updated + 1⟩
    | none => .ok ⟨ledger, tx.deltas, tx.updated + 1⟩
  else .ok tx

/-- The transaction of `backfill_api_costs_batch`, `src/db.rs:244–319`, with the number of rows
updated. An error rolls it back. -/
def commitBatch (ledger : Ledger) (rows : List (Nat × RequestLogRow)) :
    Except AppError (Ledger × Nat) := do
  let tx ← rows.foldlM backfillRow ⟨ledger, .empty, 0⟩
  return ({ tx.ledger with totals := Ledger.addDeltas tx.ledger.totals tx.deltas }, tx.updated)

end CodexLb
