import CodexLb.Cost.Ledger
import CodexLb.Relational.Query
import CodexLb.Transition.Run

/-!
# Exactly-once cost accounting

Live requests, backfillers and the pruner in any order. A history variable
keeps every log row as it was last seen, so also the rows that were pruned;
the counters of an account are the totals over its rows with a cost status.
-/

namespace CodexLb

open Relational
open Transition (Run)

/-! ### Counters and the shares of a row -/

/-- The counters that a row adds to once it is priced. -/
inductive CostCounter where
  | cachedInput
  | cacheWriteInput
  | lowerCost
  | upperCost
  | completeRequests
  | partialRequests
  deriving DecidableEq

/-- What a row with this cost adds to a counter. -/
def CostCounter.share (row : RequestLogRow) (cost : ApiCostEstimate) : CostCounter → Int
  | cachedInput => observed row.usage.cachedInputTokens
  | cacheWriteInput => observed row.usage.cacheWriteInputTokens
  | lowerCost => cost.lowerNanoUsd.getD 0
  | upperCost => cost.upperNanoUsd.getD 0
  | completeRequests => countIf (cost.status = .complete)
  | partialRequests => countIf (cost.status = .missingCacheWrite)

/-- A counter of an account. -/
def AccountTotals.counter (totals : AccountTotals) : CostCounter → Int
  | .cachedInput => totals.cachedInputTokens
  | .cacheWriteInput => totals.observedCacheWriteInputTokens
  | .lowerCost => totals.apiCostLowerNanoUsd
  | .upperCost => totals.apiCostUpperNanoUsd
  | .completeRequests => totals.apiCostCompleteRequestCount
  | .partialRequests => totals.apiCostPartialRequestCount

/-- A counter of a batch's delta. -/
def ApiCostAggregateDelta.counter (delta : ApiCostAggregateDelta) : CostCounter → Int
  | .cachedInput => delta.cachedInputTokens
  | .cacheWriteInput => delta.observedCacheWriteInputTokens
  | .lowerCost => delta.lowerNanoUsd
  | .upperCost => delta.upperNanoUsd
  | .completeRequests => delta.completeRequests
  | .partialRequests => delta.partialRequests

/-- What a row adds to a counter of an account: its share if it is the account's and priced. -/
def pricedShare (accountId : Uuid) (counter : CostCounter) (row : RequestLogRow) : Int :=
  match row.cost with
  | some cost => if row.accountId = some accountId then counter.share row cost else 0
  | none => 0

/-- One for a row of the account that is not priced. -/
def pendingShare (accountId : Uuid) (row : RequestLogRow) : Int :=
  countIf (row.accountId = some accountId ∧ row.cost = none)

/-! ### The system -/

/-- The tables, the selections of the backfillers at work, and every row as it was last seen. -/
structure CostSystem where
  ledger : Ledger
  batches : List (List (Nat × RequestLogRow))
  archive : Nat → Option RequestLogRow

/-- The rows as last seen, after a look at the tables. -/
def seen (archive : Nat → Option RequestLogRow) (ledger : Ledger) : Nat → Option RequestLogRow :=
  fun id ↦ (ledger.logs.find id).or (archive id)

/-- Every total is an `i64`. -/
def Ledger.FitsI64 (ledger : Ledger) : Prop :=
  ∀ id t, ledger.totals.find id = some t → ∀ v ∈ [t.requestCount, t.successfulRequestCount,
    t.failedRequestCount, t.inputTokens, t.outputTokens, t.cachedInputTokens,
    t.observedCacheWriteInputTokens, t.apiCostLowerNanoUsd, t.apiCostUpperNanoUsd,
    t.apiCostCompleteRequestCount, t.apiCostPartialRequestCount, t.apiCostUnpricedRequestCount],
    checkedI64 v = some v

/-- What happens to the store. -/
inductive CostEvent where
  /-- A live request is logged. -/
  | insert (entry : NewRequestLog) (now : Instant)
  /-- A backfiller selects a batch. -/
  | select (batchSize : Int)
  /-- A backfiller commits its batch. -/
  | commit (rows : List (Nat × RequestLogRow))
  /-- A backfiller's transaction fails or is dropped. -/
  | abort (rows : List (Nat × RequestLogRow))
  /-- Old rows are pruned. -/
  | prune (cutoff : Instant)

/-- The steps in which no total overflows. -/
inductive CostStep : CostSystem → CostEvent → CostSystem → Prop
  | insert (s : CostSystem) (entry : NewRequestLog) (now : Instant)
      (hfits : (s.ledger.insertRequestLog entry now).FitsI64) :
      CostStep s (.insert entry now) ⟨s.ledger.insertRequestLog entry now, s.batches,
        seen s.archive (s.ledger.insertRequestLog entry now)⟩
  | select (s : CostSystem) (batchSize : Int) :
      CostStep s (.select batchSize)
        { s with batches := s.ledger.selectPending batchSize :: s.batches }
  | commit (s : CostSystem) (rows : List (Nat × RequestLogRow)) (ledger : Ledger) (updated : Nat)
      (before after : List (List (Nat × RequestLogRow)))
      (hbatch : s.batches = before ++ rows :: after)
      (hcommit : commitBatch s.ledger rows = .ok (ledger, updated)) (hfits : ledger.FitsI64) :
      CostStep s (.commit rows) ⟨ledger, before ++ after, seen s.archive ledger⟩
  | abort (s : CostSystem) (rows : List (Nat × RequestLogRow))
      (before after : List (List (Nat × RequestLogRow)))
      (hbatch : s.batches = before ++ rows :: after) :
      CostStep s (.abort rows) { s with batches := before ++ after }
  | prune (s : CostSystem) (cutoff : Instant) :
      CostStep s (.prune cutoff) ⟨s.ledger.pruneRequestLogs cutoff, s.batches,
        seen s.archive (s.ledger.pruneRequestLogs cutoff)⟩

/-- The number of an account's rows without a cost status. -/
def legacyRows (ledger : Ledger) (accountId : Uuid) : Nat :=
  (ledger.logs.select fun _ row ↦ row.accountId = some accountId && row.cost.isNone).length

/-- A store right after `migrations/202607220002_api_cost_estimates.sql`: no row has a cost status,
an account's requests are all unpriced and at least its rows, and its other counters are zero. -/
structure Migrated (s : CostSystem) : Prop where
  unpriced : ∀ id row, s.ledger.logs.find id = some row → row.cost = none
  requests : ∀ accountId t, s.ledger.totals.find accountId = some t →
    (legacyRows s.ledger accountId : Int) ≤ t.requestCount ∧
      t.apiCostUnpricedRequestCount = t.requestCount ∧ ∀ counter, t.counter counter = 0
  idle : s.batches = []
  archive : s.archive = s.ledger.logs.find

/-! ### The invariant -/

/-- The counters of an account are the totals of its priced rows, every request is counted under
one status, and there is room for the rows that are still pending. -/
structure Counted (s : CostSystem) (accountId : Uuid) (t : AccountTotals) : Prop where
  counters : ∀ counter,
    t.counter counter = total (pricedShare accountId counter) s.ledger.nextId s.archive
  covered : t.apiCostCompleteRequestCount + t.apiCostPartialRequestCount +
    t.apiCostUnpricedRequestCount = t.requestCount
  room : t.apiCostCompleteRequestCount + t.apiCostPartialRequestCount +
    total (pendingShare accountId) s.ledger.nextId s.ledger.logs.find ≤
      t.requestCount

/-- What holds in every reachable state. -/
structure Accounted (s : CostSystem) : Prop where
  archived : ∀ id row, s.ledger.logs.find id = some row → s.archive id = some row
  bounded : ∀ id row, s.archive id = some row → id < s.ledger.nextId
  estimated : ∀ id row cost, s.archive id = some row → row.cost = some cost →
    cost = estimateRequest row.model row.usage
  selected : ∀ rows ∈ s.batches, ∀ row ∈ rows, ∃ stored, s.archive row.1 = some stored ∧
    { stored with cost := none } = row.2
  counted : ∀ accountId t, s.ledger.totals.find accountId = some t → Counted s accountId t

/-! ### What each operation adds -/

section Adds

variable {accountId : Uuid} {counter : CostCounter} {row : RequestLogRow} {entry : NewRequestLog}

/-- A live request adds the shares of its row. -/
private theorem counter_addRequest (t : AccountTotals) (entry : NewRequestLog) (now : Instant)
    (counter : CostCounter) : (t.addRequest entry).counter counter = t.counter counter +
      counter.share (Ledger.newRow entry now) (estimateRequest entry.model entry.usage) := by
  cases counter <;> rfl

/-- A live request is counted under one status. -/
private theorem covered_addRequest (t : AccountTotals) (entry : NewRequestLog) :
    (t.addRequest entry).apiCostCompleteRequestCount +
      (t.addRequest entry).apiCostPartialRequestCount +
      (t.addRequest entry).apiCostUnpricedRequestCount =
      t.apiCostCompleteRequestCount + t.apiCostPartialRequestCount +
        t.apiCostUnpricedRequestCount + 1 := by
  simp only [AccountTotals.addRequest]
  cases (estimateRequest entry.model entry.usage).status <;>
    simp only [countIf, ApiCostStatus.isPriced, reduceCtorEq, Bool.true_eq_false,
      if_true, if_false] <;> omega

private theorem checkedAccumulate_ok {sum value next : Int}
    (h : ApiCostAggregateDelta.checkedAccumulate sum value = .ok next) : next = sum + value := by
  unfold ApiCostAggregateDelta.checkedAccumulate checkedI64 at h
  split at h
  · next hsome =>
    split at hsome
    · rw [← Except.ok.inj h]
      exact (Option.some.inj hsome).symm
    · cases hsome
  · cases h

/-- A delta adds the shares of a row. -/
private theorem counter_add {delta next : ApiCostAggregateDelta} {cost : ApiCostEstimate}
    (h : delta.add row cost = .ok next) (counter : CostCounter) :
    next.counter counter = delta.counter counter + counter.share row cost := by
  unfold ApiCostAggregateDelta.add at h
  obtain ⟨a, ha, h⟩ := bind_eq_ok.mp h
  obtain ⟨b, hb, h⟩ := bind_eq_ok.mp h
  obtain ⟨c, hc, h⟩ := bind_eq_ok.mp h
  obtain ⟨d, hd, h⟩ := bind_eq_ok.mp h
  obtain ⟨e, he, h⟩ := bind_eq_ok.mp h
  obtain ⟨f, hf, h⟩ := bind_eq_ok.mp h
  cases h
  cases counter
  · exact checkedAccumulate_ok ha
  · exact checkedAccumulate_ok hb
  · exact checkedAccumulate_ok hc
  · exact checkedAccumulate_ok hd
  · exact checkedAccumulate_ok he
  · exact checkedAccumulate_ok hf

/-- The totals of an account after the deltas of a batch. -/
theorem find_addDeltas (totals : Table Uuid AccountTotals)
    (deltas : Table Uuid ApiCostAggregateDelta) (accountId : Uuid) :
    (Ledger.addDeltas totals deltas).find accountId = (totals.find accountId).map fun t ↦
      ((deltas.find accountId).map t.addDelta).getD t := by
  obtain ⟨rows, hdistinct⟩ := deltas
  change (rows.foldl _ totals).find accountId = (totals.find accountId).map fun t ↦
    ((rows.lookup accountId).map t.addDelta).getD t
  induction rows generalizing totals with
  | nil => simp
  | cons delta rows ih =>
    rw [List.map_cons, List.nodup_cons] at hdistinct
    rw [List.foldl_cons, ih _ hdistinct.2, Table.find_update, Option.map_map]
    apply Option.map_congr
    intro t _
    by_cases hkey : accountId = delta.1
    · have hmiss : rows.lookup accountId = none := by
        rw [List.lookup_eq_none_iff]
        intro other hother
        have hne : accountId ≠ other.1 := by
          intro he
          exact hdistinct.1 (List.mem_map.mpr ⟨other, hother, by rw [← he, hkey]⟩)
        exact bne_iff_ne.mpr hne
      have hhit : ((delta :: rows).lookup accountId) = some delta.2 := by
        rw [List.lookup_cons, beq_iff_eq.mpr hkey]
      rw [hmiss, hhit]
      simp [hkey]
    · have hother : (delta :: rows).lookup accountId = rows.lookup accountId := by
        rw [List.lookup_cons, beq_eq_false_iff_ne.mpr hkey]
      rw [hother]
      simp [hkey]

end Adds

/-! ### A batch -/

/-- What a transaction has done to the rows of the system it started from. -/
structure TxFollows (s : CostSystem) (tx : BackfillTx) : Prop where
  nextId : tx.ledger.nextId = s.ledger.nextId
  totals : tx.ledger.totals = s.ledger.totals
  rows : ∀ id, tx.ledger.logs.find id = s.ledger.logs.find id ∨
    ∃ row, s.ledger.logs.find id = some row ∧ row.cost = none ∧
      tx.ledger.logs.find id =
        some { row with cost := some (estimateRequest row.model row.usage) }
  deltas : ∀ accountId counter, ((tx.deltas.find accountId).getD .zero).counter counter =
    total (pricedShare accountId counter) s.ledger.nextId tx.ledger.logs.find -
      total (pricedShare accountId counter) s.ledger.nextId s.ledger.logs.find

/-- Selected rows that are still pending are stored as they were selected. -/
def Ledger.Current (ledger : Ledger) (rows : List (Nat × RequestLogRow)) : Prop :=
  ∀ row ∈ rows, ∀ live, ledger.logs.find row.1 = some live → live.cost = none → row.2 = live

section Batch

variable {s : CostSystem} {tx next : BackfillTx} {row : Nat × RequestLogRow}
  {live : RequestLogRow} {ledger : Ledger} {id : Nat}

theorem find_price (cost : ApiCostEstimate) (hlive : ledger.logs.find id = some live)
    (hcost : live.cost = none) (k : Nat) : (ledger.price id cost).logs.find k =
      if k = id then some { live with cost := some cost } else ledger.logs.find k := by
  rw [Ledger.price, Table.find_update]
  split
  · next hk =>
    subst hk
    rw [hlive]
    simp [hcost]
  · next hk =>
    cases ledger.logs.find k with
    | none => rfl
    | some stored => simp [hk]

/-- Pricing a row adds its share to the totals of its account. -/
private theorem total_price (cost : ApiCostEstimate) (hlive : ledger.logs.find id = some live)
    (hcost : live.cost = none) {n : Nat} (hid : id < n) (accountId : Uuid)
    (counter : CostCounter) :
    total (pricedShare accountId counter) n (ledger.price id cost).logs.find =
      total (pricedShare accountId counter) n ledger.logs.find +
        if live.accountId = some accountId then counter.share live cost else 0 := by
  have hfind := find_price cost hlive hcost
  have hother : ∀ j < n, j ≠ id →
      weight (pricedShare accountId counter) (ledger.price id cost).logs.find j =
        weight (pricedShare accountId counter) ledger.logs.find j := by
    intro j _ hj
    rw [weight, weight, hfind, if_neg hj]
  have hnew : weight (pricedShare accountId counter) (ledger.price id cost).logs.find id =
      if live.accountId = some accountId then counter.share live cost else 0 := by
    rw [weight_of_some (by rw [hfind, if_pos rfl])]
    cases counter <;> rfl
  have hold : weight (pricedShare accountId counter) ledger.logs.find id = 0 := by
    rw [weight_of_some hlive, pricedShare, hcost]
  rw [total_change hid hother, hnew, hold, sub_zero]

/-- A row that a transaction finds unpriced is as it was when the transaction started. -/
private theorem TxFollows.stored (htx : TxFollows s tx)
    (hlive : tx.ledger.logs.find id = some live) (hcost : live.cost = none) :
    s.ledger.logs.find id = some live := by
  rcases htx.rows id with hsame | ⟨old, -, -, hpriced⟩
  · rw [← hsame, hlive]
  · rw [hlive] at hpriced
    cases hpriced
    cases hcost

/-- Pricing one more row keeps to the rows that the transaction started from. -/
private theorem TxFollows.rows_price (htx : TxFollows s tx)
    (hlive : tx.ledger.logs.find id = some live) (hcost : live.cost = none) (k : Nat) :
    (tx.ledger.price id (estimateRequest live.model live.usage)).logs.find k =
        s.ledger.logs.find k ∨
      ∃ old, s.ledger.logs.find k = some old ∧ old.cost = none ∧
        (tx.ledger.price id (estimateRequest live.model live.usage)).logs.find k =
          some { old with cost := some (estimateRequest old.model old.usage) } := by
  rw [find_price _ hlive hcost]
  by_cases hk : k = id
  · right
    exact ⟨live, hk ▸ htx.stored hlive hcost, hcost, if_pos hk⟩
  · rw [if_neg hk]
    exact htx.rows k

/-- The delta of an account gets the shares of its row, the others stay. -/
private theorem counter_upsert {deltas : Table Uuid ApiCostAggregateDelta} {accountId : Uuid}
    {delta : ApiCostAggregateDelta} {cost : ApiCostEstimate}
    (hadd : ((deltas.find accountId).getD .zero).add live cost = .ok delta) (other : Uuid)
    (counter : CostCounter) :
    (((deltas.upsert accountId delta fun _ ↦ delta).find other).getD .zero).counter counter =
      ((deltas.find other).getD .zero).counter counter +
        if some accountId = some other then counter.share live cost else 0 := by
  rw [Table.find_upsert]
  by_cases hother : other = accountId
  · subst hother
    have hshare := counter_add hadd counter
    rw [if_pos rfl, if_pos rfl, ← hshare]
    cases deltas.find other <;> rfl
  · have hne : ¬some accountId = some other := fun he ↦ hother (Option.some.inj he).symm
    rw [if_neg hother, if_neg hne, add_zero]

private theorem follows_backfillRow (htx : TxFollows s tx)
    (hrow : ∀ live, s.ledger.logs.find row.1 = some live → live.cost = none → row.2 = live)
    (h : backfillRow tx row = .ok next) : TxFollows s next := by
  unfold backfillRow at h
  simp only at h
  split at h
  · next hguard =>
    obtain ⟨live, hfilter⟩ := Option.isSome_iff_exists.mp hguard
    obtain ⟨hlive, hpending⟩ := Option.filter_eq_some_iff.mp hfilter
    have hcost : live.cost = none := of_decide_eq_true hpending
    have hstart := htx.stored hlive hcost
    rw [hrow live hstart hcost] at h
    have hid : row.1 < s.ledger.nextId := s.ledger.below _ _ hstart
    have htotal := total_price (estimateRequest live.model live.usage) hlive hcost hid
    split at h
    · next accountId haccount =>
      obtain ⟨delta, hadd, h⟩ := bind_eq_ok.mp h
      cases h
      refine ⟨htx.nextId, htx.totals, htx.rows_price hlive hcost, fun other counter ↦ ?_⟩
      rw [counter_upsert hadd, htotal, htx.deltas, haccount]
      omega
    · next haccount =>
      cases h
      refine ⟨htx.nextId, htx.totals, htx.rows_price hlive hcost, fun other counter ↦ ?_⟩
      rw [htotal, htx.deltas, haccount]
      simp
  · cases h
    exact htx

private theorem follows_foldlM {rows : List (Nat × RequestLogRow)}
    (htx : TxFollows s tx) (hrows : s.ledger.Current rows)
    (h : rows.foldlM backfillRow tx = .ok next) : TxFollows s next := by
  induction rows generalizing tx with
  | nil =>
    cases h
    exact htx
  | cons row rows ih =>
    rw [List.foldlM_cons] at h
    obtain ⟨tx', hrow, h⟩ := bind_eq_ok.mp h
    have htx' := follows_backfillRow htx (hrows row List.mem_cons_self) hrow
    exact ih htx' (fun other hother ↦ hrows other (List.mem_cons_of_mem row hother)) h

private theorem follows_start (s : CostSystem) : TxFollows s ⟨s.ledger, .empty, 0⟩ := by
  refine ⟨rfl, rfl, fun id ↦ .inl rfl, fun accountId counter ↦ ?_⟩
  rw [sub_self]
  cases counter <;> rfl

end Batch

/-! ### Every step keeps the invariant -/

section Steps

variable {s : CostSystem} {ledger : Ledger}

private theorem seen_of_find {archive : Nat → Option RequestLogRow} {id : Nat}
    {row : RequestLogRow} (h : ledger.logs.find id = some row) :
    seen archive ledger id = some row := by
  rw [seen, h, Option.some_or]

/-- Rows that are still stored or gone are remembered as they were. -/
theorem seen_eq {archive : Nat → Option RequestLogRow}
    (h : ∀ id row, ledger.logs.find id = some row → archive id = some row) :
    seen archive ledger = archive := by
  ext1 id
  rw [seen]
  cases hfind : ledger.logs.find id with
  | none => rw [Option.none_or]
  | some row => rw [Option.some_or, h id row hfind]

private theorem weight_pendingShare_nonneg (accountId : Uuid) (rows : Nat → Option RequestLogRow)
    (id : Nat) : 0 ≤ weight (pendingShare accountId) rows id := by
  cases h : rows id with
  | none => rw [weight_of_none h]
  | some row =>
    rw [weight_of_some h, pendingShare, countIf]
    split <;> decide

private theorem accounted_prune (hs : Accounted s) (cutoff : Instant) :
    Accounted ⟨s.ledger.pruneRequestLogs cutoff, s.batches,
      seen s.archive (s.ledger.pruneRequestLogs cutoff)⟩ := by
  have hkept : ∀ id row, (s.ledger.pruneRequestLogs cutoff).logs.find id = some row →
      s.ledger.logs.find id = some row := by
    intro id row h
    rw [Ledger.pruneRequestLogs, Table.find_delete] at h
    exact Option.eq_some_of_filter_eq_some h
  have harchive : seen s.archive (s.ledger.pruneRequestLogs cutoff) = s.archive :=
    seen_eq fun id row h ↦ hs.archived id row (hkept id row h)
  rw [harchive]
  refine ⟨fun id row h ↦ hs.archived id row (hkept id row h), hs.bounded, hs.estimated,
    hs.selected, fun accountId t ht ↦ ?_⟩
  have hc := hs.counted accountId t ht
  refine ⟨hc.counters, hc.covered, ?_⟩
  have hpending : total (pendingShare accountId) s.ledger.nextId
      (s.ledger.pruneRequestLogs cutoff).logs.find ≤
        total (pendingShare accountId) s.ledger.nextId s.ledger.logs.find := by
    apply total_le
    intro id _
    cases h : (s.ledger.pruneRequestLogs cutoff).logs.find id with
    | none =>
      rw [weight_of_none h]
      exact weight_pendingShare_nonneg accountId _ id
    | some row => rw [weight_of_some h, weight_of_some (hkept id row h)]
  have hroom := hc.room
  simp only [Ledger.pruneRequestLogs] at hpending ⊢
  omega

private theorem accounted_select (hs : Accounted s) (batchSize : Int) :
    Accounted { s with batches := s.ledger.selectPending batchSize :: s.batches } := by
  refine ⟨hs.archived, hs.bounded, hs.estimated, fun rows hrows row hrow ↦ ?_,
    fun accountId t ht ↦ ⟨(hs.counted accountId t ht).counters, (hs.counted accountId t ht).covered,
      (hs.counted accountId t ht).room⟩⟩
  rcases List.mem_cons.mp hrows with rfl | hrows
  · have hselected := List.mem_of_mem_take hrow
    rw [List.mem_insertionSort] at hselected
    obtain ⟨hfind, hpending⟩ := Table.mem_select_iff.mp hselected
    rw [Option.isNone_iff_eq_none] at hpending
    refine ⟨row.2, hs.archived _ _ hfind, ?_⟩
    rw [← hpending]
  · exact hs.selected rows hrows row hrow

/-- The other selections of the backfillers stay when one of them is used up. -/
private theorem mem_batches {rows other : List (Nat × RequestLogRow)}
    {before after : List (List (Nat × RequestLogRow))}
    (hbatch : s.batches = before ++ rows :: after) (hother : other ∈ before ++ after) :
    other ∈ s.batches := by
  rw [hbatch, List.mem_append, List.mem_cons]
  exact (List.mem_append.mp hother).imp_right .inr

private theorem accounted_drop (hs : Accounted s) {rows : List (Nat × RequestLogRow)}
    {before after : List (List (Nat × RequestLogRow))}
    (hbatch : s.batches = before ++ rows :: after) :
    Accounted { s with batches := before ++ after } := by
  refine ⟨hs.archived, hs.bounded, hs.estimated, fun other hother ↦ ?_,
    fun accountId t ht ↦ ⟨(hs.counted accountId t ht).counters, (hs.counted accountId t ht).covered,
      (hs.counted accountId t ht).room⟩⟩
  exact hs.selected other (mem_batches hbatch hother)

private theorem counted_insert {accountId : Uuid} {old : AccountTotals}
    (hc : Counted s accountId old) (entry : NewRequestLog) (now : Instant)
    (hfind : ∀ id, (s.ledger.insertRequestLog entry now).logs.find id =
      if id = s.ledger.nextId then some (Ledger.newRow entry now) else s.ledger.logs.find id)
    (harchive : ∀ id, seen s.archive (s.ledger.insertRequestLog entry now) id =
      if id = s.ledger.nextId then some (Ledger.newRow entry now) else s.archive id) :
    Counted ⟨s.ledger.insertRequestLog entry now, s.batches,
      seen s.archive (s.ledger.insertRequestLog entry now)⟩ accountId
      (if entry.accountId = some accountId then old.addRequest entry else old) := by
  have hpending : total (pendingShare accountId) (s.ledger.nextId + 1)
      (s.ledger.insertRequestLog entry now).logs.find =
        total (pendingShare accountId) s.ledger.nextId s.ledger.logs.find := by
    have hnone : pendingShare accountId (Ledger.newRow entry now) = 0 := by
      simp [pendingShare, countIf, Ledger.newRow]
    rw [total_insert hfind, hnone, add_zero]
  have hpriced : ∀ counter, total (pricedShare accountId counter) (s.ledger.nextId + 1)
      (seen s.archive (s.ledger.insertRequestLog entry now)) =
        total (pricedShare accountId counter) s.ledger.nextId s.archive +
          if entry.accountId = some accountId then
            counter.share (Ledger.newRow entry now) (estimateRequest entry.model entry.usage)
          else 0 := by
    intro counter
    rw [total_insert harchive]
    rfl
  have hroom := hc.room
  split
  · next haccount =>
    have hcovered := covered_addRequest old entry
    refine ⟨fun counter ↦ ?_, ?_, ?_⟩
    · rw [counter_addRequest old entry now, hc.counters counter]
      exact ((hpriced counter).trans (by rw [if_pos haccount])).symm
    · have hrequests : (old.addRequest entry).requestCount = old.requestCount + 1 := rfl
      have hbefore := hc.covered
      omega
    · have hrequests : (old.addRequest entry).requestCount = old.requestCount + 1 := rfl
      have hunpriced : old.apiCostUnpricedRequestCount ≤
          (old.addRequest entry).apiCostUnpricedRequestCount := by
        simp only [AccountTotals.addRequest, countIf]
        split <;> omega
      dsimp only [Ledger.insertRequestLog] at hpending ⊢
      omega
  · next haccount =>
    refine ⟨fun counter ↦ ?_, hc.covered, ?_⟩
    · rw [hc.counters counter]
      exact ((hpriced counter).trans (by rw [if_neg haccount, add_zero])).symm
    · dsimp only [Ledger.insertRequestLog] at hpending ⊢
      omega

/-- A live request is stored under the next key. -/
theorem find_insertRequestLog (ledger : Ledger) (entry : NewRequestLog) (now : Instant)
    (id : Nat) : (ledger.insertRequestLog entry now).logs.find id =
      if id = ledger.nextId then some (Ledger.newRow entry now) else ledger.logs.find id := by
  have hnew : ledger.logs.find ledger.nextId = none := by
    cases h : ledger.logs.find ledger.nextId with
    | none => rfl
    | some row => exact absurd (ledger.below _ _ h) (Nat.lt_irrefl _)
  rw [Ledger.insertRequestLog, Table.find_insert, hnew, Option.getD_none]

/-- A live request is remembered under the next key. -/
theorem seen_insert (hs : Accounted s) (entry : NewRequestLog) (now : Instant) (id : Nat) :
    seen s.archive (s.ledger.insertRequestLog entry now) id =
      if id = s.ledger.nextId then some (Ledger.newRow entry now) else s.archive id := by
  rw [seen, find_insertRequestLog]
  split
  · rfl
  · cases h : s.ledger.logs.find id with
    | none => rw [Option.none_or]
    | some row => rw [Option.some_or, hs.archived id row h]

private theorem accounted_insert (hs : Accounted s) (entry : NewRequestLog) (now : Instant) :
    Accounted ⟨s.ledger.insertRequestLog entry now, s.batches,
      seen s.archive (s.ledger.insertRequestLog entry now)⟩ := by
  have hfind := find_insertRequestLog s.ledger entry now
  have harchive := seen_insert hs entry now
  refine ⟨fun id row h ↦ seen_of_find h, fun id row h ↦ ?_, fun id row cost h hcost ↦ ?_,
    fun rows hrows row hrow ↦ ?_, fun accountId t ht ↦ ?_⟩
  · dsimp only at h
    rw [harchive] at h
    split at h
    · next he => exact he ▸ Nat.lt_succ_self _
    · exact Nat.lt_succ_of_lt (hs.bounded id row h)
  · dsimp only at h
    rw [harchive] at h
    split at h
    · cases h
      exact (Option.some.inj hcost).symm
    · exact hs.estimated id row cost h hcost
  · obtain ⟨stored, hstored, hcopy⟩ := hs.selected rows hrows row hrow
    refine ⟨stored, ?_, hcopy⟩
    have hne : row.1 ≠ s.ledger.nextId := Nat.ne_of_lt (hs.bounded _ _ hstored)
    dsimp only
    rw [harchive, if_neg hne, hstored]
  · dsimp only [Ledger.insertRequestLog] at ht
    rw [Table.find_update, Option.map_eq_some_iff] at ht
    obtain ⟨old, hold, ht⟩ := ht
    have htotals : t = if entry.accountId = some accountId then old.addRequest entry else old := by
      rw [← ht]
      simp only [decide_eq_true_eq]
    exact htotals ▸ counted_insert (hs.counted accountId old hold) entry now hfind harchive

/-- What a batch has done to a row: nothing, or it has priced a pending row. -/
private theorem batch_row {tx : BackfillTx} (hs : Accounted s) (htx : TxFollows s tx) (id : Nat) :
    (tx.ledger.logs.find id = s.ledger.logs.find id ∧
      (s.ledger.logs.find id).or (s.archive id) = s.archive id) ∨
    ∃ old, s.ledger.logs.find id = some old ∧ s.archive id = some old ∧ old.cost = none ∧
      tx.ledger.logs.find id =
        some { old with cost := some (estimateRequest old.model old.usage) } := by
  rcases htx.rows id with hsame | ⟨old, hold, hcost, hpriced⟩
  · refine .inl ⟨hsame, ?_⟩
    cases h : s.ledger.logs.find id with
    | none => rw [Option.none_or]
    | some row => rw [Option.some_or, hs.archived id row h]
  · exact .inr ⟨old, hold, hs.archived id old hold, hcost, hpriced⟩

/-- The priced rows of an account change a counter by what the batch adds to it. -/
private theorem total_batch {tx : BackfillTx} (hs : Accounted s) (htx : TxFollows s tx)
    (accountId : Uuid) (counter : CostCounter) :
    total (pricedShare accountId counter) s.ledger.nextId
        (fun id ↦ (tx.ledger.logs.find id).or (s.archive id)) -
      total (pricedShare accountId counter) s.ledger.nextId s.archive =
        ((tx.deltas.find accountId).getD .zero).counter counter := by
  rw [htx.deltas accountId counter]
  apply total_sub_congr
  intro id _
  rcases batch_row hs htx id with ⟨hsame, harchive⟩ | ⟨old, hold, harchive, -, hpriced⟩
  · simp only [weight, hsame, harchive, sub_self]
  · simp only [weight, hold, harchive, hpriced, Option.some_or]

/-- A batch leaves room: what it prices was pending. -/
private theorem room_batch {tx : BackfillTx} (hs : Accounted s) (htx : TxFollows s tx)
    (accountId : Uuid) :
    total (fun row ↦ pricedShare accountId .completeRequests row +
        pricedShare accountId .partialRequests row) s.ledger.nextId
        (fun id ↦ (tx.ledger.logs.find id).or (s.archive id)) +
      total (pendingShare accountId) s.ledger.nextId tx.ledger.logs.find ≤
    total (fun row ↦ pricedShare accountId .completeRequests row +
        pricedShare accountId .partialRequests row) s.ledger.nextId s.archive +
      total (pendingShare accountId) s.ledger.nextId s.ledger.logs.find := by
  apply total_add_le
  intro id _
  rcases batch_row hs htx id with ⟨hsame, harchive⟩ | ⟨old, hold, harchive, hcost, hpriced⟩
  · simp only [weight, hsame, harchive, Int.le_refl]
  · simp only [weight, hold, harchive, hpriced, Option.some_or, Option.map_some, Option.getD_some,
      pricedShare, pendingShare, hcost, CostCounter.share, countIf]
    by_cases haccount : old.accountId = some accountId
    · cases (estimateRequest old.model old.usage).status <;> simp [haccount]
    · simp [haccount]

/-- The delta of an account, if it has one, adds to its counters. -/
theorem counter_addDelta (old : AccountTotals) (delta : Option ApiCostAggregateDelta)
    (counter : CostCounter) : ((delta.map old.addDelta).getD old).counter counter =
      old.counter counter + (delta.getD .zero).counter counter := by
  cases delta with
  | none =>
    have hzero : (ApiCostAggregateDelta.zero).counter counter = 0 := by cases counter <;> rfl
    rw [Option.map_none, Option.getD_none, Option.getD_none, hzero, add_zero]
  | some delta => cases counter <;> rfl

/-- A delta adds no request. -/
private theorem requestCount_addDelta (old : AccountTotals)
    (delta : Option ApiCostAggregateDelta) :
    ((delta.map old.addDelta).getD old).requestCount = old.requestCount := by
  cases delta <;> rfl

/-- Counting what is left as unpriced covers all requests, as long as nothing is left out. -/
private theorem covered_addDelta {old : AccountTotals} {delta : Option ApiCostAggregateDelta}
    (hcovered : old.apiCostCompleteRequestCount + old.apiCostPartialRequestCount +
      old.apiCostUnpricedRequestCount = old.requestCount)
    (hroom : ((delta.map old.addDelta).getD old).counter .completeRequests +
      ((delta.map old.addDelta).getD old).counter .partialRequests ≤ old.requestCount) :
    ((delta.map old.addDelta).getD old).apiCostCompleteRequestCount +
      ((delta.map old.addDelta).getD old).apiCostPartialRequestCount +
      ((delta.map old.addDelta).getD old).apiCostUnpricedRequestCount =
        ((delta.map old.addDelta).getD old).requestCount := by
  cases delta with
  | none => exact hcovered
  | some delta =>
    simp only [Option.map_some, Option.getD_some, AccountTotals.counter,
      AccountTotals.addDelta] at hroom ⊢
    omega

private theorem counted_batch {tx : BackfillTx} (hs : Accounted s) (htx : TxFollows s tx)
    {accountId : Uuid} {old : AccountTotals}
    (hold : s.ledger.totals.find accountId = some old) {ledger : Ledger}
    (hnext : ledger.nextId = s.ledger.nextId) (hlogs : ledger.logs = tx.ledger.logs)
    (batches : List (List (Nat × RequestLogRow))) :
    Counted ⟨ledger, batches, seen s.archive ledger⟩ accountId
      (((tx.deltas.find accountId).map old.addDelta).getD old) := by
  have hc := hs.counted accountId old hold
  have hseen : seen s.archive ledger = fun id ↦ (tx.ledger.logs.find id).or (s.archive id) := by
    unfold seen
    rw [hlogs]
  have hcounters : ∀ counter,
      (((tx.deltas.find accountId).map old.addDelta).getD old).counter counter =
        total (pricedShare accountId counter) ledger.nextId (seen s.archive ledger) := by
    intro counter
    have htotal := total_batch hs htx accountId counter
    have hbefore := hc.counters counter
    rw [hnext, hseen, counter_addDelta]
    omega
  have hroom : (((tx.deltas.find accountId).map old.addDelta).getD old).counter .completeRequests +
      (((tx.deltas.find accountId).map old.addDelta).getD old).counter .partialRequests +
      total (pendingShare accountId) ledger.nextId ledger.logs.find ≤ old.requestCount := by
    have hbatch := room_batch hs htx accountId
    have hbefore := hc.room
    have hcomplete := hc.counters .completeRequests
    have hpartial := hc.counters .partialRequests
    rw [total_add, total_add] at hbatch
    rw [hcounters, hcounters, hnext, hseen, hlogs]
    simp only [AccountTotals.counter] at hcomplete hpartial
    omega
  have hpending : 0 ≤ total (pendingShare accountId) ledger.nextId ledger.logs.find :=
    total_nonneg fun id _ ↦ weight_pendingShare_nonneg accountId _ id
  refine ⟨hcounters, ?_, ?_⟩
  · apply covered_addDelta hc.covered
    omega
  · rw [requestCount_addDelta]
    exact hroom

/-- A committed batch of current rows has priced pending rows and added its deltas. -/
theorem Ledger.Current.follows {rows : List (Nat × RequestLogRow)} {updated : Nat}
    (hrows : s.ledger.Current rows)
    (hcommit : commitBatch s.ledger rows = .ok (ledger, updated)) : ∃ tx, TxFollows s tx ∧
      ledger = { tx.ledger with totals := Ledger.addDeltas tx.ledger.totals tx.deltas } := by
  obtain ⟨tx, hfold, hcommit⟩ := bind_eq_ok.mp hcommit
  exact ⟨tx, follows_foldlM (follows_start s) hrows hfold,
    (congrArg Prod.fst (Except.ok.inj hcommit)).symm⟩

/-- A committed batch has priced pending rows and added its deltas. -/
theorem follows_commitBatch (hs : Accounted s) {rows : List (Nat × RequestLogRow)}
    {ledger : Ledger} {updated : Nat} {before after : List (List (Nat × RequestLogRow))}
    (hbatch : s.batches = before ++ rows :: after)
    (hcommit : commitBatch s.ledger rows = .ok (ledger, updated)) : ∃ tx, TxFollows s tx ∧
      ledger = { tx.ledger with totals := Ledger.addDeltas tx.ledger.totals tx.deltas } := by
  have hselected := hs.selected rows (by rw [hbatch]; simp)
  have hrows : s.ledger.Current rows := by
    intro row hrow live hlive hcost
    obtain ⟨stored, hstored, hcopy⟩ := hselected row hrow
    rw [hs.archived _ _ hlive] at hstored
    cases hstored
    rw [← hcopy, ← hcost]
  exact hrows.follows hcommit

private theorem accounted_commit (hs : Accounted s) {rows : List (Nat × RequestLogRow)}
    {ledger : Ledger} {updated : Nat} {before after : List (List (Nat × RequestLogRow))}
    (hbatch : s.batches = before ++ rows :: after)
    (hcommit : commitBatch s.ledger rows = .ok (ledger, updated)) :
    Accounted ⟨ledger, before ++ after, seen s.archive ledger⟩ := by
  obtain ⟨tx, htx, hledger⟩ := follows_commitBatch hs hbatch hcommit
  have hlogs : ledger.logs = tx.ledger.logs := by rw [hledger]
  have hnext : ledger.nextId = s.ledger.nextId := by rw [hledger]; exact htx.nextId
  have hrow : ∀ id, seen s.archive ledger id = s.archive id ∨ ∃ old, s.archive id = some old ∧
      seen s.archive ledger id =
        some { old with cost := some (estimateRequest old.model old.usage) } := by
    intro id
    rcases batch_row hs htx id with ⟨hsame, harchive⟩ | ⟨old, -, harchive, -, hpriced⟩
    · exact .inl (by rw [seen, hlogs, hsame, harchive])
    · exact .inr ⟨old, harchive, by rw [seen, hlogs, hpriced, Option.some_or]⟩
  refine ⟨fun id row h ↦ seen_of_find h, fun id row h ↦ ?_, fun id row cost h hcost ↦ ?_,
    fun other hother row hrow' ↦ ?_, fun accountId t ht ↦ ?_⟩
  · dsimp only at h ⊢
    rw [hnext]
    rcases hrow id with hsame | ⟨old, hold, -⟩
    · exact hs.bounded id row (hsame ▸ h)
    · exact hs.bounded id old hold
  · dsimp only at h
    rcases hrow id with hsame | ⟨old, -, hpriced⟩
    · exact hs.estimated id row cost (hsame ▸ h) hcost
    · rw [hpriced] at h
      cases h
      exact (Option.some.inj hcost).symm
  · obtain ⟨stored, hstored, hcopy⟩ := hs.selected other (mem_batches hbatch hother) row hrow'
    rcases hrow row.1 with hsame | ⟨old, hold, hpriced⟩
    · exact ⟨stored, hsame.trans hstored, hcopy⟩
    · rw [hold] at hstored
      cases hstored
      exact ⟨_, hpriced, hcopy⟩
  · rw [hledger, htx.totals] at ht
    dsimp only at ht
    rw [find_addDeltas, Option.map_eq_some_iff] at ht
    obtain ⟨old, hold, rfl⟩ := ht
    exact counted_batch hs htx hold hnext hlogs _

/-- Every step keeps the invariant. -/
theorem accounted_step {t : CostSystem} {event : CostEvent} (hs : Accounted s)
    (h : CostStep s event t) : Accounted t := by
  cases h with
  | insert entry now _ => exact accounted_insert hs entry now
  | select batchSize => exact accounted_select hs batchSize
  | commit rows ledger updated before after hbatch hcommit _ =>
    exact accounted_commit hs hbatch hcommit
  | abort rows before after hbatch => exact accounted_drop hs hbatch
  | prune cutoff => exact accounted_prune hs cutoff

end Steps

/-! ### Runs -/

/-- The pending rows of an account, as a total. -/
theorem total_pending (ledger : Ledger) (accountId : Uuid) :
    total (pendingShare accountId) ledger.nextId ledger.logs.find =
      (legacyRows ledger accountId : Int) := by
  rw [total_find _ _ ledger.below, legacyRows, Table.select]
  induction ledger.logs.rows with
  | nil => rfl
  | cons row rows ih =>
    rw [List.map_cons, List.sum_cons, ih, List.filter_cons, pendingShare, countIf]
    by_cases h : row.2.accountId = some accountId ∧ row.2.cost = none
    · have hselected : (decide (row.2.accountId = some accountId) && row.2.cost.isNone) = true := by
        simp [h.1, h.2]
      rw [if_pos h, if_pos hselected, List.length_cons]
      omega
    · have hskipped : ¬(decide (row.2.accountId = some accountId) && row.2.cost.isNone) = true := by
        simpa using h
      rw [if_neg h, if_neg hskipped]
      omega

/-- A migrated store is accounted for. -/
theorem Migrated.accounted {s : CostSystem} (h : Migrated s) : Accounted s := by
  have harchive : ∀ id row, s.archive id = some row → s.ledger.logs.find id = some row := by
    intro id row hrow
    rwa [h.archive] at hrow
  refine ⟨fun id row hrow ↦ by rw [h.archive, hrow], fun id row hrow ↦ ?_,
    fun id row cost hrow hcost ↦ ?_, fun rows hrows ↦ ?_, fun accountId t ht ↦ ?_⟩
  · exact s.ledger.below id row (harchive id row hrow)
  · rw [h.unpriced id row (harchive id row hrow)] at hcost
    cases hcost
  · rw [h.idle] at hrows
    cases hrows
  · obtain ⟨hroom, hunpriced, hzero⟩ := h.requests accountId t ht
    have hcomplete : t.apiCostCompleteRequestCount = 0 := hzero .completeRequests
    have hpartial : t.apiCostPartialRequestCount = 0 := hzero .partialRequests
    refine ⟨fun counter ↦ ?_, by omega, ?_⟩
    · rw [hzero counter]
      apply Eq.symm
      apply total_eq_zero
      intro id _
      cases hrow : s.archive id with
      | none => exact weight_of_none hrow
      | some row =>
        rw [weight_of_some hrow, pricedShare, h.unpriced id row (harchive id row hrow)]
    · rw [total_pending]
      omega

/-- The invariant holds along every run from a migrated store. -/
theorem accounted_run {s₀ s : CostSystem} {events : List CostEvent} (h₀ : Migrated s₀)
    (h : Run CostStep s₀ events s) : Accounted s :=
  h.invariant (fun _ _ _ hs hstep ↦ accounted_step hs hstep) h₀.accounted

end CodexLb
