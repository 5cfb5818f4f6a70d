import CodexLb.Cost.Accounting
import Mathlib.Algebra.BigOperators.Group.List.Basic

/-!
# Live and backfilled stores

The same requests, once logged live and once as legacy rows that are then
backfilled. Each end total is the sum of what the requests add, so the order
of the requests and the cut into batches do not matter.
-/

namespace CodexLb

open Relational
open Transition (Run guarded)

/-- The row that a request left before costs were recorded. -/
def legacyRow (request : NewRequestLog × Instant) : RequestLogRow :=
  { Ledger.newRow request.1 request.2 with cost := none }

/-- What a row adds to a counter of an account once it is priced. -/
def fullShare (accountId : Uuid) (counter : CostCounter) (row : RequestLogRow) : Int :=
  if row.accountId = some accountId then
    counter.share row (estimateRequest row.model row.usage)
  else 0

/-- A store without requests in which then every request is logged live. -/
def FilledLive (requests : List (NewRequestLog × Instant)) (s : CostSystem) : Prop :=
  ∃ s₀, Migrated s₀ ∧ (∀ id, s₀.ledger.logs.find id = none) ∧
    (∀ accountId t, s₀.ledger.totals.find accountId = some t → t.requestCount = 0) ∧
    Run CostStep s₀ (requests.map fun request ↦ .insert request.1 request.2) s

/-- The events of a backfill. -/
def CostEvent.isBackfill : CostEvent → Bool
  | select _ | commit _ | abort _ => true
  | insert _ _ | prune _ => false

/-- A store with the requests as legacy rows, after a backfill that left no row without a cost. -/
def Backfilled (requests : List (NewRequestLog × Instant)) (s : CostSystem) : Prop :=
  ∃ s₀ events, Migrated s₀ ∧
    (s₀.ledger.logs.rows.map Prod.snd).Perm (requests.map legacyRow) ∧
    (∀ accountId t, s₀.ledger.totals.find accountId = some t →
      t.requestCount = legacyRows s₀.ledger accountId) ∧
    Run (guarded CostStep fun _ event ↦ event.isBackfill = true) s₀ events s ∧
    ∀ id row, s.ledger.logs.find id = some row → row.cost ≠ none

/-- Where every row is priced, the priced shares are the full shares. -/
private theorem total_pricedShare {s : CostSystem} (hs : Accounted s)
    (hpriced : ∀ id row, s.archive id = some row → row.cost ≠ none) (accountId : Uuid)
    (counter : CostCounter) : total (pricedShare accountId counter) s.ledger.nextId s.archive =
      total (fullShare accountId counter) s.ledger.nextId s.archive := by
  apply total_congr
  intro id _
  cases hrow : s.archive id with
  | none => rw [weight_of_none hrow, weight_of_none hrow]
  | some row =>
    obtain ⟨cost, hcost⟩ := Option.ne_none_iff_exists'.mp (hpriced id row hrow)
    rw [weight_of_some hrow, weight_of_some hrow, pricedShare, fullShare, hcost,
      hs.estimated id row cost hrow hcost]

/-! ### Live requests -/

/-- A live request leaves every row priced. -/
private theorem priced_insert {s : CostSystem} (hs : Accounted s)
    (hpriced : ∀ id row, s.archive id = some row → row.cost ≠ none)
    (request : NewRequestLog × Instant) (id : Nat) (row : RequestLogRow)
    (h : seen s.archive (s.ledger.insertRequestLog request.1 request.2) id = some row) :
    row.cost ≠ none := by
  rw [seen_insert hs] at h
  split at h
  · cases h
    exact Option.some_ne_none _
  · exact hpriced id row h

/-- A live request is counted for its account. -/
private theorem requestCount_insert {ledger : Ledger} {request : NewRequestLog × Instant}
    {accountId : Uuid} {after : AccountTotals}
    (h : (ledger.insertRequestLog request.1 request.2).totals.find accountId = some after) :
    ∃ before, ledger.totals.find accountId = some before ∧
      after.requestCount = before.requestCount + pendingShare accountId (legacyRow request) := by
  dsimp only [Ledger.insertRequestLog] at h
  rw [Table.find_update, Option.map_eq_some_iff] at h
  obtain ⟨before, hbefore, h⟩ := h
  refine ⟨before, hbefore, ?_⟩
  rw [← h]
  simp only [pendingShare, legacyRow, Ledger.newRow, countIf, and_true, decide_eq_true_eq]
  split
  · rfl
  · rw [add_zero]

/-- Live requests add their shares and leave every row priced. -/
private theorem live_totals {s t : CostSystem} {requests : List (NewRequestLog × Instant)}
    (hs : Accounted s) (hpriced : ∀ id row, s.archive id = some row → row.cost ≠ none)
    (h : Run CostStep s (requests.map fun request ↦ .insert request.1 request.2) t)
    (accountId : Uuid) :
    (∀ id row, t.archive id = some row → row.cost ≠ none) ∧
    (∀ counter, total (fullShare accountId counter) t.ledger.nextId t.archive =
      total (fullShare accountId counter) s.ledger.nextId s.archive +
        (requests.map fun request ↦ fullShare accountId counter (legacyRow request)).sum) ∧
    ∀ after, t.ledger.totals.find accountId = some after →
      ∃ before, s.ledger.totals.find accountId = some before ∧ after.requestCount =
        before.requestCount +
          (requests.map fun request ↦ pendingShare accountId (legacyRow request)).sum := by
  induction requests generalizing s with
  | nil =>
    cases h
    simp only [List.map_nil, List.sum_nil, add_zero]
    exact ⟨hpriced, fun _ ↦ trivial, fun after hafter ↦ ⟨after, hafter, rfl⟩⟩
  | cons request requests ih =>
    cases h with
    | cons head tail =>
    have hnext := accounted_step hs head
    cases head with
    | insert entry now hfits =>
    obtain ⟨hall, htotal, hcount⟩ := ih hnext (priced_insert hs hpriced request) tail
    refine ⟨hall, fun counter ↦ ?_, fun after hafter ↦ ?_⟩
    · have hone : total (fullShare accountId counter) (s.ledger.nextId + 1)
          (seen s.archive (s.ledger.insertRequestLog request.1 request.2)) =
            total (fullShare accountId counter) s.ledger.nextId s.archive +
              fullShare accountId counter (Ledger.newRow request.1 request.2) :=
        total_insert (seen_insert hs request.1 request.2)
      rw [htotal counter, List.map_cons, List.sum_cons, ← add_assoc]
      exact congrArg (· + _) hone
    · obtain ⟨between, hbetween, hafter⟩ := hcount after hafter
      obtain ⟨before, hbefore, hone⟩ := requestCount_insert hbetween
      refine ⟨before, hbefore, ?_⟩
      rw [List.map_cons, List.sum_cons]
      omega

/-! ### The backfill -/

/-- What a backfill keeps: the rows up to their costs and the numbers of requests. -/
structure SameRequests (s t : CostSystem) : Prop where
  nextId : t.ledger.nextId = s.ledger.nextId
  rows : ∀ id, (t.ledger.logs.find id).map (fun row ↦ { row with cost := none }) =
    (s.ledger.logs.find id).map (fun row ↦ { row with cost := none })
  counts : ∀ accountId after, t.ledger.totals.find accountId = some after →
    ∃ before, s.ledger.totals.find accountId = some before ∧
      after.requestCount = before.requestCount

private theorem SameRequests.refl (s : CostSystem) : SameRequests s s :=
  ⟨rfl, fun _ ↦ rfl, fun _ after h ↦ ⟨after, h, rfl⟩⟩

private theorem SameRequests.trans (s t u : CostSystem) (h : SameRequests s t)
    (k : SameRequests t u) : SameRequests s u := by
  refine ⟨k.nextId.trans h.nextId, fun id ↦ (k.rows id).trans (h.rows id),
    fun accountId after hafter ↦ ?_⟩
  obtain ⟨between, hbetween, hcount⟩ := k.counts accountId after hafter
  obtain ⟨before, hbefore, hcount'⟩ := h.counts accountId between hbetween
  exact ⟨before, hbefore, hcount.trans hcount'⟩

/-- A step of a backfill keeps the requests. -/
private theorem sameRequests_step {s t : CostSystem} {event : CostEvent} (hs : Accounted s)
    (h : guarded CostStep (fun _ event ↦ event.isBackfill = true) s event t) :
    SameRequests s t := by
  obtain ⟨hbackfill, hstep⟩ := h
  cases hstep with
  | insert entry now _ => cases hbackfill
  | select batchSize => exact ⟨rfl, fun _ ↦ rfl, fun _ after h ↦ ⟨after, h, rfl⟩⟩
  | abort rows before after _ => exact ⟨rfl, fun _ ↦ rfl, fun _ after h ↦ ⟨after, h, rfl⟩⟩
  | prune cutoff => cases hbackfill
  | commit rows ledger updated before after hbatch hcommit _ =>
    obtain ⟨tx, htx, rfl⟩ := follows_commitBatch hs hbatch hcommit
    refine ⟨htx.nextId, fun id ↦ ?_, fun accountId after hafter ↦ ?_⟩
    · rcases htx.rows id with hsame | ⟨old, hold, -, hpriced⟩
      · dsimp only
        rw [hsame]
      · dsimp only
        rw [hpriced, hold]
        rfl
    · dsimp only at hafter
      rw [htx.totals, find_addDeltas, Option.map_eq_some_iff] at hafter
      obtain ⟨old, hold, rfl⟩ := hafter
      refine ⟨old, hold, ?_⟩
      cases tx.deltas.find accountId <;> rfl

/-- A step of a backfill forgets no row. -/
private theorem archive_step {s t : CostSystem} {event : CostEvent} (hs : Accounted s)
    (harchive : s.archive = s.ledger.logs.find)
    (h : guarded CostStep (fun _ event ↦ event.isBackfill = true) s event t) :
    t.archive = t.ledger.logs.find := by
  have hsame := sameRequests_step hs h
  obtain ⟨hbackfill, hstep⟩ := h
  cases hstep with
  | insert entry now _ => cases hbackfill
  | select batchSize => exact harchive
  | abort rows before after _ => exact harchive
  | prune cutoff => cases hbackfill
  | commit rows ledger updated before after _ _ _ =>
    ext1 id
    have hrow := hsame.rows id
    dsimp only at hrow ⊢
    rw [seen, harchive]
    cases hfind : ledger.logs.find id with
    | some row => rw [Option.some_or]
    | none =>
      rw [hfind, Option.map_none, eq_comm, Option.map_eq_none_iff] at hrow
      rw [Option.none_or, hrow]

/-- After a backfill the rows are all there, with the requests they had. -/
private theorem backfill_run {s t : CostSystem} {events : List CostEvent} (hs : Migrated s)
    (h : Run (guarded CostStep fun _ event ↦ event.isBackfill = true) s events t) :
    Accounted t ∧ t.archive = t.ledger.logs.find ∧ SameRequests s t := by
  let P : CostSystem → Prop := fun s ↦ Accounted s ∧ s.archive = s.ledger.logs.find
  have hkeep : ∀ s event t, P s →
      guarded CostStep (fun _ event ↦ event.isBackfill = true) s event t → P t :=
    fun s event t hs h ↦ ⟨accounted_step hs.1 h.2, archive_step hs.1 hs.2 h⟩
  have hstart : P s := ⟨hs.accounted, hs.archive⟩
  have hend := h.invariant hkeep hstart
  exact ⟨hend.1, hend.2, h.relates hkeep SameRequests.refl SameRequests.trans
    (fun _ _ _ hs h ↦ sameRequests_step hs.1 h) hstart⟩

/-! ### Equal counters -/

/-- A total over the legacy rows of the requests. -/
private theorem total_legacy (w : RequestLogRow → Int) (ledger : Ledger)
    {requests : List (NewRequestLog × Instant)}
    (hrows : (ledger.logs.rows.map Prod.snd).Perm (requests.map legacyRow)) :
    total w ledger.nextId ledger.logs.find =
      (requests.map fun request ↦ w (legacyRow request)).sum := by
  rw [total_find w ledger.logs ledger.below]
  have hsum := (hrows.map w).sum_eq
  rw [List.map_map, List.map_map] at hsum
  exact hsum

/-- What an account has been charged and how often, in terms of the requests. -/
structure Charged (requests : List (NewRequestLog × Instant)) (accountId : Uuid)
    (t : AccountTotals) : Prop where
  counters : ∀ counter, t.counter counter =
    (requests.map fun request ↦ fullShare accountId counter (legacyRow request)).sum
  requests : t.requestCount =
    (requests.map fun request ↦ pendingShare accountId (legacyRow request)).sum
  covered : t.apiCostCompleteRequestCount + t.apiCostPartialRequestCount +
    t.apiCostUnpricedRequestCount = t.requestCount

/-- A store filled by live requests charges what they cost. -/
theorem FilledLive.charged {requests : List (NewRequestLog × Instant)} {s : CostSystem}
    (h : FilledLive requests s) {accountId : Uuid} {t : AccountTotals}
    (ht : s.ledger.totals.find accountId = some t) : Charged requests accountId t := by
  obtain ⟨s₀, hmigrated, hempty, hzero, hrun⟩ := h
  have harchive : ∀ id, s₀.archive id = none := by
    intro id
    rw [hmigrated.archive, hempty]
  have hs := accounted_run hmigrated hrun
  obtain ⟨hpriced, htotal, hcount⟩ := live_totals hmigrated.accounted
    (fun id row hrow ↦ by rw [harchive id] at hrow; cases hrow) hrun accountId
  have hc := hs.counted accountId t ht
  refine ⟨fun counter ↦ ?_, ?_, hc.covered⟩
  · have hstart : total (fullShare accountId counter) s₀.ledger.nextId s₀.archive = 0 :=
      total_eq_zero fun id _ ↦ weight_of_none (harchive id)
    rw [hc.counters counter, total_pricedShare hs hpriced, htotal counter, hstart, zero_add]
  · obtain ⟨before, hbefore, hafter⟩ := hcount t ht
    rw [hafter, hzero accountId before hbefore, zero_add]

/-- A store that has been backfilled charges what the requests cost. -/
theorem Backfilled.charged {requests : List (NewRequestLog × Instant)} {s : CostSystem}
    (h : Backfilled requests s) {accountId : Uuid} {t : AccountTotals}
    (ht : s.ledger.totals.find accountId = some t) : Charged requests accountId t := by
  obtain ⟨s₀, events, hmigrated, hrows, hcounts, hrun, hpriced⟩ := h
  obtain ⟨hs, harchive, hsame⟩ := backfill_run hmigrated hrun
  have hc := hs.counted accountId t ht
  refine ⟨fun counter ↦ ?_, ?_, hc.covered⟩
  · have hall : ∀ id row, s.archive id = some row → row.cost ≠ none := by
      intro id row hrow
      rw [harchive] at hrow
      exact hpriced id row hrow
    have hweights : total (fullShare accountId counter) s.ledger.nextId s.ledger.logs.find =
        total (fullShare accountId counter) s₀.ledger.nextId s₀.ledger.logs.find := by
      rw [hsame.nextId]
      apply total_congr
      intro id _
      have hcopy := congrArg (fun row ↦ (row.map (fullShare accountId counter)).getD 0)
        (hsame.rows id)
      rw [Option.map_map, Option.map_map] at hcopy
      exact hcopy
    rw [hc.counters counter, total_pricedShare hs hall, harchive, hweights,
      total_legacy _ _ hrows]
  · obtain ⟨before, hbefore, hcount⟩ := hsame.counts accountId t ht
    rw [hcount, hcounts accountId before hbefore, ← total_pending, total_legacy _ _ hrows]

/-- Along every run from a migrated store, an account's counters are the totals over those of its
rows, pruned ones included, that have been given a cost status, and every request is counted under
one status. A store filled by live requests and one that had them as legacy rows and was backfilled
in any batches have equal counters. -/
theorem each_request_priced_once :
    (∀ s₀ events s, Migrated s₀ → Run CostStep s₀ events s →
      (∀ id row, s.ledger.logs.find id = some row → s.archive id = some row) ∧
      ∀ accountId t, s.ledger.totals.find accountId = some t →
        (∀ counter, t.counter counter =
          total (pricedShare accountId counter) s.ledger.nextId s.archive) ∧
        t.apiCostCompleteRequestCount + t.apiCostPartialRequestCount +
          t.apiCostUnpricedRequestCount = t.requestCount) ∧
    ∀ requests live legacy, FilledLive requests live → Backfilled requests legacy →
      ∀ accountId t u, live.ledger.totals.find accountId = some t →
        legacy.ledger.totals.find accountId = some u →
        (∀ counter, t.counter counter = u.counter counter) ∧
          t.requestCount = u.requestCount ∧
          t.apiCostUnpricedRequestCount = u.apiCostUnpricedRequestCount := by
  refine ⟨fun s₀ events s hmigrated hrun ↦ ?_,
    fun requests live legacy hlive hlegacy accountId t u ht hu ↦ ?_⟩
  · have hs := accounted_run hmigrated hrun
    refine ⟨hs.archived, fun accountId t ht ↦ ?_⟩
    exact ⟨(hs.counted accountId t ht).counters, (hs.counted accountId t ht).covered⟩
  · have hcharged := hlive.charged ht
    have hcharged' := hlegacy.charged hu
    have hcounters : ∀ counter, t.counter counter = u.counter counter := by
      intro counter
      rw [hcharged.counters, hcharged'.counters]
    have hrequests : t.requestCount = u.requestCount := by
      rw [hcharged.requests, hcharged'.requests]
    have hcomplete : t.apiCostCompleteRequestCount = u.apiCostCompleteRequestCount :=
      hcounters .completeRequests
    have hpartial : t.apiCostPartialRequestCount = u.apiCostPartialRequestCount :=
      hcounters .partialRequests
    have hcovered := hcharged.covered
    have hcovered' := hcharged'.covered
    exact ⟨hcounters, hrequests, by omega⟩

section Sample

private def sampleRequest : NewRequestLog × Instant :=
  (⟨some 7, some "gpt-5.6-sol", "success", ⟨some 1200, some 11, some 200, none, some 3, none,
    none⟩⟩, 5)

private def sampleTotals (requestCount : Int) : AccountTotals :=
  ⟨requestCount, requestCount, 0, 0, 0, 0, 0, 0, 0, 0, 0, requestCount⟩

private def sampleEmpty : Ledger where
  logs := .empty
  nextId := 1
  totals := Table.empty.insert 7 (sampleTotals 0)
  below := by
    intro id row h
    cases h

private theorem below_sampleLegacy (id : Nat) (row : RequestLogRow)
    (h : (Table.empty.insert 1 (legacyRow sampleRequest)).find id = some row) : id < 2 := by
  rw [Table.find_insert] at h
  split at h
  · next he => omega
  · cases h

private def sampleLegacy : Ledger where
  logs := Table.empty.insert 1 (legacyRow sampleRequest)
  nextId := 2
  totals := Table.empty.insert 7 (sampleTotals 1)
  below := below_sampleLegacy

private theorem migrated_of_rows {ledger : Ledger}
    (hrows : ∀ row ∈ ledger.logs.rows, row.2.cost = none)
    (htotals : ∀ t ∈ ledger.totals.rows, (legacyRows ledger t.1 : Int) ≤ t.2.requestCount ∧
      t.2 = sampleTotals t.2.requestCount) :
    Migrated ⟨ledger, [], ledger.logs.find⟩ := by
  refine ⟨fun id row h ↦ hrows (id, row) (Table.mem_rows_iff.mpr h), fun accountId t h ↦ ?_,
    rfl, rfl⟩
  obtain ⟨hroom, hzero⟩ := htotals (accountId, t) (Table.mem_rows_iff.mpr h)
  dsimp only at hroom hzero
  refine ⟨hroom, by rw [hzero]; rfl, fun counter ↦ ?_⟩
  rw [hzero]
  cases counter <;> rfl

private theorem fits_of_rows {ledger : Ledger} (h : ∀ row ∈ ledger.totals.rows,
    ∀ v ∈ [row.2.requestCount, row.2.successfulRequestCount, row.2.failedRequestCount,
      row.2.inputTokens, row.2.outputTokens, row.2.cachedInputTokens,
      row.2.observedCacheWriteInputTokens, row.2.apiCostLowerNanoUsd, row.2.apiCostUpperNanoUsd,
      row.2.apiCostCompleteRequestCount, row.2.apiCostPartialRequestCount,
      row.2.apiCostUnpricedRequestCount], checkedI64 v = some v) : ledger.FitsI64 :=
  fun id t ht ↦ h (id, t) (Table.mem_rows_iff.mpr ht)

private def sampleCosts : AccountTotals := ⟨1, 1, 0, 0, 0, 200, 0, 5430000, 6680000, 0, 1, 0⟩

/-- The batch of the sample commits and prices its row. -/
private theorem sample_commit : ∃ out,
    commitBatch sampleLegacy (sampleLegacy.selectPending 500) = .ok out ∧
    out.1.totals.rows = [(7, sampleCosts)] ∧
    out.1.logs.rows.map (fun row ↦ row.2.cost.isSome) = [true] := by
  have hend : (commitBatch sampleLegacy (sampleLegacy.selectPending 500)).toOption.map
      (fun out ↦ (out.1.totals.rows, out.1.logs.rows.map fun row ↦ row.2.cost.isSome)) =
        some ([(7, sampleCosts)], [true]) := by decide +kernel
  cases hcommit : commitBatch sampleLegacy (sampleLegacy.selectPending 500) with
  | error e =>
    rw [hcommit] at hend
    cases hend
  | ok out =>
    rw [hcommit] at hend
    have hpair := Option.some.inj hend
    exact ⟨out, rfl, congrArg Prod.fst hpair, congrArg Prod.snd hpair⟩

/-- One request of the account, live and as a legacy row that a batch prices. -/
theorem each_request_priced_once_sample : ∃ live legacy t u,
    FilledLive [sampleRequest] live ∧ Backfilled [sampleRequest] legacy ∧
    live.ledger.totals.find 7 = some t ∧ legacy.ledger.totals.find 7 = some u ∧
    u.apiCostCompleteRequestCount + u.apiCostPartialRequestCount +
      u.apiCostUnpricedRequestCount = u.requestCount ∧
    u.apiCostLowerNanoUsd = 5430000 ∧ t.counter .lowerCost = u.counter .lowerCost := by
  have hempty : Migrated ⟨sampleEmpty, [], sampleEmpty.logs.find⟩ :=
    migrated_of_rows (by decide) (by decide)
  have hlegacy : Migrated ⟨sampleLegacy, [], sampleLegacy.logs.find⟩ :=
    migrated_of_rows (by decide) (by decide)
  have hnone : ∀ row ∈ sampleEmpty.totals.rows, row.2.requestCount = 0 := by decide
  have hone : ∀ row ∈ sampleLegacy.totals.rows,
      row.2.requestCount = legacyRows sampleLegacy row.1 := by decide
  have hlive : FilledLive [sampleRequest] _ :=
    ⟨_, hempty, fun _ ↦ rfl, fun id t h ↦ hnone (id, t) (Table.mem_rows_iff.mpr h),
      .single (.insert _ sampleRequest.1 sampleRequest.2 (fits_of_rows (by decide +kernel)))⟩
  have hlivefind : (sampleEmpty.insertRequestLog sampleRequest.1 sampleRequest.2).totals.find 7 =
    some ((sampleTotals 0).addRequest sampleRequest.1) := rfl
  obtain ⟨out, hcommit, htotals, hcosts⟩ := sample_commit
  have hfits : out.1.FitsI64 := fits_of_rows (by rw [htotals]; decide +kernel)
  have hrun : Run (guarded CostStep fun _ event ↦ event.isBackfill = true)
      ⟨sampleLegacy, [], sampleLegacy.logs.find⟩ [.select 500, .commit _] _ :=
    .cons ⟨rfl, .select _ 500⟩
      (.single ⟨rfl, .commit _ _ out.1 out.2 [] [] rfl hcommit hfits⟩)
  have hfind : out.1.totals.find 7 = some sampleCosts :=
    Table.mem_rows_iff.mp (by rw [htotals]; exact List.mem_singleton_self _)
  have hpriced : ∀ id row, out.1.logs.find id = some row → row.cost ≠ none := by
    intro id row h
    have hmem := List.mem_map_of_mem (f := fun row ↦ row.2.cost.isSome) (Table.mem_rows_iff.mpr h)
    rw [hcosts, List.mem_singleton] at hmem
    exact Option.isSome_iff_ne_none.mp hmem
  have hback : Backfilled [sampleRequest] _ :=
    ⟨_, _, hlegacy, List.Perm.refl _, fun id t h ↦ hone (id, t) (Table.mem_rows_iff.mpr h), hrun,
      hpriced⟩
  have hcounted := each_request_priced_once.1 _ _ _ hlegacy
    (hrun.refine (fun _ ↦ True) (fun _ _ _ _ _ ↦ trivial) (fun _ _ _ _ h ↦ h.2) trivial)
  have hequal := each_request_priced_once.2 _ _ _ hlive hback 7 _ _ hlivefind hfind
  exact ⟨_, _, _, _, hlive, hback, hlivefind, hfind, (hcounted.2 7 _ hfind).2, rfl,
    hequal.1 .lowerCost⟩

end Sample

end CodexLb
