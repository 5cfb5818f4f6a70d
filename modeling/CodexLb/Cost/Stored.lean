import CodexLb.Cost.Accounting
import CodexLb.Cost.Exact
import CodexLb.Db.Accounts
import CodexLb.Relational.Number
import CodexLb.Upstream.Usage

/-!
# Account totals as they are stored

`insert_request_log`, `src/db.rs:2074–2156`, with its transaction and the
numbers that SQLite stores for the totals: an addition that leaves `i64` gives
a `REAL`, which `list_accounts`, `src/db.rs:372–413`, cannot decode. The two
plain token counts are added as the upstream sent them.
-/

namespace CodexLb

open Machine Relational

/-! ### The stored totals -/

/-- The totals in a row of `account_runtime_state`. -/
inductive TotalColumn where
  | requestCount
  | successfulRequestCount
  | failedRequestCount
  | inputTokens
  | outputTokens
  | cachedInputTokens
  | observedCacheWriteInputTokens
  | apiCostLowerNanoUsd
  | apiCostUpperNanoUsd
  | apiCostCompleteRequestCount
  | apiCostPartialRequestCount
  | apiCostUnpricedRequestCount
  deriving DecidableEq

namespace TotalColumn

/-- What the update adds to a column, `src/db.rs:2121–2138`. -/
def added (entry : NewRequestLog) : TotalColumn → Int
  | requestCount => 1
  | successfulRequestCount => countIf (entry.status = "success")
  | failedRequestCount => countIf (entry.status ≠ "success")
  | inputTokens => entry.usage.inputTokens.getD 0
  | outputTokens => entry.usage.outputTokens.getD 0
  | cachedInputTokens => observed entry.usage.cachedInputTokens
  | observedCacheWriteInputTokens => observed entry.usage.cacheWriteInputTokens
  | apiCostLowerNanoUsd => (estimateRequest entry.model entry.usage).lowerNanoUsd.getD 0
  | apiCostUpperNanoUsd => (estimateRequest entry.model entry.usage).upperNanoUsd.getD 0
  | apiCostCompleteRequestCount =>
    countIf ((estimateRequest entry.model entry.usage).status = .complete)
  | apiCostPartialRequestCount =>
    countIf ((estimateRequest entry.model entry.usage).status = .missingCacheWrite)
  | apiCostUnpricedRequestCount =>
    countIf ((estimateRequest entry.model entry.usage).status.isPriced = false)

/-- The columns that `list_accounts` decodes, `src/models.rs:46–55`. -/
def listed : List TotalColumn :=
  [requestCount, inputTokens, cachedInputTokens, observedCacheWriteInputTokens, outputTokens,
    apiCostLowerNanoUsd, apiCostUpperNanoUsd, apiCostCompleteRequestCount,
    apiCostPartialRequestCount, apiCostUnpricedRequestCount]

end TotalColumn

/-- A total by its column. -/
def AccountTotals.column (totals : AccountTotals) : TotalColumn → Int
  | .requestCount => totals.requestCount
  | .successfulRequestCount => totals.successfulRequestCount
  | .failedRequestCount => totals.failedRequestCount
  | .inputTokens => totals.inputTokens
  | .outputTokens => totals.outputTokens
  | .cachedInputTokens => totals.cachedInputTokens
  | .observedCacheWriteInputTokens => totals.observedCacheWriteInputTokens
  | .apiCostLowerNanoUsd => totals.apiCostLowerNanoUsd
  | .apiCostUpperNanoUsd => totals.apiCostUpperNanoUsd
  | .apiCostCompleteRequestCount => totals.apiCostCompleteRequestCount
  | .apiCostPartialRequestCount => totals.apiCostPartialRequestCount
  | .apiCostUnpricedRequestCount => totals.apiCostUnpricedRequestCount

/-- The update of the totals adds to each column what belongs to it. -/
theorem AccountTotals.column_addRequest (totals : AccountTotals) (entry : NewRequestLog)
    (column : TotalColumn) :
    (totals.addRequest entry).column column = totals.column column + column.added entry := by
  cases column <;> rfl

/-- In a ledger of `i64` totals every column is one. -/
theorem Ledger.FitsI64.column {ledger : Ledger} (h : ledger.FitsI64)
    {accountId : Uuid} {totals : AccountTotals} (hfind : ledger.totals.find accountId = some totals)
    (column : TotalColumn) : Fits 64 (totals.column column) := by
  have hmem := h accountId totals hfind (totals.column column)
  have hfits : checkedI64 (totals.column column) = some (totals.column column) := by
    cases column <;> exact hmem (by simp [AccountTotals.column])
  rw [checkedI64_eq] at hfits
  exact (checked_eq_some_iff.mp hfits).2

/-- The totals of an account as they are stored. -/
abbrev StoredTotals (ρ : Type) := TotalColumn → Number ρ

/-- The tables that an insert writes, and the accounts that a log row may refer to. -/
structure StoredLedger (ρ : Type) where
  accounts : List Uuid
  logs : Table Nat RequestLogRow
  nextId : Nat
  totals : Table Uuid (StoredTotals ρ)

/-- A call of `insert_request_log`: when it commits, and the error of the database if it has one. -/
structure InsertCall where
  entry : NewRequestLog
  now : Instant
  fault : Option AppError

namespace StoredLedger

section Insert

variable {ρ : Type} [RealSums ρ]

/-- The two statements of an insert. -/
def addRequest (s : StoredLedger ρ) (entry : NewRequestLog) (now : Instant) : StoredLedger ρ :=
  { s with
    logs := s.logs.insert s.nextId (Ledger.newRow entry now)
    nextId := s.nextId + 1
    totals := s.totals.update (fun id _ ↦ entry.accountId = some id)
      fun totals column ↦ (totals column).plus (column.added entry) }

/-- `insert_request_log`, `src/db.rs:2074–2156`. An error rolls the transaction back. -/
def insertRequestLog (s : StoredLedger ρ) (call : InsertCall) :
    Except AppError Unit × StoredLedger ρ :=
  match call.fault with
  | some error => (.error error, s)
  | none =>
    if call.entry.accountId.all s.accounts.contains then
      (.ok (), s.addRequest call.entry call.now)
    else (.error foreignKeyError, s)

/-- The tables after some calls. -/
def insertAll (s : StoredLedger ρ) (calls : List InsertCall) : StoredLedger ρ :=
  calls.foldl (fun s call ↦ (s.insertRequestLog call).2) s

end Insert

/-- The totals that `list_accounts` decodes, `src/db.rs:372–413`. -/
def listTotals {ρ : Type} (s : StoredLedger ρ) : Option (List (Uuid × List Int)) :=
  s.totals.rows.mapM fun row ↦
    (TotalColumn.listed.mapM fun column ↦ (row.2 column).toInteger).map (Prod.mk row.1)

end StoredLedger
/-! ### What is added -/

section Added

variable {rates : TokenRates} {input cachedInput cacheWriteInput output cost : Int}
  {longContext : Bool}

/-- The price of a request is not negative. -/
theorem wholeCost_nonneg (hrates : rates.Sound) (hinput : 0 ≤ input) (hcached : 0 ≤ cachedInput)
    (hwrite : 0 ≤ cacheWriteInput) (houtput : 0 ≤ output) :
    0 ≤ wholeCost rates input cachedInput cacheWriteInput output longContext := by
  have hone : (0 : Int) ≤ 1 := by decide
  have htwo : (0 : Int) ≤ 2 := by decide
  have hcategories : ∀ multiplier : Int, 0 ≤ multiplier →
      0 ≤ categoryCost input rates.input multiplier 1 +
        categoryCost cachedInput rates.cachedInput multiplier 1 +
        categoryCost cacheWriteInput rates.cacheWriteInput multiplier 1 := by
    intro multiplier hmultiplier
    have h₁ := categoryCost_nonneg hinput hrates.input.1 hmultiplier hone
    have h₂ := categoryCost_nonneg hcached hrates.cachedInput.1 hmultiplier hone
    have h₃ := categoryCost_nonneg hwrite hrates.cacheWriteInput.1 hmultiplier hone
    omega
  have hplain := categoryCost_nonneg houtput hrates.output.1 hone hone
  have hlong : 0 ≤ categoryCost output rates.output 3 2 :=
    categoryCost_nonneg houtput hrates.output.1 (by decide) htwo
  unfold wholeCost
  cases longContext with
  | true => exact Int.add_nonneg (hcategories 2 htwo) hlong
  | false => exact Int.add_nonneg (hcategories 1 hone) hplain

/-- No cost is negative. -/
theorem calculateCost_nonneg (hrates : rates.Sound) (hinput : 0 ≤ input)
    (hcached : 0 ≤ cachedInput) (hwrite : 0 ≤ cacheWriteInput) (houtput : 0 ≤ output)
    (h : calculateCost rates input cachedInput cacheWriteInput output longContext = some cost) :
    0 ≤ cost := by
  obtain ⟨rfl, -⟩ := (calculateCost_eq_some_iff hrates hinput hcached hwrite houtput).mp h
  exact wholeCost_nonneg hrates hinput hcached hwrite houtput

/-- No bound of an estimate is negative. -/
def BoundsNonneg (estimate : ApiCostEstimate) : Prop :=
  0 ≤ estimate.lowerNanoUsd.getD 0 ∧ 0 ≤ estimate.upperNanoUsd.getD 0

private theorem boundsNonneg_unpriced (status : ApiCostStatus) :
    BoundsNonneg (.unpriced status) :=
  ⟨Int.le_refl 0, Int.le_refl 0⟩

private theorem boundsNonneg_cacheWrite (hrates : rates.Sound) (hcached : 0 ≤ cachedInput)
    (houtput : 0 ≤ output) : BoundsNonneg
      (estimateCacheWrite rates input cachedInput cacheWriteInput output longContext) := by
  unfold estimateCacheWrite
  split
  · exact boundsNonneg_unpriced _
  · next haccepted =>
    simp only [not_or, Int.not_lt] at haccepted
    have hroom : cachedInput + cacheWriteInput ≤ input := by
      have haccounted := haccepted.2
      unfold checkedI64 at haccounted
      split at haccounted
      · simpa using haccounted
      · simp at haccounted
    split
    · next hcost =>
      have hnonneg := calculateCost_nonneg hrates (by omega) hcached haccepted.1 houtput hcost
      exact ⟨hnonneg, hnonneg⟩
    · exact boundsNonneg_unpriced _

private theorem boundsNonneg_missingCacheWrite (hrates : rates.Sound) (hcached : 0 ≤ cachedInput)
    (hle : cachedInput ≤ input) (houtput : 0 ≤ output) : BoundsNonneg
      (estimateMissingCacheWrite rates input cachedInput output longContext) := by
  unfold estimateMissingCacheWrite
  dsimp only
  split
  · next hlower hupper =>
    have hrest : 0 ≤ input - cachedInput := by omega
    constructor
    · exact calculateCost_nonneg hrates hrest hcached (Int.le_refl 0) houtput hlower
    · exact calculateCost_nonneg hrates (Int.le_refl 0) hcached hrest houtput hupper
  · exact boundsNonneg_unpriced _

/-- The estimate for a request has no negative bound. -/
theorem estimateStandardApiCost_bounds (effectiveModel : Option String) (usage : UsageData) :
    BoundsNonneg (estimateStandardApiCost effectiveModel usage) := by
  unfold estimateStandardApiCost
  split
  · exact boundsNonneg_unpriced _
  · next rates hrates =>
    obtain ⟨model, -, hcard⟩ := Option.bind_eq_some_iff.mp hrates
    have hsound := tokenRates_sound hcard
    split
    · split
      · exact boundsNonneg_unpriced _
      · next hvalid =>
        simp only [not_or, Int.not_lt] at hvalid
        obtain ⟨-, houtput, hcached, hle⟩ := hvalid
        dsimp only
        split
        · split
          · exact boundsNonneg_unpriced _
          · exact boundsNonneg_cacheWrite hsound hcached houtput
        · split
          · exact boundsNonneg_cacheWrite hsound hcached houtput
          · exact boundsNonneg_missingCacheWrite hsound hcached hle houtput
    · exact boundsNonneg_unpriced _

/-- The token counts that are added as they came are not negative. -/
structure UsageData.PlainCountsNonneg (usage : UsageData) : Prop where
  input : ∀ n, usage.inputTokens = some n → 0 ≤ n
  output : ∀ n, usage.outputTokens = some n → 0 ≤ n

/-- A count that may be absent is not negative, as zero or by itself. -/
private theorem getD_nonneg_iff {count : Option Int} :
    0 ≤ count.getD 0 ↔ ∀ n, count = some n → 0 ≤ n := by
  cases count <;> simp

/-- An insert takes nothing away from any column unless one of the plain counts is negative. -/
theorem added_nonneg_iff (entry : NewRequestLog) :
    (∀ column : TotalColumn, 0 ≤ column.added entry) ↔ entry.usage.PlainCountsNonneg := by
  constructor
  · intro h
    exact ⟨getD_nonneg_iff.mp (h .inputTokens), getD_nonneg_iff.mp (h .outputTokens)⟩
  · intro h column
    have hcount : ∀ (p : Prop) [Decidable p], 0 ≤ countIf p := by
      intro p _
      unfold countIf
      split <;> decide
    have hbounds : BoundsNonneg (estimateRequest entry.model entry.usage) :=
      estimateStandardApiCost_bounds _ _
    cases column with
    | requestCount => exact Int.one_nonneg
    | inputTokens => exact getD_nonneg_iff.mpr h.input
    | outputTokens => exact getD_nonneg_iff.mpr h.output
    | cachedInputTokens => exact Int.le_max_right _ _
    | observedCacheWriteInputTokens => exact Int.le_max_right _ _
    | apiCostLowerNanoUsd => exact hbounds.1
    | apiCostUpperNanoUsd => exact hbounds.2
    | successfulRequestCount => exact hcount _
    | failedRequestCount => exact hcount _
    | apiCostCompleteRequestCount => exact hcount _
    | apiCostPartialRequestCount => exact hcount _
    | apiCostUnpricedRequestCount => exact hcount _

end Added

/-! ### Totals that can be read and only grow -/

namespace StoredLedger

variable {ρ : Type} {s t : StoredLedger ρ}

/-- Every total is an integer. -/
def Readable (s : StoredLedger ρ) : Prop :=
  ∀ accountId totals, s.totals.find accountId = some totals →
    ∀ column, ∃ n, (totals column).toInteger = some n

/-- No total of an account is smaller in the second tables, and all of them are integers. -/
def Grows (s t : StoredLedger ρ) : Prop :=
  ∀ accountId old, s.totals.find accountId = some old →
    ∃ new, t.totals.find accountId = some new ∧ ∀ column, ∃ a b,
      (old column).toInteger = some a ∧ (new column).toInteger = some b ∧ a ≤ b

/-- Totals that can be read do not shrink by themselves. -/
theorem Readable.grows_self (hs : s.Readable) : Grows s s := by
  intro accountId old hold
  refine ⟨old, hold, fun column ↦ ?_⟩
  obtain ⟨n, hn⟩ := hs accountId old hold column
  exact ⟨n, n, hn, hn, Int.le_refl n⟩

/-- What `list_accounts` decodes is there when every total is an integer. -/
theorem Readable.listTotals_isSome (hs : s.Readable) : s.listTotals.isSome = true := by
  have hmapM : ∀ {α β : Type} (f : α → Option β) (items : List α),
      (∀ item ∈ items, (f item).isSome = true) → (items.mapM f).isSome = true := by
    intro α β f items hall
    induction items with
    | nil => rfl
    | cons item items ih =>
      rw [List.forall_mem_cons] at hall
      obtain ⟨value, hvalue⟩ := Option.isSome_iff_exists.mp hall.1
      obtain ⟨values, hvalues⟩ := Option.isSome_iff_exists.mp (ih hall.2)
      simp [List.mapM_cons, hvalue, hvalues]
  apply hmapM
  intro row hrow
  rw [Option.isSome_map]
  apply hmapM
  intro column _
  obtain ⟨n, hn⟩ := hs row.1 row.2 (Table.mem_rows_iff.mp hrow) column
  rw [hn]
  rfl

variable [RealSums ρ]

/-- The claim of one insert: it is rejected and leaves the tables as they are, or no total shrinks
and all can be read. -/
def KeepsTotals (s : StoredLedger ρ) (call : InsertCall) : Prop :=
  (∃ error, (s.insertRequestLog call).1 = .error error) ∧ (s.insertRequestLog call).2 = s ∨
    Grows s (s.insertRequestLog call).2

/-- The plain counts of a request are not negative, and every total has room for what it adds, if
the request is logged for an account with totals. -/
def HasRoom (s : StoredLedger ρ) (call : InsertCall) : Prop :=
  call.fault = none → ∀ accountId totals, call.entry.accountId = some accountId →
    accountId ∈ s.accounts → s.totals.find accountId = some totals →
      call.entry.usage.PlainCountsNonneg ∧ ∀ column n, (totals column).toInteger = some n →
        n + column.added call.entry < 2 ^ 63

/-- The totals after the two statements. -/
theorem find_addRequest (entry : NewRequestLog) (now : Instant) (accountId : Uuid) :
    (s.addRequest entry now).totals.find accountId = (s.totals.find accountId).map fun totals ↦
      if entry.accountId = some accountId then
        fun column ↦ (totals column).plus (column.added entry)
      else totals := by
  simp only [addRequest, Table.find_update, decide_eq_true_eq]

/-- An insert that is not rejected runs its two statements. -/
theorem insertRequestLog_cases (s : StoredLedger ρ) (call : InsertCall) :
    (∃ error, s.insertRequestLog call = (.error error, s) ∧
      (call.fault = none → ∃ accountId, call.entry.accountId = some accountId ∧
        accountId ∉ s.accounts)) ∨
    s.insertRequestLog call = (.ok (), s.addRequest call.entry call.now) ∧ call.fault = none ∧
      ∀ accountId, call.entry.accountId = some accountId → accountId ∈ s.accounts := by
  unfold insertRequestLog
  cases hfault : call.fault with
  | some error => exact .inl ⟨error, rfl, by simp⟩
  | none =>
    cases haccount : call.entry.accountId with
    | none => exact .inr ⟨rfl, rfl, by simp⟩
    | some accountId =>
      by_cases hparent : accountId ∈ s.accounts
      · exact .inr (by simp [hparent])
      · exact .inl ⟨foreignKeyError, by simp [hparent]⟩

/-- Every account has its totals after an insert that it had before. -/
theorem exists_find_before {call : InsertCall} {accountId : Uuid} {new : StoredTotals ρ}
    (h : (s.insertRequestLog call).2.totals.find accountId = some new) :
    ∃ old, s.totals.find accountId = some old := by
  rcases s.insertRequestLog_cases call with ⟨error, hinsert, -⟩ | ⟨hinsert, -, -⟩
  · rw [hinsert] at h
    exact ⟨new, h⟩
  · rw [hinsert, find_addRequest, Option.map_eq_some_iff] at h
    obtain ⟨old, hold, -⟩ := h
    exact ⟨old, hold⟩

/-- The two statements keep an account's totals growing if there is room for what they add. -/
theorem grows_addRequest_iff (hs : s.Readable) (entry : NewRequestLog) (now : Instant) :
    Grows s (s.addRequest entry now) ↔
      ∀ accountId totals, entry.accountId = some accountId → s.totals.find accountId = some totals →
        ∀ column n, (totals column).toInteger = some n →
          0 ≤ column.added entry ∧ n + column.added entry < 2 ^ 63 := by
  constructor
  · intro h accountId totals haccount hfind column n hn
    obtain ⟨new, hnew, hcolumns⟩ := h accountId totals hfind
    rw [find_addRequest, hfind, Option.map_some, if_pos haccount] at hnew
    cases hnew
    obtain ⟨a, b, ha, hb, hle⟩ := hcolumns column
    have hsame : a = n := Option.some.inj (ha.symm.trans hn)
    exact (Number.grows_iff hn).mp ⟨b, hb, hsame ▸ hle⟩
  · intro h accountId old hold
    rw [find_addRequest, hold, Option.map_some]
    split
    · next haccount =>
      refine ⟨_, rfl, fun column ↦ ?_⟩
      obtain ⟨n, hn⟩ := hs accountId old hold column
      obtain ⟨v, hv, hle⟩ := (Number.grows_iff hn).mpr (h accountId old haccount hold column n hn)
      exact ⟨n, v, hn, hv, hle⟩
    · have hself := hs.grows_self accountId old hold
      rw [hold] at hself
      exact hself

/-- One insert keeps its claim exactly where there is room. -/
theorem keepsTotals_iff (hs : s.Readable) (call : InsertCall) :
    s.KeepsTotals call ↔ s.HasRoom call := by
  rcases s.insertRequestLog_cases call with ⟨error, hinsert, hparent⟩ | ⟨hinsert, hfault, hparent⟩
  · apply iff_of_true
    · rw [KeepsTotals, hinsert]
      exact .inl ⟨⟨error, rfl⟩, rfl⟩
    · intro hfault accountId totals haccount hmem
      obtain ⟨missing, hmissing, hnot⟩ := hparent hfault
      rw [haccount] at hmissing
      cases hmissing
      exact absurd hmem hnot
  · have hkeeps : s.KeepsTotals call ↔ Grows s (s.addRequest call.entry call.now) := by
      rw [KeepsTotals, hinsert]
      simp
    rw [hkeeps, grows_addRequest_iff hs]
    constructor
    · intro h _ accountId totals haccount _ hfind
      constructor
      · apply (added_nonneg_iff call.entry).mp
        intro column
        obtain ⟨n, hn⟩ := hs accountId totals hfind column
        exact (h accountId totals haccount hfind column n hn).1
      · intro column n hn
        exact (h accountId totals haccount hfind column n hn).2
    · intro h accountId totals haccount hfind column n hn
      obtain ⟨hplain, hroom⟩ :=
        h hfault accountId totals haccount (hparent accountId haccount) hfind
      exact ⟨(added_nonneg_iff call.entry).mpr hplain column, hroom column n hn⟩

/-- An insert that keeps its claim leaves totals that can be read. -/
theorem KeepsTotals.readable (hs : s.Readable) {call : InsertCall} (h : s.KeepsTotals call) :
    (s.insertRequestLog call).2.Readable := by
  rcases h with ⟨-, hsame⟩ | hgrows
  · rw [hsame]
    exact hs
  · intro accountId new hnew column
    obtain ⟨old, hold⟩ := exists_find_before hnew
    obtain ⟨grown, hgrown, hcolumns⟩ := hgrows accountId old hold
    rw [hnew] at hgrown
    cases hgrown
    obtain ⟨-, b, -, hb, -⟩ := hcolumns column
    exact ⟨b, hb⟩

/-! ### Sequences of inserts -/

/-- Some property of every insert of a sequence and the tables that it meets. -/
def EachInsert (property : StoredLedger ρ → InsertCall → Prop) (s : StoredLedger ρ)
    (calls : List InsertCall) : Prop :=
  ∀ before call after, calls = before ++ call :: after → property (s.insertAll before) call

/-- A property of every insert is one of the first and of every other. -/
theorem eachInsert_cons {property : StoredLedger ρ → InsertCall → Prop} {call : InsertCall}
    {calls : List InsertCall} : EachInsert property s (call :: calls) ↔
      property s call ∧ EachInsert property (s.insertRequestLog call).2 calls := by
  constructor
  · intro h
    constructor
    · exact h [] call calls rfl
    · rintro before next after rfl
      exact h (call :: before) next after rfl
  · rintro ⟨hfirst, hrest⟩ before next after heq
    cases before with
    | nil =>
      cases heq
      exact hfirst
    | cons first before =>
      cases heq
      exact hrest before next after rfl

/-- Inserts that keep their claim leave totals that can be read. -/
theorem readable_insertAll (hs : s.Readable) {calls : List InsertCall}
    (h : EachInsert KeepsTotals s calls) : (s.insertAll calls).Readable := by
  induction calls generalizing s with
  | nil => exact hs
  | cons call calls ih =>
    rw [eachInsert_cons] at h
    exact ih (h.1.readable hs) h.2

/-- After inserts that keep their claim `list_accounts` can decode every total. -/
theorem listTotals_insertAll (hs : s.Readable) {calls : List InsertCall}
    (h : EachInsert KeepsTotals s calls) : (s.insertAll calls).listTotals.isSome = true :=
  (readable_insertAll hs h).listTotals_isSome

/-! ### The ledger of whole numbers -/

/-- The stored tables are those of the ledger, and every total is stored as the integer it is. -/
structure Stores (s : StoredLedger ρ) (ledger : Ledger) : Prop where
  logs : s.logs = ledger.logs
  nextId : s.nextId = ledger.nextId
  totals : ∀ accountId column,
    ((s.totals.find accountId).map fun totals ↦ (totals column).toInteger) =
      (ledger.totals.find accountId).map fun totals ↦ some (totals.column column)

/-- An insert stores what the ledger computes, as long as no total overflows. -/
theorem Stores.addRequest {ledger : Ledger} (h : s.Stores ledger) (entry : NewRequestLog)
    (now : Instant) (hfits : (ledger.insertRequestLog entry now).FitsI64) :
    (s.addRequest entry now).Stores (ledger.insertRequestLog entry now) := by
  constructor
  · rw [StoredLedger.addRequest, h.logs, h.nextId]
    rfl
  · rw [StoredLedger.addRequest, h.nextId]
    rfl
  · intro accountId column
    have hcolumn := h.totals accountId column
    have hfind : (ledger.insertRequestLog entry now).totals.find accountId =
        (ledger.totals.find accountId).map fun totals ↦
          if entry.accountId = some accountId then totals.addRequest entry else totals := by
      simp only [Ledger.insertRequestLog, Table.find_update, decide_eq_true_eq]
    rw [find_addRequest]
    cases hold : ledger.totals.find accountId with
    | none =>
      rw [hold, Option.map_none, Option.map_eq_none_iff] at hcolumn
      rw [hfind, hold, hcolumn]
      rfl
    | some old =>
      rw [hold, Option.map_some, Option.map_eq_some_iff] at hcolumn
      obtain ⟨totals, htotals, hinteger⟩ := hcolumn
      rw [hold, Option.map_some] at hfind
      have hnew := hfits.column hfind column
      rw [hfind, htotals, Option.map_some, Option.map_some, Option.map_some]
      split
      · next haccount =>
        rw [if_pos haccount, AccountTotals.column_addRequest] at hnew
        rw [AccountTotals.column_addRequest, (Number.toInteger_plus_iff hinteger).mpr ⟨rfl, hnew⟩]
      · rw [hinteger]

end StoredLedger

open StoredLedger in
/-- **When account totals only grow.** In a sequence of inserts, each one is rejected without a
trace or leaves totals that can be read and none of which is smaller, exactly if each one meets
tables with room for what it adds and no negative plain count. -/
theorem totals_grow_iff {ρ : Type} [RealSums ρ] (s : StoredLedger ρ) (hs : s.Readable)
    (calls : List InsertCall) : EachInsert KeepsTotals s calls ↔ EachInsert HasRoom s calls := by
  induction calls generalizing s with
  | nil => simp [EachInsert]
  | cons call calls ih =>
    rw [eachInsert_cons, eachInsert_cons, ← keepsTotals_iff hs]
    apply and_congr_right
    intro hkeeps
    exact ih _ (hkeeps.readable hs)

section Sample

/-- Reals that are whole, and stored as integers where they are such. -/
@[reducible] def wholeReals : RealSums Int where
  overflowed a b := a + b
  plus a b := if h : Fits 64 (a + b) then .integer (a + b) h else .real (a + b)

/-- A store with one account and no requests. -/
def freshTotals : StoredLedger Int where
  accounts := [1]
  logs := .empty
  nextId := 1
  totals := Table.empty.insert 1 fun _ ↦ .integer 0 (by decide)

/-- A request whose usage the upstream reports with some input count. -/
def reportedRequest (inputTokens : JsonNumber) : InsertCall where
  entry :=
    { accountId := some 1
      model := some "gpt-5.6-sol"
      status := "success"
      usage := extractUsageFromJson
        (.object [("usage", .object [("input_tokens", .number inputTokens),
          ("output_tokens", .number (.posInt 11))])]) }
  now := 1000
  fault := none

/-- The totals of the store are integers. -/
theorem freshTotals_readable : freshTotals.Readable := by
  intro accountId totals hfind column
  have hzero : totals = fun _ ↦ .integer 0 (by decide) := by
    rw [freshTotals, Table.find_insert, Table.find_empty] at hfind
    split at hfind
    · exact (Option.some.inj hfind).symm
    · cases hfind
  exact ⟨0, by rw [hzero]; rfl⟩

/-- Two requests with counts that are not negative. -/
theorem totals_grow_iff_plain : let _ := wholeReals
    StoredLedger.EachInsert StoredLedger.KeepsTotals freshTotals
      [reportedRequest (.posInt 1200), reportedRequest (.posInt 40)] ↔
    StoredLedger.EachInsert StoredLedger.HasRoom freshTotals
      [reportedRequest (.posInt 1200), reportedRequest (.posInt 40)] := by
  intro _
  exact totals_grow_iff freshTotals freshTotals_readable _

/-- A negative input count of the upstream takes tokens away from an account's total. -/
theorem negative_count_shrinks_total : let _ := wholeReals
    ¬∀ s : StoredLedger Int, s.Readable → ∀ calls,
      StoredLedger.EachInsert StoredLedger.KeepsTotals s calls := by
  intro _ h
  have hkeeps := h freshTotals freshTotals_readable [reportedRequest (.negInt (-5))]
    [] (reportedRequest (.negInt (-5))) [] rfl
  have hroom := (StoredLedger.keepsTotals_iff freshTotals_readable _).mp hkeeps
  obtain ⟨hplain, -⟩ := hroom rfl 1 _ rfl (by decide) rfl
  have hnonneg := hplain.input (-5) (by decide +kernel)
  omega

/-- Two counts at the upper limit leave a total that cannot be listed. -/
example : let _ := wholeReals
    (freshTotals.insertAll [reportedRequest (.posInt 9223372036854775807),
      reportedRequest (.posInt 9223372036854775807)]).listTotals = none := by
  decide +kernel

end Sample

end CodexLb
