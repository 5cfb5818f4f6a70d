import CodexLb.Cost.Accounting
import CodexLb.Machine.Outcome
import Mathlib.Data.Finset.Card

/-!
# The backfill ends

`backfill_api_costs`, `src/db.rs:199–215`, beside other backfillers, the pruner
and live requests. The rank of a call is twice the number of rows that are
pending or selected by it. A batch may find all its rows priced by others, but
none of them is pending after it, so the rank goes down in every round. The
totals of accounts are integers here; SQLite keeps a sum that is no `i64` as a
`REAL` and goes on.
-/

namespace CodexLb

open Machine (FailsOnly failsOnly_foldlM failsOnly_ok)
open Relational
open Transition (Run)

/-! ### Pending rows -/

namespace Ledger

/-- The keys of the rows without a cost status. -/
def pending (ledger : Ledger) : Finset Nat :=
  ((ledger.logs.select fun _ row ↦ row.cost.isNone).map Prod.fst).toFinset

variable {ledger : Ledger} {id : Nat}

/-- A row is pending while its cost status is `NULL`. -/
theorem mem_pending : id ∈ ledger.pending ↔
    ∃ row, ledger.logs.find id = some row ∧ row.cost = none := by
  simp only [pending, List.mem_toFinset, List.mem_map, Prod.exists, exists_and_right,
    exists_eq_right, Table.mem_select_iff, Option.isNone_iff_eq_none]

/-- A selected row is stored and pending. -/
theorem mem_selectPending {batchSize : Int} {row : Nat × RequestLogRow}
    (h : row ∈ ledger.selectPending batchSize) :
    ledger.logs.find row.1 = some row.2 ∧ row.2.cost = none := by
  have hselected := List.mem_of_mem_take h
  rw [List.mem_insertionSort] at hselected
  obtain ⟨hfind, hpending⟩ := Table.mem_select_iff.mp hselected
  exact ⟨hfind, Option.isNone_iff_eq_none.mp hpending⟩

/-- A batch is empty only when no row is pending. -/
theorem selectPending_eq_nil_iff {batchSize : Int} :
    ledger.selectPending batchSize = [] ↔ ledger.pending = ∅ := by
  have hroom : (max 1 (min batchSize apiCostBackfillBatchSize)).toNat ≠ 0 := by omega
  rw [selectPending, List.take_eq_nil_iff, or_iff_right hroom, pending, List.toFinset_eq_empty_iff,
    List.map_eq_nil_iff, ← List.length_eq_zero_iff, List.length_insertionSort,
    List.length_eq_zero_iff]

/-- Pricing a pending row settles it and no other. -/
theorem pending_price (cost : ApiCostEstimate) (h : id ∈ ledger.pending) :
    (ledger.price id cost).pending = ledger.pending.erase id := by
  obtain ⟨live, hlive, hcost⟩ := mem_pending.mp h
  ext k
  rw [Finset.mem_erase, mem_pending, find_price cost hlive hcost]
  by_cases hk : k = id
  · simp [hk]
  · rw [if_neg hk, mem_pending]
    exact ⟨fun hrow ↦ ⟨hk, hrow⟩, And.right⟩

/-- Tables in which every pending row was stored as it is before. -/
structure Settles (before after : Ledger) : Prop where
  kept : ∀ id row, after.logs.find id = some row → row.cost = none →
    before.logs.find id = some row
  keys : before.nextId ≤ after.nextId

namespace Settles

variable {before after later : Ledger}

theorem refl (ledger : Ledger) : Settles ledger ledger := ⟨fun _ _ h _ ↦ h, Nat.le_refl _⟩

theorem trans (h : Settles before after) (k : Settles after later) : Settles before later :=
  ⟨fun id row hrow hcost ↦ h.kept id row (k.kept id row hrow hcost) hcost, h.keys.trans k.keys⟩

/-- No other row is pending. -/
theorem pending_subset (h : Settles before after) : after.pending ⊆ before.pending := by
  intro id hid
  obtain ⟨row, hrow, hcost⟩ := mem_pending.mp hid
  exact mem_pending.mpr ⟨row, h.kept id row hrow hcost, hcost⟩

/-- Selected rows stay current. -/
theorem current {rows : List (Nat × RequestLogRow)} (h : Settles before after)
    (hrows : before.Current rows) : after.Current rows :=
  fun row hrow live hlive hcost ↦ hrows row hrow live (h.kept row.1 live hlive hcost) hcost

/-- Pricing a row settles it at most. -/
theorem price (ledger : Ledger) (id : Nat) (cost : ApiCostEstimate) :
    Settles ledger (ledger.price id cost) := by
  refine ⟨fun k row hrow hcost ↦ ?_, Nat.le_refl _⟩
  rw [Ledger.price, Table.find_update, Option.map_eq_some_iff] at hrow
  obtain ⟨old, hold, hnew⟩ := hrow
  split at hnew
  · rw [← hnew] at hcost
    cases hcost
  · rw [hold, hnew]

/-- A live request is priced when it is logged. -/
theorem insertRequestLog (ledger : Ledger) (entry : NewRequestLog) (now : Instant) :
    Settles ledger (ledger.insertRequestLog entry now) := by
  refine ⟨fun id row hrow hcost ↦ ?_, Nat.le_succ _⟩
  rw [find_insertRequestLog] at hrow
  split at hrow
  · cases hrow
    cases hcost
  · exact hrow

/-- Pruning leaves rows as they are. -/
theorem pruneRequestLogs (ledger : Ledger) (cutoff : Instant) :
    Settles ledger (ledger.pruneRequestLogs cutoff) := by
  refine ⟨fun id row hrow _ ↦ ?_, Nat.le_refl _⟩
  rw [Ledger.pruneRequestLogs, Table.find_delete] at hrow
  exact Option.eq_some_of_filter_eq_some hrow

end Settles

end Ledger

/-! ### A batch -/

section Batch

variable {ledger after : Ledger} {rows : List (Nat × RequestLogRow)} {updated : Nat}

/-- A row of a batch is settled afterwards, and counted if the batch has settled it. -/
theorem pending_backfillRow {tx next : BackfillTx} {row : Nat × RequestLogRow}
    (h : backfillRow tx row = .ok next) :
    next.ledger.pending = tx.ledger.pending.erase row.1 ∧
      next.updated + next.ledger.pending.card = tx.updated + tx.ledger.pending.card := by
  have hguard : ((tx.ledger.logs.find row.1).filter fun stored ↦ stored.cost = none).isSome = true ↔
      row.1 ∈ tx.ledger.pending := by
    rw [Option.isSome_iff_exists, Ledger.mem_pending]
    simp only [Option.filter_eq_some_iff, decide_eq_true_eq]
  unfold backfillRow at h
  dsimp only at h
  by_cases hpending : row.1 ∈ tx.ledger.pending
  · rw [if_pos (hguard.mpr hpending)] at h
    have hprice := Ledger.pending_price (estimateRequest row.2.model row.2.usage) hpending
    have hcard := Finset.card_erase_add_one hpending
    rw [← hprice] at hcard
    cases haccount : row.2.accountId with
    | none =>
      rw [haccount] at h
      cases h
      refine ⟨hprice, ?_⟩
      dsimp only
      omega
    | some accountId =>
      rw [haccount] at h
      obtain ⟨delta, -, h⟩ := bind_eq_ok.mp h
      cases h
      refine ⟨hprice, ?_⟩
      dsimp only
      omega
  · rw [if_neg (mt hguard.mp hpending)] at h
    cases h
    rw [Finset.erase_eq_of_notMem hpending]
    exact ⟨rfl, rfl⟩

/-- The rows of a batch are settled afterwards. -/
theorem pending_foldlM {tx next : BackfillTx} (h : rows.foldlM backfillRow tx = .ok next) :
    next.ledger.pending = tx.ledger.pending \ (rows.map Prod.fst).toFinset ∧
      next.updated + next.ledger.pending.card = tx.updated + tx.ledger.pending.card := by
  induction rows generalizing tx with
  | nil =>
    cases h
    simp
  | cons row rows ih =>
    rw [List.foldlM_cons] at h
    obtain ⟨tx', hrow, h⟩ := bind_eq_ok.mp h
    have hfirst := pending_backfillRow hrow
    have hrest := ih h
    refine ⟨?_, hrest.2.trans hfirst.2⟩
    rw [hrest.1, hfirst.1]
    ext id
    simp only [Finset.mem_sdiff, Finset.mem_erase, List.mem_toFinset, List.map_cons, List.mem_cons]
    tauto

private theorem settles_backfillRow {tx next : BackfillTx} {row : Nat × RequestLogRow}
    (h : backfillRow tx row = .ok next) :
    tx.ledger.Settles next.ledger ∧ next.ledger.nextId = tx.ledger.nextId := by
  unfold backfillRow at h
  dsimp only at h
  split at h
  · cases haccount : row.2.accountId with
    | none =>
      rw [haccount] at h
      cases h
      exact ⟨.price _ _ _, rfl⟩
    | some accountId =>
      rw [haccount] at h
      obtain ⟨delta, -, h⟩ := bind_eq_ok.mp h
      cases h
      exact ⟨.price _ _ _, rfl⟩
  · cases h
    exact ⟨.refl _, rfl⟩

private theorem settles_foldlM {tx next : BackfillTx} (h : rows.foldlM backfillRow tx = .ok next) :
    tx.ledger.Settles next.ledger ∧ next.ledger.nextId = tx.ledger.nextId := by
  induction rows generalizing tx with
  | nil =>
    cases h
    exact ⟨.refl _, rfl⟩
  | cons row rows ih =>
    rw [List.foldlM_cons] at h
    obtain ⟨tx', hrow, h⟩ := bind_eq_ok.mp h
    have hfirst := settles_backfillRow hrow
    have hrest := ih h
    exact ⟨hfirst.1.trans hrest.1, hrest.2.trans hfirst.2⟩

/-- Whatever the rows of a batch are, it settles them at most. -/
theorem settles_commitBatch (h : commitBatch ledger rows = .ok (after, updated)) :
    ledger.Settles after ∧ after.nextId = ledger.nextId := by
  obtain ⟨tx, hfold, hcommit⟩ := bind_eq_ok.mp h
  cases hcommit
  obtain ⟨hsettles, hkeys⟩ := settles_foldlM hfold
  exact ⟨⟨hsettles.kept, hsettles.keys⟩, hkeys⟩

/-- A committed batch has settled its rows and counted those that it settled. -/
theorem pending_commitBatch (h : commitBatch ledger rows = .ok (after, updated)) :
    after.pending = ledger.pending \ (rows.map Prod.fst).toFinset ∧
      updated + after.pending.card = ledger.pending.card := by
  obtain ⟨tx, hfold, hcommit⟩ := bind_eq_ok.mp h
  have hbatch := pending_foldlM hfold
  cases hcommit
  rw [Nat.zero_add] at hbatch
  exact hbatch

/-- A batch that is complete: it has priced its pending rows and no others, added what they cost to
the totals of their accounts, and counted them. -/
structure WholeBatch (rows : List (Nat × RequestLogRow)) (before after : Ledger) (updated : Nat) :
    Prop where
  settled : after.pending = before.pending \ (rows.map Prod.fst).toFinset
  counted : updated + after.pending.card = before.pending.card
  priced : ∀ id, after.logs.find id = if id ∈ before.pending ∧ id ∈ rows.map Prod.fst then
    (before.logs.find id).map fun row ↦
      { row with cost := some (estimateRequest row.model row.usage) }
    else before.logs.find id
  charged : ∀ accountId counter, (after.totals.find accountId).map (·.counter counter) =
    (before.totals.find accountId).map fun t ↦ t.counter counter +
      (total (pricedShare accountId counter) before.nextId after.logs.find -
        total (pricedShare accountId counter) before.nextId before.logs.find)

/-- A committed batch of current rows is complete. -/
theorem whole_commitBatch (hrows : ledger.Current rows)
    (h : commitBatch ledger rows = .ok (after, updated)) :
    WholeBatch rows ledger after updated := by
  obtain ⟨hsettled, hcounted⟩ := pending_commitBatch h
  obtain ⟨tx, htx, hafter⟩ :=
    Ledger.Current.follows (s := ⟨ledger, [], ledger.logs.find⟩) hrows h
  have hlogs : after.logs = tx.ledger.logs := by rw [hafter]
  refine ⟨hsettled, hcounted, fun id ↦ ?_, fun accountId counter ↦ ?_⟩
  · have hpending : id ∈ after.pending ↔ id ∈ ledger.pending ∧ id ∉ rows.map Prod.fst := by
      rw [hsettled, Finset.mem_sdiff, List.mem_toFinset]
    rw [hlogs]
    rcases htx.rows id with hsame | ⟨row, hrow, hcost, hpriced⟩
    · dsimp only at hsame
      split
      · next hboth =>
        -- a row of the batch that is pending does not stay as it is
        obtain ⟨row, hrow, hcost⟩ := Ledger.mem_pending.mp hboth.1
        have hstays : id ∈ after.pending :=
          Ledger.mem_pending.mpr ⟨row, by rw [hlogs, hsame, hrow], hcost⟩
        exact absurd hboth.2 (hpending.mp hstays).2
      · exact hsame
    · dsimp only at hrow
      have hbefore : id ∈ ledger.pending := Ledger.mem_pending.mpr ⟨row, hrow, hcost⟩
      have hgone : id ∉ after.pending := by
        intro hmem
        obtain ⟨row', hrow', hcost'⟩ := Ledger.mem_pending.mp hmem
        rw [hlogs, hpriced] at hrow'
        cases hrow'
        cases hcost'
      have hselected : id ∈ rows.map Prod.fst := by
        by_contra hnot
        exact hgone (hpending.mpr ⟨hbefore, hnot⟩)
      rw [if_pos ⟨hbefore, hselected⟩, hpriced, hrow]
      rfl
  · have hdeltas := htx.deltas accountId counter
    dsimp only at hdeltas
    rw [hlogs, hafter, find_addDeltas, htx.totals, Option.map_map]
    apply Option.map_congr
    intro t _
    rw [Function.comp_apply, counter_addDelta, hdeltas]

/-- The error of a batch. -/
def aggregateOverflow : AppError := .internal "API cost backfill aggregate overflowed"

private theorem failsOnly_checkedAccumulate (sum value : Int) :
    FailsOnly aggregateOverflow (ApiCostAggregateDelta.checkedAccumulate sum value) := by
  intro e h
  unfold ApiCostAggregateDelta.checkedAccumulate at h
  cases hsum : checkedI64 (sum + value) with
  | some sum =>
    rw [hsum] at h
    cases h
  | none =>
    rw [hsum] at h
    exact (Except.error.inj h).symm

private theorem failsOnly_backfillRow (tx : BackfillTx) (row : Nat × RequestLogRow) :
    FailsOnly aggregateOverflow (backfillRow tx row) := by
  unfold backfillRow
  dsimp only
  split
  · cases row.2.accountId with
    | none => exact failsOnly_ok _ _
    | some accountId =>
      refine .bind ?_ fun _ ↦ failsOnly_ok _ _
      unfold ApiCostAggregateDelta.add
      iterate 6 refine .bind (failsOnly_checkedAccumulate _ _) fun _ ↦ ?_
      exact failsOnly_ok _ _
  · exact failsOnly_ok _ _

/-- A batch fails only by the overflow of a delta. -/
theorem failsOnly_commitBatch (ledger : Ledger) (rows : List (Nat × RequestLogRow)) :
    FailsOnly aggregateOverflow (commitBatch ledger rows) := by
  apply (failsOnly_foldlM failsOnly_backfillRow rows _).bind
  exact fun tx ↦ failsOnly_ok _ _

end Batch

/-! ### The call and its surroundings -/

/-- A batch that a call has committed, with the tables before and after it. -/
structure CommittedBatch where
  rows : List (Nat × RequestLogRow)
  before : Ledger
  after : Ledger
  updated : Nat

/-- What a call of `backfill_api_costs` does next. -/
inductive BackfillPhase where
  | selecting
  | selected (rows : List (Nat × RequestLogRow))
  | ended (result : Except AppError Nat)
  deriving DecidableEq

/-- The tables and a call of `backfill_api_costs` with its `total`. Two history variables keep the
keys of the rows whose status it has set and the batches that it has committed. -/
structure BackfillCall where
  ledger : Ledger
  phase : BackfillPhase
  updated : Nat
  statusSet : Finset Nat
  committed : List CommittedBatch

namespace BackfillCall

/-- `checked_add` of `u64`. -/
def checkedU64 (value : Nat) : Option Nat := if value < 2 ^ 64 then some value else none

/-- The end of a batch in `backfill_api_costs`, `src/db.rs:206–213`. -/
def batchDone (call : BackfillCall) (rows : List (Nat × RequestLogRow)) (ledger : Ledger)
    (updated : Nat) : BackfillCall :=
  { ledger
    phase := ((checkedU64 (call.updated + updated)).map fun _ ↦ .selecting).getD
      (.ended (.error (.internal "API cost backfill count overflowed")))
    updated := (checkedU64 (call.updated + updated)).getD call.updated
    statusSet := call.statusSet ∪ call.ledger.pending.filter fun id ↦
      (ledger.logs.find id).any fun row ↦ row.cost.isSome
    committed := ⟨rows, call.ledger, ledger, updated⟩ :: call.committed }

/-- The next statement of the call: the selection of a batch, or its transaction. -/
def next (call : BackfillCall) : Option BackfillCall :=
  match call.phase with
  | .selecting =>
    let rows := call.ledger.selectPending Ledger.apiCostBackfillBatchSize
    if rows.isEmpty then some { call with phase := .ended (.ok call.updated) }
    else some { call with phase := .selected rows }
  | .selected rows =>
    match commitBatch call.ledger rows with
    | .ok (ledger, updated) => some (call.batchDone rows ledger updated)
    | .error e => some { call with phase := .ended (.error e) }
  | .ended _ => none

end BackfillCall

/-- What happens to the tables: a step of the call or of another party. -/
inductive BackfillEvent where
  | own
  /-- Another backfiller commits the batch that it has selected. -/
  | commit (rows : List (Nat × RequestLogRow))
  /-- A live request is logged with its cost. -/
  | insert (entry : NewRequestLog) (now : Instant)
  /-- Old rows are pruned. -/
  | prune (cutoff : Instant)
  deriving DecidableEq

/-- The steps of a call and of the others in any order. No row without a cost status is inserted,
and the keys of log rows are `i64`. -/
inductive BackfillStep : BackfillCall → BackfillEvent → BackfillCall → Prop
  | own (call next : BackfillCall) (h : call.next = some next) : BackfillStep call .own next
  | commit (call : BackfillCall) (rows : List (Nat × RequestLogRow)) (ledger : Ledger)
      (updated : Nat) (h : commitBatch call.ledger rows = .ok (ledger, updated)) :
      BackfillStep call (.commit rows) { call with ledger }
  | insert (call : BackfillCall) (entry : NewRequestLog) (now : Instant)
      (h : call.ledger.nextId < 2 ^ 63) :
      BackfillStep call (.insert entry now)
        { call with ledger := call.ledger.insertRequestLog entry now }
  | prune (call : BackfillCall) (cutoff : Instant) :
      BackfillStep call (.prune cutoff)
        { call with ledger := call.ledger.pruneRequestLogs cutoff }

namespace BackfillCall

variable {call after : BackfillCall} {event : BackfillEvent}

/-- What a step of the call does. -/
inductive Next (call : BackfillCall) : BackfillCall → Prop
  | done (hphase : call.phase = .selecting) (hnone : call.ledger.pending = ∅) :
      Next call { call with phase := .ended (.ok call.updated) }
  | select (rows : List (Nat × RequestLogRow)) (hphase : call.phase = .selecting)
      (hrows : rows = call.ledger.selectPending Ledger.apiCostBackfillBatchSize)
      (hsome : rows ≠ []) : Next call { call with phase := .selected rows }
  | commit (rows : List (Nat × RequestLogRow)) (ledger : Ledger) (updated : Nat)
      (hphase : call.phase = .selected rows)
      (hcommit : commitBatch call.ledger rows = .ok (ledger, updated)) :
      Next call (call.batchDone rows ledger updated)
  | fail (rows : List (Nat × RequestLogRow)) (e : AppError) (hphase : call.phase = .selected rows)
      (hfail : commitBatch call.ledger rows = .error e) :
      Next call { call with phase := .ended (.error e) }

theorem next_cases (h : call.next = some after) : Next call after := by
  unfold next at h
  cases hphase : call.phase with
  | selecting =>
    simp only [hphase, List.isEmpty_iff] at h
    split at h
    · next hrows =>
      cases h
      exact .done hphase (Ledger.selectPending_eq_nil_iff.mp hrows)
    · next hrows =>
      cases h
      exact .select _ hphase rfl hrows
  | selected rows =>
    simp only [hphase] at h
    cases hcommit : commitBatch call.ledger rows with
    | ok out =>
      rw [hcommit] at h
      cases h
      exact .commit rows out.1 out.2 hphase hcommit
    | error e =>
      rw [hcommit] at h
      cases h
      exact .fail rows e hphase hcommit
  | ended result =>
    simp only [hphase] at h
    cases h

/-- A call that has not ended has a next step. -/
theorem next_isSome (h : ∀ result, call.phase ≠ .ended result) :
    ∃ after, call.next = some after := by
  unfold next
  cases hphase : call.phase with
  | selecting =>
    dsimp only
    split
    · exact ⟨_, rfl⟩
    · exact ⟨_, rfl⟩
  | selected rows =>
    dsimp only
    cases commitBatch call.ledger rows with
    | ok out => exact ⟨_, rfl⟩
    | error e => exact ⟨_, rfl⟩
  | ended result => exact absurd hphase (h result)

/-- The start of a call; the keys of the log rows so far are `i64`. -/
structure Started (call : BackfillCall) : Prop where
  phase : call.phase = .selecting
  updated : call.updated = 0
  statusSet : call.statusSet = ∅
  committed : call.committed = []
  keys : call.ledger.nextId ≤ 2 ^ 63

/-- What holds throughout a call. -/
structure Sound (call : BackfillCall) : Prop where
  keys : call.ledger.nextId ≤ 2 ^ 63
  settled : ∀ id ∈ call.statusSet, id < call.ledger.nextId ∧ id ∉ call.ledger.pending
  updated : call.updated = call.statusSet.card
  selected : ∀ rows, call.phase = .selected rows → rows ≠ [] ∧ call.ledger.Current rows ∧
    ∀ row ∈ rows, row.1 < call.ledger.nextId
  whole : ∀ batch ∈ call.committed, WholeBatch batch.rows batch.before batch.after batch.updated
  ended : ∀ n, call.phase = .ended (.ok n) → call.ledger.pending = ∅ ∧ n = call.statusSet.card

/-- The rank of a call: it goes down in every step of the call and up in no other. -/
def rank (call : BackfillCall) : Nat :=
  match call.phase with
  | .selecting => 2 * call.ledger.pending.card + 1
  | .selected rows => 2 * (call.ledger.pending ∪ (rows.map Prod.fst).toFinset).card
  | .ended _ => 0

/-- A step of another party changes the tables only, and settles rows at most. -/
theorem settles_of_other (hother : event ≠ .own) (h : BackfillStep call event after) :
    ∃ ledger, after = { call with ledger } ∧ call.ledger.Settles ledger ∧
      (call.ledger.nextId ≤ 2 ^ 63 → ledger.nextId ≤ 2 ^ 63) := by
  cases h with
  | own _ h => exact absurd rfl hother
  | commit rows ledger updated h =>
    obtain ⟨hsettles, hkeys⟩ := settles_commitBatch h
    exact ⟨ledger, rfl, hsettles, fun hle ↦ hkeys ▸ hle⟩
  | insert entry now h => exact ⟨_, rfl, .insertRequestLog _ entry now, fun _ ↦ h⟩
  | prune cutoff => exact ⟨_, rfl, .pruneRequestLogs _ cutoff, id⟩

/-- The rows that a batch of the call gives a status are those that it settles. -/
theorem statusSet_batch {rows : List (Nat × RequestLogRow)} {before after : Ledger} {updated : Nat}
    (h : WholeBatch rows before after updated) :
    (before.pending.filter fun id ↦ (after.logs.find id).any fun row ↦ row.cost.isSome) =
      before.pending \ after.pending := by
  ext id
  rw [Finset.mem_filter, Finset.mem_sdiff]
  apply and_congr_right
  intro hpending
  obtain ⟨row, hrow, hcost⟩ := Ledger.mem_pending.mp hpending
  rw [Ledger.mem_pending, h.priced id]
  by_cases hselected : id ∈ rows.map Prod.fst
  · rw [if_pos ⟨hpending, hselected⟩, hrow]
    simp
  · rw [if_neg (fun hboth ↦ hselected hboth.2), hrow]
    simp [hcost]

/-- A committed batch of a sound call adds its rows to those whose status the call has set, and
`total` does not overflow. -/
theorem Sound.batchDone (hcall : call.Sound) {rows : List (Nat × RequestLogRow)} {ledger : Ledger}
    {updated : Nat} (hphase : call.phase = .selected rows)
    (hcommit : commitBatch call.ledger rows = .ok (ledger, updated)) :
    WholeBatch rows call.ledger ledger updated ∧ ∃ statusSet : Finset Nat,
      statusSet = call.statusSet ∪ (call.ledger.pending \ ledger.pending) ∧
      statusSet.card = call.updated + updated ∧
      (∀ id ∈ statusSet, id < ledger.nextId ∧ id ∉ ledger.pending) ∧
      call.batchDone rows ledger updated =
        ⟨ledger, .selecting, call.updated + updated, statusSet,
          ⟨rows, call.ledger, ledger, updated⟩ :: call.committed⟩ := by
  obtain ⟨-, hcurrent, -⟩ := hcall.selected rows hphase
  obtain ⟨hsettles, hkeys⟩ := settles_commitBatch hcommit
  have hwhole := whole_commitBatch hcurrent hcommit
  have hbelow : ∀ id ∈ call.statusSet ∪ (call.ledger.pending \ ledger.pending),
      id < ledger.nextId ∧ id ∉ ledger.pending := by
    intro id hid
    rw [hkeys]
    rcases Finset.mem_union.mp hid with hbefore | hnow
    · have hsettled := hcall.settled id hbefore
      exact ⟨hsettled.1, fun h ↦ hsettled.2 (hsettles.pending_subset h)⟩
    · obtain ⟨hpending, hgone⟩ := Finset.mem_sdiff.mp hnow
      obtain ⟨row, hrow, -⟩ := Ledger.mem_pending.mp hpending
      exact ⟨call.ledger.below id row hrow, hgone⟩
  have hcard : (call.statusSet ∪ (call.ledger.pending \ ledger.pending)).card =
      call.updated + updated := by
    have hdisjoint : Disjoint call.statusSet (call.ledger.pending \ ledger.pending) := by
      rw [Finset.disjoint_left]
      intro id hbefore hnow
      exact (hcall.settled id hbefore).2 (Finset.mem_sdiff.mp hnow).1
    have hnow := Finset.card_sdiff_add_card_eq_card hsettles.pending_subset
    have hcounted := hwhole.counted
    rw [Finset.card_union_of_disjoint hdisjoint, hcall.updated]
    omega
  -- the keys of the rows are distinct `i64`, so their number is a `u64`
  have hroom : call.updated + updated < 2 ^ 64 := by
    have hsubset : call.statusSet ∪ (call.ledger.pending \ ledger.pending) ⊆
        Finset.range ledger.nextId := fun id hid ↦ Finset.mem_range.mpr (hbelow id hid).1
    have hle := Finset.card_le_card hsubset
    have hlimit := hcall.keys
    rw [Finset.card_range, hcard, hkeys] at hle
    omega
  refine ⟨hwhole, _, rfl, hcard, hbelow, ?_⟩
  rw [BackfillCall.batchDone, statusSet_batch hwhole, checkedU64, if_pos hroom]
  rfl

private theorem Sound.own (hcall : call.Sound) (h : Next call after) : after.Sound := by
  cases h with
  | done hphase hnone =>
    refine ⟨hcall.keys, hcall.settled, hcall.updated, fun rows h ↦ ?_, hcall.whole, fun n h ↦ ?_⟩
    · cases h
    · cases h
      exact ⟨hnone, hcall.updated⟩
  | select rows hphase hrows hsome =>
    refine ⟨hcall.keys, hcall.settled, hcall.updated, fun rows' h ↦ ?_, hcall.whole, fun n h ↦ ?_⟩
    · cases h
      refine ⟨hsome, fun row hrow live hlive hcost ↦ ?_, fun row hrow ↦ ?_⟩
      · have hstored := (Ledger.mem_selectPending (hrows ▸ hrow)).1
        exact Option.some.inj (hstored.symm.trans hlive)
      · exact call.ledger.below _ _ (Ledger.mem_selectPending (hrows ▸ hrow)).1
    · cases h
  | commit rows ledger updated hphase hcommit =>
    obtain ⟨hwhole, statusSet, -, hcard, hbelow, hdone⟩ := hcall.batchDone hphase hcommit
    rw [hdone]
    refine ⟨?_, hbelow, hcard.symm, fun rows h ↦ ?_, fun batch hbatch ↦ ?_, fun n h ↦ ?_⟩
    · exact (settles_commitBatch hcommit).2 ▸ hcall.keys
    · cases h
    · rcases List.mem_cons.mp hbatch with rfl | hearlier
      · exact hwhole
      · exact hcall.whole batch hearlier
    · cases h
  | fail rows e hphase hfail =>
    refine ⟨hcall.keys, hcall.settled, hcall.updated, fun rows h ↦ ?_, hcall.whole, fun n h ↦ ?_⟩
    · cases h
    · cases h

private theorem Sound.other (hcall : call.Sound) {ledger : Ledger}
    (hsettles : call.ledger.Settles ledger) (hkeys : ledger.nextId ≤ 2 ^ 63) :
    ({ call with ledger } : BackfillCall).Sound := by
  refine ⟨hkeys, fun id hid ↦ ?_, hcall.updated, fun rows hphase ↦ ?_, hcall.whole,
    fun n hphase ↦ ?_⟩
  · have hsettled := hcall.settled id hid
    exact ⟨hsettled.1.trans_le hsettles.keys, fun h ↦ hsettled.2 (hsettles.pending_subset h)⟩
  · obtain ⟨hsome, hcurrent, hbelow⟩ := hcall.selected rows hphase
    exact ⟨hsome, hsettles.current hcurrent,
      fun row hrow ↦ (hbelow row hrow).trans_le hsettles.keys⟩
  · have hended := hcall.ended n hphase
    exact ⟨Finset.subset_empty.mp (hended.1 ▸ hsettles.pending_subset), hended.2⟩

/-- Every step keeps what holds throughout a call. -/
theorem Sound.step (hcall : call.Sound) (h : BackfillStep call event after) : after.Sound := by
  by_cases hown : event = .own
  · subst hown
    cases h with
    | own _ h => exact hcall.own (next_cases h)
  · obtain ⟨ledger, rfl, hsettles, hkeys⟩ := settles_of_other hown h
    exact hcall.other hsettles (hkeys hcall.keys)

/-- A call starts sound. -/
theorem Started.sound (h : call.Started) : call.Sound := by
  refine ⟨h.keys, fun id hid ↦ ?_, ?_, fun rows hphase ↦ ?_, fun batch hbatch ↦ ?_,
    fun n hphase ↦ ?_⟩
  · rw [h.statusSet] at hid
    exact absurd hid (Finset.notMem_empty id)
  · rw [h.updated, h.statusSet, Finset.card_empty]
  · rw [h.phase] at hphase
    cases hphase
  · rw [h.committed] at hbatch
    cases hbatch
  · rw [h.phase] at hphase
    cases hphase

/-- A step of another party does not raise the rank. -/
theorem rank_other {ledger : Ledger} (hsettles : call.ledger.Settles ledger) :
    ({ call with ledger } : BackfillCall).rank ≤ call.rank := by
  have hsubset := hsettles.pending_subset
  unfold rank
  cases call.phase with
  | selecting =>
    dsimp only
    gcongr
  | selected rows =>
    dsimp only
    gcongr
  | ended result => exact Nat.le_refl 0

/-- A step of the call lowers the rank: a selection stands for as many rows as were pending, and a
batch settles at least one of the rows that it stands for. -/
theorem rank_own (hcall : call.Sound) (h : Next call after) : after.rank < call.rank := by
  cases h with
  | done hphase hnone =>
    rw [rank, rank, hphase]
    exact Nat.succ_pos _
  | select rows hphase hrows hsome =>
    have hsubset : (rows.map Prod.fst).toFinset ⊆ call.ledger.pending := by
      intro id hid
      obtain ⟨row, hrow, rfl⟩ := List.mem_map.mp (List.mem_toFinset.mp hid)
      exact Ledger.mem_pending.mpr ⟨row.2, Ledger.mem_selectPending (hrows ▸ hrow)⟩
    rw [rank, rank, hphase]
    dsimp only
    rw [Finset.union_eq_left.mpr hsubset]
    exact Nat.lt_succ_self _
  | commit rows ledger updated hphase hcommit =>
    obtain ⟨hwhole, statusSet, -, -, -, hdone⟩ := hcall.batchDone hphase hcommit
    obtain ⟨row, hrow⟩ := List.exists_mem_of_ne_nil rows (hcall.selected rows hphase).1
    have hselected : row.1 ∈ (rows.map Prod.fst).toFinset :=
      List.mem_toFinset.mpr (List.mem_map_of_mem hrow)
    have hfewer : ledger.pending ⊂ call.ledger.pending ∪ (rows.map Prod.fst).toFinset := by
      rw [hwhole.settled]
      refine ⟨fun id hid ↦ ?_, fun hall ↦ ?_⟩
      · exact Finset.mem_union_left _ (Finset.mem_sdiff.mp hid).1
      · have hstays := hall (Finset.mem_union_right _ hselected)
        exact (Finset.mem_sdiff.mp hstays).2 hselected
    have hcard := Finset.card_lt_card hfewer
    rw [hdone, rank, rank, hphase]
    dsimp only
    omega
  | fail rows e hphase hfail =>
    obtain ⟨row, hrow⟩ := List.exists_mem_of_ne_nil rows (hcall.selected rows hphase).1
    have hselected : row.1 ∈ call.ledger.pending ∪ (rows.map Prod.fst).toFinset :=
      Finset.mem_union_right _ (List.mem_toFinset.mpr (List.mem_map_of_mem hrow))
    have hpos := Finset.card_pos.mpr ⟨_, hselected⟩
    rw [rank, rank, hphase]
    dsimp only
    omega

end BackfillCall

/-- **Backfilling ends and never half-applies.** Whatever other backfillers, the pruner and live
requests do in between, a call makes at most twice as many steps as rows were pending at its start
and one more, and while it has not returned it has a next step. If it returns `Ok(n)`, no row is
pending and `n` rows got their status from it. If it returns an error, this is the overflow of a
batch that leaves the tables as they are, and the earlier batches are complete. -/
theorem backfill_ends_whole {call₀ call : BackfillCall} {events : List BackfillEvent}
    (hstart : call₀.Started) (hrun : Run BackfillStep call₀ events call) :
    events.countP (· = .own) ≤ 2 * call₀.ledger.pending.card + 1 ∧
    ((∃ result, call.phase = .ended result) ∨ ∃ after, BackfillStep call .own after) ∧
    (∀ n, call.phase = .ended (.ok n) → call.ledger.pending = ∅ ∧ n = call.statusSet.card) ∧
    ∀ after e, BackfillStep call .own after → after.phase = .ended (.error e) →
      e = aggregateOverflow ∧
      (∃ rows, call.phase = .selected rows ∧ commitBatch call.ledger rows = .error e) ∧
      after.ledger = call.ledger ∧ after.statusSet = call.statusSet ∧
      ∀ batch ∈ after.committed, WholeBatch batch.rows batch.before batch.after batch.updated := by
  have hkeep : ∀ s i t, s.Sound → BackfillStep s i t → t.Sound := fun _ _ _ hs h ↦ hs.step h
  have hcall := hrun.invariant hkeep hstart.sound
  refine ⟨?_, ?_, hcall.ended, fun after e hstep hphase ↦ ?_⟩
  · have hrank : call₀.rank = 2 * call₀.ledger.pending.card + 1 := by
      rw [BackfillCall.rank, hstart.phase]
    have hcount := hrun.countP_add_rank_le BackfillCall.rank (· = .own) hkeep
      (fun s i t hs h ↦ ?_) (fun s i t hs hown h ↦ ?_) hstart.sound
    · omega
    · by_cases hown : i = .own
      · subst hown
        cases h with
        | own _ h => exact (BackfillCall.rank_own hs (BackfillCall.next_cases h)).le
      · obtain ⟨ledger, rfl, hsettles, -⟩ := BackfillCall.settles_of_other hown h
        exact BackfillCall.rank_other hsettles
    · obtain rfl := of_decide_eq_true hown
      cases h with
      | own _ h => exact BackfillCall.rank_own hs (BackfillCall.next_cases h)
  · by_cases hended : ∃ result, call.phase = .ended result
    · exact .inl hended
    · obtain ⟨after, hnext⟩ :=
        BackfillCall.next_isSome fun result h ↦ hended ⟨result, h⟩
      exact .inr ⟨after, .own _ _ hnext⟩
  · cases hstep with
    | own _ hnext =>
      cases BackfillCall.next_cases hnext with
      | done hselecting hnone => cases hphase
      | select rows hselecting hrows hsome => cases hphase
      | commit rows ledger updated hselected hcommit =>
        obtain ⟨-, statusSet, -, -, -, hdone⟩ := hcall.batchDone hselected hcommit
        rw [hdone] at hphase
        cases hphase
      | fail rows e' hselected hfail =>
        cases hphase
        exact ⟨failsOnly_commitBatch _ _ _ hfail, ⟨rows, hselected, hfail⟩, rfl, rfl, hcall.whole⟩

section Sample

private def unpricedRow (accountId : Option Uuid) (createdAt : Instant) : RequestLogRow where
  accountId := accountId
  model := some "gpt-5.6-sol"
  usage := ⟨some 1200, some 11, some 200, none, some 3, none, none⟩
  createdAt := createdAt
  cost := none

private def unpricedLogs : Table Nat RequestLogRow :=
  ⟨[(1, unpricedRow (some 1) 5), (2, unpricedRow (some 1) 20), (3, unpricedRow (some 2) 30),
    (4, unpricedRow none 40)], by decide⟩

private theorem below_unpriced (id : Nat) (row : RequestLogRow)
    (h : unpricedLogs.find id = some row) : id < 5 := by
  have hmem : id ∈ unpricedLogs.rows.map Prod.fst :=
    List.mem_map.mpr ⟨_, Table.mem_rows_iff.mpr h, rfl⟩
  have hid : id = 1 ∨ id = 2 ∨ id = 3 ∨ id = 4 := by simpa [unpricedLogs] using hmem
  omega

private def unpricedTotals : Table Uuid AccountTotals :=
  ⟨[(1, ⟨2, 2, 0, 2400, 22, 0, 0, 0, 0, 0, 0, 2⟩), (2, ⟨1, 1, 0, 1200, 11, 0, 0, 0, 0, 0, 0, 1⟩)],
    by decide⟩

private def unpricedCall : BackfillCall :=
  ⟨⟨unpricedLogs, 5, unpricedTotals, below_unpriced⟩, .selecting, 0, ∅, []⟩

/-- A step of a call and its surroundings, if it can be taken. -/
private def BackfillCall.exec (call : BackfillCall) : BackfillEvent → Option BackfillCall
  | .own => call.next
  | .commit rows => (commitBatch call.ledger rows).toOption.map fun out ↦
      { call with ledger := out.1 }
  | .insert entry now =>
    if call.ledger.nextId < 2 ^ 63 then
      some { call with ledger := call.ledger.insertRequestLog entry now }
    else none
  | .prune cutoff => some { call with ledger := call.ledger.pruneRequestLogs cutoff }

private theorem BackfillCall.step_of_exec (call : BackfillCall) (event : BackfillEvent)
    (after : BackfillCall) (h : call.exec event = some after) :
    BackfillStep call event after := by
  cases event with
  | own => exact .own _ _ h
  | commit rows =>
    obtain ⟨out, hout, rfl⟩ := Option.map_eq_some_iff.mp h
    cases hcommit : commitBatch call.ledger rows with
    | ok committed =>
      rw [hcommit] at hout
      cases hout
      exact .commit call rows _ _ hcommit
    | error e =>
      rw [hcommit] at hout
      cases hout
  | insert entry now =>
    obtain ⟨hroom, h⟩ := Option.ite_none_right_eq_some.mp h
    cases h
    exact .insert call entry now hroom
  | prune cutoff =>
    cases h
    exact .prune call cutoff

/-- The call selects four rows. Before it prices them, another backfiller has priced the second and
the pruner has deleted the first. -/
private def contendedBackfill : List BackfillEvent :=
  [.own, .commit [(2, unpricedRow (some 1) 20)], .prune 10, .own, .own]

/-- A call sets the status of the rows that others have left to it, charges their account, and
reports their number. -/
theorem backfill_ends_whole_contended : ∃ call : BackfillCall,
    Run BackfillStep unpricedCall contendedBackfill call ∧
    call.phase = .ended (.ok 2) ∧ call.statusSet = {3, 4} ∧
    (call.ledger.totals.find 2).map (·.apiCostPartialRequestCount) = some 1 ∧
    call.ledger.pending = ∅ ∧ 2 = call.statusSet.card ∧
    contendedBackfill.countP (· = .own) ≤ 2 * unpricedCall.ledger.pending.card + 1 := by
  have hend : (contendedBackfill.foldlM BackfillCall.exec unpricedCall).map
      (fun call ↦ (call.phase, call.statusSet,
        (call.ledger.totals.find 2).map (·.apiCostPartialRequestCount))) =
      some (BackfillPhase.ended (.ok 2), {3, 4}, some 1) := by decide +kernel
  obtain ⟨call, hcall, hfacts⟩ := Option.map_eq_some_iff.mp hend
  obtain ⟨hphase, hset, hcharged⟩ : call.phase = .ended (.ok 2) ∧ call.statusSet = {3, 4} ∧
      (call.ledger.totals.find 2).map (·.apiCostPartialRequestCount) = some 1 := by
    simpa only [Prod.mk.injEq] using hfacts
  have hrun : Run BackfillStep unpricedCall contendedBackfill call :=
    Run.of_foldlM BackfillCall.step_of_exec hcall
  have hstart : unpricedCall.Started := ⟨rfl, rfl, rfl, rfl, by decide⟩
  obtain ⟨hcount, -, hended, -⟩ := backfill_ends_whole hstart hrun
  obtain ⟨hnone, htwo⟩ := hended 2 hphase
  exact ⟨call, hrun, hphase, hset, hcharged, hnone, htwo, hcount⟩

end Sample

end CodexLb
