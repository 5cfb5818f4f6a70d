import CodexLb.Daemon.Status
import CodexLb.Db.Acquire
import CodexLb.Relational.Truth

/-!
# The eligibility tests agree

The rule that an account may take a request stands in four statements of
`src/db.rs`, over nullable columns, and once more on the status page. Each is
written out here as its `SELECT` or `UPDATE` reads, and is the one test that
the rest of the development uses.
-/

namespace CodexLb

open Relational Truth

/-! ### The statements -/

/-- `julianday` of a nullable text: `NULL` of a `NULL` and of a text that is no timestamp. -/
def julianday (time : Option TextTime) : Option Instant := time.join

/-- `a.status = 'active'`. -/
def activeTest (account : Account) : Truth := some (account.status == .active)

/-- `cooldown_until IS NULL OR julianday(cooldown_until) <= now`; `src/db.rs:597`, `825`, `947–950`
and `1031`. -/
def cooldownTest (runtime : AccountRuntimeState) (now : Instant) : Truth :=
  disj (isNull runtime.cooldownUntil)
    (compare (fun x y ↦ decide (x ≤ y)) (julianday (runtime.cooldownUntil.map some)) (some now))

/-- The conditions of the subquery `exhausted`; `src/db.rs:600–609`, `826–835`, `953–962` and
`1032–1041`. -/
def exhaustedTest (accountId : Uuid) (now : Instant) (window : UsageWindowKey × UsageWindow) :
    Truth :=
  conj (some (window.1.accountId == accountId)) <|
  conj (some (window.1.quotaKey == "codex")) <|
  conj (some (decide (100 ≤ window.2.usedPercent))) <|
  disj (isNull window.2.resetAt) <|
  disj (isNull (julianday window.2.resetAt)) <|
  compare (fun x y ↦ decide (y < x)) (julianday window.2.resetAt) (some now)

/-- `NOT EXISTS (SELECT 1 FROM usage_windows exhausted …)`. -/
def unexhaustedTest (accountId : Uuid) (now : Instant) (s : Store) : Truth :=
  neg (exist s.usageWindows.rows (exhaustedTest accountId now))

/-- A row of `accounts INNER JOIN account_runtime_state`. -/
structure JoinedRow where
  id : Uuid
  account : Account
  runtime : AccountRuntimeState

/-- `accounts a INNER JOIN account_runtime_state r ON r.account_id = a.id`. -/
def joinedRows (s : Store) : List JoinedRow :=
  s.accounts.rows.filterMap fun row ↦
    (s.accountRuntimeState.find row.1).map fun runtime ↦ ⟨row.1, row.2, runtime⟩

/-- The rows of `push_smart_account_candidate` before their order, `src/db.rs:811–846`. -/
def smartFilter (excluded : List Uuid) (now : Instant) (s : Store) : List Uuid :=
  ((joinedRows s).filter fun row ↦
    (conj (activeTest row.account) <|
      conj (cooldownTest row.runtime now) <|
      conj (unexhaustedTest row.id now s) <|
      some (!excluded.contains row.id)).passes).map JoinedRow.id

/-- `account_is_eligible_in_transaction`, `src/db.rs:936–971`, with its `COUNT(*)`. -/
def accountIsEligibleInTransaction (accountId : Uuid) (selectedAt : Instant) (s : Store) : Bool :=
  let rows := (joinedRows s).filter fun row ↦
    (conj (some (row.id == accountId)) <|
      conj (activeTest row.account) <|
      conj (cooldownTest row.runtime selectedAt) <|
      unexhaustedTest row.id selectedAt s).passes
  rows.length == 1

/-- The rows that `acquire_account_if_available` updates and returns, `src/db.rs:1027–1044`. -/
def acquiredRows (accountId : Uuid) (now : Instant) (s : Store) : List Uuid :=
  (s.accountRuntimeState.select fun id runtime ↦
    (conj (some (id == accountId)) <|
      conj (exist s.accounts.rows fun row ↦
        conj (some (row.1 == accountId)) (activeTest row.2)) <|
      conj (cooldownTest runtime now) <|
      unexhaustedTest accountId now s).passes).map Prod.fst

/-- The rows of the sticky lookup, `src/db.rs:590–611`. -/
def stickyRows (keyHash : String) (settings : RuntimeSettings) (selectedAt : Instant)
    (s : Store) : List Uuid :=
  let rows := s.affinity.rows.flatMap fun af ↦
    ((joinedRows s).filter fun row ↦ row.id == af.2.accountId).map fun row ↦ (af, row)
  (rows.filter fun row ↦
    (conj (some (row.1.1 == keyHash)) <|
      conj (activeTest row.2.account) <|
      conj (compare (fun x y ↦ decide (y ≤ x)) (some row.1.2.lastUsedAt)
        (some (selectedAt - 1000 * settings.stickySessionTtlSeconds))) <|
      conj (cooldownTest row.2.runtime selectedAt) <|
      unexhaustedTest row.2.id selectedAt s).passes).map fun row ↦ row.1.2.accountId

/-- The sticky lookup, `src/db.rs:588–617`. -/
def stickyLookup (keyHash : String) (settings : RuntimeSettings) (selectedAt : Instant)
    (s : Store) : Option Uuid :=
  (stickyRows keyHash settings selectedAt s).head?

/-! ### Each statement is the one test -/

section Tests

variable {accountId : Uuid} {now : Instant} {s : Store}

/-- An active status passes its test. -/
@[simp] theorem passes_activeTest (account : Account) :
    (activeTest account).passes = (account.status == .active) := passes_some _

/-- A cooldown that has ended passes its test. -/
@[simp] theorem passes_cooldownTest (runtime : AccountRuntimeState) (now : Instant) :
    (cooldownTest runtime now).passes = cooldownEnded runtime now := by
  unfold cooldownTest cooldownEnded
  cases runtime.cooldownUntil <;> simp [julianday]

/-- Windows that are not exhausted pass their test. -/
@[simp] theorem passes_unexhaustedTest (accountId : Uuid) (now : Instant) (s : Store) :
    (unexhaustedTest accountId now s).passes = !quotaExhausted accountId now s := by
  unfold unexhaustedTest quotaExhausted
  rw [passes_neg_exist]
  congr 2
  funext window
  unfold exhaustedTest
  rcases window.2.resetAt with _ | _ | resetAt <;> simp [julianday, Bool.and_assoc]

/-- The joined rows are the stored accounts with their runtime rows. -/
theorem mem_joinedRows_iff {row : JoinedRow} : row ∈ joinedRows s ↔
    s.accounts.find row.id = some row.account ∧
      s.accountRuntimeState.find row.id = some row.runtime := by
  unfold joinedRows
  rw [List.mem_filterMap]
  constructor
  · rintro ⟨⟨id, account⟩, hmem, hrow⟩
    obtain ⟨runtime, hruntime, rfl⟩ := Option.map_eq_some_iff.mp hrow
    exact ⟨Table.mem_rows_iff.mp hmem, hruntime⟩
  · rintro ⟨haccount, hruntime⟩
    refine ⟨(row.id, row.account), Table.mem_rows_iff.mpr haccount, ?_⟩
    rw [hruntime]
    rfl

/-- Eligibility is the tests on a joined row. -/
theorem accountIsEligible_iff_joined : accountIsEligible accountId now s = true ↔
    ∃ row ∈ joinedRows s, row.id = accountId ∧ row.account.status = .active ∧
      cooldownEnded row.runtime now = true ∧ quotaExhausted accountId now s = false := by
  rw [accountIsEligible_iff]
  constructor
  · rintro ⟨account, runtime, haccount, hruntime, htests⟩
    exact ⟨⟨accountId, account, runtime⟩, mem_joinedRows_iff.mpr ⟨haccount, hruntime⟩, rfl, htests⟩
  · rintro ⟨row, hrow, rfl, htests⟩
    obtain ⟨haccount, hruntime⟩ := mem_joinedRows_iff.mp hrow
    exact ⟨row.account, row.runtime, haccount, hruntime, htests⟩

/-- The smart filter selects the eligible accounts that are not excluded. -/
theorem mem_smartFilter_iff {excluded : List Uuid} : accountId ∈ smartFilter excluded now s ↔
    accountIsEligible accountId now s = true ∧ accountId ∉ excluded := by
  rw [smartFilter, List.mem_map, accountIsEligible_iff_joined]
  constructor
  · rintro ⟨row, hrow, rfl⟩
    rw [List.mem_filter] at hrow
    obtain ⟨hmem, hpasses⟩ := hrow
    obtain ⟨hactive, hcooldown, hquota, hexcluded⟩ : row.account.status = .active ∧
        cooldownEnded row.runtime now = true ∧ quotaExhausted row.id now s = false ∧
        row.id ∉ excluded := by
      simpa using hpasses
    exact ⟨⟨row, hmem, rfl, hactive, hcooldown, hquota⟩, hexcluded⟩
  · rintro ⟨⟨row, hmem, rfl, hactive, hcooldown, hquota⟩, hexcluded⟩
    refine ⟨row, List.mem_filter.mpr ⟨hmem, ?_⟩, rfl⟩
    simp [hactive, hcooldown, hquota, hexcluded]

/-- The candidates of the routing order are the rows of the smart filter. -/
theorem smartCandidates_ids (usageWeighted : Bool) (freshness now : Instant)
    (excluded : List Uuid) (s : Store) :
    (smartCandidates usageWeighted freshness now excluded s).map SmartCandidate.accountId =
      smartFilter excluded now s := by
  rw [smartCandidates, List.map_filterMap, smartFilter, joinedRows, List.filter_filterMap,
    List.map_filterMap]
  apply List.filterMap_congr
  rintro ⟨id, account⟩ hrow
  have haccount := Table.mem_rows_iff.mp hrow
  cases hruntime : s.accountRuntimeState.find id with
  | none => simp
  | some runtime =>
    have heligible : accountIsEligible id now s = (account.status == .active &&
        cooldownEnded runtime now && !quotaExhausted id now s) := by
      simp [accountIsEligible, haccount, hruntime, beq_eq_decide]
    simp only [heligible, Option.bind_some, Option.map_some, Option.filter_some,
      passes_conj, passes_activeTest, passes_cooldownTest, passes_unexhaustedTest, passes_some,
      Bool.and_assoc]
    split <;> rfl

/-- No row of the join stands twice. -/
theorem nodup_joinedRows (s : Store) : (joinedRows s).Nodup := by
  apply List.Nodup.filterMap _ (.of_map _ s.accounts.distinct)
  intro row row' joined hrow hrow'
  obtain ⟨runtime, -, rfl⟩ := Option.map_eq_some_iff.mp hrow
  obtain ⟨runtime', -, heq⟩ := Option.map_eq_some_iff.mp hrow'
  rw [JoinedRow.mk.injEq] at heq
  exact Prod.ext heq.1.symm heq.2.1.symm

/-- A row of the join is known by its account. -/
theorem joinedRow_eq {row row' : JoinedRow} (h : row ∈ joinedRows s) (h' : row' ∈ joinedRows s)
    (hid : row.id = row'.id) : row = row' := by
  obtain ⟨haccount, hruntime⟩ := mem_joinedRows_iff.mp h
  obtain ⟨haccount', hruntime'⟩ := mem_joinedRows_iff.mp h'
  rw [hid, haccount', Option.some.injEq] at haccount
  rw [hid, hruntime', Option.some.injEq] at hruntime
  cases row
  cases row'
  rw [JoinedRow.mk.injEq]
  exact ⟨hid, haccount.symm, hruntime.symm⟩

private theorem length_eq_one_iff {α : Type} {rows : List α} (hnodup : rows.Nodup)
    (hsame : ∀ a ∈ rows, ∀ b ∈ rows, a = b) : rows.length = 1 ↔ ∃ a, a ∈ rows := by
  rcases rows with _ | ⟨a, _ | ⟨b, rest⟩⟩
  · simp
  · simp
  · have hab := hsame a (by simp) b (by simp)
    simp [hab] at hnodup

private theorem head?_eq_some_iff_mem {α : Type} {rows : List α} {a : α}
    (hsame : ∀ a ∈ rows, ∀ b ∈ rows, a = b) : rows.head? = some a ↔ a ∈ rows := by
  cases rows with
  | nil => simp
  | cons b rest =>
    rw [List.head?_cons, Option.some.injEq]
    constructor
    · rintro rfl
      exact List.mem_cons_self
    · intro ha
      exact hsame b List.mem_cons_self a ha

/-- The check of a turn counts one row exactly for an eligible account. -/
theorem accountIsEligibleInTransaction_eq :
    accountIsEligibleInTransaction accountId now s = accountIsEligible accountId now s := by
  rw [Bool.eq_iff_iff, accountIsEligible_iff_joined, accountIsEligibleInTransaction, beq_iff_eq,
    length_eq_one_iff]
  · simp only [List.mem_filter]
    constructor
    · rintro ⟨row, hmem, hpasses⟩
      obtain ⟨rfl, hactive, hcooldown, hquota⟩ : row.id = accountId ∧
          row.account.status = .active ∧ cooldownEnded row.runtime now = true ∧
          quotaExhausted row.id now s = false := by
        simpa using hpasses
      exact ⟨row, hmem, rfl, hactive, hcooldown, hquota⟩
    · rintro ⟨row, hmem, rfl, hactive, hcooldown, hquota⟩
      exact ⟨row, hmem, by simp [hactive, hcooldown, hquota]⟩
  · exact (nodup_joinedRows s).filter _
  · intro row hrow row' hrow'
    rw [List.mem_filter] at hrow hrow'
    have hid : ∀ row : JoinedRow, (conj (some (row.id == accountId)) <|
        conj (activeTest row.account) <| conj (cooldownTest row.runtime now) <|
        unexhaustedTest row.id now s).passes = true → row.id = accountId := by
      intro row hpasses
      rw [passes_conj, Bool.and_eq_true, passes_some, beq_iff_eq] at hpasses
      exact hpasses.1
    exact joinedRow_eq hrow.1 hrow'.1 ((hid row hrow.2).trans (hid row' hrow'.2).symm)

/-- The acquisition updates a row exactly for an eligible account. -/
theorem acquiredRows_isEmpty :
    (!(acquiredRows accountId now s).isEmpty) = accountIsEligible accountId now s := by
  rw [Bool.eq_iff_iff, accountIsEligible_iff, acquiredRows, List.isEmpty_map, Bool.not_eq_true',
    List.isEmpty_eq_false_iff_exists_mem]
  constructor
  · rintro ⟨⟨id, runtime⟩, hrow⟩
    obtain ⟨hruntime, hpasses⟩ := Table.mem_select_iff.mp hrow
    obtain ⟨rfl, ⟨account, hmem, hactive⟩, hcooldown, hquota⟩ : id = accountId ∧
        (∃ account, (accountId, account) ∈ s.accounts.rows ∧ account.status = .active) ∧
        cooldownEnded runtime now = true ∧ quotaExhausted accountId now s = false := by
      simpa using hpasses
    exact ⟨account, runtime, Table.mem_rows_iff.mp hmem, hruntime, hactive, hcooldown, hquota⟩
  · rintro ⟨account, runtime, haccount, hruntime, hactive, hcooldown, hquota⟩
    refine ⟨(accountId, runtime), Table.mem_select_iff.mpr ⟨hruntime, ?_⟩⟩
    have hjoined : ∃ account, (accountId, account) ∈ s.accounts.rows ∧ account.status = .active :=
      ⟨account, Table.mem_rows_iff.mpr haccount, hactive⟩
    simpa [hcooldown, hquota] using hjoined

/-- The acquisition reports whether it updated a row. -/
theorem acquireAccountIfAvailable_fst (accountId : Uuid) (now : Clock) (s : Store) :
    (acquireAccountIfAvailable accountId now s).1 =
      .ok (!(acquiredRows accountId now.instant s).isEmpty) := by
  rw [acquiredRows_isEmpty, acquireAccountIfAvailable]
  cases accountIsEligible accountId now.instant s <;> rfl

/-- The sticky rows name the account of a live affinity row, if it is eligible. -/
theorem mem_stickyRows_iff {keyHash : String} {settings : RuntimeSettings} :
    accountId ∈ stickyRows keyHash settings now s ↔
      ∃ affinity, s.affinity.find keyHash = some affinity ∧ affinity.accountId = accountId ∧
        now - 1000 * settings.stickySessionTtlSeconds ≤ affinity.lastUsedAt ∧
        accountIsEligible accountId now s = true := by
  simp only [stickyRows, List.mem_map, List.mem_filter, List.mem_flatMap]
  constructor
  · rintro ⟨⟨⟨key, affinity⟩, row⟩, ⟨⟨af, haf, joined, ⟨hjoined, hid⟩, heq⟩, hpasses⟩, rfl⟩
    cases heq
    obtain ⟨rfl, hactive, hlive, hcooldown, hquota⟩ : key = keyHash ∧
        row.account.status = .active ∧
        now ≤ affinity.lastUsedAt + 1000 * settings.stickySessionTtlSeconds ∧
        cooldownEnded row.runtime now = true ∧ quotaExhausted row.id now s = false := by
      simpa using hpasses
    have hid : row.id = affinity.accountId := by simpa using hid
    refine ⟨affinity, Table.mem_rows_iff.mp haf, rfl, sub_le_iff_le_add.mpr hlive, ?_⟩
    rw [hid] at hquota
    exact accountIsEligible_iff_joined.mpr ⟨row, hjoined, hid, hactive, hcooldown, hquota⟩
  · rintro ⟨affinity, haf, rfl, hlive, heligible⟩
    obtain ⟨row, hjoined, hid, hactive, hcooldown, hquota⟩ :=
      accountIsEligible_iff_joined.mp heligible
    refine ⟨((keyHash, affinity), row), ⟨⟨(keyHash, affinity), Table.mem_rows_iff.mpr haf, row,
      ⟨hjoined, by simp [hid]⟩, rfl⟩, ?_⟩, rfl⟩
    simp [hactive, hcooldown, hid, hquota]
    exact sub_le_iff_le_add.mp hlive

/-- The sticky lookup finds the account of a live affinity row exactly when it is eligible. -/
theorem stickyLookup_eq (keyHash : String) (settings : RuntimeSettings) (selectedAt : Instant)
    (s : Store) : stickyLookup keyHash settings selectedAt s =
      pinnedAccount keyHash settings selectedAt s := by
  ext accountId
  rw [stickyLookup, head?_eq_some_iff_mem, mem_stickyRows_iff, pinnedAccount,
    Option.bind_eq_some_iff]
  · constructor
    · rintro ⟨affinity, haf, rfl, hlive, heligible⟩
      exact ⟨affinity, haf, if_pos ⟨hlive, heligible⟩⟩
    · rintro ⟨affinity, haf, hif⟩
      split at hif
      · next h =>
        cases hif
        exact ⟨affinity, haf, rfl, h⟩
      · cases hif
  · intro a ha b hb
    obtain ⟨affinity, haf, rfl, -⟩ := mem_stickyRows_iff.mp ha
    obtain ⟨affinity', haf', rfl, -⟩ := mem_stickyRows_iff.mp hb
    rw [haf, Option.some.injEq] at haf'
    rw [haf']

/-! ### The status page -/

/-- The timestamps of an account's windows are `NULL` or well formed. -/
def WindowTimesWellFormed (accountId : Uuid) (s : Store) : Prop :=
  ∀ key window, s.usageWindows.find key = some window → key.accountId = accountId →
    window.resetAt ≠ some none ∧ window.fetchedAt ≠ none

private theorem any_of_mapM {α β : Type} {f : α → Option β} {p : β → Bool} {q : α → Bool}
    {rows : List α} (h : ∀ a ∈ rows, ∃ b, f a = some b ∧ p b = q a) :
    ∃ out, rows.mapM f = some out ∧ out.any p = rows.any q := by
  induction rows with
  | nil => exact ⟨[], rfl, rfl⟩
  | cons a rows ih =>
    obtain ⟨b, hb, hpq⟩ := h a List.mem_cons_self
    obtain ⟨out, hout, hany⟩ := ih fun a ha ↦ h a (List.mem_cons_of_mem _ ha)
    refine ⟨b :: out, ?_, ?_⟩
    · rw [List.mapM_cons, hb, hout]
      rfl
    · rw [List.any_cons, List.any_cons, hpq, hany]

/-- The page shows every window of the account, and one of them is exhausted exactly when the
account's quota is. -/
theorem accountQuotas_exhausted (htimes : WindowTimesWellFormed accountId s) (now : Instant) :
    ∃ quotas, accountQuotas accountId s = some quotas ∧
      (quotas.any fun window ↦
        window.quotaKey == "codex" && decide (100 ≤ window.usedPercent) &&
          window.resetAt.all fun resetAt ↦ decide (now < resetAt)) =
        quotaExhausted accountId now s := by
  have hdecode : ∀ row ∈ s.usageWindows.select fun key _ ↦ key.accountId == accountId,
      ∃ window, windowStatus row.1 row.2 = some window ∧
        (window.quotaKey == "codex" && decide (100 ≤ window.usedPercent) &&
          window.resetAt.all fun resetAt ↦ decide (now < resetAt)) =
        (row.1.quotaKey == "codex" && decide (100 ≤ row.2.usedPercent) &&
          (julianday row.2.resetAt).all fun resetAt ↦ decide (now < resetAt)) := by
    rintro ⟨key, window⟩ hrow
    obtain ⟨hfind, hkey⟩ := Table.mem_select_iff.mp hrow
    obtain ⟨hreset, hfetched⟩ := htimes key window hfind (by simpa using hkey)
    obtain ⟨fetchedAt, hfetched⟩ := Option.ne_none_iff_exists'.mp hfetched
    cases hresetAt : window.resetAt with
    | none => exact ⟨_, by simp [windowStatus, hresetAt, hfetched, decodeTime]; rfl, rfl⟩
    | some time =>
      cases time with
      | none => exact absurd hresetAt hreset
      | some resetAt =>
        exact ⟨_, by simp [windowStatus, hresetAt, hfetched, decodeTime]; rfl, rfl⟩
  obtain ⟨quotas, hquotas, hany⟩ := any_of_mapM hdecode
  refine ⟨quotas.insertionSort fun a b ↦ quotaNotAfter a b = true, ?_, ?_⟩
  · rw [accountQuotas, hquotas, Option.map_some]
  · rw [(List.perm_insertionSort _ quotas).any_eq, hany, Table.select, List.any_filter,
      quotaExhausted]
    congr 1
    funext row
    rcases row.2.resetAt with _ | _ | resetAt <;> simp [julianday, Bool.and_assoc]

/-- The page shows an account as available exactly when it is eligible. -/
theorem accountStatus_available (hstored : s.accounts.has accountId = true)
    (hruntime : s.accountRuntimeState.has accountId = true)
    (htimes : WindowTimesWellFormed accountId s) (index : Nat) (selected : Bool) (now : Instant) :
    (accountStatus accountId index selected now s).map StatusRow.available =
      some (accountIsEligible accountId now s) := by
  obtain ⟨account, haccount⟩ := Table.has_iff.mp hstored
  obtain ⟨runtime, hruntime⟩ := Table.has_iff.mp hruntime
  obtain ⟨quotas, hquotas, hexhausted⟩ := accountQuotas_exhausted htimes now
  have hcooldown : (runtime.cooldownUntil.all fun cooldownUntil ↦ decide (cooldownUntil ≤ now)) =
      cooldownEnded runtime now := by
    unfold cooldownEnded
    cases runtime.cooldownUntil <;> rfl
  simp only [accountStatus, accountSummary, toAccountStatus, accountIsEligible, haccount, hruntime,
    hquotas, Option.map_some, Option.bind_some, bind, pure, hexhausted, hcooldown]
  rfl

/-- **All eligibility tests agree.** At one instant, on a stored account with a runtime row and well
formed times: the smart filter, the check of a turn, the acquisition, the sticky lookup for any live
affinity row that names the account, and the status page give the same verdict. -/
theorem eligibility_tests_agree (s : Store) (accountId : Uuid) (now : Instant)
    (hstored : s.accounts.has accountId = true)
    (hruntime : s.accountRuntimeState.has accountId = true)
    (htimes : WindowTimesWellFormed accountId s) (index : Nat) (selected : Bool) :
    ∃ verdict : Bool,
      (accountId ∈ smartFilter [] now s ↔ verdict = true) ∧
      accountIsEligibleInTransaction accountId now s = verdict ∧
      (!(acquiredRows accountId now s).isEmpty) = verdict ∧
      (∀ (keyHash : String) (settings : RuntimeSettings) (affinity : Affinity),
        s.affinity.find keyHash = some affinity → affinity.accountId = accountId →
        now - 1000 * settings.stickySessionTtlSeconds ≤ affinity.lastUsedAt →
          (stickyLookup keyHash settings now s = some accountId ↔ verdict = true)) ∧
      (accountStatus accountId index selected now s).map StatusRow.available = some verdict := by
  refine ⟨accountIsEligible accountId now s, ?_, accountIsEligibleInTransaction_eq,
    acquiredRows_isEmpty, ?_, accountStatus_available hstored hruntime htimes index selected now⟩
  · rw [mem_smartFilter_iff]
    simp
  · intro keyHash settings affinity haffinity hpinned hlive
    rw [stickyLookup_eq, pinnedAccount, haffinity, Option.bind_some, hpinned]
    simp [hlive]

/-- A store with one account, which is pinned, and whose Codex window was exhausted until an instant
ago. -/
def renewedAccount : Store :=
  { Store.initial ⟨[(1, importedAccount ⟨"access", "refresh", "id"⟩ none
      ⟨none, "renewed@example.invalid", "plus", none⟩ "renewed" 0)], by simp⟩ with
    usageWindows := ⟨[(⟨1, "codex", "primary"⟩,
      ⟨"Codex", "5h", 100, some 18000, some (some 999), some 0⟩)], by simp⟩
    affinity := ⟨[("key", ⟨"session", 1, 0, 0⟩)], by simp⟩ }

/-- The tests agree on the account. -/
theorem eligibility_tests_agree_renewed : ∃ verdict : Bool,
    (1 ∈ smartFilter [] 1000 renewedAccount ↔ verdict = true) ∧
    accountIsEligibleInTransaction 1 1000 renewedAccount = verdict ∧
    (!(acquiredRows 1 1000 renewedAccount).isEmpty) = verdict ∧
    (stickyLookup "key" .default 1000 renewedAccount = some 1 ↔ verdict = true) ∧
    (accountStatus 1 0 false 1000 renewedAccount).map StatusRow.available = some verdict := by
  have htimes : WindowTimesWellFormed 1 renewedAccount := by
    intro key window hfind _
    have hrow := List.mem_singleton.mp (Table.mem_rows_iff.mpr hfind)
    rw [Prod.mk.injEq] at hrow
    rw [hrow.2]
    exact ⟨by decide, by decide⟩
  obtain ⟨verdict, hsmart, hturn, hacquired, hsticky, hpage⟩ :=
    eligibility_tests_agree renewedAccount 1 1000 rfl rfl htimes 0 false
  exact ⟨verdict, hsmart, hturn, hacquired, hsticky "key" .default ⟨"session", 1, 0, 0⟩ rfl rfl
    (by decide), hpage⟩

end Tests

end CodexLb
