import CodexLb.Daemon.Reservation
import CodexLb.Proxy.Attempt

/-!
# What an attempt touches

The writes of an attempt on an account, whatever its request is for: they
reach the rows of that account in two tables, and nothing else. A selection
counts one more request of the account that it gives, and leaves the accounts
alone that it was to exclude.
-/

namespace CodexLb.Proxy

open Relational

/-- Accounts are rewritten and nothing else, and only the rows of one account differ, of which
the count of requests differs by a number. -/
structure Touches (accountId : Uuid) (n : Int) (s t : Store) : Prop where
  frame : t = { s with accounts := t.accounts, accountRuntimeState := t.accountRuntimeState }
  has : ∀ id, t.accounts.has id = s.accounts.has id
  account : ∀ id, id ≠ accountId → t.accounts.find id = s.accounts.find id
  runtime : ∀ id, id ≠ accountId → t.accountRuntimeState.find id = s.accountRuntimeState.find id
  inflight : t.inflight accountId = s.inflight accountId + n

namespace Touches

variable {accountId : Uuid} {n m : Int} {s t u : Store}

/-- Nothing was written. -/
theorem refl (accountId : Uuid) (s : Store) : Touches accountId 0 s s :=
  ⟨rfl, fun _ ↦ rfl, fun _ _ ↦ rfl, fun _ _ ↦ rfl, (Int.add_zero _).symm⟩

/-- Writes compose. -/
theorem trans (h : Touches accountId n s t) (k : Touches accountId m t u) :
    Touches accountId (n + m) s u where
  frame := by rw [k.frame, h.frame]
  has id := (k.has id).trans (h.has id)
  account id hid := (k.account id hid).trans (h.account id hid)
  runtime id hid := (k.runtime id hid).trans (h.runtime id hid)
  inflight := by rw [k.inflight, h.inflight, Int.add_assoc]

/-- A write that keeps the count, after others. -/
theorem trans_zero (h : Touches accountId n s t) (k : Touches accountId 0 t u) :
    Touches accountId n s u := by
  have hboth := h.trans k
  rwa [Int.add_zero] at hboth

/-- Touching accounts leaves the log alone. -/
theorem logKept (h : Touches accountId n s t) : LogKept s t := ⟨by rw [h.frame], h.has⟩

/-- The row of an account is rewritten. -/
theorem updateAccount (accountId : Uuid) (f : Account → Account) (s : Store) :
    Touches accountId 0 s
      { s with accounts := s.accounts.update (fun k _ ↦ k = accountId) f } where
  frame := rfl
  has := Table.has_update s.accounts _ f
  account _ hid := Table.find_update_ne s.accounts hid f
  runtime _ _ := rfl
  inflight := (Int.add_zero _).symm

/-- The runtime row of an account is rewritten. -/
theorem updateRuntime (accountId : Uuid) (f : AccountRuntimeState → AccountRuntimeState)
    (s : Store) : Touches accountId
      ((s.updateRuntime accountId f).inflight accountId - s.inflight accountId) s
      (s.updateRuntime accountId f) where
  frame := rfl
  has _ := rfl
  account _ _ := rfl
  runtime _ hid := Table.find_update_ne s.accountRuntimeState hid f
  inflight := by omega

/-- A row is ensured. -/
theorem ensureRuntimeRow (accountId : Uuid) (s : Store) :
    Touches accountId 0 s (ensureRuntimeRow accountId s).2 := by
  unfold CodexLb.ensureRuntimeRow
  split
  · exact .refl accountId s
  · next hmissing =>
    split
    · refine ⟨rfl, fun _ ↦ rfl, fun _ _ ↦ rfl, fun id hid ↦ ?_, ?_⟩
      · rw [Table.find_insert, if_neg hid]
      · have hnone : s.accountRuntimeState.find accountId = none :=
          Table.has_eq_false_iff.mp (Bool.eq_false_of_not_eq_true hmissing)
        rw [Store.inflight, Table.find_insert, if_pos rfl, Store.inflight, hnone]
        rfl
    · exact .refl accountId s

/-- An account is cooled down, or marked. -/
theorem penalty (penalty : Penalty) (accountId : Uuid) (now : Instant) (s : Store) :
    Touches accountId 0 s (penalty.apply accountId now s) := by
  cases penalty with
  | cooldown seconds reason =>
    have hensured := ensureRuntimeRow accountId s
    show Touches accountId 0 s (cooldownAccount accountId seconds reason now s).2
    unfold cooldownAccount
    split
    · next hu =>
      rw [hu] at hensured
      exact hensured
    · next t hu =>
      rw [hu] at hensured
      refine hensured.trans_zero ?_
      have hcooled := updateRuntime accountId (fun runtime ↦ { runtime with
        cooldownUntil := some (cooldownDeadline now seconds)
        cooldownReason := some reason
        failureCount := runtime.failureCount + 1 }) t
      rwa [inflight_updateRuntime, if_pos rfl, Store.inflight, Int.sub_self] at hcooled
  | authFailed reason => exact updateAccount accountId _ s

/-- A penalty outlives a rewritten runtime row that keeps its cooldown. -/
theorem penalised_updateRuntime {id : Uuid} {now : Instant} (h : Penalised id now s)
    {f : AccountRuntimeState → AccountRuntimeState}
    (hf : ∀ runtime, (f runtime).cooldownUntil = runtime.cooldownUntil) :
    Penalised id now (s.updateRuntime accountId f) := by
  rcases h with hmarked | ⟨runtime, ends, hruntime, hends, hnow⟩
  · exact .inl hmarked
  · by_cases he : id = accountId
    · refine .inr ⟨f runtime, ends, ?_, (hf runtime).trans hends, hnow⟩
      rw [find_updateRuntime, hruntime, Option.map_some, if_pos he]
    · refine .inr ⟨runtime, ends, ?_, hends, hnow⟩
      rw [find_updateRuntime, hruntime, Option.map_some, if_neg he]

/-- A positive count is released. -/
theorem release (updateLastRequest : Bool) (now : Instant) (h : 1 ≤ s.inflight accountId) :
    Touches accountId (-1) s (releaseAccountInner accountId updateLastRequest now s).2 := by
  have hreleased : (releaseAccountInner accountId updateLastRequest now s).2.inflight accountId =
      max 0 (s.inflight accountId - 1) := by rw [inflight_releaseAccountInner, if_pos rfl]
  refine ⟨rfl, fun _ ↦ rfl, fun _ _ ↦ rfl, fun id hid ↦ ?_, ?_⟩
  · exact Table.find_update_ne s.accountRuntimeState hid _
  · rw [hreleased]
    omega

variable [UuidText]

/-- A refresh writes the row of its account, or nothing. -/
theorem refreshAccountTokens (crypto : TokenCrypto) (accountId : Uuid) (exchange : TokenExchange)
    (s : Store) : Touches accountId 0 s (refreshAccountTokens crypto accountId exchange s).2 := by
  unfold CodexLb.Proxy.refreshAccountTokens
  split
  · exact .refl accountId s
  · split
    · exact .refl accountId s
    · split
      · exact .refl accountId s
      · rw [storeTokens_snd]
        unfold updateAccountTokens
        split
        · exact .refl accountId s
        · split
          · exact .refl accountId s
          · exact updateAccount accountId _ s

/-- A refresh of a selected account writes its row, or nothing. -/
theorem refreshSelected (crypto : TokenCrypto) (exchange : TokenExchange)
    (selected : SelectedAccount) (s : Store) :
    Touches selected.accountId 0 s (refreshSelected crypto exchange selected s).2 := by
  have hrefreshed := refreshAccountTokens crypto selected.accountId exchange s
  unfold CodexLb.Proxy.refreshSelected
  split
  · next hr =>
    rw [hr] at hrefreshed
    exact hrefreshed
  · next hr =>
    rw [hr] at hrefreshed
    split
    · exact hrefreshed
    · exact hrefreshed

omit [UuidText] in
/-- Another account stays penalised. -/
theorem penalised (h : Touches accountId n s t) {id : Uuid} (hid : id ≠ accountId)
    {now : Instant} (hpenalised : Penalised id now s) : Penalised id now t := by
  unfold Penalised at hpenalised ⊢
  rw [h.account id hid, h.runtime id hid]
  exact hpenalised

omit [UuidText] in
/-- The count of another account is as before. -/
theorem inflight_ne (h : Touches accountId n s t) {id : Uuid} (hid : id ≠ accountId) :
    t.inflight id = s.inflight id := by
  rw [Store.inflight, h.runtime id hid, Store.inflight]

end Touches

/-- The account is held no longer: its count is one less, if it was positive. -/
def Returns (accountId : Uuid) (s t : Store) : Prop :=
  ∃ n, Touches accountId n s t ∧ (1 ≤ s.inflight accountId → n = -1)

/-- A release after writes that keep the count. -/
theorem Touches.returns {accountId : Uuid} {s t : Store} (h : Touches accountId 0 s t)
    (updateLastRequest : Bool) (now : Instant) :
    Returns accountId s (releaseAccountInner accountId updateLastRequest now t).2 := by
  have hcount := h.inflight
  by_cases hpositive : 1 ≤ s.inflight accountId
  · exact ⟨0 + -1, h.trans (.release updateLastRequest now (by omega)), fun _ ↦ rfl⟩
  · exact ⟨_, h.trans (.updateRuntime accountId _ t), fun hone ↦ absurd hone hpositive⟩

/-! ### Selections -/

section Selections

variable [UuidText] {crypto : TokenCrypto} {affinity : Option SessionRouteKey}
  {excluded : List Uuid} {settings : RuntimeSettings} {usageRefreshInterval : Nat}
  {selectedAt now : Clock} {s : Store}

/-- A selection without an account: no account is written, nor any runtime row of the excluded
ones, and no count differs. -/
structure Spares (excluded : List Uuid) (s t : Store) : Prop where
  frame : t = { s with accounts := t.accounts, accountRuntimeState := t.accountRuntimeState }
  has : ∀ id, t.accounts.has id = s.accounts.has id
  account : ∀ id, t.accounts.find id = s.accounts.find id
  runtime : ∀ id ∈ excluded, t.accountRuntimeState.find id = s.accountRuntimeState.find id
  inflight : ∀ id, 0 ≤ s.inflight id → t.inflight id = s.inflight id

/-- How a selection ends: no account is acquired, or one that is eligible and not excluded is
acquired and read, or acquired, not read and released. -/
inductive Selects (crypto : TokenCrypto) (excluded : List Uuid) (s : Store) :
    Except AppError SelectedAccount × Store → Prop
  | none (error : AppError) : Selects crypto excluded s (.error error, s)
  | read {accountId : Uuid} {at' : Instant} {f : AccountRuntimeState → AccountRuntimeState}
      {reason : SelectionReason} {selected : SelectedAccount}
      (eligible : accountIsEligible accountId at' s = true) (fresh : accountId ∉ excluded)
      (counts : ∀ runtime, (f runtime).inflightCount = runtime.inflightCount + 1)
      (h : selectedAccount crypto accountId reason (s.updateRuntime accountId f) = .ok selected) :
      Selects crypto excluded s (.ok selected, s.updateRuntime accountId f)
  | unread {accountId : Uuid} {at' : Instant} {f : AccountRuntimeState → AccountRuntimeState}
      (eligible : accountIsEligible accountId at' s = true) (fresh : accountId ∉ excluded)
      (counts : ∀ runtime, (f runtime).inflightCount = runtime.inflightCount + 1)
      (error : AppError) (now : Instant) :
      Selects crypto excluded s
        (.error error, (releaseAccount accountId now (s.updateRuntime accountId f)).2)

omit [UuidText] in
private theorem acquired_touches {accountId : Uuid} {at' : Instant}
    {f : AccountRuntimeState → AccountRuntimeState}
    (eligible : accountIsEligible accountId at' s = true)
    (counts : ∀ runtime, (f runtime).inflightCount = runtime.inflightCount + 1) :
    Touches accountId 1 s (s.updateRuntime accountId f) := by
  have htouches := Touches.updateRuntime accountId f s
  obtain ⟨_, runtime, -, hruntime, -⟩ := accountIsEligible_iff.mp eligible
  have hone : (s.updateRuntime accountId f).inflight accountId - s.inflight accountId = 1 := by
    rw [inflight_updateRuntime, if_pos rfl, Store.inflight, hruntime]
    show (f runtime).inflightCount - runtime.inflightCount = 1
    rw [counts]
    omega
  rwa [hone] at htouches

/-- A selection that gives an account counts one more request of it. -/
theorem Selects.touches {selected : SelectedAccount} {t : Store}
    (h : Selects crypto excluded s (.ok selected, t)) : Touches selected.accountId 1 s t := by
  cases h with
  | read eligible fresh counts hread =>
    rw [selectedAccount_accountId hread]
    exact acquired_touches eligible counts

end Selections

/-! ### Attempts under way -/

/-- An attempt under way that holds the account of its selection. -/
structure Underway (accountId : Uuid) (before : Store) (contacts : Nat) (free : Bool)
    (answer : Option BufferedUpstream) (t : AttemptTrace) : Prop where
  running : t.Running before contacts free answer
  touches : Touches accountId 0 before t.store

namespace Underway

variable {accountId : Uuid} {before s : Store} {contacts : Nat} {free next : Bool}
  {answer : Option BufferedUpstream} {t : AttemptTrace}

/-- More effects of an attempt under way. -/
theorem append (h : Underway accountId before contacts free answer t)
    (hs : Touches accountId 0 t.store s) (more : List AttemptEffect)
    (hfree : more.foldlM AttemptEffect.allows free = some next)
    (hquiet : more.filterMap AttemptEffect.stream? = []) :
    Underway accountId before (contacts + more.countP AttemptEffect.isContact) next
      (more.foldl AttemptEffect.answer answer) ⟨s, t.effects ++ more⟩ :=
  ⟨h.running.append hs.logKept more hfree hquiet, h.touches.trans_zero hs⟩

/-- Between two contacts of an attempt under way and what ends it, which contacts nobody, the
tokens were refreshed. -/
theorem refreshedBetween (h : Underway accountId before contacts free answer t)
    (ending : List StreamEffect) :
    RefreshedBetween (t.effects ++ ending.map AttemptEffect.stream) := by
  have hallowed : (t.effects ++ ending.map AttemptEffect.stream).foldlM AttemptEffect.allows
      true = some free := by
    rw [List.foldlM_append, h.running.free]
    induction ending with
    | nil => rfl
    | cons effect ending ih => exact ih
  exact refreshedBetween_of_allows hallowed

/-- What ends an attempt under way contacts nobody. -/
theorem countP_contacts (h : Underway accountId before contacts free answer t)
    (ending : List StreamEffect) :
    (t.effects ++ ending.map AttemptEffect.stream).countP AttemptEffect.isContact = contacts := by
  rw [List.countP_append, h.running.contacts]
  induction ending with
  | nil => rfl
  | cons effect ending ih => exact ih

/-- What ends an attempt under way is all that it binds, logs and releases. -/
theorem filterMap_stream (h : Underway accountId before contacts free answer t)
    (ending : List StreamEffect) :
    (t.effects ++ ending.map AttemptEffect.stream).filterMap AttemptEffect.stream? = ending := by
  rw [List.filterMap_append, h.running.quiet, List.nil_append, List.filterMap_map]
  exact List.filterMap_some

end Underway

/-- An attempt under way after at most some contacts. -/
def Contacting (accountId : Uuid) (before : Store) (n : Nat) (t : AttemptTrace) : Prop :=
  ∃ contacts free answer, contacts ≤ n ∧ Underway accountId before contacts free answer t

/-- The effects of a request that is sent, or cannot be built. -/
def Sends (effects : List AttemptEffect) : Prop :=
  effects = [] ∨ ∃ token, effects = [.contacted token]

namespace Contacting

variable {accountId : Uuid} {before s : Store} {n : Nat} {answer : Option BufferedUpstream}
  {t : AttemptTrace} {sent : List AttemptEffect}

/-- The writes of an attempt under way. -/
theorem touches (h : Contacting accountId before n t) : Touches accountId 0 before t.store := by
  obtain ⟨_, _, _, _, hunderway⟩ := h
  exact hunderway.touches

/-- More contacts are allowed. -/
theorem mono (h : Contacting accountId before n t) {m : Nat} (hnm : n ≤ m) :
    Contacting accountId before m t := by
  obtain ⟨contacts, free, answer, hcontacts, hunderway⟩ := h
  exact ⟨contacts, free, answer, hcontacts.trans hnm, hunderway⟩

/-- The first request. -/
theorem first (h : Underway accountId before 0 true answer t) (hsent : Sends sent) :
    Contacting accountId before 1 { t with effects := t.effects ++ sent } := by
  rcases hsent with rfl | ⟨token, rfl⟩
  · exact ⟨0, true, answer, by decide, h.append (.refl _ _) [] rfl rfl⟩
  · exact ⟨1, false, none, by decide, h.append (.refl _ _) [.contacted token] rfl rfl⟩

/-- A write on the account, and effects other than contacts. -/
theorem append (h : Contacting accountId before n t) (hs : Touches accountId 0 t.store s)
    (more : List AttemptEffect)
    (hfree : ∀ free, ∃ next, more.foldlM AttemptEffect.allows free = some next)
    (hcount : more.countP AttemptEffect.isContact = 0)
    (hquiet : more.filterMap AttemptEffect.stream? = []) :
    Contacting accountId before n ⟨s, t.effects ++ more⟩ := by
  obtain ⟨contacts, free, answer, hcontacts, hunderway⟩ := h
  obtain ⟨next, hnext⟩ := hfree free
  exact ⟨_, next, _, by rwa [hcount], hunderway.append hs more hnext hquiet⟩

/-- A write on the account alone. -/
theorem write (h : Contacting accountId before n t) (hs : Touches accountId 0 t.store s) :
    Contacting accountId before n ⟨s, t.effects⟩ := by
  have hmore := h.append hs [] (fun free ↦ ⟨free, rfl⟩) rfl rfl
  rwa [List.append_nil] at hmore

/-- One more request, after a refresh. -/
theorem again (h : Contacting accountId before n t) (hs : Touches accountId 0 t.store s)
    (lead : List AttemptEffect)
    (hfree : ∀ free, lead.foldlM AttemptEffect.allows free = some true)
    (hcount : lead.countP AttemptEffect.isContact = 0)
    (hquiet : lead.filterMap AttemptEffect.stream? = []) (hsent : Sends sent) :
    Contacting accountId before (n + 1) ⟨s, t.effects ++ (lead ++ sent)⟩ := by
  obtain ⟨contacts, free, answer, hcontacts, hunderway⟩ := h
  have hled := hunderway.append hs lead (hfree free) hquiet
  rw [hcount, Nat.add_zero] at hled
  rw [← List.append_assoc]
  rcases hsent with rfl | ⟨token, rfl⟩
  · exact ⟨contacts, _, _, by omega, hled.append (.refl _ _) [] rfl rfl⟩
  · exact ⟨contacts + 1, _, _, by omega, hled.append (.refl _ _) [.contacted token] rfl rfl⟩

/-- What an attempt has done when it ends. -/
theorem ended (h : Contacting accountId before n t) (ending : List StreamEffect) :
    (t.effects ++ ending.map AttemptEffect.stream).countP AttemptEffect.isContact ≤ n ∧
      RefreshedBetween (t.effects ++ ending.map AttemptEffect.stream) ∧
      (t.effects ++ ending.map AttemptEffect.stream).filterMap AttemptEffect.stream? =
        ending := by
  obtain ⟨contacts, free, answer, hcontacts, hunderway⟩ := h
  refine ⟨?_, hunderway.refreshedBetween ending, hunderway.filterMap_stream ending⟩
  rw [hunderway.countP_contacts]
  exact hcontacts

end Contacting

end CodexLb.Proxy
