import CodexLb.Proxy.Request
import CodexLb.Upstream.Polling

/-!
# Polling every account

`refresh_all_usage`, `src/upstream.rs:162–186`, which the scheduler runs on a
timer. The accounts are polled one after the other; a poll touches the rows of
its own account only, and a failure ends the poll of one account.
-/

namespace CodexLb

open Relational Proxy

/-! ### The rows of an account -/

/-- Two stores have the same usage of an account. -/
structure SameUsage (accountId : Uuid) (s t : Store) : Prop where
  windows : ∀ key : UsageWindowKey, key.accountId = accountId →
    t.usageWindows.find key = s.usageWindows.find key
  samples : t.usageSamples.filter (·.accountId = accountId) =
    s.usageSamples.filter (·.accountId = accountId)
  snapshots : t.usageSnapshots.filter (·.accountId = accountId) =
    s.usageSnapshots.filter (·.accountId = accountId)

/-- Two stores have the same account and the same usage of it. -/
structure SameRows (accountId : Uuid) (s t : Store) : Prop extends SameUsage accountId s t where
  account : t.accounts.find accountId = s.accounts.find accountId

section Rows

variable {i id : Uuid} {s t u : Store}

/-- A store has its own usage. -/
theorem SameUsage.refl (i : Uuid) (s : Store) : SameUsage i s s := ⟨fun _ _ ↦ rfl, rfl, rfl⟩

/-- Usage stays the same over two steps. -/
theorem SameUsage.trans (h : SameUsage i s t) (h' : SameUsage i t u) : SameUsage i s u where
  windows key hkey := (h'.windows key hkey).trans (h.windows key hkey)
  samples := h'.samples.trans h.samples
  snapshots := h'.snapshots.trans h.snapshots

/-- A store has its own rows. -/
theorem SameRows.refl (i : Uuid) (s : Store) : SameRows i s s :=
  ⟨.refl i s, rfl⟩

/-- Rows stay the same over two steps. -/
theorem SameRows.trans (h : SameRows i s t) (h' : SameRows i t u) : SameRows i s u where
  toSameUsage := h.toSameUsage.trans h'.toSameUsage
  account := h'.account.trans h.account

/-- Writing the row of another account leaves the rows of an account alone. -/
theorem SameRows.updateAccount (hne : i ≠ id) (s : Store) (f : Account → Account) :
    SameRows i s { s with accounts := s.accounts.update (fun k _ ↦ k = id) f } :=
  ⟨⟨fun _ _ ↦ rfl, rfl, rfl⟩, Table.find_update_ne _ hne f⟩

/-- A usage window that is inserted is the first one in its slot. -/
theorem insertUsageWindow_ok {fetchedAt : Instant} {window : ParsedUsageWindow}
    (h : insertUsageWindow id fetchedAt s window = .ok t) :
    ∃ usedPercent sample, s.usageWindows.find ⟨id, window.quotaKey, window.sourceSlot⟩ = none ∧
      sample.accountId = id ∧ t = { s with
        usageWindows := s.usageWindows.insert ⟨id, window.quotaKey, window.sourceSlot⟩
          (window.row usedPercent fetchedAt)
        usageSamples := s.usageSamples ++ [sample] } := by
  unfold insertUsageWindow at h
  simp only at h
  split at h
  · cases h
  · split at h
    · cases h
    · split at h
      · cases h
      · next hnew =>
        cases h
        exact ⟨_, _, Table.has_eq_false_iff.mp (by simpa using hnew), rfl, rfl⟩

/-- What the insertion of one usage window keeps, the insertion of all of them keeps. -/
theorem insertUsageWindows_keeps {P : Store → Prop} {fetchedAt : Instant}
    {windows : List ParsedUsageWindow}
    (hstep : ∀ s t window, P s → insertUsageWindow id fetchedAt s window = .ok t → P t)
    (hs : P s) (h : windows.foldlM (insertUsageWindow id fetchedAt) s = .ok t) : P t := by
  induction windows generalizing s with
  | nil =>
    cases h
    exact hs
  | cons window windows ih =>
    rw [List.foldlM_cons] at h
    obtain ⟨u, hu, h⟩ := bind_eq_ok.mp h
    exact ih (hstep s u window hs hu) h

/-- Another account's usage window leaves the rows of an account alone. -/
theorem SameRows.insertUsageWindow (hne : i ≠ id) {fetchedAt : Instant}
    {window : ParsedUsageWindow} (h : CodexLb.insertUsageWindow id fetchedAt s window = .ok t) :
    SameRows i s t := by
  obtain ⟨usedPercent, sample, -, hsample, rfl⟩ := insertUsageWindow_ok h
  refine ⟨⟨?_, ?_, rfl⟩, rfl⟩
  · intro key hkey
    have hother : key ≠ ⟨id, window.quotaKey, window.sourceSlot⟩ := by
      rintro rfl
      exact hne hkey.symm
    simp [hother]
  · simp [List.filter_append, hsample, Ne.symm hne]

/-- Replacing another account's usage windows leaves the rows of an account alone. -/
theorem SameRows.replaceUsageWindows (hne : i ≠ id) (planType : Option String)
    (fetchedAt : Instant) (windows : List ParsedUsageWindow) (s : Store) :
    SameRows i s (CodexLb.replaceUsageWindows id planType fetchedAt windows s).2 := by
  unfold CodexLb.replaceUsageWindows
  split
  · exact .refl i s
  · split
    · exact .refl i s
    · next t ht =>
      have hdeleted : SameRows i s { s with
          usageWindows := s.usageWindows.delete fun k _ ↦ k.accountId = id } := by
        refine ⟨⟨?_, rfl, rfl⟩, rfl⟩
        intro key hkey
        have hother : key.accountId ≠ id := by
          rw [hkey]
          exact hne
        rw [Table.find_delete]
        exact Table.filter_of_forall fun _ _ ↦ by simp [hother]
      exact (insertUsageWindows_keeps (fun u v _ hu h ↦ hu.trans (.insertUsageWindow hne h))
        hdeleted ht).trans (.updateAccount hne t _)

/-- Another account's snapshot leaves the rows of an account alone. -/
theorem SameRows.insertUsageSnapshot (hne : i ≠ id) (now : Instant) (s : Store) :
    SameRows i s (CodexLb.insertUsageSnapshot id now s).2 := by
  unfold CodexLb.insertUsageSnapshot
  split
  · refine ⟨⟨fun _ _ ↦ rfl, rfl, ?_⟩, rfl⟩
    simp [List.filter_append, Ne.symm hne]
  · exact .refl i s

end Rows

/-! ### One account -/

/-- What holds stays so whatever others commit. -/
structure Meanwhile.Keeps (meanwhile : Meanwhile) (P : Store → Prop) : Prop where
  request : ∀ s, P s → P (meanwhile.request s)
  lock : ∀ s, P s → P (meanwhile.lock s)
  exchange : ∀ s, P s → P (meanwhile.exchange s)
  again : ∀ s, P s → P (meanwhile.again s)

/-- What polling an account meets: the answers of the usage endpoint and of the token endpoint, the
readings of the clock, and what others commit before the poll, during it and before its failure is
stored. -/
structure PollAnswers where
  first : UsageAnswer
  second : UsageAnswer
  exchange : TokenExchange
  fetchedAt : Instant
  now : Instant
  before : Store → Store
  meanwhile : Meanwhile
  failing : Store → Store

/-- Others leave the rows of an account alone. -/
structure PollAnswers.Spares (answers : PollAnswers) (i : Uuid) : Prop where
  before : ∀ s, SameRows i s (answers.before s)
  meanwhile : ∀ s, answers.meanwhile.Keeps (SameRows i s)
  failing : ∀ s, SameRows i s (answers.failing s)

section Poll

variable [UuidText] [JsonText] [JsonDisplay] [StatusReason] [ChronoRange] [FloatText]

/-- The body of the loop, `src/upstream.rs:170–184`. -/
def pollAccount (crypto : TokenCrypto) (accountId : Uuid) (answers : PollAnswers) (s : Store) :
    UsagePoll :=
  let poll := refreshAccountUsage crypto accountId answers.first answers.second answers.exchange
    answers.meanwhile answers.fetchedAt answers.now s
  match poll.ended with
  | .returned (.error e) =>
    { poll with
      store := (markUsageError accountId (errorText e) (answers.failing poll.store)).2 }
  | _ => poll

variable {crypto : TokenCrypto} {i id : Uuid} {answers : PollAnswers} {s t : Store}

omit [JsonText] [JsonDisplay] [StatusReason] [ChronoRange] [FloatText] in
/-- What others keep and a write of the account's row keeps is kept by a token refresh. -/
theorem refreshTokensAmid_keeps {P : Store → Prop} {meanwhile : Meanwhile}
    (hothers : meanwhile.Keeps P)
    (hwrite : ∀ s f, P s → P { s with accounts := s.accounts.update (fun k _ ↦ k = id) f })
    (crypto : TokenCrypto) (exchange : TokenExchange) (hs : P s) :
    P (refreshTokensAmid crypto id exchange meanwhile s).2.1 := by
  have hlock := hothers.lock s hs
  have hexchange := hothers.exchange _ hlock
  unfold refreshTokensAmid
  split
  · exact hs
  · dsimp only
    split
    · exact hlock
    · split
      · exact hlock
      · split
        · exact hlock
        · split
          · exact hexchange
          · change P (storeTokens id exchange (meanwhile.exchange (meanwhile.lock s))).2
            rw [storeTokens_snd]
            exact updateAccountTokens_keeps P hexchange (hwrite _ _ hexchange)

/-- A poll fails on a store, or stores the usage on one, that has what others keep and a write of
the account's row keeps. -/
theorem refreshAccountUsage_cases {P : Store → Prop} {meanwhile : Meanwhile}
    (hothers : meanwhile.Keeps P)
    (hwrite : ∀ s f, P s → P { s with accounts := s.accounts.update (fun k _ ↦ k = id) f })
    (crypto : TokenCrypto) (first second : UsageAnswer) (exchange : TokenExchange)
    (fetchedAt now : Instant) (hs : P s) :
    ∃ u sent, P u ∧
      ((∃ e, refreshAccountUsage crypto id first second exchange meanwhile fetchedAt now s =
          ⟨.returned (.error e), u, sent⟩) ∨
        ∃ raw, refreshAccountUsage crypto id first second exchange meanwhile fetchedAt now s =
          storeUsage id raw fetchedAt now u sent) := by
  have hrequest := hothers.request s hs
  have hrefreshed := refreshTokensAmid_keeps hothers hwrite crypto exchange hrequest
  unfold refreshAccountUsage
  split
  · exact ⟨s, _, hs, .inl ⟨_, rfl⟩⟩
  · split
    · exact ⟨s, _, hs, .inl ⟨_, rfl⟩⟩
    · dsimp only
      split
      · next raw _ => exact ⟨_, _, hrequest, .inr ⟨raw, rfl⟩⟩
      · split
        · split
          · next ht =>
            rw [ht] at hrefreshed
            exact ⟨_, _, hrefreshed, .inl ⟨_, rfl⟩⟩
          · next ht =>
            rw [ht] at hrefreshed
            split
            · exact ⟨_, _, hrefreshed, .inl ⟨_, rfl⟩⟩
            · have hagain := hothers.again _ hrefreshed
              split
              · exact ⟨_, _, hagain, .inl ⟨_, rfl⟩⟩
              · next raw _ => exact ⟨_, _, hagain, .inr ⟨raw, rfl⟩⟩
        · exact ⟨_, _, hrequest, .inl ⟨_, rfl⟩⟩

omit [UuidText] [JsonText] [JsonDisplay] [StatusReason] in
/-- Storing another account's usage leaves the rows of an account alone. -/
theorem SameRows.storeUsage (hne : i ≠ id) (raw : JsonValue) (fetchedAt now : Instant) (s : Store)
    (sent : List PollRequest) :
    SameRows i s (CodexLb.storeUsage id raw fetchedAt now s sent).store := by
  unfold CodexLb.storeUsage
  split
  · exact .refl i s
  · next windows _ =>
    dsimp only
    have hreplaced := SameRows.replaceUsageWindows hne
      (((raw.get "plan_type").or (raw.get "plan")).bind JsonValue.asStr) fetchedAt windows s
    split
    · next hu =>
      rw [hu] at hreplaced
      exact hreplaced
    · next u hu =>
      rw [hu] at hreplaced
      have hinserted := SameRows.insertUsageSnapshot hne now u
      split
      · next hv =>
        rw [hv] at hinserted
        exact hreplaced.trans hinserted
      · next hv =>
        rw [hv] at hinserted
        exact hreplaced.trans hinserted

/-- Polling another account leaves the rows of an account alone. -/
theorem SameRows.pollAccount (hne : i ≠ id) (hspares : answers.Spares i) (crypto : TokenCrypto)
    (s : Store) : SameRows i s (CodexLb.pollAccount crypto id answers s).store := by
  have hpoll : SameRows i s (refreshAccountUsage crypto id answers.first answers.second
      answers.exchange answers.meanwhile answers.fetchedAt answers.now s).store := by
    obtain ⟨u, sent, hu, ⟨e, heq⟩ | ⟨raw, heq⟩⟩ := refreshAccountUsage_cases (hspares.meanwhile s)
      (fun t f ht ↦ ht.trans (.updateAccount hne t f)) crypto answers.first answers.second
      answers.exchange answers.fetchedAt answers.now (.refl i s)
    · rw [heq]
      exact hu
    · rw [heq]
      exact hu.trans (.storeUsage hne raw _ _ u sent)
  unfold CodexLb.pollAccount
  dsimp only
  split
  · exact (hpoll.trans (hspares.failing _)).trans (.updateAccount hne _ _)
  · exact hpoll

/-! ### The account itself -/

/-- The usage of an account was fetched at an instant: the account says so and names no error, and
no window is older. -/
structure Refreshed (accountId : Uuid) (fetchedAt : Instant) (s : Store) : Prop where
  account : ∃ account, s.accounts.find accountId = some account ∧
    account.lastUsageRefreshAt = some fetchedAt ∧ account.lastUsageError = none
  windows : ∀ key row, key.accountId = accountId → s.usageWindows.find key = some row →
    row.fetchedAt = some fetchedAt

/-- What a refresh of usage leaves of its account: fresh usage, or the usage that there was. -/
def Leaves (accountId : Uuid) (fetchedAt : Instant) (s : Store) (poll : UsagePoll) : Prop :=
  match poll.ended with
  | .returned (.ok snapshot) =>
    snapshot.accountId = accountId ∧ Refreshed accountId fetchedAt poll.store
  | _ => SameUsage accountId s poll.store ∧ poll.store.accounts.has accountId = true

omit [UuidText] [JsonText] [JsonDisplay] [StatusReason] [ChronoRange] [FloatText] in
/-- A window that is inserted is as old as the payload. -/
theorem fetchedAt_insertUsageWindow {fetchedAt : Instant} {window : ParsedUsageWindow}
    (hs : ∀ key row, key.accountId = id → s.usageWindows.find key = some row →
      row.fetchedAt = some fetchedAt)
    (h : insertUsageWindow id fetchedAt s window = .ok t) :
    ∀ key row, key.accountId = id → t.usageWindows.find key = some row →
      row.fetchedAt = some fetchedAt := by
  obtain ⟨usedPercent, sample, hnew, -, rfl⟩ := insertUsageWindow_ok h
  intro key row hkey hrow
  rw [Table.find_insert, hnew] at hrow
  split at hrow
  · cases hrow
    rfl
  · exact hs key row hkey hrow

omit [UuidText] [JsonText] [JsonDisplay] [StatusReason] [ChronoRange] [FloatText] in
/-- The usage of a stored account is fresh once its windows are replaced. -/
theorem refreshed_replaceUsageWindows {planType : Option String} {fetchedAt : Instant}
    {windows : List ParsedUsageWindow} (hs : s.accounts.has id = true)
    (h : replaceUsageWindows id planType fetchedAt windows s = (.ok (), t)) :
    Refreshed id fetchedAt t := by
  obtain ⟨account, haccount⟩ := Table.has_iff.mp hs
  unfold replaceUsageWindows at h
  split at h
  · cases h
  · split at h
    · cases h
    · next u hu =>
      cases h
      constructor
      · refine ⟨refreshedAccount planType fetchedAt account, ?_, rfl, rfl⟩
        rw [insertUsageWindows_frame hu]
        rw [Table.find_update_self, haccount]
        rfl
      · intro key row hkey hrow
        refine insertUsageWindows_keeps (P := fun s ↦ ∀ key row, key.accountId = id →
          s.usageWindows.find key = some row → row.fetchedAt = some fetchedAt)
          (fun _ _ _ ↦ fetchedAt_insertUsageWindow) ?_ hu key row hkey hrow
        intro key row hkey hrow
        rw [Table.find_delete, Option.filter_eq_some_iff] at hrow
        simp [hkey] at hrow

omit [UuidText] [JsonText] [JsonDisplay] [StatusReason] [ChronoRange] [FloatText] in
/-- Windows that cannot be replaced leave the store alone. -/
theorem replaceUsageWindows_error {planType : Option String} {fetchedAt : Instant}
    {windows : List ParsedUsageWindow} {e : AppError}
    (h : replaceUsageWindows id planType fetchedAt windows s = (.error e, t)) : t = s := by
  unfold replaceUsageWindows at h
  split at h
  · cases h
    rfl
  · split at h
    · cases h
      rfl
    · cases h

omit [UuidText] [JsonText] [JsonDisplay] [StatusReason] in
/-- Storing the usage of a stored account succeeds with fresh usage, or leaves what there was. -/
theorem leaves_storeUsage (raw : JsonValue) (fetchedAt now : Instant)
    (hs : s.accounts.has id = true) (sent : List PollRequest) :
    Leaves id fetchedAt s (storeUsage id raw fetchedAt now s sent) := by
  unfold storeUsage
  split
  · exact ⟨.refl id s, hs⟩
  · next windows _ =>
    dsimp only
    split
    · next e u hu =>
      have hsame : u = s := replaceUsageWindows_error hu
      rw [hsame]
      exact ⟨.refl id s, hs⟩
    · next u hu =>
      have hfresh := refreshed_replaceUsageWindows hs hu
      obtain ⟨account, haccount, -⟩ := hfresh.account
      have hstored : u.accounts.has id = true := Table.has_iff.mpr ⟨account, haccount⟩
      unfold insertUsageSnapshot
      rw [if_pos hstored]
      exact ⟨rfl, hfresh.account, hfresh.windows⟩

/-- A refresh of usage of a stored account leaves fresh usage, or what there was. -/
theorem leaves_refreshAccountUsage (hspares : answers.Spares id) (crypto : TokenCrypto)
    (hs : s.accounts.has id = true) :
    Leaves id answers.fetchedAt s (refreshAccountUsage crypto id answers.first answers.second
      answers.exchange answers.meanwhile answers.fetchedAt answers.now s) := by
  have hkept : ∀ (t : Store) (f : Store → Store), (∀ s, SameRows id s t → SameRows id s (f t)) →
      (SameUsage id s t ∧ t.accounts.has id = true) →
        SameUsage id s (f t) ∧ (f t).accounts.has id = true := by
    rintro t f hf ⟨husage, hhas⟩
    have hrows := hf t (.refl id t)
    refine ⟨husage.trans hrows.toSameUsage, ?_⟩
    rw [Table.has, hrows.account]
    exact hhas
  obtain ⟨u, sent, ⟨husage, hhas⟩, ⟨e, heq⟩ | ⟨raw, heq⟩⟩ :=
    refreshAccountUsage_cases (P := fun t ↦ SameUsage id s t ∧ t.accounts.has id = true)
      ⟨fun t ↦ hkept t _ fun r ↦ (hspares.meanwhile r).request t,
        fun t ↦ hkept t _ fun r ↦ (hspares.meanwhile r).lock t,
        fun t ↦ hkept t _ fun r ↦ (hspares.meanwhile r).exchange t,
        fun t ↦ hkept t _ fun r ↦ (hspares.meanwhile r).again t⟩
      (fun t f ht ↦ ⟨ht.1.trans ⟨fun _ _ ↦ rfl, rfl, rfl⟩, by simpa using ht.2⟩) crypto
      answers.first answers.second answers.exchange answers.fetchedAt answers.now
      ⟨.refl id s, hs⟩
  · rw [heq]
    exact ⟨husage, hhas⟩
  · rw [heq]
    have hleaves := leaves_storeUsage raw answers.fetchedAt answers.now hhas sent
    unfold Leaves at hleaves ⊢
    split
    · next hended =>
      rw [hended] at hleaves
      exact hleaves
    · next hended =>
      split at hleaves
      · next snapshot hok => exact absurd hok (hended snapshot)
      · exact ⟨husage.trans hleaves.1, hleaves.2⟩

omit [UuidText] [JsonText] [JsonDisplay] [StatusReason] in
/-- A snapshot is of the account that is polled. -/
theorem accountId_of_storeUsage {raw : JsonValue} {fetchedAt now : Instant}
    {sent : List PollRequest} {snapshot : PolledSnapshot}
    (h : (storeUsage id raw fetchedAt now s sent).ended = .returned (.ok snapshot)) :
    snapshot.accountId = id := by
  unfold storeUsage at h
  split at h
  · cases h
  · dsimp only at h
    split at h
    · cases h
    · split at h
      · cases h
      · cases h
        rfl

/-- A poll ends as the refresh of usage does. -/
@[simp] theorem pollAccount_ended (crypto : TokenCrypto) (answers : PollAnswers) (s : Store) :
    (pollAccount crypto id answers s).ended = (refreshAccountUsage crypto id answers.first
      answers.second answers.exchange answers.meanwhile answers.fetchedAt answers.now s).ended := by
  unfold pollAccount
  dsimp only
  split
  · rfl
  · rfl

/-- The snapshot of a poll is of the account that is polled. -/
theorem accountId_of_pollAccount {snapshot : PolledSnapshot}
    (h : (pollAccount crypto id answers s).ended = .returned (.ok snapshot)) :
    snapshot.accountId = id := by
  rw [pollAccount_ended] at h
  have hothers : answers.meanwhile.Keeps fun _ ↦ True :=
    ⟨fun _ _ ↦ trivial, fun _ _ ↦ trivial, fun _ _ ↦ trivial, fun _ _ ↦ trivial⟩
  obtain ⟨u, sent, -, ⟨e, heq⟩ | ⟨raw, heq⟩⟩ := refreshAccountUsage_cases hothers
    (fun _ _ _ ↦ trivial) crypto answers.first answers.second answers.exchange answers.fetchedAt
    answers.now (s := s) trivial
  · rw [heq] at h
    cases h
  · rw [heq] at h
    exact accountId_of_storeUsage h

/-- What a store tells of an account by how its poll has ended: its usage is fresh, or it is what
it was before, with the error of the poll beside it. -/
def Told (accountId : Uuid) (fetchedAt : Instant) (s : Store) (ended : PollEnd) (t : Store) :
    Prop :=
  match ended with
  | .returned (.ok _) => Refreshed accountId fetchedAt t
  | .returned (.error e) => SameUsage accountId s t ∧
    ∃ account, t.accounts.find accountId = some account ∧
      account.lastUsageError = some (errorText e)
  | .panicked _ => SameUsage accountId s t

omit [UuidText] [JsonText] [JsonDisplay] [StatusReason] [ChronoRange] [FloatText] in
/-- What is told of an account is told from earlier and for longer, while its rows are the same. -/
theorem Told.sameRows {r : Store} {fetchedAt : Instant} {ended : PollEnd}
    (h : Told i fetchedAt s ended t) (hbefore : SameUsage i r s) {u : Store}
    (hafter : SameRows i t u) : Told i fetchedAt r ended u := by
  rcases ended with (e | snapshot) | panic
  · obtain ⟨husage, account, haccount, herror⟩ := h
    exact ⟨(hbefore.trans husage).trans hafter.toSameUsage, account,
      hafter.account.trans haccount, herror⟩
  · obtain ⟨⟨account, haccount, hfresh⟩, hwindows⟩ := h
    refine ⟨⟨account, hafter.account.trans haccount, hfresh⟩, fun key row hkey hrow ↦ ?_⟩
    rw [hafter.windows key hkey] at hrow
    exact hwindows key row hkey hrow
  · exact (hbefore.trans h).trans hafter.toSameUsage

/-- The poll of a stored account tells how it has ended. -/
theorem told_pollAccount (hspares : answers.Spares id) (crypto : TokenCrypto)
    (hs : s.accounts.has id = true) :
    Told id answers.fetchedAt s (pollAccount crypto id answers s).ended
      (pollAccount crypto id answers s).store := by
  have hleaves := leaves_refreshAccountUsage hspares crypto hs
  rw [pollAccount_ended]
  unfold pollAccount Leaves at *
  dsimp only
  split at hleaves
  · next hended =>
    rw [hended]
    exact hleaves.2
  · next hended =>
    split
    · next e herror =>
      rw [herror]
      have hrows := hspares.failing (refreshAccountUsage crypto id answers.first answers.second
        answers.exchange answers.meanwhile answers.fetchedAt answers.now s).store
      obtain ⟨account, haccount⟩ := Table.has_iff.mp hleaves.2
      refine ⟨(hleaves.1.trans hrows.toSameUsage).trans ⟨fun _ _ ↦ rfl, rfl, rfl⟩,
        { account with lastUsageError := some (errorText e) }, ?_, rfl⟩
      change (Table.update _ _ _).find id = _
      rw [Table.find_update_self, hrows.account, haccount]
      rfl
    · next hother =>
      rcases hpoll : (refreshAccountUsage crypto id answers.first answers.second
        answers.exchange answers.meanwhile answers.fetchedAt answers.now s).ended with
        (e | snapshot) | panic
      · exact absurd hpoll (hother e)
      · exact absurd hpoll (hended snapshot)
      · exact hleaves.1

end Poll

/-! ### The accounts in turn -/

/-- `active_accounts`, `src/db.rs:2386–2393`, by their identifiers. -/
def activeAccounts (s : Store) : List Uuid :=
  ((s.accounts.select fun _ account ↦ account.status == .active).insertionSort fun a b ↦
    a.2.createdAt ≤ b.2.createdAt).map Prod.fst

/-- The active accounts are listed. -/
theorem mem_activeAccounts_iff {s : Store} {id : Uuid} : id ∈ activeAccounts s ↔
    ∃ account, s.accounts.find id = some account ∧ account.status = .active := by
  simp only [activeAccounts, List.mem_map, List.mem_insertionSort, Prod.exists, exists_and_right,
    exists_eq_right, Table.mem_select_iff, beq_iff_eq]

/-- No account is listed twice. -/
theorem nodup_activeAccounts (s : Store) : (activeAccounts s).Nodup :=
  ((List.perm_insertionSort _ _).map Prod.fst).nodup_iff.mpr (s.accounts.nodup_select _)

/-- What `refresh_all_usage` has collected and returns unless a panic has ended it, this panic, the
store that it leaves, and the accounts that it has polled. -/
structure Sweep where
  snapshots : List PolledSnapshot
  panicked : Option ChronoPanic
  store : Store
  polled : List Uuid

/-- What a sweep leaves of an account whose poll has ended: the store tells of it, its snapshot is
collected exactly if there is one, and a panic has ended the sweep. -/
structure Sweep.Reports (sweep : Sweep) (accountId : Uuid) (fetchedAt : Instant) (s : Store)
    (ended : PollEnd) : Prop where
  told : Told accountId fetchedAt s ended sweep.store
  collected : ∀ snapshot, snapshot ∈ sweep.snapshots ∧ snapshot.accountId = accountId ↔
    ended = .returned (.ok snapshot)
  panicked : ∀ panic, ended = .panicked panic → sweep.panicked = some panic

/-- What a sweep leaves of an account that it has not polled. -/
structure Sweep.Omits (sweep : Sweep) (accountId : Uuid) (s : Store) : Prop where
  rows : SameRows accountId s sweep.store
  snapshots : ∀ snapshot ∈ sweep.snapshots, snapshot.accountId ≠ accountId

section Sweep

variable [UuidText] [JsonText] [JsonDisplay] [StatusReason] [ChronoRange] [FloatText]

/-- The loop of `refresh_all_usage`, `src/upstream.rs:170–184`. -/
def pollAccounts (crypto : TokenCrypto) (answers : Uuid → PollAnswers) :
    List Uuid → Store → Sweep
  | [], s => ⟨[], none, s, []⟩
  | id :: rest, s =>
    let poll := pollAccount crypto id (answers id) ((answers id).before s)
    match poll.ended with
    | .panicked panic => ⟨[], some panic, poll.store, [id]⟩
    | .returned result =>
      let later := pollAccounts crypto answers rest poll.store
      { later with
        snapshots := result.toOption.toList ++ later.snapshots
        polled := id :: later.polled }

/-- `refresh_all_usage`, `src/upstream.rs:162–186`. -/
def refreshAllUsage (crypto : TokenCrypto) (answers : Uuid → PollAnswers) (s : Store) : Sweep :=
  pollAccounts crypto answers (activeAccounts s) s

variable {crypto : TokenCrypto} {answers : Uuid → PollAnswers} {i : Uuid}

/-- The accounts are polled in their order, all of them unless a poll panics. -/
theorem polled_pollAccounts (crypto : TokenCrypto) (answers : Uuid → PollAnswers)
    (ids : List Uuid) (s : Store) :
    (pollAccounts crypto answers ids s).polled <+: ids ∧
      ((pollAccounts crypto answers ids s).panicked = none →
        (pollAccounts crypto answers ids s).polled = ids) := by
  induction ids generalizing s with
  | nil => exact ⟨List.prefix_rfl, fun _ ↦ rfl⟩
  | cons id rest ih =>
    rw [pollAccounts]
    dsimp only
    split
    · refine ⟨?_, fun h ↦ by cases h⟩
      rw [List.cons_prefix_cons]
      exact ⟨rfl, List.nil_prefix⟩
    · obtain ⟨hpolled, hall⟩ := ih
        (pollAccount crypto id (answers id) ((answers id).before s)).store
      refine ⟨List.cons_prefix_cons.mpr ⟨rfl, hpolled⟩, fun h ↦ ?_⟩
      exact congrArg _ (hall h)

omit [UuidText] [JsonText] [JsonDisplay] [StatusReason] [ChronoRange] [FloatText] in
/-- The snapshot with which a poll has ended is collected. -/
theorem mem_collected_iff {result : Except AppError PolledSnapshot} {snapshot : PolledSnapshot} :
    snapshot ∈ result.toOption.toList ↔ result = .ok snapshot := by
  cases result with
  | error e => simp [Except.toOption]
  | ok own => simp [Except.toOption, eq_comm]

/-- An account that is not polled is left alone. -/
theorem pollAccounts_omits (hspares : ∀ id, (answers id).Spares i) (crypto : TokenCrypto)
    {ids : List Uuid} {s : Store} (hi : i ∉ (pollAccounts crypto answers ids s).polled) :
    (pollAccounts crypto answers ids s).Omits i s := by
  induction ids generalizing s with
  | nil => exact ⟨.refl i s, fun _ h ↦ by cases h⟩
  | cons id rest ih =>
    have hbefore := (hspares id).before s
    rw [pollAccounts] at hi ⊢
    dsimp only at hi ⊢
    split at hi
    · have hne : i ≠ id := fun heq ↦ hi (by simp [heq])
      exact ⟨hbefore.trans (.pollAccount hne (hspares id) crypto _), fun _ h ↦ by cases h⟩
    · next result hended =>
      dsimp only at hi ⊢
      obtain ⟨hne, hrest⟩ := List.ne_and_not_mem_of_not_mem_cons hi
      have hlater := ih hrest
      refine ⟨(hbefore.trans (.pollAccount hne (hspares id) crypto _)).trans hlater.rows, ?_⟩
      intro snapshot hsnapshot
      rcases List.mem_append.mp hsnapshot with hown | hsnapshot
      · rw [mem_collected_iff.mp hown] at hended
        rw [accountId_of_pollAccount hended]
        exact Ne.symm hne
      · exact hlater.snapshots snapshot hsnapshot

/-- The first account is reported, whatever becomes of the others. -/
theorem pollAccounts_reports_first (hspares : ∀ id, (answers id).Spares i) {rest : List Uuid}
    (hi : i ∉ rest) {s : Store} (hs : s.accounts.has i = true) :
    (pollAccounts crypto answers (i :: rest) s).Reports i (answers i).fetchedAt s
      (pollAccount crypto i (answers i) ((answers i).before s)).ended := by
  have hbefore := (hspares i).before s
  have hstored : ((answers i).before s).accounts.has i = true := by
    rw [Table.has, hbefore.account]
    exact hs
  have htold := told_pollAccount (hspares i) crypto hstored
  rw [pollAccounts]
  dsimp only
  split
  · next panic hended =>
    rw [hended] at htold ⊢
    refine ⟨htold.sameRows hbefore.toSameUsage (.refl i _), fun snapshot ↦ by simp, ?_⟩
    intro other hother
    cases hother
    rfl
  · next result hended =>
    rw [hended] at htold ⊢
    -- The others leave the rows of the account alone.
    have hlater := pollAccounts_omits hspares crypto (s := (pollAccount crypto i (answers i)
      ((answers i).before s)).store) fun h ↦
        hi ((polled_pollAccounts crypto answers rest _).1.subset h)
    refine ⟨htold.sameRows hbefore.toSameUsage hlater.rows, fun snapshot ↦ ⟨?_, ?_⟩, ?_⟩
    · rintro ⟨hmem, hown⟩
      rcases List.mem_append.mp hmem with hfirst | hrest
      · rw [mem_collected_iff.mp hfirst]
      · exact absurd hown (hlater.snapshots snapshot hrest)
    · intro hresult
      cases hresult
      exact ⟨List.mem_append.mpr (.inl (mem_collected_iff.mpr rfl)),
        accountId_of_pollAccount hended⟩
    · intro panic hpanic
      cases hpanic

/-- An account that is polled is reported, from the rows that it had and whatever becomes of the
others. -/
theorem pollAccounts_reports (hspares : ∀ id, (answers id).Spares i) {ids : List Uuid}
    (hids : ids.Nodup) {s : Store} (hs : s.accounts.has i = true)
    (hi : i ∈ (pollAccounts crypto answers ids s).polled) :
    ∃ t, SameRows i s t ∧ (pollAccounts crypto answers ids s).Reports i (answers i).fetchedAt s
      (pollAccount crypto i (answers i) t).ended := by
  induction ids generalizing s with
  | nil => cases hi
  | cons id rest ih =>
    obtain ⟨hnotin, hrest⟩ := List.nodup_cons.mp hids
    by_cases hid : i = id
    · subst hid
      exact ⟨_, (hspares i).before s, pollAccounts_reports_first hspares hnotin hs⟩
    · have hkept := ((hspares id).before s).trans
        (.pollAccount hid (hspares id) crypto ((answers id).before s))
      rw [pollAccounts] at hi ⊢
      dsimp only at hi ⊢
      split at hi
      · simp [hid] at hi
      · next result hended =>
        dsimp only at hi ⊢
        have hstored : (pollAccount crypto id (answers id)
            ((answers id).before s)).store.accounts.has i = true := by
          rw [Table.has, hkept.account]
          exact hs
        obtain ⟨t, hrows, hreports⟩ := ih hrest hstored ((List.mem_cons.mp hi).resolve_left hid)
        refine ⟨t, hkept.trans hrows,
          hreports.told.sameRows hkept.toSameUsage (.refl i _), ?_, hreports.panicked⟩
        intro snapshot
        rw [← hreports.collected snapshot]
        constructor
        · rintro ⟨hmem, hown⟩
          have hother : snapshot ∉ result.toOption.toList := by
            intro hfirst
            rw [mem_collected_iff.mp hfirst] at hended
            exact hid (hown.symm.trans (accountId_of_pollAccount hended))
          exact ⟨(List.mem_append.mp hmem).resolve_left hother, hown⟩
        · rintro ⟨hmem, hown⟩
          exact ⟨List.mem_append.mpr (.inr hmem), hown⟩

/-- Polling isolates the accounts: the active ones are polled once each in the order of their
creation, all of them unless a payload panics. Where others leave an account's rows alone, its poll
starts from the rows that it had and what is reported of it is how its own poll has ended, whatever
becomes of the other accounts; an account that is not polled is left alone. -/
theorem polling_isolates_accounts (crypto : TokenCrypto) (answers : Uuid → PollAnswers)
    (s : Store) :
    (refreshAllUsage crypto answers s).polled <+: activeAccounts s ∧
      (refreshAllUsage crypto answers s).polled.Nodup ∧
      ((refreshAllUsage crypto answers s).panicked = none →
        (refreshAllUsage crypto answers s).polled = activeAccounts s) ∧
      ∀ i, (∀ id, (answers id).Spares i) →
        (i ∉ (refreshAllUsage crypto answers s).polled →
          (refreshAllUsage crypto answers s).Omits i s) ∧
        (i ∈ (refreshAllUsage crypto answers s).polled → ∃ t, SameRows i s t ∧
          (refreshAllUsage crypto answers s).Reports i (answers i).fetchedAt s
            (pollAccount crypto i (answers i) t).ended) := by
  obtain ⟨hpolled, hall⟩ := polled_pollAccounts crypto answers (activeAccounts s) s
  have hnodup := nodup_activeAccounts s
  refine ⟨hpolled, hpolled.sublist.nodup hnodup, hall, fun i hspares ↦ ⟨?_, ?_⟩⟩
  · exact pollAccounts_omits hspares crypto
  · intro hi
    obtain ⟨account, haccount, -⟩ := mem_activeAccounts_iff.mp (hpolled.subset hi)
    exact pollAccounts_reports hspares hnodup (Table.has_iff.mpr ⟨account, haccount⟩) hi

end Sweep

/-! ### A failing account beside another -/

section Sample

/-- A payload with a core meter. -/
def corePayload : JsonValue :=
  .object [("rate_limit", .object [("primary_window", .object [
    ("used_percent", .number (.posInt 12))])])]

/-- A reader to which every text is that payload. -/
@[reducible] def coreJson : JsonText := ⟨fun _ ↦ some corePayload⟩

/-- Two accounts, the second one the older. -/
def sweptStore : Store :=
  .initial ⟨[(1, { polledAccount with createdAt := 1 }), (2, polledAccount)], by decide⟩

/-- The usage endpoint cannot be reached for the second account. -/
def sweptAnswers (accountId : Uuid) : PollAnswers where
  first := if accountId = 2 then .unsent "connection closed" else .answered ⟨200, by decide⟩ "usage"
  second := .unsent "connection closed"
  exchange := refusedExchange
  fetchedAt := 1000
  now := 1000
  before := id
  meanwhile := .quiet
  failing := id

/-- The sweep over the two accounts. -/
def swept : Sweep :=
  @refreshAllUsage hyphenatedText coreJson plainDisplay someReasons chronoYears decimalText
    ⟨Except.ok⟩ sweptAnswers sweptStore

/-- Nobody else commits anything. -/
theorem sweptAnswers_spares (accountId i : Uuid) : (sweptAnswers accountId).Spares i where
  before s := .refl i s
  meanwhile _ := ⟨fun _ h ↦ h, fun _ h ↦ h, fun _ h ↦ h, fun _ h ↦ h⟩
  failing s := .refl i s

/-- The first account is fresh, and the second one is told why it is not. -/
theorem polling_isolates_accounts_unreachable : swept.polled = [2, 1] ∧
    Refreshed 1 1000 swept.store ∧ SameUsage 2 sweptStore swept.store ∧
      ∃ e account, swept.store.accounts.find 2 = some account ∧
        account.lastUsageError = some (errorText e) := by
  have hpolled : swept.polled = [2, 1] := by decide +kernel
  have hsnapshots : swept.snapshots.map PolledSnapshot.accountId = [1] := by decide +kernel
  have hpanicked : swept.panicked = none := by decide +kernel
  have hall := (@polling_isolates_accounts hyphenatedText coreJson plainDisplay someReasons
    chronoYears decimalText ⟨Except.ok⟩ sweptAnswers sweptStore).2.2.2
  obtain ⟨first, hfirst⟩ : ∃ ended, swept.Reports 1 1000 sweptStore ended := by
    obtain ⟨t, -, hreports⟩ := (hall 1 fun id ↦ sweptAnswers_spares id 1).2
      (show 1 ∈ swept.polled by simp [hpolled])
    exact ⟨_, hreports⟩
  obtain ⟨second, hsecond⟩ : ∃ ended, swept.Reports 2 1000 sweptStore ended := by
    obtain ⟨t, -, hreports⟩ := (hall 2 fun id ↦ sweptAnswers_spares id 2).2
      (show 2 ∈ swept.polled by simp [hpolled])
    exact ⟨_, hreports⟩
  refine ⟨hpolled, ?_, ?_⟩
  · obtain ⟨snapshot, hmem, hid⟩ : ∃ snapshot ∈ swept.snapshots, snapshot.accountId = 1 :=
      List.mem_map.mp (by simp [hsnapshots])
    have htold := hfirst.told
    rw [(hfirst.collected snapshot).mp ⟨hmem, hid⟩] at htold
    exact htold
  · rcases second with (e | snapshot) | panic
    · exact ⟨hsecond.told.1, e, hsecond.told.2⟩
    · obtain ⟨hmem, hid⟩ := (hsecond.collected snapshot).mpr rfl
      have hlisted : (2 : Uuid) ∈ swept.snapshots.map PolledSnapshot.accountId :=
        List.mem_map.mpr ⟨snapshot, hmem, hid⟩
      rw [hsnapshots] at hlisted
      exact absurd hlisted (by decide)
    · have hpanic := hsecond.panicked panic rfl
      rw [hpanicked] at hpanic
      cases hpanic

end Sample

end CodexLb
