import CodexLb.Route.Reachable

/-!
# Paused accounts

Which writers of `src/db.rs` can change the status of an account, and what an
operator's pause withstands.
-/

namespace CodexLb

open Relational Transition

/-- The operator sets the status of an account, or imports the account again. -/
def SetsStatus (accountId : Uuid) (s : Store) : Op → Prop
  | .updateAccount id status _ _ _ =>
    id = accountId ∧ (status.bind parseAccountStatus).isSome = true
  | .upsertAccount newId _ _ claims _ =>
    newId = accountId ∨ s.accountByChatgptId claims.chatgptAccountId = some accountId
  | _ => False

/-- A token refresh of an account stores its tokens, which no other account's ChatGPT identity
forbids. -/
def StoresTokens (accountId : Uuid) (s : Store) : Op → Prop
  | .updateAccountTokens id _ claims =>
    id = accountId ∧ ∀ other, s.accountByChatgptId claims.chatgptAccountId = some other →
      other = accountId
  | _ => False

/-- What any other writer can do to a status: keep it, record a failed authentication, or end a
limit. -/
def StatusMove (old new : AccountStatus) : Prop :=
  new = old ∨ new = .authFailed ∨ ((old = .rateLimited ∨ old = .quotaExceeded) ∧ new = .active)

/-- An account is paused, or has failed to authenticate since it was. -/
def HeldOut (accountId : Uuid) (s : Store) : Prop :=
  ∀ account, s.accounts.find accountId = some account →
    account.status = .paused ∨ account.status = .authFailed

/-- No path of the daemon selects an account. -/
structure NeverSelected [UuidText] (accountId : Uuid) (s : Store) : Prop where
  ineligible : ∀ now, accountIsEligible accountId now s = false
  pinned : ∀ now, acquireAccountIfAvailable accountId now s = (.ok false, s)
  smart : ∀ settings usageRefreshInterval excluded selectedAt,
    (acquireSmartAccount settings usageRefreshInterval excluded selectedAt s).1 ≠ .ok accountId
  request : ∀ crypto affinity excluded settings usageRefreshInterval selectedAt now selected,
    (selectAccountForRequest crypto affinity excluded settings usageRefreshInterval selectedAt now
      s).1 = .ok selected → selected.accountId ≠ accountId

section Selection

variable [UuidText] {accountId : Uuid} {s : Store}

/-- An account that is never eligible is never selected. -/
theorem neverSelected_of_ineligible (h : ∀ now, accountIsEligible accountId now s = false) :
    NeverSelected accountId s := by
  have hpinned : ∀ now, acquireAccountIfAvailable accountId now s = (.ok false, s) := by
    intro now
    rw [acquireAccountIfAvailable, h, if_neg Bool.false_ne_true]
  have hsmart : ∀ settings usageRefreshInterval excluded selectedAt,
      (acquireSmartAccount settings usageRefreshInterval excluded selectedAt s).1 ≠
        .ok accountId := by
    intro settings usageRefreshInterval excluded selectedAt hok
    have heligible := (acquireSmartAccount_ok (Prod.ext hok rfl)).1
    rw [h] at heligible
    cases heligible
  refine ⟨h, hpinned, hsmart, ?_⟩
  intro crypto affinity excluded settings usageRefreshInterval selectedAt now selected hok he
  rcases selectAccountForRequest_ok hok with heligible | heligible
  · rw [he, h] at heligible
    cases heligible
  · rw [he, h] at heligible
    cases heligible

end Selection

/-! ### What each operation does to a status -/

section Status

variable {accountId : Uuid} {s t : Store}

/-- Every status of one store moves to the status of the other. -/
def StatusesMove (accountId : Uuid) (s t : Store) : Prop :=
  ∀ new, t.accounts.find accountId = some new →
    ∃ old, s.accounts.find accountId = some old ∧ StatusMove old.status new.status

private theorem moves_of_eq (h : t.accounts.find accountId = s.accounts.find accountId) :
    StatusesMove accountId s t :=
  fun new hnew ↦ ⟨new, by rw [← h, hnew], .inl rfl⟩

/-- An update of one account moves its status as the update does. -/
private theorem moves_of_update {id : Uuid} {f : Account → Account}
    (h : id = accountId → ∀ old, StatusMove old.status (f old).status) :
    StatusesMove accountId s { t with accounts := s.accounts.update (fun k _ ↦ k = id) f } := by
  intro new hnew
  rw [Table.find_update] at hnew
  obtain ⟨old, hold, hf⟩ := Option.map_eq_some_iff.mp hnew
  split at hf
  · next hid =>
    rw [← hf]
    exact ⟨old, hold, h (of_decide_eq_true hid).symm old⟩
  · rw [← hf]
    exact ⟨old, hold, .inl rfl⟩

private theorem moves_replaceUsageWindows (id : Uuid) (planType : Option String)
    (fetchedAt : Instant) (windows : List ParsedUsageWindow) (s : Store) :
    StatusesMove accountId s (replaceUsageWindows id planType fetchedAt windows s).2 := by
  apply replaceUsageWindows_keeps (StatusesMove accountId s) (moves_of_eq rfl)
  intro usageWindows usageSamples
  apply moves_of_update (t := { s with usageWindows := usageWindows, usageSamples := usageSamples })
  intro _ old
  by_cases hlimited : old.status = .rateLimited ∨ old.status = .quotaExceeded
  · exact .inr (.inr ⟨hlimited, if_pos hlimited⟩)
  · exact .inl (if_neg hlimited)

private theorem moves_upsertAccount {newId : Uuid} {claims : AuthClaims}
    (h : ¬ (newId = accountId ∨ s.accountByChatgptId claims.chatgptAccountId = some accountId))
    (encrypted : AccountTokens) (lastRefreshAt : Option Instant) (label : Option String)
    (now : Instant) :
    StatusesMove accountId s
      (upsertAccount newId encrypted lastRefreshAt claims label now s).2 := by
  have hwrite : ∀ label, (writeAccount newId encrypted lastRefreshAt claims label now
      s).2.accounts.find accountId = s.accounts.find accountId := by
    intro label
    unfold writeAccount
    split
    · next id hid =>
      have hne : accountId ≠ id := fun he ↦ h (.inr (he ▸ hid))
      change (s.accounts.update _ _).find accountId = _
      rw [Table.find_update_ne _ hne]
    · split
      · rfl
      · have hne : accountId ≠ newId := fun he ↦ h (.inl he.symm)
        change (s.accounts.insert _ _).find accountId = _
        rw [Table.find_insert, if_neg hne]
  apply moves_of_eq
  refine upsertAccount_keeps (fun t ↦ t.accounts.find accountId = s.accounts.find accountId)
    rfl (fun out _ ↦ hwrite (out.getD "")) fun id u hu ↦ ?_
  rw [ensureRuntimeRow_frame]
  exact hu

private theorem moves_updateAccount [UuidText] {id : Uuid} {status : Option String}
    (h : ¬ (id = accountId ∧ (status.bind parseAccountStatus).isSome = true))
    (label email planType : Option String) :
    StatusesMove accountId s (updateAccount id status label email planType s).2 := by
  unfold updateAccount
  split
  · exact moves_of_eq rfl
  · split
    · exact moves_of_eq rfl
    · split
      · refine moves_of_update fun hid old ↦ ?_
        have hnone : status.bind parseAccountStatus = none := by
          rw [← Option.not_isSome_iff_eq_none]
          exact fun hsome ↦ h ⟨hid, hsome⟩
        refine .inl ?_
        change (status.bind parseAccountStatus).getD old.status = old.status
        rw [hnone]
        rfl
      · exact moves_of_eq rfl

private theorem moves_updateAccountTokens [UuidText] {id : Uuid} {claims : AuthClaims}
    (h : ¬ (id = accountId ∧ ∀ other, s.accountByChatgptId claims.chatgptAccountId = some other →
      other = accountId)) (encrypted : AccountTokens) (now : Instant) :
    StatusesMove accountId s (updateAccountTokens id encrypted claims now s).2 := by
  unfold updateAccountTokens
  split
  · exact moves_of_eq rfl
  · split
    · exact moves_of_eq rfl
    · next hfree =>
      refine moves_of_update fun hid _ ↦ absurd ⟨hid, fun other ho ↦ ?_⟩ h
      rw [ho] at hfree
      simpa [hid] using hfree

private theorem moves_deleteAccount [UuidText] (id : Uuid) :
    StatusesMove accountId s (deleteAccount id s).2 :=
  fun new hnew ↦ ⟨new, find_of_deleteAccount hnew, .inl rfl⟩

/-- What an operation does to the status of an account, unless the operator sets it or a token
refresh stores its tokens. -/
theorem Op.statusesMove [UuidText] {op : Op} (hset : ¬ SetsStatus accountId s op)
    (hstore : ¬ StoresTokens accountId s op) (now : Clock) :
    StatusesMove accountId s (op.exec now s) := by
  cases hw : op.writesAccounts with
  | false => exact moves_of_eq (by rw [Op.accounts_frame hw now s])
  | true =>
    cases op with
    | upsertAccount newId encrypted lastRefreshAt claims label =>
      exact moves_upsertAccount hset encrypted lastRefreshAt label now.instant
    | updateAccount id status label email planType =>
      exact moves_updateAccount hset label email planType
    | deleteAccount id => exact moves_deleteAccount id
    | updateAccountTokens id encrypted claims =>
      exact moves_updateAccountTokens hstore encrypted now.instant
    | markAuthFailed id reason => exact moves_of_update fun _ _ ↦ .inr (.inl rfl)
    | markUsageError id message => exact moves_of_update fun _ _ ↦ .inl rfl
    | replaceUsageWindows id planType fetchedAt windows =>
      exact moves_replaceUsageWindows id planType fetchedAt windows s
    | _ => cases hw

/-- An account that is held out stays so while no status is set and no tokens are stored. -/
theorem HeldOut.step (h : HeldOut accountId s) (hmove : StatusesMove accountId s t) :
    HeldOut accountId t := by
  intro new hnew
  obtain ⟨old, hold, hkept | hfailed | ⟨hlimited, -⟩⟩ := hmove new hnew
  · rw [hkept]
    exact h old hold
  · exact .inr hfailed
  · exfalso
    rcases h old hold with hs | hs
    · rw [hs] at hlimited
      rcases hlimited with hl | hl <;> cases hl
    · rw [hs] at hlimited
      rcases hlimited with hl | hl <;> cases hl

end Status

/-! ### A pause along a run -/

section Run

variable [UuidText] {accountId : Uuid} {s t : Store}

/-- An account that is held out is not active, and is never selected. -/
theorem HeldOut.neverSelected (h : HeldOut accountId s) : NeverSelected accountId s := by
  apply neverSelected_of_ineligible
  intro now
  by_contra heligible
  rw [Bool.not_eq_false] at heligible
  obtain ⟨account, _, ha, -, hactive, -⟩ := accountIsEligible_iff.mp heligible
  rcases h account ha with hp | hf
  · rw [hp] at hactive
    cases hactive
  · rw [hf] at hactive
    cases hactive

/-- A committed pause holds the account out. -/
theorem heldOut_of_pause {label email planType : Option String}
    (h : updateAccount accountId (some "paused") label email planType s = (.ok (), t)) :
    HeldOut accountId t := by
  intro account ha
  unfold updateAccount at h
  split at h
  · cases h
  · split at h
    · cases h
    · split at h
      · cases h
        rw [Table.find_update_self] at ha
        obtain ⟨old, -, rfl⟩ := Option.map_eq_some_iff.mp ha
        exact .inl rfl
      · cases h

/-- A pause is undone only by the operator: in every run from the commit of the pause in which
neither the operator sets the status nor a token refresh stores its tokens, the account does not
become active and is never selected. -/
theorem pause_undone_only_by_operator {s₀ : Store} {label email planType : Option String}
    (hpause : updateAccount accountId (some "paused") label email planType s₀ = (.ok (), s))
    {ops : List (Op × Clock)}
    (hrun : Run (guarded Store.Step fun s op ↦
      ¬ SetsStatus accountId s op.1 ∧ ¬ StoresTokens accountId s op.1) s ops t) :
    (∀ account, t.accounts.find accountId = some account → account.status ≠ .active) ∧
      NeverSelected accountId t := by
  have hheld : HeldOut accountId t := by
    apply hrun.invariant _ (heldOut_of_pause hpause)
    rintro u op v hheld ⟨⟨hset, hstore⟩, hexec⟩
    have hmove := Op.statusesMove hset hstore op.2
    rw [show op.1.exec op.2 u = v from hexec] at hmove
    exact hheld.step hmove
  refine ⟨fun account ha hactive ↦ ?_, hheld.neverSelected⟩
  rcases hheld account ha with hp | hf
  · rw [hp] at hactive
    cases hactive
  · rw [hf] at hactive
    cases hactive

/-- The claims of the first account's refreshed tokens. -/
def refreshedClaims : AuthClaims := ⟨none, "one@example.invalid", "plus", none⟩

/-- The two accounts after the first one was paused. -/
def pausedAccount : Store :=
  (@updateAccount hyphenatedText 1 (some "paused") none none none twoAccounts).2

omit [UuidText] in
/-- A failure report leaves the paused account paused. -/
theorem pause_undone_only_by_operator_cooled : let _ := hyphenatedText
    NeverSelected 1 (Op.exec (.cooldownAccount 1 10 "") ⟨2000, ""⟩ pausedAccount) := by
  intro _
  have hpause : (updateAccount 1 (some "paused") none none none twoAccounts).1 = .ok () := by
    decide +kernel
  have hrun : Run (guarded Store.Step fun s op ↦ ¬ SetsStatus 1 s op.1 ∧ ¬ StoresTokens 1 s op.1)
      pausedAccount [(.cooldownAccount 1 10 "", ⟨2000, ""⟩)] _ := .single ⟨⟨id, id⟩, rfl⟩
  exact (pause_undone_only_by_operator (Prod.ext hpause rfl) hrun).2

omit [UuidText] in
/-- A token refresh that was under way when the account was paused makes it active again, and it
is selected. -/
theorem pause_undone_by_token_refresh : let _ := hyphenatedText
    let store : Op := .updateAccountTokens 1 ⟨"new", "new", "new"⟩ refreshedClaims
    updateAccount 1 (some "paused") none none none twoAccounts = (.ok (), pausedAccount) ∧
      Run (guarded Store.Step fun s op ↦ ¬ SetsStatus 1 s op.1) pausedAccount
        [(store, ⟨2000, ""⟩)] (store.exec ⟨2000, ""⟩ pausedAccount) ∧
      (acquireAccountIfAvailable 1 ⟨3000, ""⟩ (store.exec ⟨2000, ""⟩ pausedAccount)).1 =
        .ok true := by
  intro _ store
  have hpause : (updateAccount 1 (some "paused") none none none twoAccounts).1 = .ok () := by
    decide +kernel
  exact ⟨Prod.ext hpause rfl, .single ⟨id, rfl⟩, by decide +kernel⟩

end Run

end CodexLb
