import CodexLb.Upstream.Refresh

/-!
# Imports against older work

`import_account` stores new tokens without the refresh lock, while
`update_account_tokens` and `mark_auth_failed` write by the account's
identifier alone (`src/db.rs:322–370`, `542–578` and `2063–2072`). The machine
adds imports, the tasks that read a credential and the failures that they
report to the refresh calls, and remembers what was imported.
-/

namespace CodexLb

open Relational Transition

/-- A credential that a task has read, and how often its account had been imported by then. -/
structure Credential where
  accountId : Uuid
  encrypted : AccountTokens
  imports : Nat
  deriving DecidableEq, Repr

/-- A failure that was reported against a stored account: the credential that caused it, the
imports so far, and whether the last import was still waiting for its first refresh. -/
structure FailureReport where
  credential : Credential
  imports : Nat
  unrefreshed : Bool
  deriving DecidableEq, Repr

/-- The refresh calls of the process, with the history that the login depends on. -/
structure Logins where
  refreshes : Refreshes
  /-- Every ciphertext that was ever stored. -/
  seen : List AccountTokens
  imports : Uuid → Nat
  /-- The imported tokens, until a refresh that read them has stored its result. -/
  imported : Uuid → Option AccountTokens
  credentials : List Credential
  reports : List FailureReport

/-- The ciphertexts that `refresh_account_tokens` compares are the same; `src/upstream.rs:52–56`. -/
def sameCiphertexts (a b : AccountTokens) : Bool :=
  a.refreshToken == b.refreshToken && a.accessToken == b.accessToken

namespace Logins

/-- Encryption draws a nonce, so a new ciphertext is unlike every earlier one. -/
def fresh (v : Logins) (encrypted : AccountTokens) : Bool :=
  v.seen.all fun old ↦ old.accessToken != encrypted.accessToken

/-- A task reads the credential of an account. -/
def read (v : Logins) (accountId : Uuid) : List Credential :=
  match v.refreshes.store.accounts.find accountId with
  | none => []
  | some account => [⟨accountId, account.encrypted, v.imports accountId⟩]

end Logins

/-- What happens in the process: a refresh call moves, an account is imported, a task reads a
credential or reports that one failed, or another operation commits. -/
inductive LoginEvent where
  | refresh (event : RefreshEvent)
  | importAccount (newId : Uuid) (encrypted : AccountTokens) (lastRefreshAt : Option Instant)
      (claims : AuthClaims) (label : Option String)
  | read (accountId : Uuid)
  | report (i : Nat) (reason : String)
  | commit (op : Op)

/-- The operations that are events of their own. -/
def Op.ofLogin : Op → Bool
  | .upsertAccount .. | .updateAccountTokens .. | .markAuthFailed .. => true
  | _ => false

section Steps

variable [UuidText]

/-- The history after a refresh call took a step: its second read is a credential, and a store
ends the wait of the import that the call has read. -/
def Logins.observe (v : Logins) (call : RefreshCall) (answer : RefreshAnswer) (now : Instant)
    (refreshes : Refreshes) : Logins :=
  match call.phase with
  | .locked .. =>
    { v with refreshes := refreshes, credentials := v.credentials ++ v.read call.accountId }
  | .storing account _ _ _ =>
    match (updateAccountTokens call.accountId answer.encrypted answer.claims now
      v.refreshes.store).1 with
    | .error _ => { v with refreshes := refreshes }
    | .ok () =>
      { v with
        refreshes := refreshes
        seen := v.seen ++ [answer.encrypted]
        imported := fun id ↦ if id = call.accountId then
          (v.imported id).filter fun imported ↦ !sameCiphertexts imported account.encrypted
          else v.imported id
        credentials := v.credentials ++
          [⟨call.accountId, answer.encrypted, v.imports call.accountId⟩] }
  | _ => { v with refreshes := refreshes }

/-- The process after an event, if the event can happen. -/
def Logins.exec (crypto : TokenCrypto) (v : Logins) (event : LoginEvent × Clock) :
    Option Logins :=
  let now := event.2
  match event.1 with
  | .refresh (.run i answer) =>
    v.refreshes.calls[i]?.bind fun call ↦
      if v.fresh answer.encrypted then
        (v.refreshes.exec crypto (.run i answer, now)).map (v.observe call answer now.instant)
      else none
  | .refresh (.commit _) => none
  | .refresh event =>
    (v.refreshes.exec crypto (event, now)).map fun refreshes ↦ { v with refreshes := refreshes }
  | .importAccount newId encrypted lastRefreshAt claims label =>
    if v.fresh encrypted then
      match upsertAccount newId encrypted lastRefreshAt claims label now.instant
        v.refreshes.store with
      | (.error _, _) => none
      | (.ok id, s) =>
        some { v with
          refreshes := { v.refreshes with store := s }
          seen := v.seen ++ [encrypted]
          imports := fun k ↦ if k = id then v.imports k + 1 else v.imports k
          imported := fun k ↦ if k = id then some encrypted else v.imported k }
    else none
  | .read accountId => some { v with credentials := v.credentials ++ v.read accountId }
  | .report i reason =>
    v.credentials[i]?.map fun credential ↦
      { v with
        refreshes := { v.refreshes with
          store := (Op.markAuthFailed credential.accountId reason).exec now v.refreshes.store }
        reports := v.reports ++
          if v.refreshes.store.accounts.has credential.accountId then
            [⟨credential, v.imports credential.accountId,
              (v.imported credential.accountId).isSome⟩]
          else [] }
  | .commit op =>
    if op.ofLogin then none
    else
      some { v with refreshes := { v.refreshes with store := op.exec now v.refreshes.store } }

/-- One step of the process. -/
def Logins.Step (crypto : TokenCrypto) (v : Logins) (event : LoginEvent × Clock) (w : Logins) :
    Prop := v.exec crypto event = some w

/-- A store that the daemon has reached, before any refresh, import, read or report. -/
structure Logins.Started (v : Logins) : Prop where
  refreshes : v.refreshes.Started
  seen : ∀ id account, v.refreshes.store.accounts.find id = some account →
    account.encrypted ∈ v.seen
  imported : ∀ id, v.imported id = none
  credentials : v.credentials = []
  reports : v.reports = []

/-- While an import waits for its first refresh, a store or a failure report commits only if the
stored ciphertexts are still those that its task has read. -/
def FindsItsCredential (v : Logins) (event : LoginEvent × Clock) : Prop :=
  match event.1 with
  | .refresh (.run i _) => ∀ accountId account lock refreshToken tokens,
    v.refreshes.calls[i]? = some ⟨accountId, .storing account lock refreshToken tokens⟩ →
    (v.imported accountId).isSome = true →
    ∀ stored, v.refreshes.store.accounts.find accountId = some stored →
      sameCiphertexts stored.encrypted account.encrypted = true
  | .report i _ => ∀ credential, v.credentials[i]? = some credential →
    (v.imported credential.accountId).isSome = true →
    ∀ stored, v.refreshes.store.accounts.find credential.accountId = some stored →
      sameCiphertexts stored.encrypted credential.encrypted = true
  | _ => True

/-- A fresh login is kept: until a refresh that read the imported tokens has stored its result
the account has them, and no report from before the import fails it. -/
structure Logins.LoginKept (v : Logins) : Prop where
  tokens : ∀ id imported, v.imported id = some imported →
    ∀ account, v.refreshes.store.accounts.find id = some account → account.encrypted = imported
  reports : ∀ report ∈ v.reports, report.unrefreshed = true →
    report.credential.imports = report.imports

/-! ### What the steps keep -/

variable {crypto : TokenCrypto} {v w : Logins} {event : LoginEvent × Clock}

omit [UuidText] in
/-- An import leaves its ciphertexts with one account and every other account alone. -/
theorem upsertAccount_ok {newId id : Uuid} {encrypted : AccountTokens}
    {lastRefreshAt : Option Instant} {claims : AuthClaims} {label : Option String} {now : Instant}
    {s t : Store}
    (h : upsertAccount newId encrypted lastRefreshAt claims label now s = (.ok id, t)) :
    (∀ account, t.accounts.find id = some account → account.encrypted = encrypted) ∧
      ∀ other, other ≠ id → t.accounts.find other = s.accounts.find other := by
  unfold upsertAccount at h
  split at h
  · cases h
  · split at h
    · cases h
    · next u hwritten =>
      have hframe := ensureRuntimeRow_frame id u
      split at h
      · cases h
      · next hensured =>
        cases h
        rw [hensured] at hframe
        change t = _ at hframe
        have haccounts : t.accounts = u.accounts := by rw [hframe]
        rw [haccounts]
        unfold writeAccount at hwritten
        split at hwritten
        · cases hwritten
          exact encrypted_of_update fun _ ↦ rfl
        · split at hwritten
          · cases hwritten
          · next hnew =>
            cases hwritten
            have hnone : s.accounts.find newId = none := by simpa [Table.has] using hnew
            constructor
            · intro account hfind
              rw [Table.find_insert, if_pos rfl, hnone] at hfind
              cases hfind
              rfl
            · intro other hne
              rw [Table.find_insert, if_neg hne]

/-- While an import waits, the account has its ciphertexts and no earlier credential does. -/
structure Logins.Waiting (v : Logins) : Prop where
  reached : v.refreshes.store.Reached
  tokens : ∀ id imported, v.imported id = some imported →
    ∀ account, v.refreshes.store.accounts.find id = some account → account.encrypted = imported
  stored : ∀ id account, v.refreshes.store.accounts.find id = some account →
    account.encrypted ∈ v.seen
  known : ∀ credential ∈ v.credentials, credential.encrypted ∈ v.seen
  counted : ∀ credential ∈ v.credentials, credential.imports ≤ v.imports credential.accountId
  earlier : ∀ id imported, v.imported id = some imported →
    ∀ credential ∈ v.credentials, credential.accountId = id →
      credential.imports < v.imports id →
      credential.encrypted.accessToken ≠ imported.accessToken
  reports : ∀ report ∈ v.reports, report.unrefreshed = true →
    report.credential.imports = report.imports

omit [UuidText] in
/-- Ciphertexts that no earlier encryption gave are none of the old ones. -/
theorem Logins.fresh_ne {encrypted old : AccountTokens} (hfresh : v.fresh encrypted = true)
    (hold : old ∈ v.seen) : old.accessToken ≠ encrypted.accessToken := by
  have hall := List.all_eq_true.mp hfresh old hold
  exact bne_iff_ne.mp hall

/-- A step that keeps the tokens of the accounts and adds nothing to the history. -/
theorem Logins.Waiting.keep (h : v.Waiting) {refreshes : Refreshes}
    (hreached : refreshes.store.Reached) (hkept : TokensKept v.refreshes.store refreshes.store) :
    Logins.Waiting { v with refreshes := refreshes } where
  reached := hreached
  tokens := by
    intro id imported himported account hfind
    obtain ⟨before, hbefore, hsame⟩ := hkept id account hfind
    rw [← hsame]
    exact h.tokens id imported himported before hbefore
  stored := by
    intro id account hfind
    obtain ⟨before, hbefore, hsame⟩ := hkept id account hfind
    rw [← hsame]
    exact h.stored id before hbefore
  known := h.known
  counted := h.counted
  earlier := h.earlier
  reports := h.reports

/-- What a task reads is stored, and read after the last import. -/
theorem Logins.Waiting.read (h : v.Waiting) (accountId : Uuid) :
    Logins.Waiting { v with credentials := v.credentials ++ v.read accountId } := by
  have hread : ∀ credential ∈ v.read accountId, credential.encrypted ∈ v.seen ∧
      credential.imports = v.imports credential.accountId := by
    intro credential hmem
    unfold Logins.read at hmem
    split at hmem
    · cases hmem
    · next account hfind =>
      cases List.mem_singleton.mp hmem
      exact ⟨h.stored accountId account hfind, rfl⟩
  refine ⟨h.reached, h.tokens, h.stored, ?_, ?_, ?_, h.reports⟩
  · intro credential hmem
    rcases List.mem_append.mp hmem with hold | hnew
    · exact h.known credential hold
    · exact (hread credential hnew).1
  · intro credential hmem
    rcases List.mem_append.mp hmem with hold | hnew
    · exact h.counted credential hold
    · exact (hread credential hnew).2.le
  · intro id imported himported credential hmem hid hlt
    rcases List.mem_append.mp hmem with hold | hnew
    · exact h.earlier id imported himported credential hold hid hlt
    · have hnow := (hread credential hnew).2
      rw [hid] at hnow
      change credential.imports < v.imports id at hlt
      omega

/-- An import starts a wait: its ciphertexts are new. -/
theorem Logins.Waiting.importAccount (h : v.Waiting) {id : Uuid} {encrypted : AccountTokens}
    (hfresh : v.fresh encrypted = true) {t : Store} (hreached : t.Reached)
    (himport : ∀ account, t.accounts.find id = some account → account.encrypted = encrypted)
    (hothers : ∀ other, other ≠ id →
      t.accounts.find other = v.refreshes.store.accounts.find other) :
    Logins.Waiting { v with
      refreshes := { v.refreshes with store := t }
      seen := v.seen ++ [encrypted]
      imports := fun k ↦ if k = id then v.imports k + 1 else v.imports k
      imported := fun k ↦ if k = id then some encrypted else v.imported k } := by
  refine ⟨hreached, ?_, ?_, ?_, ?_, ?_, h.reports⟩
  · intro k imported himported account hfind
    change t.accounts.find k = some account at hfind
    dsimp only at himported
    split at himported
    · next hk =>
      cases himported
      rw [hk] at hfind
      exact himport account hfind
    · next hk =>
      rw [hothers k hk] at hfind
      exact h.tokens k imported himported account hfind
  · intro k account hfind
    change t.accounts.find k = some account at hfind
    by_cases hk : k = id
    · rw [hk] at hfind
      rw [himport account hfind]
      exact List.mem_append_right _ (List.mem_singleton_self _)
    · rw [hothers k hk] at hfind
      exact List.mem_append_left _ (h.stored k account hfind)
  · intro credential hmem
    exact List.mem_append_left _ (h.known credential hmem)
  · intro credential hmem
    have hbefore := h.counted credential hmem
    dsimp only
    split <;> omega
  · intro k imported himported credential hmem hid hlt
    dsimp only at himported hlt
    split at himported
    · cases himported
      exact v.fresh_ne hfresh (h.known credential hmem)
    · next hk =>
      rw [if_neg hk] at hlt
      exact h.earlier k imported himported credential hmem hid hlt

/-- A refresh that found the imported ciphertexts and stores its result ends the wait. -/
theorem Logins.Waiting.store (h : v.Waiting) {id : Uuid} {encrypted : AccountTokens}
    {account : Account} {refreshes : Refreshes} (hreached : refreshes.store.Reached)
    (hfound : (v.imported id).isSome = true →
      ∃ stored, v.refreshes.store.accounts.find id = some stored ∧
        sameCiphertexts stored.encrypted account.encrypted = true)
    (hwritten : ∀ account, refreshes.store.accounts.find id = some account →
      account.encrypted = encrypted)
    (hothers : ∀ other, other ≠ id →
      refreshes.store.accounts.find other = v.refreshes.store.accounts.find other) :
    Logins.Waiting { v with
      refreshes := refreshes
      seen := v.seen ++ [encrypted]
      imported := fun k ↦ if k = id then
        (v.imported k).filter fun imported ↦ !sameCiphertexts imported account.encrypted
        else v.imported k
      credentials := v.credentials ++ [⟨id, encrypted, v.imports id⟩] } := by
  have hended : (v.imported id).filter
      (fun imported ↦ !sameCiphertexts imported account.encrypted) = none := by
    cases himported : v.imported id with
    | none => rfl
    | some imported =>
      rw [himported] at hfound
      obtain ⟨stored, hstored, hsame⟩ := hfound rfl
      rw [h.tokens id imported himported stored hstored] at hsame
      simp [hsame]
  have hwaiting : ∀ k imported, (if k = id then
      (v.imported k).filter fun imported ↦ !sameCiphertexts imported account.encrypted
      else v.imported k) = some imported → k ≠ id ∧ v.imported k = some imported := by
    intro k imported himported
    split at himported
    · next hk =>
      rw [hk, hended] at himported
      cases himported
    · next hk => exact ⟨hk, himported⟩
  refine ⟨hreached, ?_, ?_, ?_, ?_, ?_, h.reports⟩
  · intro k imported himported found hfind
    obtain ⟨hk, hbefore⟩ := hwaiting k imported himported
    change refreshes.store.accounts.find k = some found at hfind
    rw [hothers k hk] at hfind
    exact h.tokens k imported hbefore found hfind
  · intro k found hfind
    change refreshes.store.accounts.find k = some found at hfind
    by_cases hk : k = id
    · rw [hk] at hfind
      rw [hwritten found hfind]
      exact List.mem_append_right _ (List.mem_singleton_self _)
    · rw [hothers k hk] at hfind
      exact List.mem_append_left _ (h.stored k found hfind)
  · intro credential hmem
    rcases List.mem_append.mp hmem with hold | hnew
    · exact List.mem_append_left _ (h.known credential hold)
    · rw [List.mem_singleton.mp hnew]
      exact List.mem_append_right _ (List.mem_singleton_self _)
  · intro credential hmem
    rcases List.mem_append.mp hmem with hold | hnew
    · exact h.counted credential hold
    · rw [List.mem_singleton.mp hnew]
  · intro k imported himported credential hmem hid hlt
    obtain ⟨hk, hbefore⟩ := hwaiting k imported himported
    rcases List.mem_append.mp hmem with hold | hnew
    · exact h.earlier k imported hbefore credential hold hid hlt
    · rw [List.mem_singleton.mp hnew] at hid
      exact absurd hid.symm hk

/-- A report against an account whose import waits comes from a credential that was read after
that import. -/
theorem Logins.Waiting.report (h : v.Waiting) {credential : Credential}
    (hmem : credential ∈ v.credentials)
    (hfound : (v.imported credential.accountId).isSome = true →
      ∀ stored, v.refreshes.store.accounts.find credential.accountId = some stored →
        sameCiphertexts stored.encrypted credential.encrypted = true)
    (hhas : v.refreshes.store.accounts.has credential.accountId = true)
    (hwaits : (v.imported credential.accountId).isSome = true) :
    credential.imports = v.imports credential.accountId := by
  obtain ⟨imported, himported⟩ := Option.isSome_iff_exists.mp hwaits
  obtain ⟨stored, hstored⟩ := Table.has_iff.mp hhas
  have hsame := hfound hwaits stored hstored
  rw [h.tokens _ imported himported stored hstored] at hsame
  have haccess : credential.encrypted.accessToken = imported.accessToken := by
    unfold sameCiphertexts at hsame
    rw [Bool.and_eq_true, beq_iff_eq, beq_iff_eq] at hsame
    exact hsame.2.symm
  have hcounted := h.counted credential hmem
  by_contra hne
  have hlt : credential.imports < v.imports credential.accountId := by omega
  exact h.earlier _ imported himported credential hmem rfl hlt haccess

/-- A call writes the store only when it stores its tokens. -/
theorem RefreshCall.advance_store {call : RefreshCall} {answer : RefreshAnswer} {now : Instant}
    {phase : RefreshPhase} {r s : Refreshes}
    (hadvance : call.advance crypto answer now r = some (phase, s)) :
    s.store = match call.phase with
      | .storing .. =>
        (updateAccountTokens call.accountId answer.encrypted answer.claims now r.store).2
      | _ => r.store := by
  obtain ⟨accountId, before⟩ := call
  cases before with
  | storing account lock refreshToken tokens =>
    unfold RefreshCall.advance at hadvance
    dsimp only at hadvance ⊢
    split at hadvance
    · next hfailed =>
      cases hadvance
      rw [hfailed, updateAccountTokens_error hfailed]
    · next hstored =>
      cases hadvance
      rw [hstored]
  | _ =>
    cases RefreshCall.advance_effect hadvance with
    | quiet store calls log hphase => exact store
    | reread hphase => rfl
    | sent hphase => rfl
    | stored hphase hstored => cases hphase

/-- A call's step keeps the waits, when a store finds the ciphertexts that the call has read. -/
theorem Logins.Waiting.run (h : v.Waiting) {i : Nat} {call : RefreshCall} {answer : RefreshAnswer}
    {now : Clock} {u : Refreshes} (hcall : v.refreshes.calls[i]? = some call)
    (hfound : FindsItsCredential v (.refresh (.run i answer), now))
    (hexec : v.refreshes.exec crypto (.run i answer, now) = some u) :
    (v.observe call answer now.instant u).Waiting := by
  have hreached : u.store.Reached := (Refreshes.step_of_exec hexec).reached h.reached
  have hkept : u.store = v.refreshes.store → TokensKept v.refreshes.store u.store := by
    intro hstore id account hfind
    rw [hstore] at hfind
    exact ⟨account, hfind, rfl⟩
  obtain ⟨found, hfind, hexec⟩ := Option.bind_eq_some_iff.mp hexec
  rw [hcall] at hfind
  cases hfind
  split at hexec
  · obtain ⟨⟨phase, s⟩, hadvance, rfl⟩ := Option.map_eq_some_iff.mp hexec
    have hstore := RefreshCall.advance_store hadvance
    obtain ⟨accountId, before⟩ := call
    unfold Logins.observe
    cases before with
    | locked observed lock => exact (h.read accountId).keep hreached (hkept hstore)
    | storing account lock refreshToken tokens =>
      dsimp only at hstore ⊢
      cases hupdate : updateAccountTokens accountId answer.encrypted answer.claims now.instant
        v.refreshes.store with
      | mk result t =>
        rw [hupdate] at hstore
        cases result with
        | error e =>
          rw [updateAccountTokens_error hupdate] at hstore
          exact h.keep hreached (hkept hstore)
        | ok _ =>
          obtain ⟨hwritten, hothers⟩ := updateAccountTokens_ok hupdate
          change s.store = t at hstore
          rw [← hstore] at hwritten hothers
          refine h.store hreached ?_ hwritten hothers
          intro hwaits
          obtain ⟨stored, hfind⟩ := Table.has_iff.mp (updateAccountTokens_has hupdate)
          exact ⟨stored, hfind, hfound accountId account lock refreshToken tokens hcall hwaits
            stored hfind⟩
    | _ => exact h.keep hreached (hkept hstore)
  · cases hexec

/-- An operation on the store alone keeps the waits, when it writes no tokens. -/
theorem Logins.Waiting.commit (h : v.Waiting) {op : Op} (hop : op.writesTokens = false)
    (now : Clock) : Logins.Waiting { v with
      refreshes := { v.refreshes with store := op.exec now v.refreshes.store } } := by
  apply h.keep
  · have hrun : Run Store.Step v.refreshes.store [(op, now)] (op.exec now v.refreshes.store) :=
      .single rfl
    exact h.reached.run hrun
  · exact Op.tokensKept hop now v.refreshes.store

/-- Every step that finds its credential keeps the waits. -/
theorem Logins.Waiting.step (h : v.Waiting) (hfound : FindsItsCredential v event)
    (hstep : v.Step crypto event w) : w.Waiting := by
  obtain ⟨event, now⟩ := event
  cases event with
  | refresh event =>
    cases event with
    | run i answer =>
      obtain ⟨call, hcall, hstep⟩ := Option.bind_eq_some_iff.mp hstep
      split at hstep
      · obtain ⟨u, hexec, rfl⟩ := Option.map_eq_some_iff.mp hstep
        exact h.run hcall hfound hexec
      · cases hstep
    | call accountId =>
      cases hstep
      exact h.keep h.reached fun id account hfind ↦ ⟨account, hfind, rfl⟩
    | cancel i =>
      obtain ⟨u, hexec, rfl⟩ := Option.map_eq_some_iff.mp hstep
      obtain ⟨call, hcall, hexec⟩ := Option.bind_eq_some_iff.mp hexec
      obtain ⟨phase, hphase, rfl⟩ := Option.map_eq_some_iff.mp hexec
      exact h.keep h.reached fun id account hfind ↦ ⟨account, hfind, rfl⟩
    | commit op => cases hstep
  | importAccount newId encrypted lastRefreshAt claims label =>
    unfold Logins.Step Logins.exec at hstep
    dsimp only at hstep
    split at hstep
    · next hfresh =>
      split at hstep
      · cases hstep
      · next id s himport =>
        cases hstep
        have hrun : Run Store.Step v.refreshes.store
            [(.upsertAccount newId encrypted lastRefreshAt claims label, now)] s :=
          .single (congrArg Prod.snd himport)
        obtain ⟨hwritten, hothers⟩ := upsertAccount_ok himport
        exact h.importAccount hfresh (h.reached.run hrun) hwritten hothers
    · cases hstep
  | read accountId =>
    cases hstep
    exact h.read accountId
  | report i reason =>
    obtain ⟨credential, hcredential, rfl⟩ := Option.map_eq_some_iff.mp hstep
    have hwrites : (Op.markAuthFailed credential.accountId reason).writesTokens = false := rfl
    have hmarked := h.commit hwrites now
    refine ⟨hmarked.reached, hmarked.tokens, hmarked.stored, h.known, h.counted, h.earlier, ?_⟩
    intro report hmem hunrefreshed
    rcases List.mem_append.mp hmem with hold | hnew
    · exact h.reports report hold hunrefreshed
    · split at hnew
      · next hhas =>
        cases List.mem_singleton.mp hnew
        exact h.report (List.mem_of_getElem? hcredential)
          (fun hwaits ↦ hfound credential hcredential hwaits) hhas hunrefreshed
      · cases hnew
  | commit op =>
    unfold Logins.Step Logins.exec at hstep
    dsimp only at hstep
    split at hstep
    · cases hstep
    · next hother =>
      cases hstep
      apply h.commit
      cases op with
      | upsertAccount | updateAccountTokens => exact absurd rfl hother
      | _ => rfl

/-- **A fresh login is kept** in every run whose stores and reports find the ciphertexts that
their tasks have read. -/
theorem fresh_login_kept
    (hv : Reachable Logins.Started (guarded (Logins.Step crypto) FindsItsCredential) v) :
    v.LoginKept := by
  have hwaiting : v.Waiting := by
    apply hv.invariant
    · rintro v ⟨hstarted, hseen, himported, hcredentials, hreports⟩
      refine ⟨hstarted.reached, ?_, hseen, ?_, ?_, ?_, ?_⟩
      · intro id imported hwaits
        rw [himported] at hwaits
        cases hwaits
      · rw [hcredentials]
        intro credential hmem
        cases hmem
      · rw [hcredentials]
        intro credential hmem
        cases hmem
      · intro id imported hwaits
        rw [himported] at hwaits
        cases hwaits
      · rw [hreports]
        intro report hmem
        cases hmem
    · rintro v event w hwaiting ⟨hfound, hstep⟩
      exact hwaiting.step hfound hstep
  exact ⟨hwaiting.tokens, hwaiting.reports⟩

/-! ### Two schedules -/

/-- The condition on a step, as a test. -/
def Logins.findsItsCredential (v : Logins) (event : LoginEvent × Clock) : Bool :=
  let finds (accountId : Uuid) (encrypted : AccountTokens) : Bool :=
    (v.imported accountId).isNone ||
      (v.refreshes.store.accounts.find accountId).all fun stored ↦
        sameCiphertexts stored.encrypted encrypted
  match event.1 with
  | .refresh (.run i _) => v.refreshes.calls[i]?.all fun call ↦
    match call.phase with
    | .storing account .. => finds call.accountId account.encrypted
    | _ => true
  | .report i _ => v.credentials[i]?.all fun credential ↦
    finds credential.accountId credential.encrypted
  | _ => true

omit [UuidText] in
/-- The test passes only where the condition holds. -/
theorem Logins.finds_of_test (h : v.findsItsCredential event = true) :
    FindsItsCredential v event := by
  have hfinds : ∀ accountId encrypted, ((v.imported accountId).isNone ||
      (v.refreshes.store.accounts.find accountId).all fun stored ↦
        sameCiphertexts stored.encrypted encrypted) = true →
      (v.imported accountId).isSome = true →
      ∀ stored, v.refreshes.store.accounts.find accountId = some stored →
        sameCiphertexts stored.encrypted encrypted = true := by
    intro accountId encrypted htest hwaits stored hstored
    obtain ⟨imported, himported⟩ := Option.isSome_iff_exists.mp hwaits
    rw [himported, hstored] at htest
    exact htest
  obtain ⟨event, now⟩ := event
  cases event with
  | refresh event =>
    cases event with
    | run i answer =>
      intro accountId account lock refreshToken tokens hcall
      unfold Logins.findsItsCredential at h
      dsimp only at h
      rw [hcall] at h
      exact hfinds accountId account.encrypted h
    | _ => trivial
  | report i reason =>
    intro credential hcredential
    unfold Logins.findsItsCredential at h
    dsimp only at h
    rw [hcredential] at h
    exact hfinds credential.accountId credential.encrypted h
  | _ => trivial

/-- The process after an event that meets the condition. -/
def Logins.execFinding (crypto : TokenCrypto) (v : Logins) (event : LoginEvent × Clock) :
    Option Logins :=
  if v.findsItsCredential event then v.exec crypto event else none

/-- An executed event that meets the condition is a guarded step. -/
theorem Logins.guarded_of_execFinding (h : v.execFinding crypto event = some w) :
    guarded (Logins.Step crypto) FindsItsCredential v event w := by
  unfold Logins.execFinding at h
  split at h
  · next htest => exact ⟨v.finds_of_test htest, h⟩
  · cases h

/-- A schedule that is executed event by event is a run. -/
theorem Logins.run_of_exec {events : List (LoginEvent × Clock)}
    (h : events.foldlM (Logins.exec crypto) v = some w) : Run (Logins.Step crypto) v events w :=
  Run.of_foldlM (fun _ _ _ hexec ↦ hexec) h

/-- One account under a ChatGPT account, before any refresh. -/
def loginStart : Logins :=
  let claims : AuthClaims := ⟨some "acct", "one@example.invalid", "plus", none⟩
  let encrypted : AccountTokens := ⟨"1access", "1refresh", "1id"⟩
  { refreshes := ⟨.initial ⟨[(1, importedAccount encrypted none claims "one" 0)], by decide⟩,
      [], .empty, 0, []⟩
    seen := [encrypted]
    imports := fun _ ↦ 0
    imported := fun _ ↦ none
    credentials := []
    reports := [] }

/-- The account is imported again. -/
def importEvent : LoginEvent × Clock :=
  (.importAccount 2 ⟨"2access", "2refresh", "2id"⟩ none
    ⟨some "acct", "one@example.invalid", "plus", none⟩ none, ⟨1000, ""⟩)

/-- A call that is served, with the number of its steps, as events of the logins. -/
def loginRefresh (steps : Nat) : List (LoginEvent × Clock) :=
  (refreshEvents 0 1 "rotated" steps).map fun event ↦ (.refresh event.1, event.2)

omit [UuidText] in
private theorem loginStart_started : let _ := hyphenatedText
    loginStart.Started := by
  intro _
  refine ⟨⟨⟨_, [], Store.freshlyMigrated_initial _, .nil _⟩, rfl, rfl, rfl⟩, ?_, ?_, rfl, rfl⟩
  · intro id account hfind
    have hmem := Table.mem_rows_iff.mpr hfind
    cases List.mem_singleton.mp hmem
    exact List.mem_singleton_self _
  · intro id
    rfl

end Steps

/-- What a schedule leaves of the account: the waiting import, the stored ciphertexts, the status
and the reports. -/
def loginOutcome (v : Logins) :
    Option AccountTokens × Option AccountTokens × Option AccountStatus × List FailureReport :=
  let account := v.refreshes.store.accounts.find 1
  (v.imported 1, account.map Account.encrypted, account.map Account.status, v.reports)

/-- An import, a failure report of what it stored, and a refresh that is about to store. -/
theorem fresh_login_kept_alone : let _ := hyphenatedText
    ∃ v : Logins, loginOutcome v =
        (some ⟨"2access", "2refresh", "2id"⟩, some ⟨"2access", "2refresh", "2id"⟩,
          some .authFailed, [⟨⟨1, ⟨"2access", "2refresh", "2id"⟩, 1⟩, 1, true⟩]) ∧
      v.LoginKept := by
  intro _
  have hreplay : ((importEvent :: (.read 1, ⟨1000, ""⟩) ::
      (.report 0 "expired", ⟨1000, ""⟩) :: loginRefresh 7).foldlM
        (Logins.execFinding dropNonce) loginStart).map loginOutcome =
      some (some ⟨"2access", "2refresh", "2id"⟩, some ⟨"2access", "2refresh", "2id"⟩,
        some .authFailed, [⟨⟨1, ⟨"2access", "2refresh", "2id"⟩, 1⟩, 1, true⟩]) := by
    decide +kernel
  obtain ⟨v, hexec, houtcome⟩ := Option.map_eq_some_iff.mp hreplay
  have hrun := Run.of_foldlM (fun _ _ _ ↦ Logins.guarded_of_execFinding) hexec
  exact ⟨v, houtcome, fresh_login_kept ⟨loginStart, _, loginStart_started, hrun⟩⟩

/-- A call that exchanged the old token stores over the import, and a report of the old credential
fails the imported account. -/
theorem fresh_login_lost : let _ := hyphenatedText
    (∃ v, Reachable Logins.Started (Logins.Step dropNonce) v ∧
      loginOutcome v = (some ⟨"2access", "2refresh", "2id"⟩,
        some ⟨"3access", "3rotated", "3id"⟩, some .active, []) ∧ ¬v.LoginKept) ∧
    ∃ v, Reachable Logins.Started (Logins.Step dropNonce) v ∧
      loginOutcome v = (some ⟨"2access", "2refresh", "2id"⟩,
        some ⟨"2access", "2refresh", "2id"⟩, some .authFailed,
        [⟨⟨1, ⟨"1access", "1refresh", "1id"⟩, 0⟩, 1, true⟩]) ∧ ¬v.LoginKept := by
  intro _
  have hstored : ((loginRefresh 7 ++ importEvent :: (loginRefresh 1).tail).foldlM
      (Logins.exec dropNonce) loginStart).map loginOutcome =
      some (some ⟨"2access", "2refresh", "2id"⟩, some ⟨"3access", "3rotated", "3id"⟩,
        some .active, []) := by decide +kernel
  have hreported : (((.read 1, ⟨1000, ""⟩) :: importEvent ::
      [(.report 0 "expired", ⟨1000, ""⟩)]).foldlM
        (Logins.exec dropNonce) loginStart).map loginOutcome =
      some (some ⟨"2access", "2refresh", "2id"⟩, some ⟨"2access", "2refresh", "2id"⟩,
        some .authFailed, [⟨⟨1, ⟨"1access", "1refresh", "1id"⟩, 0⟩, 1, true⟩]) := by
    decide +kernel
  constructor
  · obtain ⟨v, hexec, houtcome⟩ := Option.map_eq_some_iff.mp hstored
    have hrun := Logins.run_of_exec hexec
    refine ⟨v, ⟨loginStart, _, loginStart_started, hrun⟩, houtcome, ?_⟩
    intro hkept
    unfold loginOutcome at houtcome
    rw [Prod.mk.injEq, Prod.mk.injEq] at houtcome
    obtain ⟨himported, haccount, -⟩ := houtcome
    obtain ⟨account, hfind, hencrypted⟩ := Option.map_eq_some_iff.mp haccount
    have hsame := hkept.tokens 1 _ himported account hfind
    rw [hencrypted] at hsame
    exact absurd hsame (by decide)
  · obtain ⟨v, hexec, houtcome⟩ := Option.map_eq_some_iff.mp hreported
    have hrun := Logins.run_of_exec hexec
    refine ⟨v, ⟨loginStart, _, loginStart_started, hrun⟩, houtcome, ?_⟩
    intro hkept
    unfold loginOutcome at houtcome
    rw [Prod.mk.injEq, Prod.mk.injEq, Prod.mk.injEq] at houtcome
    have hsame := hkept.reports _ (houtcome.2.2.2 ▸ List.mem_singleton_self _) rfl
    exact absurd hsame (by decide)

end CodexLb
