import CodexLb.Base.Json
import CodexLb.Route.Reachable
import CodexLb.Transition.KeyedLocks

/-!
# Token refreshes

`refresh_account_tokens` and `account_refresh_lock` of `src/upstream.rs:36–115`
as a machine of one atomic step for each await, lock or drop of a call. Any
number of calls and the other writers of the database interleave. The token
endpoint and the encryption answer from outside.
-/

namespace CodexLb

open Relational Transition

/-! ### The token endpoint -/

/-- `OAuthTokenPayload`, `src/upstream.rs:25–34`. -/
structure OAuthTokenPayload where
  accessToken : Option String
  refreshToken : Option String
  idToken : Option String
  error : Option JsonValue
  errorDescription : Option String
  message : Option String
  code : Option String

/-- `oauth_error_message`, `src/upstream.rs:474–494`. -/
def oauthErrorMessage (payload : OAuthTokenPayload) : Option String :=
  payload.message.or <| payload.errorDescription.or <| payload.code.or <|
    payload.error.bind fun error ↦
      match error with
      | .string value => some value
      | .object _ =>
        ((error.get "message").or ((error.get "error_description").or (error.get "code"))).bind
          JsonValue.asStr
      | _ => none

/-- How the exchange ends: no response, a body that is not a payload, or a payload under a
status. -/
inductive TokenResponse where
  | failed (error : String)
  | invalid (error : String)
  | answered (success : Bool) (status : String) (payload : OAuthTokenPayload)

/-- The tokens of a successful exchange; `src/upstream.rs:61–89`. -/
def TokenResponse.tokens : TokenResponse → Except AppError AccountTokens
  | .failed error => .error (.upstream s!"token refresh request failed: {error}")
  | .invalid error => .error (.upstream s!"invalid token refresh response: {error}")
  | .answered success status payload =>
    if !success then
      .error (.upstream ((oauthErrorMessage payload).getD s!"token refresh failed ({status})"))
    else
      match payload.accessToken with
      | none => .error (.upstream "refresh response missing access_token")
      | some accessToken =>
        match payload.refreshToken with
        | none => .error (.upstream "refresh response missing refresh_token")
        | some refreshToken =>
          match payload.idToken with
          | none => .error (.upstream "refresh response missing id_token")
          | some idToken => .ok ⟨accessToken, refreshToken, idToken⟩

/-! ### Calls -/

/-- What a call returns; a dropped future returns nothing. -/
abbrev RefreshResult := Option (Except AppError Account)

/-- Where a call of `refresh_account_tokens` is; `src/upstream.rs:43–104`. -/
inductive RefreshPhase where
  | start
  /-- The first read is done. -/
  | observed (observed : Account)
  /-- Inside `account_refresh_lock`, with the map locked and its dead entries dropped. -/
  | looking (observed : Account)
  | waiting (observed : Account) (lock : Nat)
  | locked (observed : Account) (lock : Nat)
  /-- The second read found the observed ciphertexts and its token decrypts. -/
  | sending (account : Account) (lock : Nat) (refreshToken : String)
  | exchanging (account : Account) (lock : Nat) (refreshToken : String)
  | storing (account : Account) (lock : Nat) (refreshToken : String) (tokens : AccountTokens)
  | unlocking (lock : Nat) (result : RefreshResult)
  | dropping (lock : Nat) (result : RefreshResult)
  | ended (result : RefreshResult)

namespace RefreshPhase

/-- The lock whose `Arc` the call holds. -/
def lock : RefreshPhase → Option Nat
  | waiting _ lock | locked _ lock | sending _ lock _ | exchanging _ lock _ | storing _ lock _ _
  | unlocking lock _ | dropping lock _ => some lock
  | start | observed _ | looking _ | ended _ => none

/-- The call holds the guard of its lock: from before its second read to after its store. -/
def owns : RefreshPhase → Bool
  | locked .. | sending .. | exchanging .. | storing .. | unlocking .. => true
  | _ => false

/-- The call holds the lock of the map. -/
def looks : RefreshPhase → Bool
  | looking _ => true
  | _ => false

/-- The drop of the future at an await: the guard goes before the `Arc`. -/
def cancelled : RefreshPhase → Option RefreshPhase
  | start | observed _ => some (ended none)
  | waiting _ lock => some (dropping lock none)
  | locked _ lock | sending _ lock _ | exchanging _ lock _ | storing _ lock _ _ =>
    some (unlocking lock none)
  | looking _ | unlocking .. | dropping .. | ended _ => none

end RefreshPhase

/-- A call and the account it refreshes. -/
structure RefreshCall where
  accountId : Uuid
  phase : RefreshPhase

/-- The call as a user of the lock map. -/
def RefreshCall.party (call : RefreshCall) : LockParty Uuid :=
  ⟨call.accountId, call.phase.lock, call.phase.owns⟩

/-- What has gone out to the token endpoint and what came of it. -/
inductive RefreshEntry where
  | sent (accountId : Uuid) (refreshToken : String)
  /-- An exchange of a token was stored; the answer holds the next refresh token. -/
  | stored (accountId : Uuid) (refreshToken answer : String)
  deriving DecidableEq, Repr

/-- The calls of one process, `REFRESH_LOCKS`, the store, and the exchanges so far. -/
structure Refreshes where
  store : Store
  calls : List RefreshCall
  locks : Table Uuid Nat
  nextLock : Nat
  log : List RefreshEntry

namespace Refreshes

/-- The calls as users of the lock map. -/
def parties (v : Refreshes) : List (LockParty Uuid) := v.calls.map RefreshCall.party

/-- A store that the daemon has reached, before any refresh. -/
structure Started [UuidText] (v : Refreshes) : Prop where
  reached : v.store.Reached
  calls : v.calls = []
  locks : v.locks = .empty
  log : v.log = []

/-- The other calls of one process stay where they are. -/
def setPhase (v : Refreshes) (i : Nat) (call : RefreshCall) (phase : RefreshPhase) : Refreshes :=
  { v with calls := v.calls.set i ⟨call.accountId, phase⟩ }

end Refreshes

/-- What a step may get from outside: the response of the endpoint, and the ciphertexts and the
claims of tokens that are stored. -/
structure RefreshAnswer where
  response : TokenResponse
  encrypted : AccountTokens
  claims : AuthClaims

/-- The ciphertexts decrypt to the tokens. -/
structure TokenCrypto.Encrypts (crypto : TokenCrypto) (tokens encrypted : AccountTokens) :
    Prop where
  accessToken : crypto.decrypt encrypted.accessToken = .ok tokens.accessToken
  refreshToken : crypto.decrypt encrypted.refreshToken = .ok tokens.refreshToken
  idToken : crypto.decrypt encrypted.idToken = .ok tokens.idToken

section Steps

variable [UuidText]

/-- The second read and its comparison, `src/upstream.rs:48–56`. -/
def RefreshCall.reread (crypto : TokenCrypto) (call : RefreshCall) (observed : Account)
    (lock : Nat) (s : Store) : RefreshPhase :=
  match s.accounts.find call.accountId with
  | none => .unlocking lock (some (.error (accountNotFound call.accountId)))
  | some account =>
    if account.encrypted.refreshToken ≠ observed.encrypted.refreshToken ∨
        account.encrypted.accessToken ≠ observed.encrypted.accessToken then
      .unlocking lock (some (.ok account))
    else
      match crypto.decrypt account.encrypted.refreshToken with
      | .error e => .unlocking lock (some (.error e))
      | .ok refreshToken => .sending account lock refreshToken

/-- The next step of a call, unless it has to wait or has ended; `src/upstream.rs:43–115`. -/
def RefreshCall.advance (crypto : TokenCrypto) (answer : RefreshAnswer) (now : Instant)
    (call : RefreshCall) (v : Refreshes) : Option (RefreshPhase × Refreshes) :=
  match call.phase with
  | .start =>
    match v.store.accounts.find call.accountId with
    | none => some (.ended (some (.error (accountNotFound call.accountId))), v)
    | some account => some (.observed account, v)
  | .observed observed =>
    if v.calls.any fun other ↦ other.phase.looks then none
    else some (.looking observed, { v with locks := retainLocks v.locks v.parties })
  | .looking observed =>
    match upgradeLock v.locks v.parties call.accountId with
    | some lock => some (.waiting observed lock, v)
    | none =>
      some (.waiting observed v.nextLock, { v with
        locks := v.locks.upsert call.accountId v.nextLock fun _ ↦ v.nextLock
        nextLock := v.nextLock + 1 })
  | .waiting observed lock =>
    if lockOwned v.parties lock then none else some (.locked observed lock, v)
  | .locked observed lock => some (call.reread crypto observed lock v.store, v)
  | .sending account lock refreshToken =>
    some (.exchanging account lock refreshToken,
      { v with log := v.log ++ [.sent call.accountId refreshToken] })
  | .exchanging account lock refreshToken =>
    match answer.response.tokens with
    | .error e => some (.unlocking lock (some (.error e)), v)
    | .ok tokens => some (.storing account lock refreshToken tokens, v)
  | .storing _ lock refreshToken tokens =>
    match updateAccountTokens call.accountId answer.encrypted answer.claims now v.store with
    | (.error e, _) => some (.unlocking lock (some (.error e)), v)
    | (.ok (), s) =>
      some (.unlocking lock ((s.accounts.find call.accountId).map .ok), { v with
        store := s
        log := v.log ++ [.stored call.accountId refreshToken tokens.refreshToken] })
  | .unlocking lock result => some (.dropping lock result, v)
  | .dropping _ result => some (.ended result, v)
  | .ended _ => none

/-- What happens in the process: a call arrives, takes a step, or is dropped, or another task
commits an operation. -/
inductive RefreshEvent where
  | call (accountId : Uuid)
  | run (i : Nat) (answer : RefreshAnswer)
  | cancel (i : Nat)
  | commit (op : Op)

/-- One step of the process at a clock reading. What a call stores encrypts its answer. -/
inductive Refreshes.Step (crypto : TokenCrypto) (v : Refreshes) :
    RefreshEvent × Clock → Refreshes → Prop where
  | call (accountId : Uuid) (now : Clock) :
      Step crypto v (.call accountId, now) { v with calls := v.calls ++ [⟨accountId, .start⟩] }
  | run {i : Nat} {answer : RefreshAnswer} {now : Clock} {call : RefreshCall}
      {phase : RefreshPhase} {w : Refreshes} (hcall : v.calls[i]? = some call)
      (encrypts : ∀ account lock refreshToken tokens,
        call.phase = .storing account lock refreshToken tokens →
        crypto.Encrypts tokens answer.encrypted)
      (hadvance : call.advance crypto answer now.instant v = some (phase, w)) :
      Step crypto v (.run i answer, now) (w.setPhase i call phase)
  | cancel {i : Nat} {now : Clock} {call : RefreshCall} {phase : RefreshPhase}
      (hcall : v.calls[i]? = some call) (hphase : call.phase.cancelled = some phase) :
      Step crypto v (.cancel i, now) (v.setPhase i call phase)
  | commit (op : Op) (now : Clock) :
      Step crypto v (.commit op, now) { v with store := op.exec now v.store }

/-! ### One call at a time -/

variable {crypto : TokenCrypto} {v w : Refreshes} {event : RefreshEvent × Clock}

omit [UuidText] in
private theorem parties_get {i : Nat} {call : RefreshCall} (h : v.calls[i]? = some call) :
    v.parties[i]? = some call.party := by
  rw [Refreshes.parties, List.getElem?_map, h]
  rfl

omit [UuidText] in
private theorem parties_setPhase {i : Nat} {call : RefreshCall} {phase : RefreshPhase} :
    (v.setPhase i call phase).parties =
      v.parties.set i ⟨call.accountId, phase.lock, phase.owns⟩ := by
  rw [Refreshes.parties, Refreshes.setPhase, List.map_set]
  rfl

/-- The calls of a process use the lock map as it wants to be used. -/
def Refreshes.Exclusive (v : Refreshes) : Prop := LocksExclusive v.parties v.locks

omit [UuidText] in
/-- A call that lets go of its lock, or keeps it, leaves the map exclusive. -/
private theorem Refreshes.Exclusive.keep (h : v.Exclusive) {i : Nat} {call : RefreshCall}
    {phase : RefreshPhase} (hcall : v.calls[i]? = some call)
    (hlock : phase.lock = none ∨ phase.lock = call.phase.lock)
    (howns : phase.owns = true → call.phase.owns = true) : (v.setPhase i call phase).Exclusive := by
  show LocksExclusive _ (v.setPhase i call phase).locks
  rw [parties_setPhase]
  exact LocksExclusive.keep h (parties_get hcall) rfl hlock howns

/-- A call's step keeps the map exclusive. -/
theorem RefreshCall.advance_exclusive (h : v.Exclusive) {i : Nat} {call : RefreshCall}
    (hcall : v.calls[i]? = some call) {answer : RefreshAnswer} {now : Instant}
    {phase : RefreshPhase} (hadvance : call.advance crypto answer now v = some (phase, w)) :
    (w.setPhase i call phase).Exclusive := by
  obtain ⟨accountId, before⟩ := call
  unfold RefreshCall.advance at hadvance
  cases before with
  | start =>
    dsimp only at hadvance
    split at hadvance
    · cases hadvance
      exact h.keep hcall (.inl rfl) fun howns ↦ by cases howns
    · cases hadvance
      exact h.keep hcall (.inl rfl) fun howns ↦ by cases howns
  | observed observed =>
    dsimp only at hadvance
    split at hadvance
    · cases hadvance
    · cases hadvance
      have hretained : Refreshes.Exclusive { v with locks := retainLocks v.locks v.parties } :=
        LocksExclusive.retain h
      exact hretained.keep hcall (.inl rfl) fun howns ↦ by cases howns
  | looking observed =>
    dsimp only at hadvance
    split at hadvance
    · next lock hlock =>
      cases hadvance
      show LocksExclusive _ v.locks
      rw [parties_setPhase]
      exact LocksExclusive.upgrade h hlock rfl rfl
    · next hnone =>
      cases hadvance
      show LocksExclusive _ (v.locks.upsert accountId v.nextLock fun _ ↦ v.nextLock)
      rw [parties_setPhase]
      exact LocksExclusive.create h hnone rfl rfl (fun _ ↦ v.nextLock) fun _ ↦ rfl
  | waiting observed lock =>
    dsimp only at hadvance
    split at hadvance
    · cases hadvance
    · next hfree =>
      cases hadvance
      show LocksExclusive _ v.locks
      rw [parties_setPhase]
      exact LocksExclusive.own h (parties_get hcall) rfl rfl rfl (by simpa using hfree)
  | locked observed lock =>
    cases hadvance
    unfold RefreshCall.reread
    split
    · exact h.keep hcall (.inr rfl) fun _ ↦ rfl
    · split
      · exact h.keep hcall (.inr rfl) fun _ ↦ rfl
      · split
        · exact h.keep hcall (.inr rfl) fun _ ↦ rfl
        · exact h.keep hcall (.inr rfl) fun _ ↦ rfl
  | sending account lock refreshToken =>
    cases hadvance
    have hlogged : Refreshes.Exclusive
        { v with log := v.log ++ [.sent accountId refreshToken] } := h
    exact hlogged.keep hcall (.inr rfl) fun _ ↦ rfl
  | exchanging account lock refreshToken =>
    dsimp only at hadvance
    split at hadvance
    · cases hadvance
      exact h.keep hcall (.inr rfl) fun _ ↦ rfl
    · cases hadvance
      exact h.keep hcall (.inr rfl) fun _ ↦ rfl
  | storing account lock refreshToken tokens =>
    dsimp only at hadvance
    split at hadvance
    · cases hadvance
      exact h.keep hcall (.inr rfl) fun _ ↦ rfl
    · next s _ =>
      cases hadvance
      have hstored : Refreshes.Exclusive { v with
          store := s
          log := v.log ++ [.stored accountId refreshToken tokens.refreshToken] } := h
      exact hstored.keep hcall (.inr rfl) fun _ ↦ rfl
  | unlocking lock result =>
    cases hadvance
    exact h.keep hcall (.inr rfl) fun howns ↦ by cases howns
  | dropping lock result =>
    cases hadvance
    exact h.keep hcall (.inl rfl) fun howns ↦ by cases howns
  | ended result => cases hadvance

/-- Every step of the process keeps the map exclusive. -/
theorem Refreshes.Exclusive.step (h : v.Exclusive) (hstep : v.Step crypto event w) :
    w.Exclusive := by
  cases hstep with
  | call accountId now =>
    show LocksExclusive (List.map RefreshCall.party (v.calls ++ [⟨accountId, .start⟩])) v.locks
    rw [List.map_append]
    exact LocksExclusive.join h rfl
  | run hcall _ hadvance => exact RefreshCall.advance_exclusive h hcall hadvance
  | @cancel i now call phase hcall hphase =>
    obtain ⟨accountId, before⟩ := call
    cases before with
    | looking observed => cases hphase
    | unlocking lock result => cases hphase
    | dropping lock result => cases hphase
    | ended result => cases hphase
    | start | observed =>
      cases hphase
      exact h.keep hcall (.inl rfl) fun howns ↦ by cases howns
    | waiting observed lock =>
      cases hphase
      exact h.keep hcall (.inr rfl) fun howns ↦ by cases howns
    | locked | sending | exchanging | storing =>
      cases hphase
      exact h.keep hcall (.inr rfl) fun _ ↦ rfl
  | commit op now => exact h

omit [UuidText] in
/-- Two calls of one account that hold their guard are the same call. -/
theorem Refreshes.Exclusive.unique (h : v.Exclusive) {i j : Nat} {a b : RefreshCall}
    (ha : v.calls[i]? = some a) (hb : v.calls[j]? = some b) (hid : a.accountId = b.accountId)
    (howns : a.phase.owns = true) (howns' : b.phase.owns = true) : i = j := by
  have hlock : ∀ phase : RefreshPhase, phase.owns = true → ∃ lock, phase.lock = some lock := by
    intro phase howns
    cases phase with
    | start | observed | looking | waiting | dropping | ended => cases howns
    | locked _ lock => exact ⟨lock, rfl⟩
    | sending _ lock _ => exact ⟨lock, rfl⟩
    | exchanging _ lock _ => exact ⟨lock, rfl⟩
    | storing _ lock _ _ => exact ⟨lock, rfl⟩
    | unlocking lock _ => exact ⟨lock, rfl⟩
  obtain ⟨lockA, hlockA⟩ := hlock a.phase howns
  obtain ⟨lockB, hlockB⟩ := hlock b.phase howns'
  exact LocksExclusive.owner_unique h (parties_get ha) (parties_get hb) hid hlockA hlockB howns
    howns'

/-! ### Which token goes out -/

/-- What a step of a call does to the store and the log. -/
inductive RefreshEffect (crypto : TokenCrypto) (answer : RefreshAnswer) (now : Instant)
    (call : RefreshCall) (v : Refreshes) : RefreshPhase → Refreshes → Prop where
  | quiet {phase : RefreshPhase} {w : Refreshes} (store : w.store = v.store)
      (calls : w.calls = v.calls) (log : w.log = v.log)
      (hphase : ∀ account lock refreshToken, phase ≠ .sending account lock refreshToken) :
      RefreshEffect crypto answer now call v phase w
  | reread {observed : Account} {lock : Nat} (hphase : call.phase = .locked observed lock) :
      RefreshEffect crypto answer now call v (call.reread crypto observed lock v.store) v
  | sent {account : Account} {lock : Nat} {refreshToken : String}
      (hphase : call.phase = .sending account lock refreshToken) :
      RefreshEffect crypto answer now call v (.exchanging account lock refreshToken)
        { v with log := v.log ++ [.sent call.accountId refreshToken] }
  | stored {account : Account} {lock : Nat} {refreshToken : String} {tokens : AccountTokens}
      {t : Store} (hphase : call.phase = .storing account lock refreshToken tokens)
      (hstored : updateAccountTokens call.accountId answer.encrypted answer.claims now v.store =
        (.ok (), t)) :
      RefreshEffect crypto answer now call v
        (.unlocking lock ((t.accounts.find call.accountId).map .ok)) { v with
          store := t
          log := v.log ++ [.stored call.accountId refreshToken tokens.refreshToken] }

/-- A call reads, sends or stores, or leaves the store and the log alone. -/
theorem RefreshCall.advance_effect {call : RefreshCall} {answer : RefreshAnswer} {now : Instant}
    {phase : RefreshPhase} (hadvance : call.advance crypto answer now v = some (phase, w)) :
    RefreshEffect crypto answer now call v phase w := by
  unfold RefreshCall.advance at hadvance
  cases hphase : call.phase with
  | locked observed lock =>
    rw [hphase] at hadvance
    cases hadvance
    exact .reread hphase
  | sending account lock refreshToken =>
    rw [hphase] at hadvance
    cases hadvance
    exact .sent hphase
  | storing account lock refreshToken tokens =>
    rw [hphase] at hadvance
    dsimp only at hadvance
    split at hadvance
    · cases hadvance
      exact .quiet rfl rfl rfl fun _ _ _ heq ↦ by cases heq
    · next t hstored =>
      cases hadvance
      exact .stored hphase hstored
  | start | observed | looking | waiting | exchanging =>
    rw [hphase] at hadvance
    dsimp only at hadvance
    split at hadvance <;> cases hadvance
    all_goals exact .quiet rfl rfl rfl fun _ _ _ heq ↦ by cases heq
  | unlocking | dropping | ended =>
    rw [hphase] at hadvance
    cases hadvance
    all_goals exact .quiet rfl rfl rfl fun _ _ _ heq ↦ by cases heq

/-- The operations that write tokens. -/
def Op.writesTokens : Op → Bool
  | .upsertAccount .. | .updateAccountTokens .. => true
  | _ => false

/-- Every account of one store has the ciphertexts that it has in the other. -/
def TokensKept (s t : Store) : Prop :=
  ∀ id account, t.accounts.find id = some account →
    ∃ before, s.accounts.find id = some before ∧ before.encrypted = account.encrypted

omit [UuidText] in
private theorem tokensKept_of_update {s t : Store} {id : Uuid} {f : Account → Account}
    (h : ∀ account, (f account).encrypted = account.encrypted) :
    TokensKept s { t with accounts := s.accounts.update (fun k _ ↦ k = id) f } := by
  intro id' account hfind
  rw [Table.find_update] at hfind
  obtain ⟨before, hbefore, heq⟩ := Option.map_eq_some_iff.mp hfind
  refine ⟨before, hbefore, ?_⟩
  split at heq
  · rw [← heq, h]
  · rw [heq]

/-- The operations that write no tokens keep them. -/
theorem Op.tokensKept {op : Op} (h : op.writesTokens = false) (now : Clock) (s : Store) :
    TokensKept s (op.exec now s) := by
  have hsame : ∀ t : Store, t.accounts = s.accounts → TokensKept s t := by
    intro t ht id account hfind
    rw [ht] at hfind
    exact ⟨account, hfind, rfl⟩
  cases hwrites : op.writesAccounts with
  | false => exact hsame _ (Op.accounts_frame hwrites now s)
  | true =>
    cases op with
    | updateAccount id status label email planType =>
      exact updateAccount_keeps (TokensKept s) (hsame s rfl)
        fun _ _ ↦ tokensKept_of_update fun _ ↦ rfl
    | deleteAccount id =>
      intro id' account hfind
      exact ⟨account, find_of_deleteAccount hfind, rfl⟩
    | markAuthFailed id reason => exact tokensKept_of_update fun _ ↦ rfl
    | markUsageError id message => exact tokensKept_of_update fun _ ↦ rfl
    | replaceUsageWindows id planType fetchedAt windows =>
      apply replaceUsageWindows_keeps (TokensKept s) (hsame s rfl)
      intro windows samples
      exact tokensKept_of_update
        (t := { s with usageWindows := windows, usageSamples := samples }) fun _ ↦ rfl
    | upsertAccount newId encrypted lastRefreshAt claims label => cases h
    | updateAccountTokens id encrypted claims => cases h
    | _ => cases hwrites

/-- The answer of an entry for an account. -/
def RefreshEntry.answer (accountId : Uuid) : RefreshEntry → Option String
  | .sent .. => none
  | .stored id _ answer => if id = accountId then some answer else none

/-- The refresh token that the last stored exchange of an account returned. -/
def lastAnswer (accountId : Uuid) : List RefreshEntry → Option String
  | [] => none
  | entry :: rest => (lastAnswer accountId rest).or (entry.answer accountId)

omit [UuidText] in
private theorem lastAnswer_append (accountId : Uuid) (log rest : List RefreshEntry) :
    lastAnswer accountId (log ++ rest) =
      (lastAnswer accountId rest).or (lastAnswer accountId log) := by
  induction log with
  | nil => rw [List.nil_append, lastAnswer, Option.or_none]
  | cons entry log ih => rw [List.cons_append, lastAnswer, lastAnswer, ih, Option.or_assoc]

omit [UuidText] in
private theorem lastAnswer_mem {accountId : Uuid} {log : List RefreshEntry} {answer : String}
    (h : lastAnswer accountId log = some answer) :
    ∃ refreshToken, .stored accountId refreshToken answer ∈ log := by
  induction log with
  | nil => cases h
  | cons entry log ih =>
    rw [lastAnswer] at h
    cases hlast : lastAnswer accountId log with
    | some later =>
      rw [hlast, Option.some_or] at h
      cases h
      obtain ⟨refreshToken, hmem⟩ := ih hlast
      exact ⟨refreshToken, List.mem_cons_of_mem _ hmem⟩
    | none =>
      rw [hlast, Option.none_or] at h
      cases entry with
      | sent id refreshToken => cases h
      | stored id refreshToken stored =>
        by_cases hid : id = accountId
        · rw [RefreshEntry.answer, if_pos hid] at h
          cases h
          rw [hid]
          exact ⟨refreshToken, List.mem_cons_self⟩
        · rw [RefreshEntry.answer, if_neg hid] at h
          cases h

/-- Every token that goes out for an account is the answer of its last stored exchange. -/
def SendsLastAnswer (log : List RefreshEntry) : Prop :=
  ∀ before after id refreshToken, log = before ++ .sent id refreshToken :: after →
    ∀ answer, lastAnswer id before = some answer → refreshToken = answer

/-- The stored refresh token of an account is the answer of its last stored exchange, and so is
the token that a call is about to send. -/
structure Refreshes.Rotating (crypto : TokenCrypto) (v : Refreshes) : Prop where
  current : ∀ id answer, lastAnswer id v.log = some answer →
    ∀ account, v.store.accounts.find id = some account →
      crypto.decrypt account.encrypted.refreshToken = .ok answer
  pending : ∀ call ∈ v.calls, ∀ account lock refreshToken,
    call.phase = .sending account lock refreshToken →
    ∀ answer, lastAnswer call.accountId v.log = some answer → refreshToken = answer
  sent : SendsLastAnswer v.log

omit [UuidText] in
/-- An occurrence in a log with one more entry is that entry or an occurrence before it. -/
private theorem occurrence_append {log before after : List RefreshEntry}
    {entry last : RefreshEntry} (h : log ++ [last] = before ++ entry :: after) :
    (before = log ∧ entry = last) ∨ ∃ middle, log = before ++ entry :: middle := by
  rcases List.eq_nil_or_concat after with rfl | ⟨middle, final, rfl⟩
  · obtain ⟨hlog, hlast⟩ := List.append_inj' h rfl
    exact .inl ⟨hlog.symm, (List.cons.inj hlast).1.symm⟩
  · have hsplit : log ++ [last] = (before ++ entry :: middle) ++ [final] := by simpa using h
    exact .inr ⟨middle, (List.append_inj' hsplit rfl).1⟩

omit [UuidText] in
private theorem SendsLastAnswer.append {log : List RefreshEntry} (h : SendsLastAnswer log)
    {last : RefreshEntry} (hlast : ∀ id refreshToken, last = .sent id refreshToken →
      ∀ answer, lastAnswer id log = some answer → refreshToken = answer) :
    SendsLastAnswer (log ++ [last]) := by
  intro before after id refreshToken heq
  rcases occurrence_append heq with ⟨rfl, hentry⟩ | ⟨middle, hlog⟩
  · exact hlast id refreshToken hentry.symm
  · exact h before middle id refreshToken hlog

omit [UuidText] in
/-- The calls after a call took a step: that call in its new phase, or a call of before. -/
private theorem mem_setPhase {i : Nat} {call : RefreshCall} {phase : RefreshPhase}
    {other : RefreshCall} (hmem : other ∈ (v.setPhase i call phase).calls) :
    other = ⟨call.accountId, phase⟩ ∨ ∃ j : Nat, j ≠ i ∧ v.calls[j]? = some other := by
  obtain ⟨j, hj⟩ := List.mem_iff_getElem?.mp hmem
  rw [Refreshes.setPhase, List.getElem?_set] at hj
  split at hj
  · split at hj
    · cases hj
      exact .inl rfl
    · cases hj
  · next hne => exact .inr ⟨j, fun heq ↦ hne heq.symm, hj⟩

omit [UuidText] in
/-- A step that writes no tokens and no log, to a phase that is not about to send. -/
private theorem Refreshes.Rotating.quiet (h : v.Rotating crypto) {i : Nat} {call : RefreshCall}
    {phase : RefreshPhase} (hphase : ∀ account lock refreshToken,
      phase ≠ .sending account lock refreshToken) : (v.setPhase i call phase).Rotating crypto where
  current := h.current
  pending := by
    intro other hmem account lock refreshToken hsending
    rcases mem_setPhase hmem with rfl | ⟨j, -, hj⟩
    · exact absurd hsending (hphase account lock refreshToken)
    · exact h.pending other (List.mem_of_getElem? hj) account lock refreshToken hsending
  sent := h.sent

/-- The second read finds the token that the last stored exchange returned. -/
private theorem Refreshes.Rotating.reread (h : v.Rotating crypto) {i : Nat} {call : RefreshCall}
    {observed : Account} {lock : Nat} :
    (v.setPhase i call (call.reread crypto observed lock v.store)).Rotating crypto where
  current := h.current
  pending := by
    intro other hmem account lock' refreshToken hsending answer hanswer
    rcases mem_setPhase hmem with rfl | ⟨j, -, hj⟩
    · change call.reread crypto observed lock v.store = _ at hsending
      unfold RefreshCall.reread at hsending
      split at hsending
      · cases hsending
      · next found hfound =>
        split at hsending
        · cases hsending
        · split at hsending
          · cases hsending
          · next token htoken =>
            cases hsending
            rw [h.current _ answer hanswer _ hfound] at htoken
            exact (Except.ok.inj htoken).symm
    · exact h.pending other (List.mem_of_getElem? hj) account lock' refreshToken hsending answer
        hanswer
  sent := h.sent

omit [UuidText] in
/-- Sending logs the answer of the last stored exchange. -/
private theorem Refreshes.Rotating.send (h : v.Rotating crypto) {i : Nat} {call : RefreshCall}
    (hcall : v.calls[i]? = some call) {account : Account} {lock : Nat} {refreshToken : String}
    (hphase : call.phase = .sending account lock refreshToken) :
    (Refreshes.setPhase { v with log := v.log ++ [.sent call.accountId refreshToken] } i call
      (.exchanging account lock refreshToken)).Rotating crypto := by
  have hlast : ∀ id, lastAnswer id (v.log ++ [.sent call.accountId refreshToken]) =
      lastAnswer id v.log := fun id ↦ lastAnswer_append id v.log _
  have hmem := List.mem_of_getElem? hcall
  constructor
  · intro id answer hanswer
    exact h.current id answer ((hlast id).symm.trans hanswer)
  · intro other hother account' lock' refreshToken' hsending answer hanswer
    have hbefore := (hlast other.accountId).symm.trans hanswer
    rcases mem_setPhase hother with rfl | ⟨j, -, hj⟩
    · cases hsending
    · exact h.pending other (List.mem_of_getElem? hj) account' lock' refreshToken' hsending answer
        hbefore
  · apply h.sent.append
    intro id token heq answer hanswer
    cases heq
    exact h.pending call hmem account lock refreshToken hphase answer hanswer

omit [UuidText] in
/-- An update that writes ciphertexts leaves them with the account and every other account alone. -/
theorem encrypted_of_update {accounts : Table Uuid Account} {id : Uuid} {encrypted : AccountTokens}
    {f : Account → Account} (hf : ∀ account, (f account).encrypted = encrypted) :
    (∀ account, (accounts.update (fun k _ ↦ k = id) f).find id = some account →
      account.encrypted = encrypted) ∧
      ∀ other, other ≠ id →
        (accounts.update (fun k _ ↦ k = id) f).find other = accounts.find other := by
  constructor
  · intro account hfind
    rw [Table.find_update_self] at hfind
    obtain ⟨before, -, rfl⟩ := Option.map_eq_some_iff.mp hfind
    exact hf before
  · intro other hne
    exact Table.find_update_ne _ hne _

/-- A stored refresh leaves its ciphertexts with the account and every other account alone. -/
theorem updateAccountTokens_ok {id : Uuid} {encrypted : AccountTokens} {claims : AuthClaims}
    {now : Instant} {s t : Store}
    (h : updateAccountTokens id encrypted claims now s = (.ok (), t)) :
    (∀ account, t.accounts.find id = some account → account.encrypted = encrypted) ∧
      ∀ other, other ≠ id → t.accounts.find other = s.accounts.find other := by
  unfold updateAccountTokens at h
  split at h
  · cases h
  · split at h
    · cases h
    · cases h
      exact encrypted_of_update fun _ ↦ rfl

/-- A stored exchange becomes the last one of its account; no other call of the account is about
to send. -/
private theorem Refreshes.Rotating.stored (h : v.Rotating crypto) (hexclusive : v.Exclusive)
    {i : Nat} {call : RefreshCall} (hcall : v.calls[i]? = some call) {account : Account}
    {lock : Nat} {refreshToken : String} {tokens : AccountTokens}
    (hphase : call.phase = .storing account lock refreshToken tokens) {answer : RefreshAnswer}
    (hencrypts : crypto.Encrypts tokens answer.encrypted) {now : Instant} {t : Store}
    (hstored : updateAccountTokens call.accountId answer.encrypted answer.claims now v.store =
      (.ok (), t)) (result : RefreshResult) :
    (Refreshes.setPhase { v with
      store := t
      log := v.log ++ [.stored call.accountId refreshToken tokens.refreshToken] } i call
      (.unlocking lock result)).Rotating crypto := by
  obtain ⟨hwritten, hothers⟩ := updateAccountTokens_ok hstored
  have hsame : lastAnswer call.accountId
      (v.log ++ [.stored call.accountId refreshToken tokens.refreshToken]) =
        some tokens.refreshToken := by
    rw [lastAnswer_append, lastAnswer, RefreshEntry.answer, if_pos rfl]
    rfl
  have hother : ∀ id, id ≠ call.accountId → lastAnswer id
      (v.log ++ [.stored call.accountId refreshToken tokens.refreshToken]) =
        lastAnswer id v.log := by
    intro id hne
    rw [lastAnswer_append, lastAnswer, RefreshEntry.answer, if_neg (Ne.symm hne)]
    rfl
  constructor
  · intro id next hnext found hfound
    change lastAnswer id (v.log ++ [_]) = some next at hnext
    change t.accounts.find id = some found at hfound
    by_cases hid : id = call.accountId
    · rw [hid, hsame] at hnext
      cases hnext
      rw [hid] at hfound
      rw [hwritten found hfound]
      exact hencrypts.refreshToken
    · rw [hother id hid] at hnext
      rw [hothers id hid] at hfound
      exact h.current id next hnext found hfound
  · intro other hmem account' lock' refreshToken' hsending next hnext
    change lastAnswer other.accountId (v.log ++ [_]) = some next at hnext
    rcases mem_setPhase hmem with rfl | ⟨j, hji, hj⟩
    · cases hsending
    · by_cases hid : other.accountId = call.accountId
      · have howns : other.phase.owns = true := by rw [hsending]; rfl
        have howns' : call.phase.owns = true := by rw [hphase]; rfl
        exact absurd (hexclusive.unique hj hcall hid howns howns') hji
      · rw [hother _ hid] at hnext
        exact h.pending other (List.mem_of_getElem? hj) account' lock' refreshToken' hsending
          next hnext
  · apply h.sent.append
    intro id token heq
    cases heq

/-- A call's step keeps the tokens rotating. -/
theorem RefreshCall.advance_rotating (h : v.Rotating crypto) (hexclusive : v.Exclusive) {i : Nat}
    {call : RefreshCall} (hcall : v.calls[i]? = some call) {answer : RefreshAnswer}
    (hencrypts : ∀ account lock refreshToken tokens,
      call.phase = .storing account lock refreshToken tokens →
      crypto.Encrypts tokens answer.encrypted) {now : Instant} {phase : RefreshPhase}
    (hadvance : call.advance crypto answer now v = some (phase, w)) :
    (w.setPhase i call phase).Rotating crypto := by
  cases RefreshCall.advance_effect hadvance with
  | quiet store calls log hphase =>
    have hsame : w.Rotating crypto := by
      constructor
      · rw [store, log]
        exact h.current
      · rw [calls, log]
        exact h.pending
      · rw [log]
        exact h.sent
    exact hsame.quiet hphase
  | reread hphase => exact h.reread
  | sent hphase => exact h.send hcall hphase
  | stored hphase hstored =>
    exact h.stored hexclusive hcall hphase (hencrypts _ _ _ _ hphase) hstored _

/-- Every step of the process keeps the tokens rotating when no other task writes tokens. -/
theorem Refreshes.Rotating.step (h : v.Rotating crypto) (hexclusive : v.Exclusive)
    (hstep : v.Step crypto event w)
    (honly : ∀ op, event.1 = .commit op → op.writesTokens = false) : w.Rotating crypto := by
  cases hstep with
  | call accountId now =>
    refine ⟨h.current, ?_, h.sent⟩
    intro call hmem account lock refreshToken hsending
    rcases List.mem_append.mp hmem with hold | hnew
    · exact h.pending call hold account lock refreshToken hsending
    · rw [List.mem_singleton.mp hnew] at hsending
      cases hsending
  | run hcall hencrypts hadvance =>
    exact RefreshCall.advance_rotating h hexclusive hcall hencrypts hadvance
  | @cancel i now call phase hcall hphase =>
    apply h.quiet
    rintro account lock refreshToken rfl
    cases hcancelled : call.phase with
    | _ => rw [hcancelled] at hphase; cases hphase
  | commit op now =>
    refine ⟨?_, h.pending, h.sent⟩
    intro id answer hanswer account hfound
    obtain ⟨before, hbefore, hsame⟩ :=
      Op.tokensKept (honly op rfl) now v.store id account hfound
    rw [← hsame]
    exact h.current id answer hanswer before hbefore

/-! ### Runs of the process -/

/-- The store of the process stays a reachable one. -/
theorem Refreshes.Step.reached (hstep : v.Step crypto event w) (h : v.store.Reached) :
    w.store.Reached := by
  cases hstep with
  | call accountId now => exact h
  | @run i answer now call phase u hcall _ hadvance =>
    cases RefreshCall.advance_effect hadvance with
    | quiet store calls log hphase =>
      show u.store.Reached
      rw [store]
      exact h
    | reread hphase => exact h
    | sent hphase => exact h
    | stored hphase hstored =>
      have hrun : Run Store.Step v.store [(.updateAccountTokens call.accountId answer.encrypted
          answer.claims, now)] _ := .single (congrArg Prod.snd hstored)
      exact h.run hrun
  | cancel hcall hphase => exact h
  | commit op now =>
    have hrun : Run Store.Step v.store [(op, now)] (op.exec now v.store) := .single rfl
    exact h.run hrun

/-- The other tasks of the process write no tokens. -/
def OnlyRefreshesWrite (_ : Refreshes) (event : RefreshEvent × Clock) : Prop :=
  ∀ op, event.1 = .commit op → op.writesTokens = false

/-- **Refresh tokens are exchanged one at a time.** At most one call of an account holds its
guard, from before its second read to after its store; and a token whose exchange was stored goes
out again for that account only after an answer returned it. -/
theorem one_exchange_at_a_time
    (hv : Reachable Refreshes.Started (guarded (Refreshes.Step crypto) OnlyRefreshesWrite) v) :
    (∀ (i j : Nat) (a b : RefreshCall), v.calls[i]? = some a → v.calls[j]? = some b →
      a.accountId = b.accountId → a.phase.owns = true → b.phase.owns = true → i = j) ∧
    (∀ before since after id refreshToken answer, v.log = before ++
        .stored id refreshToken answer :: (since ++ .sent id refreshToken :: after) →
      answer = refreshToken ∨ ∃ other, .stored id other refreshToken ∈ since) := by
  have hinvariant : v.Exclusive ∧ v.Rotating crypto := by
    apply hv.invariant
    · rintro v ⟨-, hcalls, hlocks, hlog⟩
      refine ⟨?_, ?_, ?_, ?_⟩
      · show LocksExclusive (v.calls.map RefreshCall.party) v.locks
        rw [hcalls, hlocks]
        exact LocksExclusive.start
      · rw [hlog]
        intro id answer hanswer
        cases hanswer
      · rw [hcalls]
        intro call hmem
        cases hmem
      · rw [hlog]
        intro before after id refreshToken heq
        exact absurd heq.symm (by simp)
    · rintro v event w ⟨hexclusive, hrotating⟩ ⟨honly, hstep⟩
      exact ⟨hexclusive.step hstep, hrotating.step hexclusive hstep honly⟩
  obtain ⟨hexclusive, hrotating⟩ := hinvariant
  refine ⟨fun i j a b ha hb hid howns howns' ↦ hexclusive.unique ha hb hid howns howns', ?_⟩
  intro before since after id refreshToken answer hlog
  have hsplit : v.log = (before ++ .stored id refreshToken answer :: since) ++
      .sent id refreshToken :: after := by rw [hlog, List.append_assoc, List.cons_append]
  have hsent := hrotating.sent _ _ id refreshToken hsplit
  rw [lastAnswer_append, lastAnswer, RefreshEntry.answer, if_pos rfl] at hsent
  cases hlast : lastAnswer id since with
  | none =>
    rw [hlast] at hsent
    exact .inl (hsent answer rfl).symm
  | some later =>
    rw [hlast] at hsent
    rw [hsent later rfl]
    exact .inr (lastAnswer_mem hlast)

/-! ### Replaying a schedule -/

/-- The ciphertexts decrypt to the tokens, as a test. -/
def TokenCrypto.encrypts (crypto : TokenCrypto) (tokens encrypted : AccountTokens) : Bool :=
  let decrypts (ciphertext token : String) : Bool :=
    match crypto.decrypt ciphertext with
    | .ok plain => plain == token
    | .error _ => false
  decrypts encrypted.accessToken tokens.accessToken &&
    decrypts encrypted.refreshToken tokens.refreshToken &&
    decrypts encrypted.idToken tokens.idToken

omit [UuidText] in
/-- The test decides whether the ciphertexts decrypt to the tokens. -/
theorem TokenCrypto.encrypts_iff {tokens encrypted : AccountTokens} :
    crypto.encrypts tokens encrypted = true ↔ crypto.Encrypts tokens encrypted := by
  have hdecrypts : ∀ ciphertext token, (match crypto.decrypt ciphertext with
      | .ok plain => plain == token
      | .error _ => false) = true ↔ crypto.decrypt ciphertext = .ok token := by
    intro ciphertext token
    cases crypto.decrypt ciphertext with
    | ok plain => simp
    | error e => simp
  unfold TokenCrypto.encrypts
  simp only [Bool.and_eq_true, hdecrypts]
  constructor
  · rintro ⟨⟨haccess, hrefresh⟩, hid⟩
    exact ⟨haccess, hrefresh, hid⟩
  · rintro ⟨haccess, hrefresh, hid⟩
    exact ⟨⟨haccess, hrefresh⟩, hid⟩

/-- What the call is about to store, if anything, encrypts its answer. -/
def RefreshPhase.honest (crypto : TokenCrypto) (answer : RefreshAnswer) : RefreshPhase → Bool
  | .storing _ _ _ tokens => crypto.encrypts tokens answer.encrypted
  | _ => true

/-- The process after an event, if the event can happen. -/
def Refreshes.exec (crypto : TokenCrypto) (v : Refreshes) (event : RefreshEvent × Clock) :
    Option Refreshes :=
  match event.1 with
  | .call accountId => some { v with calls := v.calls ++ [⟨accountId, .start⟩] }
  | .run i answer =>
    v.calls[i]?.bind fun call ↦
      if call.phase.honest crypto answer then
        (call.advance crypto answer event.2.instant v).map fun next ↦
          next.2.setPhase i call next.1
      else none
  | .cancel i =>
    v.calls[i]?.bind fun call ↦ call.phase.cancelled.map fun phase ↦ v.setPhase i call phase
  | .commit op => some { v with store := op.exec event.2 v.store }

/-- An executed event is a step. -/
theorem Refreshes.step_of_exec (h : v.exec crypto event = some w) : v.Step crypto event w := by
  obtain ⟨event, now⟩ := event
  cases event with
  | call accountId =>
    cases h
    exact .call accountId now
  | run i answer =>
    obtain ⟨call, hcall, h⟩ := Option.bind_eq_some_iff.mp h
    split at h
    · next hhonest =>
      obtain ⟨⟨phase, u⟩, hadvance, rfl⟩ := Option.map_eq_some_iff.mp h
      refine .run hcall ?_ hadvance
      intro account lock refreshToken tokens hphase
      rw [hphase] at hhonest
      exact TokenCrypto.encrypts_iff.mp hhonest
    · cases h
  | cancel i =>
    obtain ⟨call, hcall, h⟩ := Option.bind_eq_some_iff.mp h
    obtain ⟨phase, hphase, rfl⟩ := Option.map_eq_some_iff.mp h
    exact .cancel hcall hphase
  | commit op =>
    cases h
    exact .commit op now

/-- A schedule of calls alone, executed event by event, is a run. -/
theorem run_of_replay {events : List (RefreshEvent × Clock)}
    (honly : ∀ event ∈ events, OnlyRefreshesWrite v event)
    (h : events.foldlM (Refreshes.exec crypto) v = some w) :
    Run (guarded (Refreshes.Step crypto) OnlyRefreshesWrite) v events w := by
  induction events generalizing v with
  | nil =>
    cases h
    exact .nil _
  | cons event events ih =>
    rw [List.foldlM_cons] at h
    obtain ⟨u, hfirst, hrest⟩ := Option.bind_eq_some_iff.mp h
    rw [List.forall_mem_cons] at honly
    exact .cons ⟨honly.1, Refreshes.step_of_exec hfirst⟩ (ih honly.2 hrest)

/-- Two accounts that were imported with one refresh token; the first character of a ciphertext
stands for its nonce. -/
def sharedToken : Store :=
  let claims (email : String) : AuthClaims := ⟨none, email, "plus", none⟩
  .initial
    { rows := [
        (1, importedAccount ⟨"1access", "1refresh", "1id"⟩ none (claims "one@example.invalid")
          "one" 0),
        (2, importedAccount ⟨"2access", "2refresh", "2id"⟩ none (claims "two@example.invalid")
          "two" 0)]
      distinct := by decide }

/-- Decryption that drops the nonce. -/
def dropNonce : TokenCrypto := ⟨fun ciphertext ↦ .ok (String.ofList (ciphertext.toList.drop 1))⟩

/-- The process with the two accounts, before any refresh. -/
def sharedStart : Refreshes := ⟨sharedToken, [], .empty, 0, []⟩

/-- Some steps of a call that is served with a refresh token. -/
def refreshRuns (i : Nat) (refreshToken : String) (steps : Nat) : List (RefreshEvent × Clock) :=
  let answer : RefreshAnswer :=
    { response := .answered true "200 OK"
        ⟨some "access", some refreshToken, some "id", none, none, none, none⟩
      encrypted := ⟨"3access", "3" ++ refreshToken, "3id"⟩
      claims := ⟨none, "one@example.invalid", "plus", none⟩ }
  List.replicate steps (.run i answer, ⟨1000, ""⟩)

/-- A call that is served with a refresh token, with the number of its steps. -/
def refreshEvents (i : Nat) (accountId : Uuid) (refreshToken : String) (steps : Nat) :
    List (RefreshEvent × Clock) :=
  (.call accountId, ⟨1000, ""⟩) :: refreshRuns i refreshToken steps

/-- Two calls of one account, one in its exchange and the other waiting for it. -/
def contendedEvents : List (RefreshEvent × Clock) :=
  refreshEvents 0 1 "rotated" 6 ++ refreshEvents 1 1 "late" 3

/-- The first stores its answer, and the second finds it stored. The lock is dead when a call of the
other account looks for its own, and the next call of the account makes a new one. -/
def settledEvents : List (RefreshEvent × Clock) :=
  refreshRuns 0 "rotated" 4 ++ refreshRuns 1 "late" 4 ++ refreshEvents 2 2 "other" 6 ++
    refreshEvents 3 1 "last" 10

/-- An event that is no commit of another task. -/
def RefreshEvent.own : RefreshEvent → Bool
  | .commit _ => false
  | _ => true

omit [UuidText] in
private theorem sharedStart_started : let _ := hyphenatedText
    sharedStart.Started := by
  intro _
  exact ⟨⟨sharedToken, [], Store.freshlyMigrated_initial _, .nil _⟩, rfl, rfl, rfl⟩

omit [UuidText] in
private theorem only_of_own {v : Refreshes} {events : List (RefreshEvent × Clock)}
    (h : (events.all fun event ↦ event.1.own) = true) :
    ∀ event ∈ events, OnlyRefreshesWrite v event := by
  intro event hmem op hop
  have hown := List.all_eq_true.mp h event hmem
  rw [hop] at hown
  cases hown

end Steps

/-- The log of the process after a schedule. -/
def replayedLog (events : List (RefreshEvent × Clock)) : Option (List RefreshEntry) :=
  let _ := hyphenatedText
  (events.foldlM (Refreshes.exec dropNonce) sharedStart).map Refreshes.log

private theorem replayed_reachable {events : List (RefreshEvent × Clock)} {log : List RefreshEntry}
    (hown : (events.all fun event ↦ event.1.own) = true)
    (h : replayedLog events = some log) : let _ := hyphenatedText
    ∃ v, Reachable Refreshes.Started (guarded (Refreshes.Step dropNonce) OnlyRefreshesWrite) v ∧
      v.log = log := by
  intro _
  obtain ⟨v, hreplay, hlog⟩ := Option.map_eq_some_iff.mp h
  exact ⟨v, ⟨sharedStart, events, sharedStart_started, run_of_replay (only_of_own hown) hreplay⟩,
    hlog⟩

/-- Two calls of one account meet at its lock, which is collected after them. Then come a call of
the other account and one more of the first. -/
theorem one_exchange_at_a_time_contended : let _ := hyphenatedText
    ∃ u v : Refreshes,
      Run (guarded (Refreshes.Step dropNonce) OnlyRefreshesWrite) sharedStart contendedEvents u ∧
      u.calls.map (fun call ↦ (call.accountId, call.phase.lock, call.phase.owns)) =
        [(1, some 0, true), (1, some 0, false)] ∧
      Run (guarded (Refreshes.Step dropNonce) OnlyRefreshesWrite) u settledEvents v ∧
      v.locks.rows = [(2, 1), (1, 2)] ∧
      v.log = [.sent 1 "refresh", .stored 1 "refresh" "rotated", .sent 2 "refresh",
        .sent 1 "rotated", .stored 1 "rotated" "last"] ∧
      (∀ (i j : Nat) (a b : RefreshCall), v.calls[i]? = some a → v.calls[j]? = some b →
        a.accountId = b.accountId → a.phase.owns = true → b.phase.owns = true → i = j) ∧
      (∀ before since after id refreshToken answer, v.log = before ++
          .stored id refreshToken answer :: (since ++ .sent id refreshToken :: after) →
        answer = refreshToken ∨ ∃ other, .stored id other refreshToken ∈ since) := by
  intro _
  have hreplay : ((contendedEvents.foldlM (Refreshes.exec dropNonce) sharedStart).bind fun u ↦
      (settledEvents.foldlM (Refreshes.exec dropNonce) u).map fun v ↦ decide
        (u.calls.map (fun call ↦ (call.accountId, call.phase.lock, call.phase.owns)) =
          [(1, some 0, true), (1, some 0, false)] ∧ v.locks.rows = [(2, 1), (1, 2)] ∧
        v.log = [.sent 1 "refresh", .stored 1 "refresh" "rotated", .sent 2 "refresh",
          .sent 1 "rotated", .stored 1 "rotated" "last"])) = some true := by
    decide +kernel
  obtain ⟨u, hu, hrest⟩ := Option.bind_eq_some_iff.mp hreplay
  obtain ⟨v, hv, hfacts⟩ := Option.map_eq_some_iff.mp hrest
  obtain ⟨hcalls, hlocks, hlog⟩ := of_decide_eq_true hfacts
  have hcontended := run_of_replay (only_of_own rfl) hu
  have hsettled := run_of_replay (only_of_own rfl) hv
  have hreached : Reachable Refreshes.Started
      (guarded (Refreshes.Step dropNonce) OnlyRefreshesWrite) v :=
    ⟨sharedStart, _, sharedStart_started, hcontended.append hsettled⟩
  exact ⟨u, v, hcontended, hcalls, hsettled, hlocks, hlog, one_exchange_at_a_time hreached⟩

private theorem sharedToken_replayed :
    replayedLog (refreshEvents 0 1 "rotated" 10 ++ refreshEvents 1 2 "other" 6) =
      some [.sent 1 "refresh", .stored 1 "refresh" "rotated", .sent 2 "refresh"] := by
  decide +kernel

/-- A token whose exchange was stored goes out again: for another account that holds it, and for
the same account when the endpoint returned it. -/
theorem exchanged_token_sent_again : let _ := hyphenatedText
    (∃ v, Reachable Refreshes.Started
        (guarded (Refreshes.Step dropNonce) OnlyRefreshesWrite) v ∧
      ∃ before since after, v.log = before ++
        .stored 1 "refresh" "rotated" :: (since ++ .sent 2 "refresh" :: after)) ∧
    ∃ v, Reachable Refreshes.Started
        (guarded (Refreshes.Step dropNonce) OnlyRefreshesWrite) v ∧
      ∃ before since after, v.log = before ++
        .stored 1 "refresh" "refresh" :: (since ++ .sent 1 "refresh" :: after) := by
  intro _
  have hreturned :
      replayedLog (refreshEvents 0 1 "refresh" 10 ++ refreshEvents 1 1 "other" 6) =
        some [.sent 1 "refresh", .stored 1 "refresh" "refresh", .sent 1 "refresh"] := by
    decide +kernel
  obtain ⟨v, hv, hlog⟩ := replayed_reachable rfl sharedToken_replayed
  obtain ⟨w, hw, hlog'⟩ := replayed_reachable rfl hreturned
  exact ⟨⟨v, hv, [.sent 1 "refresh"], [], [], hlog⟩, w, hw, [.sent 1 "refresh"], [], [], hlog'⟩

end CodexLb
