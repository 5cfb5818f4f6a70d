import CodexLb.Base.Crypto
import CodexLb.Upstream.Login

/-!
# Credentials at rest

Encrypted tokens over the life of an installation: the key file is made by the
first start that comes so far (`src/crypto.rs:18–47`, `src/main.rs:48–53`),
imports and refreshes store what they are given under the daemon's key, and the
daemon may end at any time and be started again. The credentials of every
account stay readable. A first start that is stopped while it writes the key
file leaves a part of a key in it, which every later start refuses.
-/

namespace CodexLb

open Relational Transition

variable [StandardBase64] [Aes256Gcm]

/-! ### Storing tokens -/

/-- The nonces of three tokens. -/
structure TokenNonces where
  accessToken : TokenNonce
  refreshToken : TokenNonce
  idToken : TokenNonce

/-- The ciphertexts of tokens, `src/db.rs:330–332` and `568–570`. -/
def encryptTokens (key : EncryptionKey) (nonces : TokenNonces) (tokens : AccountTokens) :
    Except AppError AccountTokens := do
  let accessToken ← (encryptToken key nonces.accessToken tokens.accessToken).mapError .internal
  let refreshToken ← (encryptToken key nonces.refreshToken tokens.refreshToken).mapError .internal
  let idToken ← (encryptToken key nonces.idToken tokens.idToken).mapError .internal
  return ⟨accessToken, refreshToken, idToken⟩

/-- `upsert_account` from plain tokens, `src/db.rs:322–371`. -/
def importTokens (key : EncryptionKey) (nonces : TokenNonces) (newId : Uuid)
    (tokens : AccountTokens) (lastRefreshAt : Option Instant) (claims : AuthClaims)
    (label : Option String) (now : Instant) (s : Store) : Except AppError Uuid × Store :=
  match normalizeLabelOpt label with
  | .error e => (.error e, s)
  | .ok _ =>
    match encryptTokens key nonces tokens with
    | .error e => (.error e, s)
    | .ok encrypted => upsertAccount newId encrypted lastRefreshAt claims label now s

/-- `update_account_tokens` from plain tokens, `src/db.rs:542–578`. -/
def refreshTokens [UuidText] (key : EncryptionKey) (nonces : TokenNonces) (id : Uuid)
    (tokens : AccountTokens) (claims : AuthClaims) (now : Instant) (s : Store) :
    Except AppError Unit × Store :=
  match encryptTokens key nonces tokens with
  | .error e => (.error e, s)
  | .ok encrypted => updateAccountTokens id encrypted claims now s

omit [StandardBase64] [Aes256Gcm] in
private theorem mapError_ok_iff {ε ε' α : Type} {f : ε → ε'} {x : Except ε α} {a : α} :
    x.mapError f = .ok a ↔ x = .ok a := by
  cases x <;> simp [Except.mapError]

/-- Ciphertexts decrypt to the tokens under the key. -/
theorem encryptTokens_ok (haead : Authenticated) {key : EncryptionKey} {nonces : TokenNonces}
    {tokens encrypted : AccountTokens} (h : encryptTokens key nonces tokens = .ok encrypted) :
    key.crypto.Encrypts tokens encrypted := by
  have hopens : ∀ {nonce text ciphertext},
      (encryptToken key nonce text).mapError AppError.internal = .ok ciphertext →
        key.crypto.decrypt ciphertext = .ok text := fun hsealed ↦
    mapError_ok_iff.mpr ((decryptToken_ok_iff haead).mpr ⟨_, mapError_ok_iff.mp hsealed⟩)
  unfold encryptTokens at h
  obtain ⟨access, haccess, h⟩ := bind_eq_ok.mp h
  obtain ⟨refresh, hrefresh, h⟩ := bind_eq_ok.mp h
  obtain ⟨id, hid, h⟩ := bind_eq_ok.mp h
  cases h
  exact ⟨hopens haccess, hopens hrefresh, hopens hid⟩

/-! ### What an import and a refresh leave -/

omit [StandardBase64] [Aes256Gcm] in
private theorem has_of_writeAccount {newId id : Uuid} {encrypted : AccountTokens}
    {lastRefreshAt : Option Instant} {claims : AuthClaims} {label : String} {now : Instant}
    {s t : Store}
    (h : writeAccount newId encrypted lastRefreshAt claims label now s = (.ok id, t)) :
    t.accounts.has id = true := by
  unfold writeAccount at h
  split at h
  · next found hfound =>
    cases h
    obtain ⟨value, -, hrow⟩ := Option.bind_eq_some_iff.mp hfound
    obtain ⟨row, hmem, rfl⟩ := Option.map_eq_some_iff.mp hrow
    rw [Table.has_update]
    exact Table.has_iff.mpr ⟨row.2, Table.mem_rows_iff.mp (List.mem_of_find?_eq_some hmem)⟩
  · split at h
    · cases h
    · cases h
      rw [Table.has, Table.find_insert, if_pos rfl]
      cases s.accounts.find newId <;> rfl

omit [StandardBase64] [Aes256Gcm] in
/-- A failed import leaves the accounts alone. -/
theorem upsertAccount_error {newId : Uuid} {encrypted : AccountTokens}
    {lastRefreshAt : Option Instant} {claims : AuthClaims} {label : Option String} {now : Instant}
    {s t : Store} {e : AppError}
    (h : upsertAccount newId encrypted lastRefreshAt claims label now s = (.error e, t)) :
    t.accounts = s.accounts := by
  unfold upsertAccount at h
  split at h
  · cases h
    rfl
  · split at h
    · next hwritten =>
      cases h
      unfold writeAccount at hwritten
      split at hwritten
      · cases hwritten
      · split at hwritten
        · cases hwritten
          rfl
        · cases hwritten
    · next id u hwritten =>
      -- the account that was just written is there to have a runtime row
      have hstored := has_of_writeAccount hwritten
      unfold ensureRuntimeRow at h
      rw [hstored] at h
      split at h
      · next hfailed =>
        split at hfailed
        · cases hfailed
        · cases hfailed
      · cases h

/-- The accounts after tokens were given for one of them: it holds them, and the others hold what
they held. -/
structure GivenFor (key : EncryptionKey) (id : Uuid) (tokens : AccountTokens) (s t : Store) :
    Prop where
  written : ∀ account, t.accounts.find id = some account →
    key.crypto.Encrypts tokens account.encrypted
  others : ∀ other, other ≠ id → t.accounts.find other = s.accounts.find other

/-- An import gives its tokens to the account that it names, or leaves the accounts alone. -/
theorem importTokens_outcome (haead : Authenticated) {key : EncryptionKey} {nonces : TokenNonces}
    {newId : Uuid} {tokens : AccountTokens} {lastRefreshAt : Option Instant} {claims : AuthClaims}
    {label : Option String} {now : Instant} {s t : Store} {result : Except AppError Uuid}
    (h : importTokens key nonces newId tokens lastRefreshAt claims label now s = (result, t)) :
    (∃ e, result = .error e ∧ t.accounts = s.accounts) ∨
      ∃ id, result = .ok id ∧ GivenFor key id tokens s t := by
  unfold importTokens at h
  split at h
  · cases h
    exact .inl ⟨_, rfl, rfl⟩
  · split at h
    · cases h
      exact .inl ⟨_, rfl, rfl⟩
    · next encrypted hencrypted =>
      cases result with
      | error e => exact .inl ⟨e, rfl, upsertAccount_error h⟩
      | ok id =>
        obtain ⟨hwritten, hothers⟩ := upsertAccount_ok h
        have hsealed := encryptTokens_ok haead hencrypted
        exact .inr ⟨id, rfl, fun account ha ↦ hwritten account ha ▸ hsealed, hothers⟩

variable [UuidText]

/-- A refresh gives its tokens to its account, or leaves the accounts alone. -/
theorem refreshTokens_outcome (haead : Authenticated) {key : EncryptionKey} {nonces : TokenNonces}
    {id : Uuid} {tokens : AccountTokens} {claims : AuthClaims} {now : Instant} {s t : Store}
    {result : Except AppError Unit}
    (h : refreshTokens key nonces id tokens claims now s = (result, t)) :
    (∃ e, result = .error e ∧ t.accounts = s.accounts) ∨
      result = .ok () ∧ GivenFor key id tokens s t := by
  unfold refreshTokens at h
  split at h
  · cases h
    exact .inl ⟨_, rfl, rfl⟩
  · next encrypted hencrypted =>
    cases result with
    | error e => exact .inl ⟨e, rfl, by rw [updateAccountTokens_error h]⟩
    | ok value =>
      obtain ⟨hwritten, hothers⟩ := updateAccountTokens_ok h
      have hsealed := encryptTokens_ok haead hencrypted
      exact .inr ⟨rfl, fun account ha ↦ hwritten account ha ▸ hsealed, hothers⟩

/-! ### Installations -/

/-- An installation: the key file, the key of the daemon while it runs, the keys that starts have
got, the database, and the tokens that were last given for each account. -/
structure Installation where
  keyFile : Option String
  key : Option EncryptionKey
  opened : List EncryptionKey
  store : Store
  given : Uuid → Option AccountTokens

/-- What happens to an installation. -/
inductive InstallationEvent where
  | start (fresh : EncryptionKey) (stopped : Option KeyFileStop)
  | stop
  | importTokens (nonces : TokenNonces) (newId : Uuid) (tokens : AccountTokens)
      (lastRefreshAt : Option Instant) (claims : AuthClaims) (label : Option String)
  | refreshTokens (nonces : TokenNonces) (accountId : Uuid) (tokens : AccountTokens)
      (claims : AuthClaims)
  | commit (op : Op)

/-- One step of an installation at a clock reading. A start may end after it loaded the key, or
be stopped while it does. -/
inductive Installation.Step (path : String) (v : Installation) :
    InstallationEvent × Clock → Installation → Prop where
  | start {fresh key : EncryptionKey} {stopped : Option KeyFileStop} {keyFile : Option String}
      {now : Clock} (down : v.key = none)
      (loaded : loadOrCreate path v.keyFile fresh stopped = (.ok key, keyFile)) :
      Step path v (.start fresh stopped, now) { v with
        keyFile := keyFile, key := some key, opened := key :: v.opened,
        store := (resetInflight v.store).2 }
  | startEnded {fresh : EncryptionKey} {stopped : Option KeyFileStop}
      {result : Except String EncryptionKey} {keyFile : Option String} {now : Clock}
      (loaded : loadOrCreate path v.keyFile fresh stopped = (result, keyFile)) :
      Step path v (.start fresh stopped, now) { v with
        keyFile := keyFile, opened := result.toOption.toList ++ v.opened }
  | stop (now : Clock) : Step path v (.stop, now) { v with key := none }
  | imported {key : EncryptionKey} {nonces : TokenNonces} {newId id : Uuid}
      {tokens : AccountTokens} {lastRefreshAt : Option Instant} {claims : AuthClaims}
      {label : Option String} {now : Clock} {t : Store} (running : v.key = some key)
      (stored : CodexLb.importTokens key nonces newId tokens lastRefreshAt claims label now.instant
        v.store = (.ok id, t)) :
      Step path v (.importTokens nonces newId tokens lastRefreshAt claims label, now) { v with
        store := t, given := Function.update v.given id (some tokens) }
  | importFailed {key : EncryptionKey} {nonces : TokenNonces} {newId : Uuid}
      {tokens : AccountTokens} {lastRefreshAt : Option Instant} {claims : AuthClaims}
      {label : Option String} {now : Clock} {t : Store} {e : AppError} (running : v.key = some key)
      (failed : CodexLb.importTokens key nonces newId tokens lastRefreshAt claims label now.instant
        v.store = (.error e, t)) :
      Step path v (.importTokens nonces newId tokens lastRefreshAt claims label, now)
        { v with store := t }
  | refreshed {key : EncryptionKey} {nonces : TokenNonces} {id : Uuid} {tokens : AccountTokens}
      {claims : AuthClaims} {now : Clock} {t : Store} (running : v.key = some key)
      (stored : CodexLb.refreshTokens key nonces id tokens claims now.instant v.store =
        (.ok (), t)) :
      Step path v (.refreshTokens nonces id tokens claims, now) { v with
        store := t, given := Function.update v.given id (some tokens) }
  | refreshFailed {key : EncryptionKey} {nonces : TokenNonces} {id : Uuid} {tokens : AccountTokens}
      {claims : AuthClaims} {now : Clock} {t : Store} {e : AppError} (running : v.key = some key)
      (failed : CodexLb.refreshTokens key nonces id tokens claims now.instant v.store =
        (.error e, t)) :
      Step path v (.refreshTokens nonces id tokens claims, now) { v with store := t }
  | commit {op : Op} {now : Clock} (plain : op.writesTokens = false) :
      Step path v (.commit op, now) { v with store := op.exec now v.store }

/-- An installation before its first start: no key file, no daemon and no account. -/
structure Installation.Fresh (v : Installation) : Prop where
  keyFile : v.keyFile = none
  key : v.key = none
  opened : v.opened = []
  accounts : v.store.accounts = .empty

/-- A key that is read from the key file. -/
def Installation.Unlocks (v : Installation) (key : EncryptionKey) : Prop :=
  ∃ raw, v.keyFile = some raw ∧ decodeKey (trim raw) = .ok key

/-- Every start got the key of the key file, the daemon runs under it, and the last tokens of every
account were encrypted under it. -/
structure Installation.Sealed (v : Installation) : Prop where
  running : ∀ key, v.key = some key → v.Unlocks key
  opened : ∀ key ∈ v.opened, v.Unlocks key
  accounts : ∀ id account, v.store.accounts.find id = some account → ∃ key tokens,
    v.Unlocks key ∧ v.given id = some tokens ∧ key.crypto.Encrypts tokens account.encrypted

/-! ### Every step keeps the credentials -/

variable {path : String} {v w : Installation}

omit [UuidText] [Aes256Gcm] in
/-- One key unlocks an installation. -/
theorem Installation.Unlocks.unique {key other : EncryptionKey} (h : v.Unlocks key)
    (h' : v.Unlocks other) : key = other := by
  obtain ⟨raw, hraw, hkey⟩ := h
  obtain ⟨raw', hraw', hother⟩ := h'
  rw [hraw] at hraw'
  cases hraw'
  rw [hkey] at hother
  exact Except.ok.inj hother

omit [UuidText] [Aes256Gcm] in
/-- A key still unlocks an installation whose key file a start has seen. -/
theorem Installation.Unlocks.kept {key fresh : EncryptionKey} {stopped : Option KeyFileStop}
    {result : Except String EncryptionKey} {keyFile : Option String} (h : v.Unlocks key)
    (hloaded : loadOrCreate path v.keyFile fresh stopped = (result, keyFile)) :
    ∃ raw, keyFile = some raw ∧ decodeKey (trim raw) = .ok key := by
  obtain ⟨raw, hraw, hkey⟩ := h
  have hkept := loadOrCreate_kept path raw fresh stopped
  rw [← hraw, hloaded] at hkept
  exact ⟨raw, hkept.trans hraw, hkey⟩

namespace Installation.Sealed

omit [UuidText] in
/-- Writes that keep every ciphertext. -/
theorem kept (h : v.Sealed) {t : Store} (hkept : TokensKept v.store t) :
    Sealed { v with store := t } where
  running := h.running
  opened := h.opened
  accounts id account ha := by
    obtain ⟨before, hbefore, hsame⟩ := hkept id account ha
    obtain ⟨key, tokens, hunlocks, hgiven, hsealed⟩ := h.accounts id before hbefore
    exact ⟨key, tokens, hunlocks, hgiven, hsame ▸ hsealed⟩

omit [UuidText] in
/-- Writes that leave the accounts alone. -/
theorem same (h : v.Sealed) {t : Store} (haccounts : t.accounts = v.store.accounts) :
    Sealed { v with store := t } :=
  h.kept fun _ account ha ↦ ⟨account, haccounts ▸ ha, rfl⟩

omit [UuidText] in
/-- Tokens that are given for an account. -/
theorem giving (h : v.Sealed) {key : EncryptionKey} (hrunning : v.key = some key) {id : Uuid}
    {tokens : AccountTokens} {t : Store} (hgiven : GivenFor key id tokens v.store t) :
    Sealed { v with store := t, given := Function.update v.given id (some tokens) } where
  running := h.running
  opened := h.opened
  accounts other account ha := by
    by_cases hid : other = id
    · subst hid
      exact ⟨key, tokens, h.running key hrunning, Function.update_self ..,
        hgiven.written account ha⟩
    · have hbefore : v.store.accounts.find other = some account :=
        (hgiven.others other hid).symm.trans ha
      obtain ⟨key', tokens', hunlocks, hlast, hsealed⟩ := h.accounts other account hbefore
      exact ⟨key', tokens', hunlocks, (Function.update_of_ne hid ..).trans hlast, hsealed⟩

omit [UuidText] in
/-- A start reads the key of the file, or makes the file before any account is stored. -/
theorem loaded (h : v.Sealed) {fresh : EncryptionKey} {stopped : Option KeyFileStop}
    {result : Except String EncryptionKey} {keyFile : Option String}
    (hloaded : loadOrCreate path v.keyFile fresh stopped = (result, keyFile)) :
    Sealed { v with keyFile := keyFile, opened := result.toOption.toList ++ v.opened } where
  running key hkey := (h.running key hkey).kept hloaded
  opened key hkey := by
    rcases List.mem_append.mp hkey with hnew | hold
    · cases result with
      | error e => cases hnew
      | ok got =>
        obtain rfl := List.mem_singleton.mp hnew
        exact loadOrCreate_ok hloaded
    · exact (h.opened key hold).kept hloaded
  accounts id account ha := by
    obtain ⟨key, tokens, hunlocks, hgiven, hsealed⟩ := h.accounts id account ha
    exact ⟨key, tokens, hunlocks.kept hloaded, hgiven, hsealed⟩

/-- Every step keeps the credentials readable. -/
theorem step (haead : Authenticated) (h : v.Sealed) {event : InstallationEvent × Clock}
    (hstep : v.Step path event w) : w.Sealed := by
  cases hstep with
  | start down loaded =>
    have hloaded := h.loaded loaded
    exact ⟨fun key hkey ↦ Option.some.inj hkey ▸ loadOrCreate_ok loaded, hloaded.opened,
      hloaded.accounts⟩
  | startEnded loaded => exact h.loaded loaded
  | stop now => exact ⟨fun key hkey ↦ (nomatch hkey), h.opened, h.accounts⟩
  | imported running stored =>
    rcases importTokens_outcome haead stored with ⟨e, he, -⟩ | ⟨id, hid, hgiven⟩
    · cases he
    · cases hid
      exact h.giving running hgiven
  | importFailed running failed =>
    rcases importTokens_outcome haead failed with ⟨e, -, hsame⟩ | ⟨id, hid, -⟩
    · exact h.same hsame
    · cases hid
  | refreshed running stored =>
    rcases refreshTokens_outcome haead stored with ⟨e, he, -⟩ | ⟨-, hgiven⟩
    · cases he
    · exact h.giving running hgiven
  | refreshFailed running failed =>
    rcases refreshTokens_outcome haead failed with ⟨e, -, hsame⟩ | ⟨hok, -⟩
    · exact h.same hsame
    · cases hok
  | commit plain => exact h.kept (Op.tokensKept plain _ _)

end Installation.Sealed

/-! ### The key file over a run -/

/-- What a step leaves of the key file: the file itself, or what a start made where there was
none. -/
theorem Installation.Step.keyFile {event : InstallationEvent × Clock}
    (hstep : v.Step path event w) : w.keyFile = v.keyFile ∨
      v.keyFile = none ∧ ∃ fresh stopped, event.1 = .start fresh stopped ∧
        w.keyFile = (loadOrCreate path none fresh stopped).2 := by
  have hstart : ∀ {fresh stopped result keyFile},
      loadOrCreate path v.keyFile fresh stopped = (result, keyFile) → keyFile = v.keyFile ∨
        v.keyFile = none ∧ keyFile = (loadOrCreate path none fresh stopped).2 := by
    intro fresh stopped result keyFile hloaded
    cases hfile : v.keyFile with
    | none =>
      rw [hfile] at hloaded
      exact .inr ⟨rfl, by rw [hloaded]⟩
    | some raw =>
      have hkept := loadOrCreate_kept path raw fresh stopped
      rw [← hfile, hloaded, hfile] at hkept
      exact .inl hkept
  cases hstep with
  | start down loaded =>
    exact (hstart loaded).imp_right fun ⟨hnone, hmade⟩ ↦ ⟨hnone, _, _, rfl, hmade⟩
  | startEnded loaded =>
    exact (hstart loaded).imp_right fun ⟨hnone, hmade⟩ ↦ ⟨hnone, _, _, rfl, hmade⟩
  | _ => exact .inl rfl

/-- A key file stays as it is. -/
theorem Installation.keyFile_kept {raw : String} {events : List (InstallationEvent × Clock)}
    (hrun : Run (Installation.Step path) v events w) (hfile : v.keyFile = some raw) :
    w.keyFile = some raw := by
  refine hrun.invariant (P := fun u ↦ u.keyFile = some raw) ?_ hfile
  intro s event t hs hstep
  rcases hstep.keyFile with hsame | ⟨hnone, -⟩
  · exact hsame.trans hs
  · rw [hs] at hnone
    cases hnone

/-- The key file is what one start of the run made. -/
theorem Installation.keyFile_made {events : List (InstallationEvent × Clock)}
    (hrun : Run (Installation.Step path) v events w) (hfile : v.keyFile = none) :
    w.keyFile = none ∨ ∃ fresh stopped now, (.start fresh stopped, now) ∈ events ∧
      w.keyFile = (loadOrCreate path none fresh stopped).2 := by
  induction hrun with
  | nil s => exact .inl hfile
  | @cons s t u event events head tail ih =>
    have hcases : ∀ {keyFile}, t.keyFile = keyFile → keyFile = none ∨
        ∃ raw, keyFile = some raw ∧ u.keyFile = some raw := by
      rintro (_ | raw) ht
      · exact .inl rfl
      · exact .inr ⟨raw, rfl, keyFile_kept tail ht⟩
    have hlater : t.keyFile = none → u.keyFile = none ∨ ∃ fresh stopped now,
        (.start fresh stopped, now) ∈ event :: events ∧
          u.keyFile = (loadOrCreate path none fresh stopped).2 := fun ht ↦
      (ih ht).imp_right fun ⟨fresh, stopped, now, hin, hmade⟩ ↦
        ⟨fresh, stopped, now, List.mem_cons_of_mem _ hin, hmade⟩
    rcases head.keyFile with hsame | ⟨-, fresh, stopped, hevent, hmade⟩
    · exact hlater (hsame.trans hfile)
    · rcases hcases hmade with hnone | ⟨raw, hraw, hlast⟩
      · exact hlater (hmade.trans hnone)
      · obtain ⟨event, now⟩ := event
        obtain rfl := hevent
        exact .inr ⟨fresh, stopped, now, List.mem_cons_self, hlast.trans hraw.symm⟩

/-! ### What a selection reads -/

/-- A key is that of every start that got one, and the daemon runs under it if it does. A selection
of any account reads under it the tokens that were last given for it. -/
structure Installation.OpensUnder (v : Installation) (key : EncryptionKey) : Prop where
  running : ∀ other, v.key = some other → other = key
  opened : ∀ other ∈ v.opened, other = key
  reads : ∀ id account, v.store.accounts.find id = some account → ∃ tokens,
    v.given id = some tokens ∧ ∀ reason, selectedAccount key.crypto id reason v.store =
      .ok ⟨id, account, tokens, reason⟩

/-- A start was stopped while it wrote the key file, and its part of a key is in it. -/
def Installation.CutShort (v : Installation) (events : List (InstallationEvent × Clock)) : Prop :=
  ∃ fresh written now, (.start fresh (some (.writing written)), now) ∈ events ∧
    written < (StandardBase64.encode fresh.bytes).toList.length ∧
    v.keyFile = some (.ofList ((StandardBase64.encode fresh.bytes).toList.take written))

/-- No start gets a key, none has got one, no daemon runs and no account is stored. -/
structure Installation.Locked (path : String) (v : Installation) : Prop where
  key : v.key = none
  opened : v.opened = []
  accounts : ∀ id, v.store.accounts.find id = none
  refuses : ∀ fresh stopped, ∃ e, loadOrCreate path v.keyFile fresh stopped =
    (.error e, v.keyFile)

/-- The credentials of an installation after a run. Whenever a start gets a key it opens the
installation, and a start that is not itself stopped gets one unless an earlier start was cut short.
Then no start ever gets one. A key file is there to stay. -/
structure Installation.Readable (path : String) (events : List (InstallationEvent × Clock))
    (v : Installation) : Prop where
  opens : ∀ fresh stopped key keyFile,
    loadOrCreate path v.keyFile fresh stopped = (.ok key, keyFile) → v.OpensUnder key
  refused : ∀ fresh e keyFile,
    loadOrCreate path v.keyFile fresh none = (.error e, keyFile) → v.CutShort events
  locked : v.CutShort events → v.Locked path
  kept : ∀ raw, v.keyFile = some raw → ∀ later w, Run (Installation.Step path) v later w →
    w.keyFile = some raw

namespace Installation.Sealed

omit [UuidText] in
/-- Nothing was encrypted before a key file could be read. -/
theorem unopened (h : v.Sealed) (hlocked : ∀ key, ¬ v.Unlocks key) :
    v.key = none ∧ v.opened = [] ∧ ∀ id, v.store.accounts.find id = none := by
  refine ⟨?_, ?_, fun id ↦ ?_⟩
  · exact Option.eq_none_iff_forall_ne_some.mpr fun key hkey ↦ hlocked key (h.running key hkey)
  · exact List.eq_nil_iff_forall_not_mem.mpr fun key hkey ↦ hlocked key (h.opened key hkey)
  · refine Option.eq_none_iff_forall_ne_some.mpr fun account ha ↦ ?_
    obtain ⟨key, -, hunlocks, -⟩ := h.accounts id account ha
    exact hlocked key hunlocks

/-- A key that a start gets opens the installation. -/
theorem opensUnder (h : v.Sealed) {fresh key : EncryptionKey} {stopped : Option KeyFileStop}
    {keyFile : Option String}
    (hloaded : loadOrCreate path v.keyFile fresh stopped = (.ok key, keyFile)) :
    v.OpensUnder key := by
  have hunlocks : ∀ other, v.Unlocks other → other = key := by
    rintro other ⟨raw, hraw, hother⟩
    rw [hraw] at hloaded
    rw [decodeKey_of_load hloaded] at hother
    exact (Except.ok.inj hother).symm
  refine ⟨fun other hother ↦ hunlocks other (h.running other hother),
    fun other hother ↦ hunlocks other (h.opened other hother), fun id account ha ↦ ?_⟩
  obtain ⟨other, tokens, hother, hgiven, hsealed⟩ := h.accounts id account ha
  obtain rfl := hunlocks other hother
  refine ⟨tokens, hgiven, fun reason ↦ ?_⟩
  unfold selectedAccount
  rw [ha]
  dsimp only
  rw [hsealed.accessToken, hsealed.refreshToken, hsealed.idToken]
  rfl

end Installation.Sealed

omit [Aes256Gcm] [UuidText] in
/-- No key is read from a key file that was cut short. -/
theorem Installation.CutShort.locks (hsized : SizedBase64)
    {events : List (InstallationEvent × Clock)} (h : v.CutShort events) (key : EncryptionKey) :
    ¬ v.Unlocks key := by
  obtain ⟨fresh, written, _, _, hpart, hfile⟩ := h
  rintro ⟨raw, hraw, hkey⟩
  rw [hfile] at hraw
  cases hraw
  exact decodeKey_part hsized hpart key hkey

omit [Aes256Gcm] [UuidText] in
/-- Every start is refused once one was cut short. -/
theorem Installation.CutShort.refuses (hsized : SizedBase64)
    {events : List (InstallationEvent × Clock)} (h : v.CutShort events) (path : String)
    (fresh : EncryptionKey) (stopped : Option KeyFileStop) :
    ∃ e, loadOrCreate path v.keyFile fresh stopped = (.error e, v.keyFile) := by
  have hlocks := h.locks hsized
  obtain ⟨key, written, _, _, _, hfile⟩ := h
  have hkept := loadOrCreate_kept path
    (.ofList ((StandardBase64.encode key.bytes).toList.take written)) fresh stopped
  cases hloaded : loadOrCreate path v.keyFile fresh stopped with
  | mk result keyFile =>
    rw [← hfile, hloaded] at hkept
    obtain rfl : keyFile = v.keyFile := hkept
    cases result with
    | error e => exact ⟨e, rfl⟩
    | ok key => exact absurd (loadOrCreate_ok hloaded) (hlocks key)

omit [Aes256Gcm] [UuidText] in
/-- A key file that was made and does not open was cut short. -/
theorem Installation.cutShort_of_refused {events : List (InstallationEvent × Clock)}
    (hmade : v.keyFile = none ∨ ∃ fresh stopped now, (.start fresh stopped, now) ∈ events ∧
      v.keyFile = (loadOrCreate path none fresh stopped).2) {other : EncryptionKey} {e : String}
    {keyFile : Option String}
    (hrefused : loadOrCreate path v.keyFile other none = (.error e, keyFile)) :
    v.CutShort events := by
  have hwhole : ∀ key : EncryptionKey,
      v.keyFile ≠ some (StandardBase64.encode key.bytes) := by
    intro key hfile
    rw [hfile] at hrefused
    have hread := congrArg Prod.fst hrefused
    exact nomatch (decodeKey_encode key).symm.trans hread
  have hsome : v.keyFile ≠ none := by
    intro hnone
    rw [hnone] at hrefused
    cases hrefused
  rcases hmade with hnone | ⟨fresh, stopped, now, hin, hmade⟩
  · exact absurd hnone hsome
  · rcases loadOrCreate_file path fresh stopped with hfile | ⟨written, rfl, hfile⟩ | hfile
    · exact absurd (hmade.trans hfile) hsome
    · refine ⟨fresh, written, now, hin, ?_, hmade.trans hfile⟩
      -- a stop after the last character leaves the whole text
      by_contra hle
      rw [List.take_of_length_le (Nat.le_of_not_lt hle), String.ofList_toList] at hfile
      exact hwhole fresh (hmade.trans hfile)
    · exact absurd (hmade.trans hfile) (hwhole fresh)

/-- Stored credentials stay readable. In every run of an installation from before its first start,
with imports, refreshes, any other write, and starts, stopped anywhere or not, and ends of the
daemon in any order, every start that gets a key gets the same one, and a selection of any stored
account reads the tokens that were last given for it. Starts are refused only after one was stopped
while it wrote the key file, before any account was stored, and all of them are then. -/
theorem stored_credentials_readable (haead : Authenticated) (hsized : SizedBase64)
    (hfresh : v.Fresh) {events : List (InstallationEvent × Clock)}
    (hrun : Run (Installation.Step path) v events w) : w.Readable path events := by
  have hsealed : v.Sealed := by
    refine ⟨fun key hkey ↦ ?_, fun key hkey ↦ ?_, fun id account ha ↦ ?_⟩
    · rw [hfresh.key] at hkey
      cases hkey
    · rw [hfresh.opened] at hkey
      cases hkey
    · rw [hfresh.accounts, Table.find_empty] at ha
      cases ha
  have hlast : w.Sealed := hrun.invariant (fun _ _ _ h hstep ↦ h.step haead hstep) hsealed
  refine ⟨fun fresh stopped key keyFile hloaded ↦ hlast.opensUnder hloaded,
    fun fresh e keyFile hrefused ↦ ?_, fun hcut ↦ ?_, fun raw hfile later u hlater ↦
      Installation.keyFile_kept hlater hfile⟩
  · exact Installation.cutShort_of_refused (Installation.keyFile_made hrun hfresh.keyFile) hrefused
  · obtain ⟨hkey, hopened, haccounts⟩ := hlast.unopened (hcut.locks hsized)
    exact ⟨hkey, hopened, haccounts, hcut.refuses hsized path⟩

omit [StandardBase64] [Aes256Gcm] [UuidText]

/-! ### A daemon that was started again -/

private def laterKey : EncryptionKey := ⟨List.replicate 32 0, by decide⟩

private def firstTokens : AccountTokens := ⟨"access", "refresh", "id"⟩

private def firstClaims : AuthClaims := ⟨some "account", "one@example.invalid", "plus", none⟩

private def firstImport : Except AppError Uuid × Store :=
  let _ := standardBase64
  let _ := listedGcm sealedTexts
  importTokens firstKey ⟨nonceOf 1, nonceOf 2, nonceOf 3⟩ 1 firstTokens none firstClaims
    (some "one") 1000 (.initial .empty)

private def installed : Installation := ⟨none, none, [], .initial .empty, fun _ ↦ none⟩

private def firstKeyFile : String := "AAECAwQFBgcICQoLDA0ODxAREhMUFRYXGBkaGxwdHh8"

private def restarted : Installation where
  keyFile := some firstKeyFile
  key := some firstKey
  opened := [firstKey, firstKey]
  store := (resetInflight firstImport.2).2
  given := Function.update (fun _ ↦ none) 1 (some firstTokens)

/-- After an import, an end of the daemon and another start, the account is still read. A first
start that is stopped between the creation of the key file and its writing ends this before it
begins. -/
theorem stored_credentials_readable_restarted :
    let _ := hyphenatedText
    let _ := standardBase64
    let _ := listedGcm sealedTexts
    firstImport.1 = .ok 1 ∧
      restarted.Readable "encryption.key" [(.start firstKey (some .opening), ⟨0, ""⟩),
        (.start firstKey none, ⟨500, ""⟩),
        (.importTokens ⟨nonceOf 1, nonceOf 2, nonceOf 3⟩ 1 firstTokens none firstClaims
          (some "one"), ⟨1000, ""⟩), (.stop, ⟨1500, ""⟩), (.start laterKey none, ⟨2000, ""⟩)] ∧
      { installed with keyFile := some "" }.Readable "encryption.key"
        [(.start firstKey (some (.writing 0)), ⟨0, ""⟩)] := by
  let _ := hyphenatedText
  let _ := standardBase64
  let _ := listedGcm sealedTexts
  have himport : firstImport.1 = .ok 1 := by decide +kernel
  have hfresh : installed.Fresh := ⟨rfl, rfl, rfl, rfl⟩
  have hmissed : installed.Step "encryption.key" (.start firstKey (some .opening), ⟨0, ""⟩)
      installed := .startEnded rfl
  have hstart : installed.Step "encryption.key" (.start firstKey none, ⟨500, ""⟩)
      ⟨some firstKeyFile, some firstKey, [firstKey], .initial .empty, fun _ ↦ none⟩ :=
    .start rfl (by decide +kernel)
  have hstored : Installation.Step "encryption.key"
      ⟨some firstKeyFile, some firstKey, [firstKey], .initial .empty, fun _ ↦ none⟩
      (.importTokens ⟨nonceOf 1, nonceOf 2, nonceOf 3⟩ 1 firstTokens none firstClaims (some "one"),
        ⟨1000, ""⟩)
      ⟨some firstKeyFile, some firstKey, [firstKey], firstImport.2,
        Function.update (fun _ ↦ none) 1 (some firstTokens)⟩ :=
    .imported rfl (Prod.ext himport rfl)
  have hrestart : Installation.Step "encryption.key"
      ⟨some firstKeyFile, none, [firstKey], firstImport.2,
        Function.update (fun _ ↦ none) 1 (some firstTokens)⟩
      (.start laterKey none, ⟨2000, ""⟩) restarted := .start rfl (by decide +kernel)
  have hcut : installed.Step "encryption.key" (.start firstKey (some (.writing 0)), ⟨0, ""⟩)
      { installed with keyFile := some "" } := .startEnded rfl
  have haead := listedGcm_authenticated sealedTexts
  exact ⟨himport,
    stored_credentials_readable haead sized_standardBase64 hfresh
      (.cons hmissed (.cons hstart (.cons hstored (.cons (.stop ⟨1500, ""⟩) (.single hrestart))))),
    stored_credentials_readable haead sized_standardBase64 hfresh (.single hcut)⟩

end CodexLb
