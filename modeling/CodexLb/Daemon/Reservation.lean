import CodexLb.Route.Reachable

/-!
# Reservations

The futures of requests, handshakes and turns between their await points. An
acquisition commits before the guard object of `src/proxy.rs:815–854` or
`src/websocket.rs:935–1019` exists, and a release commits before it is
disarmed; a dropped future runs the `Drop` of an armed guard, which spawns the
release.
-/

namespace CodexLb

open Relational Transition

/-- The three kinds of futures that reserve an account: an HTTP request or model listing, a
WebSocket handshake, and a turn on an open WebSocket. -/
inductive Path where
  | request
  | handshake
  | turn
  deriving DecidableEq, Repr

/-- The releases of requests and turns advance `last_request_at`, those of handshakes do not. -/
def Path.updatesLastRequest : Path → Bool
  | .handshake => false
  | _ => true

/-- Where a future stands with its reservation. -/
inductive Phase where
  /-- No account is reserved. -/
  | idle
  /-- The acquisition has committed, the guard does not exist yet. -/
  | acquired (accountId : Uuid)
  /-- The selected account could not be read, and its release is awaited without a guard. -/
  | failing (accountId : Uuid)
  /-- An armed guard or the response stream that carries it. -/
  | guarded (accountId : Uuid)
  /-- The guard's own release is awaited. -/
  | releasing (accountId : Uuid)
  /-- The guard's own release has committed, and the guard is still armed. -/
  | released (accountId : Uuid)
  /-- The future has returned or was dropped. -/
  | gone
  deriving DecidableEq, Repr

/-- The account on which a future holds a reservation that the store counts. -/
def Phase.counted : Phase → Option Uuid
  | .acquired accountId | .failing accountId | .guarded accountId | .releasing accountId =>
    some accountId
  | _ => none

/-- The account that the `Drop` of an armed guard releases. -/
def Phase.armed : Phase → Option Uuid
  | .guarded accountId | .releasing accountId | .released accountId => some accountId
  | _ => none

/-- A future that reserves accounts. -/
structure Task where
  path : Path
  phase : Phase
  deriving DecidableEq, Repr

/-- A spawned release that has not run yet. -/
structure Release where
  accountId : Uuid
  updateLastRequest : Bool
  deriving DecidableEq, Repr

/-- The store, the futures of the daemon and the spawned releases. -/
structure Server where
  store : Store
  tasks : List Task
  spawned : List Release

/-- What happens in the daemon: a future starts, runs to its next commit or await point, or is
dropped; a spawned release runs; any other write commits. -/
inductive Activity where
  | arrive (path : Path)
  | run (i : Nat)
  | dropped (i : Nat)
  | runRelease
  | commit (op : Op)

/-- The operations of which `inflight_count` is the business: the futures run the acquisitions and
the releases, and the daemon resets the counts before it starts. -/
def Op.reserves : Op → Bool
  | .acquireAccountIfAvailable _ | .acquireSmartAccount .. | .releaseAccountInner ..
  | .resetInflight => true
  | _ => false

/-- The identifier that an operation would give to a new account. -/
def Op.newAccount : Op → Option Uuid
  | .upsertAccount newId .. => some newId
  | _ => none

/-- `inflight_count` of an account, which is zero without a runtime row. -/
def Store.inflight (s : Store) (accountId : Uuid) : Int :=
  ((s.accountRuntimeState.find accountId).map AccountRuntimeState.inflightCount).getD 0

/-- The futures that hold a reservation on an account. -/
def Server.holders (v : Server) (accountId : Uuid) : Nat :=
  v.tasks.countP fun task ↦ task.phase.counted = some accountId

/-- What some releases take from an account. -/
def dues (releases : List Release) (accountId : Uuid) : Nat :=
  releases.countP fun release ↦ release.accountId = accountId

/-- The spawned releases of an account that have not run yet. -/
def Server.owed (v : Server) (accountId : Uuid) : Nat := dues v.spawned accountId

/-- The daemon when it starts to listen, after `reset_inflight`; `src/main.rs:48–53`. -/
def Server.started (s : Store) : Server := ⟨(resetInflight s).2, [], []⟩

/-- The daemon after all spawned releases have run. -/
def Server.settled (now : Clock) (v : Server) : Server :=
  { v with
    store := v.spawned.foldl (fun s release ↦
      (releaseAccountInner release.accountId release.updateLastRequest now.instant s).2) v.store
    spawned := [] }

/-- Every account is counted as often as a future holds a reservation on it. -/
def Server.Balanced (v : Server) : Prop :=
  ∀ accountId, v.store.accounts.has accountId = true →
    v.store.inflight accountId = v.holders accountId

/-- A future is dropped only where its armed guard releases exactly what the store counts: not
between an acquisition and its guard, and not between a guard's own release and its disarming. -/
def DroppedGuarded (v : Server) (activity : Activity × Clock) : Prop :=
  ∀ i task, activity.1 = .dropped i → v.tasks[i]? = some task →
    task.phase.counted = task.phase.armed

section Step

variable [UuidText]

/-- One future between two await points: its next phase, the store, and what it spawns. -/
inductive Phase.Moves (path : Path) (now : Clock) (s : Store) :
    Phase → Phase → Store → List Release → Prop
  /-- The sticky selection, and `start_turn`. -/
  | pinned {accountId : Uuid} {t : Store}
      (h : CodexLb.acquireAccountIfAvailable accountId now s = (.ok true, t)) :
      Moves path now s .idle (.acquired accountId) t []
  /-- The smart selection, which turns never make. -/
  | smart {settings : RuntimeSettings} {usageRefreshInterval : Nat} {excluded : List Uuid}
      {selectedAt : Clock} {accountId : Uuid} {t : Store} (hpath : path ≠ .turn)
      (h : CodexLb.acquireSmartAccount settings usageRefreshInterval excluded selectedAt s =
        (.ok accountId, t)) :
      Moves path now s .idle (.acquired accountId) t []
  /-- A turn creates its lease as soon as the acquisition returns. -/
  | started {accountId : Uuid} (hpath : path = .turn) :
      Moves path now s (.acquired accountId) (.guarded accountId) s []
  /-- A request creates its guard once the account was read. -/
  | selected {accountId : Uuid} {crypto : TokenCrypto} {reason : SelectionReason}
      {account : SelectedAccount} (hpath : path ≠ .turn)
      (h : selectedAccount crypto accountId reason s = .ok account) :
      Moves path now s (.acquired accountId) (.guarded accountId) s []
  /-- The account was deleted, or its tokens cannot be decrypted. -/
  | unselected {accountId : Uuid} {crypto : TokenCrypto} {reason : SelectionReason}
      {error : AppError} (hpath : path ≠ .turn)
      (h : selectedAccount crypto accountId reason s = .error error) :
      Moves path now s (.acquired accountId) (.failing accountId) s []
  /-- The release of `select_account_for_request` on that error. -/
  | returned {accountId : Uuid} :
      Moves path now s (.failing accountId) .idle (releaseAccount accountId now.instant s).2 []
  /-- The guard of a request spawns its release. -/
  | spawned {accountId : Uuid} (hpath : path = .request) :
      Moves path now s (.guarded accountId) .idle s [⟨accountId, path.updatesLastRequest⟩]
  /-- The guards of handshakes and turns await their release. -/
  | releasing {accountId : Uuid} (hpath : path ≠ .request) :
      Moves path now s (.guarded accountId) (.releasing accountId) s []
  | released {accountId : Uuid} :
      Moves path now s (.releasing accountId) (.released accountId)
        (CodexLb.releaseAccountInner accountId path.updatesLastRequest now.instant s).2 []
  | disarmed {accountId : Uuid} : Moves path now s (.released accountId) .idle s []

/-- One activity of the daemon. -/
inductive Server.Step (v : Server) : Activity × Clock → Server → Prop
  | arrive (path : Path) (now : Clock) :
      Step v (.arrive path, now) { v with tasks := v.tasks ++ [⟨path, .idle⟩] }
  | run {i : Nat} {now : Clock} {task : Task} {phase : Phase} {t : Store} {spawned : List Release}
      (htask : v.tasks[i]? = some task)
      (hmoves : task.phase.Moves task.path now v.store phase t spawned) :
      Step v (.run i, now) ⟨t, v.tasks.set i { task with phase }, v.spawned ++ spawned⟩
  | dropped {i : Nat} {task : Task} (now : Clock) (htask : v.tasks[i]? = some task) :
      Step v (.dropped i, now)
        { v with
          tasks := v.tasks.set i { task with phase := .gone }
          spawned := v.spawned ++
            (task.phase.armed.map (Release.mk · task.path.updatesLastRequest)).toList }
  | runRelease {before after : List Release} {release : Release} (now : Clock)
      (hspawned : v.spawned = before ++ release :: after) :
      Step v (.runRelease, now)
        { v with
          store := (CodexLb.releaseAccountInner release.accountId release.updateLastRequest
            now.instant v.store).2
          spawned := before ++ after }
  /-- A new account has an identifier that no future refers to. -/
  | commit {op : Op} (now : Clock) (hop : op.reserves = false)
      (hfresh : ∀ id, op.newAccount = some id → v.holders id = 0 ∧ v.owed id = 0) :
      Step v (.commit op, now) { v with store := op.exec now v.store }

end Step

/-! ### What each operation does to a count -/

/-- An account that is stored, or has a runtime row. -/
def Store.Tracks (s : Store) (accountId : Uuid) : Prop :=
  s.accounts.has accountId = true ∨ s.accountRuntimeState.has accountId = true

/-- The count of every tracked account is as before, and only one account may be new. -/
def InflightKept (newAccount : Option Uuid) (s t : Store) : Prop :=
  ∀ accountId, t.Tracks accountId → t.inflight accountId = s.inflight accountId ∧
    (s.Tracks accountId ∨ newAccount = some accountId)

section Inflight

variable {s t u : Store} {newAccount : Option Uuid} {accountId : Uuid}

private theorem InflightKept.refl (s : Store) : InflightKept newAccount s s :=
  fun _ htracks ↦ ⟨rfl, .inl htracks⟩

private theorem InflightKept.trans (h : InflightKept newAccount s t)
    (k : InflightKept none t u) : InflightKept newAccount s u := by
  intro accountId htracks
  obtain ⟨hsame, hbefore | hnone⟩ := k accountId htracks
  · obtain ⟨hfirst, hcase⟩ := h accountId hbefore
    exact ⟨hsame.trans hfirst, hcase⟩
  · cases hnone

/-- A write that leaves the runtime rows alone keeps the counts. -/
private theorem InflightKept.of_runtime
    (hruntime : t.accountRuntimeState = s.accountRuntimeState)
    (haccounts : ∀ accountId, t.accounts.has accountId = true →
      s.accounts.has accountId = true ∨ newAccount = some accountId) :
    InflightKept newAccount s t := by
  intro accountId htracks
  refine ⟨by rw [Store.inflight, hruntime, Store.inflight], ?_⟩
  rcases htracks with haccount | hrow
  · rcases haccounts accountId haccount with h | h
    · exact .inl (.inl h)
    · exact .inr h
  · rw [hruntime] at hrow
    exact .inl (.inr hrow)

/-- A rewritten runtime row changes the count of its account as the rewriting does. -/
theorem inflight_updateRuntime {f : AccountRuntimeState → AccountRuntimeState} {id : Uuid} :
    (s.updateRuntime id f).inflight accountId =
      if accountId = id then
        ((s.accountRuntimeState.find id).map fun runtime ↦ (f runtime).inflightCount).getD 0
      else s.inflight accountId := by
  rw [Store.inflight, find_updateRuntime, Option.map_map]
  split
  · next he =>
    subst he
    simp [Function.comp_def]
  · next hne =>
    rw [Store.inflight]
    simp [Function.comp_def]

/-- Rewriting a runtime row tracks no other account. -/
theorem tracks_updateRuntime {f : AccountRuntimeState → AccountRuntimeState} {id : Uuid} :
    (s.updateRuntime id f).Tracks accountId ↔ s.Tracks accountId := by
  rw [Store.Tracks, Store.updateRuntime, Table.has_update, Store.Tracks]

/-- A release takes one from a positive count. -/
theorem inflight_releaseAccountInner (id : Uuid) (updateLastRequest : Bool) (now : Instant) :
    (releaseAccountInner id updateLastRequest now s).2.inflight accountId =
      if accountId = id then max 0 (s.inflight accountId - 1) else s.inflight accountId := by
  change (s.updateRuntime id _).inflight accountId = _
  rw [inflight_updateRuntime]
  split
  · next he =>
    subst he
    rw [Store.inflight]
    cases s.accountRuntimeState.find accountId <;> rfl
  · rfl

/-- Ensuring a runtime row keeps the counts: a row starts with none. -/
private theorem kept_ensureRuntimeRow_inflight (id : Uuid) (s : Store) :
    InflightKept none s (ensureRuntimeRow id s).2 := by
  unfold ensureRuntimeRow
  split
  · exact .refl s
  · next hmissing =>
    split
    · next hstored =>
      intro accountId htracks
      have hnone : s.accountRuntimeState.find id = none :=
        Table.has_eq_false_iff.mp (Bool.eq_false_of_not_eq_true hmissing)
      by_cases he : accountId = id
      · subst he
        refine ⟨?_, .inl (.inl hstored)⟩
        rw [Store.inflight, Table.find_insert, if_pos rfl, Store.inflight, hnone]
        rfl
      · have hsame : (s.accountRuntimeState.insert id .default).find accountId =
            s.accountRuntimeState.find accountId := by rw [Table.find_insert, if_neg he]
        refine ⟨by rw [Store.inflight, hsame, Store.inflight], .inl ?_⟩
        rcases htracks with haccount | hrow
        · exact .inl haccount
        · rw [Table.has, hsame] at hrow
          exact .inr hrow
    · exact .refl s

private theorem kept_writeAccount_inflight (newId : Uuid) (encrypted : AccountTokens)
    (lastRefreshAt : Option Instant) (claims : AuthClaims) (label : String) (now : Instant)
    (s : Store) : InflightKept (some newId) s
      (writeAccount newId encrypted lastRefreshAt claims label now s).2 := by
  apply InflightKept.of_runtime
  · rw [writeAccount_frame]
  · intro accountId haccount
    unfold writeAccount at haccount
    split at haccount
    · rw [Table.has_update] at haccount
      exact .inl haccount
    · split at haccount
      · exact .inl haccount
      · rw [Table.has, Table.find_insert] at haccount
        split at haccount
        · next he => exact .inr (by rw [he])
        · exact .inl haccount

private theorem kept_cooldownAccount_inflight (id : Uuid) (seconds : Int) (reason : String)
    (now : Instant) (s : Store) :
    InflightKept none s (cooldownAccount id seconds reason now s).2 := by
  have hensure := kept_ensureRuntimeRow_inflight id s
  unfold cooldownAccount
  split
  · next hu => rw [hu] at hensure; exact hensure
  · next u hu =>
    rw [hu] at hensure
    refine hensure.trans fun accountId htracks ↦ ?_
    change (u.updateRuntime id _).Tracks accountId at htracks
    change (u.updateRuntime id _).inflight accountId = _ ∧ _
    refine ⟨?_, .inl (tracks_updateRuntime.mp htracks)⟩
    rw [inflight_updateRuntime]
    split
    · next he => rw [he, Store.inflight]
    · rfl

private theorem kept_deleteAccount_inflight [UuidText] (id : Uuid) (s : Store) :
    InflightKept none s (deleteAccount id s).2 := by
  unfold deleteAccount
  split
  · intro accountId htracks
    by_cases he : accountId = id
    · -- a deleted account is not tracked
      exfalso
      subst he
      rcases htracks with haccount | hrow
      · rw [Table.has, Table.find_delete] at haccount
        cases hf : s.accounts.find accountId <;> simp [hf] at haccount
      · rw [Table.has, Table.find_delete] at hrow
        cases hf : s.accountRuntimeState.find accountId <;> simp [hf] at hrow
    · have hrows : (s.accountRuntimeState.delete fun k _ ↦ k = id).find accountId =
          s.accountRuntimeState.find accountId := by
        rw [Table.find_delete, Table.filter_of_forall (by simp [he])]
      have haccounts : (s.accounts.delete fun k _ ↦ k = id).find accountId =
          s.accounts.find accountId := by
        rw [Table.find_delete, Table.filter_of_forall (by simp [he])]
      refine ⟨by rw [Store.inflight, hrows, Store.inflight], .inl ?_⟩
      rcases htracks with haccount | hrow
      · rw [Table.has, haccounts] at haccount
        exact .inl haccount
      · rw [Table.has, hrows] at hrow
        exact .inr hrow
  · exact .refl s

/-- A write of accounts that leaves the runtime rows alone stores no new account. -/
private theorem Op.has_accounts [UuidText] {op : Op} (hop : op.writesRuntime = false)
    (now : Clock) :
    (op.exec now s).accounts.has accountId = s.accounts.has accountId := by
  cases hw : op.writesAccounts with
  | false => rw [Op.accounts_frame hw now s]
  | true =>
    cases op with
    | updateAccount id status label email planType =>
      exact updateAccount_keeps (fun t ↦ t.accounts.has accountId = s.accounts.has accountId) rfl
        fun _ _ ↦ Table.has_update ..
    | updateAccountTokens id encrypted claims =>
      exact updateAccountTokens_keeps
        (fun t ↦ t.accounts.has accountId = s.accounts.has accountId) rfl (Table.has_update ..)
    | markAuthFailed id reason => exact Table.has_update ..
    | markUsageError id message => exact Table.has_update ..
    | replaceUsageWindows id planType fetchedAt windows =>
      exact replaceUsageWindows_keeps
        (fun t ↦ t.accounts.has accountId = s.accounts.has accountId) rfl
        fun _ _ ↦ Table.has_update ..
    | upsertAccount newId encrypted lastRefreshAt claims label => cases hop
    | deleteAccount id => cases hop
    | _ => cases hw

/-- An operation outside the reservations keeps the counts. -/
theorem Op.inflightKept [UuidText] {op : Op} (hop : op.reserves = false) (now : Clock) :
    InflightKept op.newAccount s (op.exec now s) := by
  cases hw : op.writesRuntime with
  | false =>
    apply InflightKept.of_runtime (Op.runtime_frame hw now s)
    intro accountId haccount
    rw [Op.has_accounts hw now] at haccount
    exact .inl haccount
  | true =>
    cases op with
    | upsertAccount newId encrypted lastRefreshAt claims label =>
      exact upsertAccount_keeps (InflightKept (some newId) s) (.refl s)
        (fun out _ ↦ kept_writeAccount_inflight _ _ _ _ (out.getD "") _ s)
        fun id u hu ↦ hu.trans (kept_ensureRuntimeRow_inflight id u)
    | deleteAccount id => exact kept_deleteAccount_inflight id s
    | cooldownAccount id seconds reason =>
      exact kept_cooldownAccount_inflight id seconds reason now.instant s
    | acquireAccountIfAvailable id => cases hop
    | acquireSmartAccount settings usageRefreshInterval excluded selectedAt => cases hop
    | releaseAccountInner id updateLastRequest => cases hop
    | resetInflight => cases hop
    | _ => cases hw

end Inflight

/-! ### The ledger of reservations -/

section Ledger

/-- Every tracked account is counted once for each holder and once for each release owed. -/
def Server.Accounted (v : Server) : Prop :=
  ∀ accountId, v.store.Tracks accountId →
    v.store.inflight accountId = v.holders accountId + v.owed accountId

/-- What a phase counts on an account. -/
def Phase.reserved (phase : Phase) (accountId : Uuid) : Nat :=
  if phase.counted = some accountId then 1 else 0

private theorem countP_set_add {α : Type} (p : α → Bool) {l : List α} {i : Nat} {a : α}
    (h : l[i]? = some a) (b : α) :
    (l.set i b).countP p + (if p a then 1 else 0) = l.countP p + (if p b then 1 else 0) := by
  obtain ⟨hi, rfl⟩ := List.getElem?_eq_some_iff.mp h
  have hle : (if p l[i] then 1 else 0) ≤ l.countP p := by
    split
    · next hp => exact List.countP_pos_iff.mpr ⟨l[i], List.getElem_mem hi, hp⟩
    · exact Nat.zero_le _
  rw [List.countP_set hi]
  omega

variable {v w : Server} {s t : Store} {path : Path} {phase next : Phase} {now : Clock}
  {spawned : List Release} {accountId : Uuid}

/-- A future that changes its phase changes the holders by what the phases count. -/
private theorem holders_set {i : Nat} {task : Task} (h : v.tasks[i]? = some task) (next : Phase)
    (t : Store) (spawned : List Release) (accountId : Uuid) :
    (⟨t, v.tasks.set i { task with phase := next }, spawned⟩ : Server).holders accountId +
      task.phase.reserved accountId = v.holders accountId + next.reserved accountId := by
  have hset := countP_set_add (fun task : Task ↦ task.phase.counted = some accountId) h
    { task with phase := next }
  simpa [Server.holders, Phase.reserved] using hset

/-- A future is one of the holders of the account that it counts on. -/
private theorem reserved_le_holders {i : Nat} {task : Task} (h : v.tasks[i]? = some task)
    (accountId : Uuid) : task.phase.reserved accountId ≤ v.holders accountId := by
  have hset := holders_set h .gone v.store v.spawned accountId
  have hgone : Phase.gone.reserved accountId = 0 := rfl
  omega

private theorem dues_append (before after : List Release) (accountId : Uuid) :
    dues (before ++ after) accountId = dues before accountId + dues after accountId :=
  List.countP_append

/-- What the `Drop` of a guard leaves to a spawned release. -/
private theorem dues_armed (armed : Option Uuid) (updateLastRequest : Bool) (accountId : Uuid) :
    dues (armed.map (Release.mk · updateLastRequest)).toList accountId =
      if armed = some accountId then 1 else 0 := by
  cases armed with
  | none => rfl
  | some id => simp [dues, List.countP_cons]

variable [UuidText]

/-- A future tracks no new account. -/
private theorem Phase.Moves.tracks (h : phase.Moves path now s next t spawned) :
    t.Tracks accountId → s.Tracks accountId := by
  cases h with
  | pinned h =>
    rw [(acquireAccountIfAvailable_true h).2]
    exact tracks_updateRuntime.mp
  | smart _ h =>
    rw [(acquireSmartAccount_ok h).2.2]
    exact tracks_updateRuntime.mp
  | started _ => exact id
  | selected _ _ => exact id
  | unselected _ _ => exact id
  | returned => exact tracks_updateRuntime.mp
  | spawned _ => exact id
  | releasing _ => exact id
  | released => exact tracks_updateRuntime.mp
  | disarmed => exact id

omit [UuidText] in
private theorem inflight_acquired {f : AccountRuntimeState → AccountRuntimeState} {id : Uuid}
    {at' : Instant} (heligible : accountIsEligible id at' s = true)
    (hf : ∀ runtime, (f runtime).inflightCount = runtime.inflightCount + 1) :
    (s.updateRuntime id f).inflight accountId =
      s.inflight accountId + (Phase.acquired id).reserved accountId := by
  obtain ⟨_, runtime, -, hruntime, -⟩ := accountIsEligible_iff.mp heligible
  rw [inflight_updateRuntime]
  split
  · next he =>
    subst he
    rw [hruntime, Option.map_some, Option.getD_some, hf, Store.inflight, hruntime]
    simp [Phase.reserved, Phase.counted]
  · next hne => simp [Phase.reserved, Phase.counted, Ne.symm hne]

/-- What a future adds to the count of an account is what it reserves from then on, and what it
takes is what it reserved, less the releases that it leaves to others. -/
private theorem Phase.Moves.inflight (h : phase.Moves path now s next t spawned)
    (accountId : Uuid) (hcounted : phase.reserved accountId ≤ s.inflight accountId) :
    t.inflight accountId + phase.reserved accountId =
      s.inflight accountId + next.reserved accountId + dues spawned accountId := by
  have hrelease : ∀ id updateLastRequest, (Phase.guarded id).reserved accountId ≤
      s.inflight accountId →
      (releaseAccountInner id updateLastRequest now.instant s).2.inflight accountId +
        (Phase.guarded id).reserved accountId = s.inflight accountId := by
    intro id updateLastRequest hle
    rw [inflight_releaseAccountInner]
    by_cases he : accountId = id
    · simp [Phase.reserved, Phase.counted, he] at hle ⊢
      omega
    · simp [Phase.reserved, Phase.counted, he, Ne.symm he]
  cases h with
  | pinned h =>
    obtain ⟨heligible, rfl⟩ := acquireAccountIfAvailable_true h
    rw [inflight_acquired heligible fun _ ↦ rfl]
    simp [Phase.reserved, Phase.counted, dues]
  | smart _ h =>
    obtain ⟨heligible, -, rfl⟩ := acquireSmartAccount_ok h
    rw [inflight_acquired heligible fun _ ↦ rfl]
    simp [Phase.reserved, Phase.counted, dues]
  | started _ => simp [Phase.reserved, Phase.counted, dues]
  | selected _ _ => simp [Phase.reserved, Phase.counted, dues]
  | unselected _ _ => simp [Phase.reserved, Phase.counted, dues]
  | returned =>
    have hreleased := hrelease _ true hcounted
    simpa [Phase.reserved, Phase.counted, dues, releaseAccount] using hreleased
  | spawned _ => simp [Phase.reserved, Phase.counted, dues, List.countP_cons]
  | releasing _ => simp [Phase.reserved, Phase.counted, dues]
  | released =>
    have hreleased := hrelease _ path.updatesLastRequest hcounted
    simpa [Phase.reserved, Phase.counted, dues] using hreleased
  | disarmed => simp [Phase.reserved, Phase.counted, dues]

/-- Dropping a future moves its reservation to the release that its guard spawns; the two are
the same only inside the guard. -/
private theorem ledger_dropped {i : Nat} {task : Task} (h : v.Accounted)
    (htask : v.tasks[i]? = some task) (hstep : v.Step (.dropped i, now) w)
    (htracks : w.store.Tracks accountId) :
    w.store.inflight accountId + (if task.phase.armed = some accountId then 1 else 0) =
      w.holders accountId + w.owed accountId + task.phase.reserved accountId := by
  cases hstep with
  | @dropped _ found _ hfound =>
    cases htask.symm.trans hfound
    have hbefore := h accountId htracks
    have hholders := holders_set htask .gone v.store (v.spawned ++
      (task.phase.armed.map (Release.mk · task.path.updatesLastRequest)).toList) accountId
    have hgone : Phase.gone.reserved accountId = 0 := rfl
    have hdues := dues_armed task.phase.armed task.path.updatesLastRequest accountId
    have howed := dues_append v.spawned
      (task.phase.armed.map (Release.mk · task.path.updatesLastRequest)).toList accountId
    rw [Server.owed] at hbefore
    change v.store.inflight accountId + _ = _ + (dues (v.spawned ++ _) accountId : Int) + _
    by_cases ha : task.phase.armed = some accountId
    · rw [if_pos ha] at hdues ⊢
      omega
    · rw [if_neg ha] at hdues ⊢
      omega

/-- A dropped future keeps the ledger exactly if it is dropped inside its guard, or before it has
reserved an account. -/
theorem accounted_dropped_iff {i : Nat} {task : Task} (h : v.Accounted)
    (htask : v.tasks[i]? = some task) (hstep : v.Step (.dropped i, now) w)
    (hcounted : ∀ id, task.phase.counted = some id → w.store.Tracks id)
    (harmed : ∀ id, task.phase.armed = some id → w.store.Tracks id) :
    w.Accounted ↔ task.phase.counted = task.phase.armed := by
  constructor
  · intro hafter
    ext id
    constructor
    · intro hc
      have hledger := ledger_dropped h htask hstep (hcounted id hc)
      rw [hafter id (hcounted id hc), Phase.reserved, if_pos hc] at hledger
      by_contra hne
      rw [if_neg hne] at hledger
      omega
    · intro ha
      have hledger := ledger_dropped h htask hstep (harmed id ha)
      rw [hafter id (harmed id ha), if_pos ha, Phase.reserved] at hledger
      by_contra hne
      rw [if_neg hne] at hledger
      omega
  · intro hsame accountId htracks
    have hledger := ledger_dropped h htask hstep htracks
    rw [Phase.reserved, hsame] at hledger
    split at hledger <;> omega

/-- Every activity that drops no future outside its guard keeps the ledger. -/
theorem Server.Accounted.step {activity : Activity × Clock} (h : v.Accounted)
    (hguarded : DroppedGuarded v activity) (hstep : v.Step activity w) : w.Accounted := by
  intro accountId htracks
  cases hstep with
  | arrive path now =>
    have hbefore := h accountId htracks
    simp only [Server.holders, Server.owed, List.countP_append] at hbefore ⊢
    exact hbefore
  | @run i now task next t spawned htask hmoves =>
    have hbefore := h accountId (hmoves.tracks htracks)
    have hholders := holders_set htask next t (v.spawned ++ spawned) accountId
    have hreserved := reserved_le_holders htask accountId
    have hmove := hmoves.inflight accountId (by omega)
    have howed := dues_append v.spawned spawned accountId
    rw [Server.owed] at hbefore
    change t.inflight accountId = _ + (dues (v.spawned ++ spawned) accountId : Int)
    omega
  | @dropped i task now htask =>
    have hledger := ledger_dropped h htask (.dropped now htask) htracks
    rw [Phase.reserved, hguarded i task rfl htask] at hledger
    split at hledger <;> omega
  | @runRelease before after release now hspawned =>
    have hbefore := h accountId (tracks_updateRuntime.mp htracks)
    rw [Server.owed, hspawned, dues_append] at hbefore
    change (CodexLb.releaseAccountInner _ _ _ v.store).2.inflight accountId =
      (v.holders accountId : Int) + (dues (before ++ after) accountId : Int)
    rw [inflight_releaseAccountInner, dues_append]
    by_cases he : accountId = release.accountId
    · have hhead : dues (release :: after) accountId = dues after accountId + 1 := by
        simp [dues, he]
      rw [if_pos he]
      omega
    · have hhead : dues (release :: after) accountId = dues after accountId := by
        simp [dues, Ne.symm he]
      rw [if_neg he]
      omega
  | @commit op now hop hfresh =>
    obtain ⟨hsame, hcase⟩ := Op.inflightKept hop now accountId htracks
    change (op.exec now v.store).inflight accountId = (v.holders accountId : Int) + v.owed accountId
    rw [hsame]
    by_cases htracked : v.store.Tracks accountId
    · exact h accountId htracked
    · -- a new account has no runtime row yet, and nobody refers to it
      obtain ⟨hholders, howed⟩ := hfresh accountId (hcase.resolve_left htracked)
      have hnone : v.store.accountRuntimeState.find accountId = none := by
        apply Table.has_eq_false_iff.mp
        exact Bool.eq_false_of_not_eq_true fun hrow ↦ htracked (.inr hrow)
      rw [Store.inflight, hnone, hholders, howed]
      rfl

end Ledger

/-! ### Reservations along a run -/

section Run

variable [UuidText] {v : Server} {s : Store}

/-- The spawned releases can all run, and then the daemon is settled. -/
theorem settled_run (now : Clock) (v : Server) :
    ∃ activities, Run (guarded Server.Step DroppedGuarded) v activities (v.settled now) := by
  obtain ⟨store, tasks, spawned⟩ := v
  induction spawned generalizing store with
  | nil => exact ⟨[], .nil _⟩
  | cons release rest ih =>
    obtain ⟨activities, hrun⟩ := ih (releaseAccountInner release.accountId
      release.updateLastRequest now.instant store).2
    have hguarded : DroppedGuarded ⟨store, tasks, release :: rest⟩ (.runRelease, now) := by
      intro i task hdropped
      cases hdropped
    have hstep : Server.Step ⟨store, tasks, [] ++ release :: rest⟩ (.runRelease, now) _ :=
      .runRelease now rfl
    exact ⟨_, .cons ⟨hguarded, hstep⟩ hrun⟩

/-- In every run from the start of the daemon that drops no future outside its guard, the ledger is
kept. -/
theorem accounted_of_run {activities : List (Activity × Clock)}
    (hrun : Run (guarded Server.Step DroppedGuarded) (.started s) activities v) :
    v.Accounted := by
  have hempty : (Server.started s).Accounted := by
    intro accountId _
    change (resetInflight s).2.inflight accountId = 0
    rw [Store.inflight, resetInflight, Table.find_mapRows]
    cases s.accountRuntimeState.find accountId <;> rfl
  apply hrun.invariant _ hempty
  rintro v activity w haccounted ⟨hguarded, hstep⟩
  exact haccounted.step hguarded hstep

/-- No reservation is leaked or released twice: in every run from the start of the daemon that
drops no future outside its guard, once the spawned releases have run every account is counted
exactly as often as a future holds a reservation on it. -/
theorem no_reservation_leaks {activities : List (Activity × Clock)}
    (hrun : Run (guarded Server.Step DroppedGuarded) (.started s) activities v) (now : Clock) :
    (v.settled now).Balanced := by
  obtain ⟨settling, hsettle⟩ := settled_run now v
  have haccounted := accounted_of_run (hrun.append hsettle)
  intro accountId hstored
  have hcount := haccounted accountId (.inl hstored)
  have howed : (v.settled now).owed accountId = 0 := rfl
  rw [hcount, howed, Int.natCast_zero, Int.add_zero]

/-- The store of the two accounts after a request has acquired the first one. -/
def acquiredStore : Store :=
  (acquireSmartAccount .default 300 [] ⟨1000, ""⟩ (resetInflight twoAccounts).2).2

omit [UuidText] in
private theorem acquiredStore_eq :
    acquireSmartAccount .default 300 [] ⟨1000, ""⟩ (resetInflight twoAccounts).2 =
      (.ok 1, acquiredStore) := by
  have hchosen : (acquireSmartAccount .default 300 [] ⟨1000, ""⟩ (resetInflight twoAccounts).2).1 =
      .ok 1 := by decide +kernel
  exact Prod.ext hchosen rfl

omit [UuidText] in
private theorem droppedGuarded_run (v : Server) (i : Nat) (now : Clock) :
    DroppedGuarded v (.run i, now) := by
  intro j task hdropped
  cases hdropped

private theorem arrive_step : (Server.started twoAccounts).Step (.arrive .request, ⟨0, ""⟩)
    ⟨(resetInflight twoAccounts).2, [⟨.request, .idle⟩], []⟩ := .arrive .request ⟨0, ""⟩

private theorem acquire_step :
    Server.Step ⟨(resetInflight twoAccounts).2, [⟨.request, .idle⟩], []⟩ (.run 0, ⟨1000, ""⟩)
      ⟨acquiredStore, [⟨.request, .acquired 1⟩], []⟩ :=
  @Server.Step.run _ ⟨(resetInflight twoAccounts).2, [⟨.request, .idle⟩], []⟩ 0 _
    ⟨.request, .idle⟩ (.acquired 1) acquiredStore [] rfl (.smart nofun acquiredStore_eq)

omit [UuidText] in
/-- A request whose client disconnects while the upstream answers gives its reservation back. -/
theorem no_reservation_leaks_disconnected : let _ := hyphenatedText
    (Server.settled ⟨3000, ""⟩
      ⟨acquiredStore, [⟨.request, .gone⟩], [⟨1, true⟩]⟩).Balanced := by
  intro _
  have hselected : (selectedAccount ⟨Except.ok⟩ 1 .usageWeighted acquiredStore).toOption.isSome =
      true := by decide +kernel
  obtain ⟨account, haccount⟩ : ∃ account,
      selectedAccount ⟨Except.ok⟩ 1 .usageWeighted acquiredStore = .ok account := by
    cases h : selectedAccount ⟨Except.ok⟩ 1 .usageWeighted acquiredStore with
    | ok account => exact ⟨account, rfl⟩
    | error e => rw [h] at hselected; cases hselected
  have hselect : Server.Step ⟨acquiredStore, [⟨.request, .acquired 1⟩], []⟩ (.run 0, ⟨1001, ""⟩)
      ⟨acquiredStore, [⟨.request, .guarded 1⟩], []⟩ :=
    @Server.Step.run _ ⟨acquiredStore, [⟨.request, .acquired 1⟩], []⟩ 0 _ ⟨.request, .acquired 1⟩
      (.guarded 1) acquiredStore [] rfl (.selected nofun haccount)
  have hdrop : Server.Step ⟨acquiredStore, [⟨.request, .guarded 1⟩], []⟩
      (.dropped 0, ⟨2000, ""⟩) ⟨acquiredStore, [⟨.request, .gone⟩], [⟨1, true⟩]⟩ :=
    @Server.Step.dropped _ ⟨acquiredStore, [⟨.request, .guarded 1⟩], []⟩ 0 ⟨.request, .guarded 1⟩
      _ rfl
  have hguarded : DroppedGuarded ⟨acquiredStore, [⟨.request, .guarded 1⟩], []⟩
      (.dropped 0, ⟨2000, ""⟩) := by
    intro i task hdropped htask
    cases hdropped
    cases htask
    rfl
  exact no_reservation_leaks
    (.cons ⟨nofun, arrive_step⟩ (.cons ⟨droppedGuarded_run _ _ _, acquire_step⟩
      (.cons ⟨droppedGuarded_run _ _ _, hselect⟩ (.single ⟨hguarded, hdrop⟩)))) ⟨3000, ""⟩

omit [UuidText] in
/-- A request whose client disconnects after the acquisition has committed and before its account
was read leaves the account counted for good, though nothing holds it. -/
theorem reservation_leaked : let _ := hyphenatedText
    Run Server.Step (.started twoAccounts)
      [(.arrive .request, ⟨0, ""⟩), (.run 0, ⟨1000, ""⟩), (.dropped 0, ⟨1001, ""⟩)]
      ⟨acquiredStore, [⟨.request, .gone⟩], []⟩ ∧
    ¬ (Server.settled ⟨3000, ""⟩ ⟨acquiredStore, [⟨.request, .gone⟩], []⟩).Balanced := by
  intro _
  have hdrop : Server.Step ⟨acquiredStore, [⟨.request, .acquired 1⟩], []⟩
      (.dropped 0, ⟨1001, ""⟩) ⟨acquiredStore, [⟨.request, .gone⟩], []⟩ :=
    @Server.Step.dropped _ ⟨acquiredStore, [⟨.request, .acquired 1⟩], []⟩ 0
      ⟨.request, .acquired 1⟩ _ rfl
  refine ⟨.cons arrive_step (.cons acquire_step (.single hdrop)), fun hbalanced ↦ ?_⟩
  have hfacts : acquiredStore.accounts.has 1 = true ∧ acquiredStore.inflight 1 = 1 := by
    decide +kernel
  have hcount : acquiredStore.inflight 1 = 0 := hbalanced 1 hfacts.1
  rw [hfacts.2] at hcount
  cases hcount

end Run

end CodexLb
