import CodexLb.Daemon.Eligibility
import CodexLb.Daemon.Routing

/-!
# One alias decides

A request names its session by several aliases. `resolve_session_route_epoch`
(`src/db.rs:1560–1602`) finds their root and returns the alias with the least
hash; `select_account_for_request` reads the affinity row of that alias alone.
A live row of another alias is not looked at.
-/

namespace CodexLb

open Relational Transition

variable {s : Store} {settings : RuntimeSettings} {excluded : List Uuid}

/-! ### Live aliases -/

/-- The alias has an affinity row within the sticky lifetime on an account that is eligible and
not excluded. -/
structure LiveAlias (settings : RuntimeSettings) (selectedAt : Instant) (excluded : List Uuid)
    (s : Store) (key : SessionRouteKey) (accountId : Uuid) : Prop where
  row : ∃ affinity, s.affinity.find key.keyHash = some affinity ∧
    affinity.accountId = accountId ∧
    selectedAt - 1000 * settings.stickySessionTtlSeconds ≤ affinity.lastUsedAt
  eligible : accountIsEligible accountId selectedAt s = true
  notExcluded : accountId ∉ excluded

/-- An alias is live exactly when the sticky lookup pins an account that is not excluded. -/
theorem liveAlias_iff {selectedAt : Instant} {key : SessionRouteKey} {accountId : Uuid} :
    LiveAlias settings selectedAt excluded s key accountId ↔
      pinnedAccount key.keyHash settings selectedAt s = some accountId ∧
        accountId ∉ excluded := by
  unfold pinnedAccount
  constructor
  · rintro ⟨⟨affinity, hfind, rfl, hfresh⟩, heligible, hx⟩
    rw [hfind, Option.bind_some, if_pos ⟨hfresh, heligible⟩]
    exact ⟨rfl, hx⟩
  · rintro ⟨hpinned, hx⟩
    obtain ⟨affinity, hfind, hif⟩ := Option.bind_eq_some_iff.mp hpinned
    split at hif
    · next hlive =>
      cases hif
      exact ⟨⟨affinity, hfind, rfl, hlive.1⟩, hlive.2, hx⟩
    · cases hif

/-- An account stays eligible while only time passes. -/
theorem eligible_later {accountId : Uuid} {selectedAt now : Instant}
    (h : accountIsEligible accountId selectedAt s = true) (hle : selectedAt ≤ now) :
    accountIsEligible accountId now s = true := by
  obtain ⟨account, runtime, haccount, hruntime, hactive, hended, hquota⟩ :=
    accountIsEligible_iff.mp h
  have hcooled : cooldownEnded runtime now = true := by
    unfold cooldownEnded at hended ⊢
    split
    · rfl
    · next cooldownUntil huntil =>
      rw [huntil, decide_eq_true_eq] at hended
      exact decide_eq_true (Int.le_trans hended hle)
  have hopen : quotaExhausted accountId now s = false := by
    rw [quotaExhausted, List.any_eq_false] at hquota ⊢
    intro window hwindow hexhausted
    apply hquota window hwindow
    rw [Bool.and_eq_true] at hexhausted ⊢
    refine ⟨hexhausted.1, ?_⟩
    have hreset := hexhausted.2
    split at hreset
    · rfl
    · rfl
    · exact decide_eq_true (Int.lt_of_le_of_lt hle (of_decide_eq_true hreset))
  exact accountIsEligible_iff.mpr ⟨account, runtime, haccount, hruntime, hactive, hcooled, hopen⟩

/-! ### The alias that selection reads -/

/-- Every alias of the request is mapped to the root. -/
def MappedTo (root : String) (keys : List SessionRouteKey) (s : Store) : Prop :=
  ∀ key ∈ keys, ∃ row, s.sessionRouteKeys.find key.keyHash = some row ∧ row.rootKeyHash = root

/-- The alias has the least hash of the request. -/
def IsLeast (key : SessionRouteKey) (keys : List SessionRouteKey) : Prop :=
  key ∈ keys ∧ ∀ other ∈ keys, key.keyHash ≤ other.keyHash

/-- On one root the routed keys are ordered by their hash. -/
private theorem routedKeyBefore_iff {root : String} {row : SessionRoot} {a b : RoutedKey}
    (ha : a.rootKeyHash = root ∧ a.root = row) (hb : b.rootKeyHash = root ∧ b.root = row) :
    routedKeyBefore a b = true ↔ a.keyHash < b.keyHash := by
  unfold routedKeyBefore
  rw [ha.1, ha.2, hb.1, hb.2, beq_iff_eq, compareColumn_then_eq_lt, compareColumn_then_eq_lt,
    compareColumn_then_eq_lt, compareColumn_eq_lt]
  simp

/-- The epoch of a request on one root selects by the alias with the least hash. -/
theorem selectionAffinity_least (hs : s.RouteInvariant) {keys : List SessionRouteKey}
    {validated : RouteKeys} (hv : validateSessionRouteKeys keys = .ok validated) {root : String}
    (hroot : MappedTo root keys s) (hne : keys ≠ []) :
    ∃ epoch key, resolveSessionRouteEpoch keys s = .ok (some epoch) ∧
      selectionAffinity keys (some epoch) = some key ∧ IsLeast key keys := by
  have hkeys : ∀ k, k ∈ validated.hashes ↔ k ∈ keys.map SessionRouteKey.keyHash :=
    mem_hashes_of_validate hv
  -- every alias of the request is a candidate, and no other key is
  have hstored : ∀ key ∈ keys, ∃ routed ∈ routedKeys validated.hashes s,
      routed.keyHash = key.keyHash := by
    intro key hkey
    obtain ⟨row, hrow, howner⟩ := hroot key hkey
    obtain ⟨stored, hfound⟩ := hs.keyHasRoot _ _ hrow
    exact ⟨⟨key.keyHash, row.rootKeyHash, stored⟩, mem_routedKeys_iff.mpr
      ⟨(hkeys _).mpr (List.mem_map.mpr ⟨key, hkey, rfl⟩), ⟨row, hrow, rfl⟩, hfound⟩, rfl⟩
  have hnamed : ∀ routed ∈ routedKeys validated.hashes s,
      ∃ key ∈ keys, key.keyHash = routed.keyHash ∧ routed.rootKeyHash = root := by
    intro routed hrouted
    obtain ⟨hhash, ⟨row, hrow, howner⟩, -⟩ := mem_routedKeys_iff.mp hrouted
    obtain ⟨key, hkey, hsame⟩ := List.mem_map.mp ((hkeys _).mp hhash)
    obtain ⟨row', hrow', howner'⟩ := hroot key hkey
    rw [hsame, hrow] at hrow'
    cases hrow'
    exact ⟨key, hkey, hsame, howner.symm.trans howner'⟩
  cases hfirst : firstBy routedKeyBefore (routedKeys validated.hashes s) with
  | none =>
    obtain ⟨key, hkey⟩ := List.exists_mem_of_ne_nil keys hne
    obtain ⟨routed, hrouted, -⟩ := hstored key hkey
    rw [firstBy_eq_none_iff.mp hfirst] at hrouted
    cases hrouted
  | some first =>
    have hmem := firstBy_mem hfirst
    obtain ⟨key, hkey, hsame, hfirstRoot⟩ := hnamed first hmem
    have hrow : ∀ routed ∈ routedKeys validated.hashes s,
        routed.rootKeyHash = root ∧ routed.root = first.root := by
      intro routed hrouted
      obtain ⟨-, -, -, hownRoot⟩ := hnamed routed hrouted
      have hfound := (mem_routedKeys_iff.mp hrouted).2.2
      have hfirstFound := (mem_routedKeys_iff.mp hmem).2.2
      rw [hownRoot] at hfound
      rw [hfirstRoot] at hfirstFound
      exact ⟨hownRoot, Option.some.inj (hfound.symm.trans hfirstFound)⟩
    have hbefore : ∀ a ∈ routedKeys validated.hashes s, ∀ b ∈ routedKeys validated.hashes s,
        routedKeyBefore a b = true ↔ a.keyHash < b.keyHash :=
      fun a ha b hb ↦ routedKeyBefore_iff (hrow a ha) (hrow b hb)
    have hleast : ∀ routed ∈ routedKeys validated.hashes s, first.keyHash ≤ routed.keyHash :=
      key_firstBy_le hbefore hfirst
    have hresolve : resolveSessionRouteEpoch keys s =
        .ok (some ⟨first.rootKeyHash, first.root.routeGeneration, first.keyHash⟩) := by
      rw [resolveSessionRouteEpoch, hv]
      change Except.ok (Option.map _ (firstBy routedKeyBefore _)) = _
      rw [hfirst]
      rfl
    cases hfind : keys.find? fun affinity ↦ affinity.keyHash = first.keyHash with
    | none => exact absurd hsame (by simpa using List.find?_eq_none.mp hfind key hkey)
    | some found =>
      refine ⟨_, found, hresolve, ?_, List.mem_of_find?_eq_some hfind, ?_⟩
      · rw [selectionAffinity, Option.bind_some]
        dsimp only
        rw [hfind]
        rfl
      · intro other hother
        obtain ⟨routed, hrouted, hhash⟩ := hstored other hother
        have hfoundHash : found.keyHash = first.keyHash := by
          simpa using List.find?_some hfind
        rw [hfoundHash, ← hhash]
        exact hleast routed hrouted

/-! ### What the request is given -/

/-- The tokens of every stored account decrypt under the daemon's key. -/
def Decryptable (crypto : TokenCrypto) (s : Store) : Prop :=
  ∀ id account, s.accounts.find id = some account → ∀ ciphertext ∈ [account.encrypted.accessToken,
    account.encrypted.refreshToken, account.encrypted.idToken],
    ∃ token, crypto.decrypt ciphertext = .ok token

variable [UuidText] {crypto : TokenCrypto} {usageRefreshInterval : Nat} {selectedAt now : Clock}

/-- An acquired account whose tokens decrypt is returned with the reason of its path. -/
theorem finishSelection_ok (hcrypto : Decryptable crypto s) {accountId : Uuid} {account : Account}
    (haccount : s.accounts.find accountId = some account) (reason : SelectionReason)
    (at' : Instant) : ∃ tokens, (finishSelection crypto accountId reason at' s).1 =
      .ok ⟨accountId, account, tokens, reason⟩ := by
  have htokens := hcrypto accountId account haccount
  obtain ⟨access, haccess⟩ := htokens account.encrypted.accessToken (by simp)
  obtain ⟨refresh, hrefresh⟩ := htokens account.encrypted.refreshToken (by simp)
  obtain ⟨token, htoken⟩ := htokens account.encrypted.idToken (by simp)
  have hselected : selectedAccount crypto accountId reason s =
      .ok ⟨accountId, account, ⟨access, refresh, token⟩, reason⟩ := by
    unfold selectedAccount
    rw [haccount]
    dsimp only
    rw [haccess, hrefresh, htoken]
    rfl
  refine ⟨⟨access, refresh, token⟩, ?_⟩
  unfold finishSelection
  rw [hselected]

/-- A selection carries the reason it was finished with. -/
theorem finishSelection_reason {accountId : Uuid} {reason : SelectionReason} {at' : Instant}
    {selected : SelectedAccount}
    (h : (finishSelection crypto accountId reason at' s).1 = .ok selected) :
    selected.selectionReason = reason := by
  unfold finishSelection selectedAccount at h
  split at h
  · next found hfound =>
    cases h
    split at hfound
    · cases hfound
    · obtain ⟨access, -, hfound⟩ := bind_eq_ok.mp hfound
      obtain ⟨refresh, -, hfound⟩ := bind_eq_ok.mp hfound
      obtain ⟨token, -, hfound⟩ := bind_eq_ok.mp hfound
      cases hfound
      rfl
  · cases h

/-- The smart path never calls its choice sticky. -/
theorem selectSmartAccount_reason {selected : SelectedAccount}
    (h : (selectSmartAccount crypto excluded settings usageRefreshInterval selectedAt now s).1 =
      .ok selected) : excluded = [] → selected.selectionReason ≠ .sticky := by
  rintro rfl
  unfold selectSmartAccount at h
  split at h
  · cases h
  · rw [finishSelection_reason h]
    show (if (settings.routingStrategy != "round_robin") = true then SelectionReason.usageWeighted
      else .roundRobin) ≠ .sticky
    by_cases hmode : (settings.routingStrategy != "round_robin") = true
    · rw [if_pos hmode]
      decide
    · rw [if_neg hmode]
      decide

/-- The smart path returns the previewed account when its tokens decrypt. -/
theorem selectSmartAccount_of_preview (hcrypto : Decryptable crypto s) {accountId : Uuid}
    (h : previewSmartAccount settings usageRefreshInterval excluded selectedAt.instant s =
      some accountId) : ∃ selected, (selectSmartAccount crypto excluded settings
        usageRefreshInterval selectedAt now s).1 = .ok selected ∧
        selected.accountId = accountId := by
  obtain ⟨account, runtime, haccount, -⟩ :=
    accountIsEligible_iff.mp (previewSmartAccount_eligible h).1
  unfold selectSmartAccount acquireSmartAccount
  rw [h]
  have hdecrypts : Decryptable crypto (s.updateRuntime accountId (selectedRuntime selectedAt)) :=
    hcrypto
  obtain ⟨tokens, htokens⟩ := finishSelection_ok hdecrypts haccount
    (if !excluded.isEmpty then .failover
      else if settings.routingStrategy != "round_robin" then .usageWeighted
      else .roundRobin) now.instant
  exact ⟨_, htokens, rfl⟩

/-- The request is given the account of one of its live aliases, as a sticky one when nothing is
excluded; `src/proxy.rs:76–95`. -/
def StaysSticky (crypto : TokenCrypto) (settings : RuntimeSettings) (usageRefreshInterval : Nat)
    (keys : List SessionRouteKey) (excluded : List Uuid) (selectedAt now : Clock) (s : Store) :
    Prop :=
  ∃ epoch selected, resolveSessionRouteEpoch keys s = .ok epoch ∧
    (selectAccountForRequest crypto (selectionAffinity keys epoch) excluded settings
      usageRefreshInterval selectedAt now s).1 = .ok selected ∧
    (∃ key ∈ keys, LiveAlias settings selectedAt.instant excluded s key selected.accountId) ∧
    (excluded = [] → selected.selectionReason = .sticky)

/-- A request whose alias is not live goes the smart way. -/
theorem selectAccountForRequest_smart {key : SessionRouteKey}
    (h : ∀ id, ¬ LiveAlias settings selectedAt.instant excluded s key id) :
    selectAccountForRequest crypto (some key) excluded settings usageRefreshInterval selectedAt now
        s =
      selectSmartAccount crypto excluded settings usageRefreshInterval selectedAt now s := by
  unfold selectAccountForRequest
  dsimp only [Option.bind_some]
  cases hpinned : pinnedAccount key.keyHash settings selectedAt.instant s with
  | none => rfl
  | some id =>
    have hx : excluded.contains id = true := by
      by_contra hno
      exact h id (liveAlias_iff.mpr ⟨hpinned, by simpa using hno⟩)
    dsimp only
    rw [if_pos hx]

/-- **A session stays sticky exactly when the alias with the least hash is live.** Otherwise the
request goes the smart way, which with exclusions may choose the account of a live alias. -/
theorem session_stays_sticky_iff (hs : s.Reached) {keys : List SessionRouteKey}
    {validated : RouteKeys} (hv : validateSessionRouteKeys keys = .ok validated) {root : String}
    (hroot : MappedTo root keys s)
    (hlive : ∃ key ∈ keys, ∃ id, LiveAlias settings selectedAt.instant excluded s key id)
    (hclock : selectedAt.instant ≤ now.instant) (hcrypto : Decryptable crypto s) :
    StaysSticky crypto settings usageRefreshInterval keys excluded selectedAt now s ↔
      (∃ key, IsLeast key keys ∧
        ∃ id, LiveAlias settings selectedAt.instant excluded s key id) ∨
      (excluded ≠ [] ∧ ∃ id, previewSmartAccount settings usageRefreshInterval excluded
          selectedAt.instant s = some id ∧
        ∃ key ∈ keys, LiveAlias settings selectedAt.instant excluded s key id) := by
  have hne : keys ≠ [] := by
    rintro rfl
    obtain ⟨key, hkey, -⟩ := hlive
    cases hkey
  obtain ⟨epoch, first, hresolve, hselection, hleast⟩ :=
    selectionAffinity_least hs.routesSound.invariant hv hroot hne
  have hselect : StaysSticky crypto settings usageRefreshInterval keys excluded selectedAt now s ↔
      ∃ selected, (selectAccountForRequest crypto (some first) excluded settings
          usageRefreshInterval selectedAt now s).1 = .ok selected ∧
        (∃ key ∈ keys, LiveAlias settings selectedAt.instant excluded s key
          selected.accountId) ∧
        (excluded = [] → selected.selectionReason = .sticky) := by
    unfold StaysSticky
    rw [hresolve]
    constructor
    · rintro ⟨_, selected, heq, hselected⟩
      cases heq
      rw [hselection] at hselected
      exact ⟨selected, hselected⟩
    · rintro ⟨selected, hselected⟩
      rw [← hselection] at hselected
      exact ⟨_, selected, rfl, hselected⟩
  rw [hselect]
  by_cases hfirst : ∃ id, LiveAlias settings selectedAt.instant excluded s first id
  · -- the alias that selection reads is live, so its account is acquired
    obtain ⟨id, hid⟩ := hfirst
    refine iff_of_true ?_ (.inl ⟨first, hleast, id, hid⟩)
    obtain ⟨hpinned, hx⟩ := liveAlias_iff.mp hid
    rw [selectAccountForRequest_pinned crypto usageRefreshInterval hpinned hx
      (eligible_later hid.eligible hclock)]
    obtain ⟨account, runtime, haccount, -⟩ := accountIsEligible_iff.mp hid.eligible
    have hdecrypts : Decryptable crypto (s.updateRuntime id (acquiredRuntime now)) := hcrypto
    obtain ⟨tokens, htokens⟩ := finishSelection_ok hdecrypts haccount
      (if excluded.isEmpty then .sticky else .failover) now.instant
    refine ⟨_, htokens, ⟨first, hleast.1, hid⟩, ?_⟩
    rintro rfl
    rfl
  · have hsmart : selectAccountForRequest crypto (some first) excluded settings
        usageRefreshInterval selectedAt now s =
          selectSmartAccount crypto excluded settings usageRefreshInterval selectedAt now s :=
      selectAccountForRequest_smart fun id hid ↦ hfirst ⟨id, hid⟩
    rw [hsmart]
    constructor
    · rintro ⟨selected, hselected, hkey, hreason⟩
      right
      refine ⟨fun hnone ↦ selectSmartAccount_reason hselected hnone (hreason hnone), ?_⟩
      exact ⟨_, selectSmartAccount_preview hselected, hkey⟩
    · rintro (⟨key, hkey, id, hid⟩ | ⟨hexcluded, id, hpreview, hkey⟩)
      · have hsame : key.keyHash = first.keyHash :=
          le_antisymm (hkey.2 first hleast.1) (hleast.2 key hkey.1)
        have hrow := hid.row
        rw [hsame] at hrow
        exact absurd ⟨id, hrow, hid.eligible, hid.notExcluded⟩ hfirst
      · obtain ⟨selected, hselected, rfl⟩ : ∃ selected,
            (selectSmartAccount crypto excluded settings usageRefreshInterval selectedAt now s).1 =
              .ok selected ∧ selected.accountId = id :=
          selectSmartAccount_of_preview hcrypto hpreview
        exact ⟨selected, hselected, hkey, fun hnone ↦ absurd hnone hexcluded⟩

/-! ### Two aliases of one session -/

/-- Two aliases of one session. -/
def twoAliases : List SessionRouteKey := [sessionKey, ⟨hexHash 2, "conversation_id"⟩]

/-- The two accounts after both aliases were bound to the second one. -/
def boundAliases : Store := (bindAffinitiesAtEpoch twoAliases 2 none 1000 twoAccounts).2

/-- The session after eight days in which requests named it by its second alias. -/
def laterAlias : Store :=
  (bindAffinitiesAtEpoch [⟨hexHash 2, "conversation_id"⟩] 2 (some ⟨hexHash 1, 0, hexHash 2⟩)
    691200000 boundAliases).2

omit [UuidText] in
private theorem twoAliases_validated :
    ∃ validated, validateSessionRouteKeys twoAliases = .ok validated := by
  have hdistinct : (twoAliases.map SessionRouteKey.keyHash).Nodup := by decide +kernel
  have hwellFormed : ∀ key ∈ twoAliases, key.WellFormed := by
    unfold SessionRouteKey.WellFormed
    decide +kernel
  obtain ⟨validated, hv, -⟩ := validateSessionRouteKeys_of_wellFormed (by decide) hdistinct
    hwellFormed
  exact ⟨validated, hv⟩

omit [UuidText] in
private theorem decryptable_ok (s : Store) : Decryptable ⟨Except.ok⟩ s :=
  fun _ _ _ ciphertext _ ↦ ⟨ciphertext, rfl⟩

omit [UuidText] in
/-- A request that names the session by both aliases right after the bind stays. -/
theorem session_stays_sticky_bound : let _ := hyphenatedText
    StaysSticky ⟨Except.ok⟩ .default 300 twoAliases [] ⟨2000, ""⟩ ⟨2000, ""⟩ boundAliases := by
  intro _
  have hrun : Run Store.Step twoAccounts
      [(.bindAffinitiesAtEpoch twoAliases 2 none, ⟨1000, ""⟩)] boundAliases := .single rfl
  obtain ⟨validated, hv⟩ := twoAliases_validated
  have hfirst : LiveAlias .default 2000 [] boundAliases sessionKey 2 := by
    apply liveAlias_iff.mpr
    exact ⟨by decide +kernel, List.not_mem_nil⟩
  have hmapped : MappedTo (hexHash 1) twoAliases boundAliases := by
    unfold MappedTo
    decide +kernel
  have hleast : IsLeast sessionKey twoAliases := by
    unfold IsLeast
    decide +kernel
  exact (session_stays_sticky_iff (twoAccounts_reached.run hrun) hv hmapped
    ⟨sessionKey, List.mem_cons_self, 2, hfirst⟩ (le_refl _) (decryptable_ok _)).mpr
    (.inl ⟨sessionKey, hleast, 2, hfirst⟩)

omit [UuidText] in
/-- A request by both aliases goes to the first account, although the second alias is live on the
second account. -/
theorem expired_alias_hides_live_one : let _ := hyphenatedText
    laterAlias.Reached ∧ MappedTo (hexHash 1) twoAliases laterAlias ∧
      LiveAlias .default 691201000 [] laterAlias ⟨hexHash 2, "conversation_id"⟩ 2 ∧
      ¬ StaysSticky ⟨Except.ok⟩ .default 300 twoAliases [] ⟨691201000, ""⟩ ⟨691201000, ""⟩
        laterAlias := by
  intro _
  have hrun : Run Store.Step twoAccounts
      [(.bindAffinitiesAtEpoch twoAliases 2 none, ⟨1000, ""⟩),
        (.bindAffinitiesAtEpoch [⟨hexHash 2, "conversation_id"⟩] 2
          (some ⟨hexHash 1, 0, hexHash 2⟩), ⟨691200000, ""⟩)] laterAlias :=
    .cons rfl (.single rfl)
  refine ⟨twoAccounts_reached.run hrun, ?_, ?_, ?_⟩
  · unfold MappedTo
    decide +kernel
  · apply liveAlias_iff.mpr
    exact ⟨by decide +kernel, List.not_mem_nil⟩
  · rintro ⟨epoch, selected, hresolve, hselected, -, hsticky⟩
    have hepoch : epoch = some ⟨hexHash 1, 0, hexHash 1⟩ := by
      have hresolved : resolveSessionRouteEpoch twoAliases laterAlias =
          .ok (some ⟨hexHash 1, 0, hexHash 1⟩) := by decide +kernel
      exact Except.ok.inj (hresolve.symm.trans hresolved)
    have hreason : (selectAccountForRequest ⟨Except.ok⟩
        (selectionAffinity twoAliases (some ⟨hexHash 1, 0, hexHash 1⟩)) [] .default 300
        ⟨691201000, ""⟩ ⟨691201000, ""⟩ laterAlias).1.toOption.map
          SelectedAccount.selectionReason = some .usageWeighted := by decide +kernel
    rw [hepoch] at hselected
    rw [hselected] at hreason
    have hsame : selected.selectionReason = .usageWeighted := Option.some.inj hreason
    rw [hsticky rfl] at hsame
    cases hsame

end CodexLb
