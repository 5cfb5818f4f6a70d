import CodexLb.Proxy.Affinities
import CodexLb.Route.Soundness

/-!
# A session returns to its account

What a client reads back of the binds that its responses made. A request
captures an epoch, is sent to an account and is bound with the key of its
response; the next request that names some of these keys, and no key of
another session, captures the same root and is given the same account.
-/

namespace CodexLb

open Proxy Relational Transition

/-! ### The epoch of a request on one root -/

/-- Mapped keys among the keys of a request are mapped to one root. -/
def RootedAt (rootKeyHash : String) (keys : List SessionRouteKey) (s : Store) : Prop :=
  ∀ key ∈ keys, ∀ row, s.sessionRouteKeys.find key.keyHash = some row →
    row.rootKeyHash = rootKeyHash

/-- A request selects by one of its keys, under the epoch of its root. -/
structure SelectsAt (rootKeyHash : String) (root : SessionRoot) (keys : List SessionRouteKey)
    (selection : SessionRouteKey) (s : Store) : Prop where
  captured : resolveSessionRouteEpoch keys s =
    .ok (some ⟨rootKeyHash, root.routeGeneration, selection.keyHash⟩)
  selected : selectionAffinity keys
    (some ⟨rootKeyHash, root.routeGeneration, selection.keyHash⟩) = some selection
  named : selection ∈ keys
  mapped : ∃ row, s.sessionRouteKeys.find selection.keyHash = some row

/-- The epoch of a request on one root is that of the root. -/
theorem RootedAt.selects {rootKeyHash : String} {keys : List SessionRouteKey} {s : Store}
    (h : RootedAt rootKeyHash keys s) (hs : s.RouteInvariant) {validated : RouteKeys}
    (hv : validateSessionRouteKeys keys = .ok validated)
    (hmapped : ∃ key ∈ keys, ∃ row, s.sessionRouteKeys.find key.keyHash = some row) :
    ∃ root selection, s.sessionRoots.find rootKeyHash = some root ∧
      SelectsAt rootKeyHash root keys selection s := by
  have hnamed := mem_hashes_of_validate hv
  cases hresolve : resolveSessionRouteEpoch keys s with
  | error e =>
    rw [resolveSessionRouteEpoch, hv] at hresolve
    cases hresolve
  | ok captured =>
    cases captured with
    | none =>
      exfalso
      obtain ⟨key, hkey, row, hrow⟩ := hmapped
      obtain ⟨root, hroot⟩ := hs.keyHasRoot _ row hrow
      have hrouted : ⟨key.keyHash, row.rootKeyHash, root⟩ ∈ routedKeys validated.hashes s :=
        mem_routedKeys_iff.mpr
          ⟨(hnamed _).mpr (List.mem_map_of_mem hkey), ⟨row, hrow, rfl⟩, hroot⟩
      rw [(resolveSessionRouteEpoch_none hv).mp hresolve] at hrouted
      cases hrouted
    | some epoch =>
      obtain ⟨validated', hv', routed, hrouted, rfl⟩ := resolveSessionRouteEpoch_some hresolve
      rw [hv] at hv'
      cases hv'
      obtain ⟨hin, ⟨row, hrow, hrooted⟩, hroot⟩ := mem_routedKeys_iff.mp hrouted
      obtain ⟨key, hkey, hhash⟩ := List.mem_map.mp ((hnamed _).mp hin)
      have hwhere : routed.rootKeyHash = rootKeyHash :=
        hrooted.symm.trans (h key hkey row (by rw [hhash, hrow]))
      have hfound : (keys.find? fun key ↦ key.keyHash = routed.keyHash).isSome = true := by
        rw [List.find?_isSome]
        exact ⟨key, hkey, by simpa using hhash⟩
      obtain ⟨selection, hselection⟩ := Option.isSome_iff_exists.mp hfound
      have heq : selection.keyHash = routed.keyHash := by
        simpa using List.find?_some hselection
      rw [hwhere] at hroot
      rw [hwhere, ← heq] at hresolve
      refine ⟨routed.root, selection, hroot, hresolve, ?_,
        List.mem_of_find?_eq_some hselection, row, by rw [heq, hrow]⟩
      simp only [selectionAffinity, Option.bind_some, heq, hselection, Option.some_or]

/-- A request whose selection has a live affinity row on an eligible account is given it. -/
theorem SelectsAt.returns [UuidText] {rootKeyHash : String} {root : SessionRoot}
    {keys : List SessionRouteKey} {selection : SessionRouteKey} {s : Store}
    (h : SelectsAt rootKeyHash root keys selection s) (crypto : TokenCrypto)
    {affinity : Affinity} (ha : s.affinity.find selection.keyHash = some affinity)
    {excluded : List Uuid} {settings : RuntimeSettings} (usageRefreshInterval : Nat)
    {selectedAt now : Clock}
    (hlive : selectedAt.instant - 1000 * settings.stickySessionTtlSeconds ≤ affinity.lastUsedAt)
    (hexcluded : affinity.accountId ∉ excluded)
    (heligible : accountIsEligible affinity.accountId selectedAt.instant s = true)
    (hstill : accountIsEligible affinity.accountId now.instant s = true) :
    selectAccountForRequest crypto
        (selectionAffinity keys (some ⟨rootKeyHash, root.routeGeneration, selection.keyHash⟩))
        excluded settings usageRefreshInterval selectedAt now s =
      finishSelection crypto affinity.accountId (if excluded.isEmpty then .sticky else .failover)
        now.instant (s.updateRuntime affinity.accountId (acquiredRuntime now)) := by
  have hpinned : pinnedAccount selection.keyHash settings selectedAt.instant s =
      some affinity.accountId := by
    rw [pinnedAccount, ha, Option.bind_some, if_pos ⟨hlive, heligible⟩]
  rw [h.selected]
  exact selectAccountForRequest_pinned crypto usageRefreshInterval hpinned hexcluded hstill

/-! ### While nothing maps keys -/

/-- The routes after writes that map no key: affinity rows may go, nothing else of them does. -/
structure Quietened (s t : Store) : Prop where
  routeKeys : ∀ k, t.sessionRouteKeys.find k = s.sessionRouteKeys.find k
  roots : ∀ r root, s.sessionRoots.find r = some root → ∃ later,
    t.sessionRoots.find r = some later ∧ later.routeGeneration = root.routeGeneration
  affinity : ∀ k affinity, t.affinity.find k = some affinity → s.affinity.find k = some affinity

/-- The operations that map no key. -/
def Op.Quiet (_ : Store) (op : Op × Clock) : Prop := op.1.mapsKeys = false

namespace Quietened

variable {s t u : Store}

theorem refl (s : Store) : Quietened s s :=
  ⟨fun _ ↦ rfl, fun _ root h ↦ ⟨root, h, rfl⟩, fun _ _ h ↦ h⟩

theorem trans (h : Quietened s t) (k : Quietened t u) : Quietened s u where
  routeKeys key := (k.routeKeys key).trans (h.routeKeys key)
  roots r root hr := by
    obtain ⟨later, hlater, hgen⟩ := h.roots r root hr
    obtain ⟨last, hlast, hlastgen⟩ := k.roots r later hlater
    exact ⟨last, hlast, hlastgen.trans hgen⟩
  affinity key affinity ha := h.affinity key affinity (k.affinity key affinity ha)

/-- Forgetting maps no key. -/
theorem of_forgetting {keep : Uuid → Bool} (h : Forgetting keep s t) : Quietened s t where
  routeKeys := h.routeKeys
  roots r root hr := ⟨root.keepAccounts keep, by rw [h.roots, hr]; rfl, rfl⟩
  affinity k affinity ha := (h.affinity k affinity ha).1

variable [UuidText]

/-- A run of operations that map no key. -/
theorem of_run {events : List (Op × Clock)} (h : Run (guarded Store.Step Op.Quiet) s events t) :
    Quietened s t := by
  refine h.relates (P := fun _ ↦ True) (fun _ _ _ _ _ ↦ trivial) refl
    (fun _ _ _ h k ↦ h.trans k) ?_ trivial
  rintro s op t - ⟨hquiet, rfl⟩
  obtain ⟨keep, hk⟩ := Op.forgetting hquiet op.2 s
  exact of_forgetting hk

end Quietened

/-! ### What a bind leaves -/

/-- Keys that are mapped to one root and have affinity rows on one account since an instant. -/
structure BoundOn (rootKeyHash : String) (accountId : Uuid) (since : Instant)
    (keys : List SessionRouteKey) (s : Store) : Prop where
  mapped : ∀ key ∈ keys, ∃ row, s.sessionRouteKeys.find key.keyHash = some row ∧
    row.rootKeyHash = rootKeyHash
  routed : ∀ key ∈ keys, ∃ affinity, s.affinity.find key.keyHash = some affinity ∧
    affinity.accountId = accountId ∧ since ≤ affinity.lastUsedAt

private theorem currentTimestamp_le (now : Instant) : currentTimestamp now ≤ now :=
  Int.ediv_mul_le now (by decide)

/-- An accepted bind leaves its keys on one root and on the account. -/
theorem boundOn_of_accepted {keys : List SessionRouteKey} {accountId : Uuid}
    {epoch : Option SessionRouteEpoch} {now : Instant} {s t : Store} (hs : s.RouteInvariant)
    (h : bindAffinitiesAtEpoch keys accountId epoch now s = (.ok true, t)) :
    ∃ rootKeyHash, BoundOn rootKeyHash accountId (currentTimestamp now) keys t := by
  have hin : ∀ {validated}, validateSessionRouteKeys keys = .ok validated → ∀ key ∈ keys,
      key.keyHash ∈ validated.hashes := fun hv key hkey ↦
    (mem_hashes_of_validate hv _).mpr (List.mem_map_of_mem hkey)
  cases bindAffinitiesAtEpoch_outcome hs h with
  | refused hne => exact absurd rfl hne
  | empty hv hnil =>
    have hnone : ∀ key ∈ keys, False := by
      intro key hkey
      have hmem := hin hv key hkey
      rw [RouteKeys.hashes, hnil] at hmem
      cases hmem
    exact ⟨"", fun key hkey ↦ (hnone key hkey).elim, fun key hkey ↦ (hnone key hkey).elim⟩
  | @atEpoch validated captured root _ hv he hbound =>
    have hover := hbound.handover hs
    refine ⟨captured.rootKeyHash, fun key hkey ↦ ?_, fun key hkey ↦ ?_⟩
    · obtain ⟨kind, hrow⟩ := hover.mapped _ (.inl (hin hv key hkey))
      exact ⟨_, hrow, rfl⟩
    · obtain ⟨kind, ha⟩ := hbound.affinity_bound hs (hin hv key hkey)
      exact ⟨_, ha, rfl, currentTimestamp_le now⟩
  | @unclaimed validated rootKeyHash root before _ hv he hbound =>
    have hover := hbound.handover hs
    refine ⟨rootKeyHash, fun key hkey ↦ ?_, fun key hkey ↦ ?_⟩
    · obtain ⟨kind, hrow⟩ := hover.mapped _ (.inl (hin hv key hkey))
      exact ⟨_, hrow, rfl⟩
    · obtain ⟨stored, hstored, hhash⟩ := List.mem_map.mp (hin hv key hkey)
      rw [hbound.store, ← hhash, boundKeys,
        Table.find_upsertAll_of_mem _ _ _ validated.distinct hstored]
      cases before.affinity.find stored.keyHash with
      | none => exact ⟨_, rfl, rfl, Int.le_refl _⟩
      | some row => exact ⟨_, rfl, rfl, currentTimestamp_le now⟩

/-! ### Whether a bind is accepted -/

/-- Keys may be bound under what was captured for them: the captured epoch is current and they name
no other session, or no epoch was captured and they are in one session at most, which no command
has touched. -/
def Bindable (captured : Option SessionRouteEpoch) (keys : List SessionRouteKey) (s : Store) :
    Prop :=
  match captured with
  | some epoch => (∃ root, s.sessionRoots.find epoch.rootKeyHash = some root ∧
      root.routeGeneration = epoch.routeGeneration) ∧ RootedAt epoch.rootKeyHash keys s
  | none => ∃ rootKeyHash, RootedAt rootKeyHash keys s ∧
      ∀ root, s.sessionRoots.find rootKeyHash = some root →
        root.routeGeneration = 0 ∧ root.lastAction = none

/-- The roots of keys that are mapped to one root. -/
private theorem mappedRoots_of_rooted {keyHashes : List String} {rootKeyHash : String} {s : Store}
    (h : ∀ k ∈ keyHashes, ∀ row, s.sessionRouteKeys.find k = some row →
      row.rootKeyHash = rootKeyHash) :
    mappedRoots keyHashes s = [] ∨ mappedRoots keyHashes s = [rootKeyHash] := by
  have hall : ∀ r ∈ mappedRoots keyHashes s, r = rootKeyHash := by
    intro r hr
    obtain ⟨k, row, hk, hrow, rfl⟩ := mem_mappedRoots_iff.mp hr
    exact h k hk row hrow
  have hnodup : (mappedRoots keyHashes s).Nodup := List.nodup_dedup _
  cases hroots : mappedRoots keyHashes s with
  | nil => exact .inl rfl
  | cons first rest =>
    rw [hroots] at hall hnodup
    have hfirst := hall first List.mem_cons_self
    cases rest with
    | nil => exact .inr (by rw [hfirst])
    | cons second rest =>
      have hsecond := hall second (List.mem_cons_of_mem _ List.mem_cons_self)
      rw [hfirst, hsecond] at hnodup
      exact absurd List.mem_cons_self (List.nodup_cons.mp hnodup).1

/-- A bind of keys that are in one session at most, which no command has touched. -/
private theorem accepted_of_untouched {keys : List SessionRouteKey} {validated : RouteKeys}
    (hv : validateSessionRouteKeys keys = .ok validated) (hne : validated.keys ≠ [])
    {accountId : Uuid} (now : Instant) {s : Store} (hs : s.RouteInvariant)
    (haccount : s.accounts.has accountId = true) {rootKeyHash : String}
    (hrooted : ∀ k ∈ validated.hashes, ∀ row, s.sessionRouteKeys.find k = some row →
      row.rootKeyHash = rootKeyHash)
    (huntouched : ∀ root, s.sessionRoots.find rootKeyHash = some root →
      root.routeGeneration = 0 ∧ root.lastAction = none) :
    (bindAffinitiesAtEpoch keys accountId none now s).1 = .ok true := by
  obtain ⟨preferred, hp⟩ := preferredRoot_of_ne hne
  -- the roots of the keys are looked up after the preferred one was inserted
  have hmapped : mappedSessionRoots validated.hashes (s.withRoot preferred now) = [] ∨
      ∃ root, mappedSessionRoots validated.hashes (s.withRoot preferred now) =
        [(rootKeyHash, root)] ∧ root.routeGeneration = 0 ∧ root.lastAction = none := by
    rcases mappedRoots_of_rooted (s := s.withRoot preferred now) hrooted with hroots | hroots
    · exact .inl (by rw [mappedSessionRoots, hroots]; rfl)
    · cases hfound : (s.withRoot preferred now).sessionRoots.find rootKeyHash with
      | none => exact .inl (by rw [mappedSessionRoots, hroots]; simp [hfound])
      | some root =>
        refine .inr ⟨root, by rw [mappedSessionRoots, hroots]; simp [hfound], ?_⟩
        obtain ⟨k, row, hk, hrow, hroot⟩ := mem_mappedRoots_iff.mp
          (hroots ▸ List.mem_singleton_self rootKeyHash)
        have hof := hs.rootOf_withRoot preferred now k
        rw [Store.rootOf_eq_some_iff.mpr ⟨row, hrow, hroot, hfound⟩] at hof
        obtain ⟨-, -, -, hstored⟩ := Store.rootOf_eq_some_iff.mp hof.symm
        exact huntouched root hstored
  have hbody : ∃ t, bindUnclaimed validated preferred accountId now s =
      .ok (.commit true, t) := by
    have hbound : ∀ r, bindKeys r (affinityUnclaimed accountId now) accountId validated.keys
        (dropSpeculativeRoot (!s.sessionRoots.has preferred) preferred r
          (s.withRoot preferred now)) = .ok (boundKeys r (affinityUnclaimed accountId now)
            validated.keys (dropSpeculativeRoot (!s.sessionRoots.has preferred) preferred r
              (s.withRoot preferred now))) := by
      intro r
      refine bindKeys_of_account _ _ _ ?_
      unfold dropSpeculativeRoot
      split <;> exact haccount
    rcases hmapped with hmapped | ⟨root, hmapped, hgeneration, haction⟩
    · simp only [bindUnclaimed, hmapped, hbound, List.length_nil, List.head?_nil]
      exact ⟨_, rfl⟩
    · have hfree : (decide (1 < [(rootKeyHash, root)].length) ||
          Option.any (fun root : String × SessionRoot ↦
            root.2.routeGeneration != 0 || root.2.lastAction.isSome)
            (some (rootKeyHash, root))) = false := by
        simp [hgeneration, haction]
      simp only [bindUnclaimed, hmapped, hbound, List.head?_cons, hfree]
      exact ⟨_, rfl⟩
  obtain ⟨t, ht⟩ := hbody
  simp only [bindAffinitiesAtEpoch, hv, hp, transaction, ht]

/-- With a stored account a bind of valid keys is answered, whether or not it is accepted. -/
private theorem bind_answers {keys : List SessionRouteKey} {validated : RouteKeys}
    (hv : validateSessionRouteKeys keys = .ok validated) {accountId : Uuid}
    (epoch : Option SessionRouteEpoch) (now : Instant) {s : Store}
    (haccount : s.accounts.has accountId = true) :
    ∃ accepted, (bindAffinitiesAtEpoch keys accountId epoch now s).1 = .ok accepted := by
  have hunclaimed : ∀ preferred, ∃ ending t,
      bindUnclaimed validated preferred accountId now s = .ok (ending, t) := by
    intro preferred
    unfold bindUnclaimed
    dsimp only
    split
    · exact ⟨_, _, rfl⟩
    · rw [bindKeys_of_account _ _ _ (by unfold dropSpeculativeRoot; split <;> exact haccount)]
      exact ⟨_, _, rfl⟩
  have hepoch : ∀ captured, ∃ ending t,
      bindAtEpoch validated accountId captured now s = .ok (ending, t) := by
    intro captured
    unfold bindAtEpoch
    split
    · exact ⟨_, _, rfl⟩
    · split
      · exact ⟨_, _, rfl⟩
      · rw [bindKeys_of_account _ _ _ haccount]
        simp only [bind, Except.bind, propagateFallback, boundKeys, haccount, if_true]
        split <;> exact ⟨_, _, rfl⟩
  have htransaction : ∀ (body : Store → Except AppError (Ending Bool × Store)),
      (∃ ending t, body s = .ok (ending, t)) →
        ∃ accepted, (transaction body s).1 = .ok accepted := by
    rintro body ⟨ending, t, hbody⟩
    unfold transaction
    rw [hbody]
    cases ending <;> exact ⟨_, rfl⟩
  unfold bindAffinitiesAtEpoch
  rw [hv]
  dsimp only
  split
  · exact ⟨true, rfl⟩
  · split
    · exact htransaction _ (hepoch _)
    · exact htransaction _ (hunclaimed _)

/-- A bind of valid keys to a stored account is accepted exactly when the keys may be bound, and
changes nothing otherwise. -/
theorem bindAffinitiesAtEpoch_iff {keys : List SessionRouteKey} {validated : RouteKeys}
    (hv : validateSessionRouteKeys keys = .ok validated) (hne : validated.keys ≠ [])
    {accountId : Uuid} (captured : Option SessionRouteEpoch) (now : Instant) {s : Store}
    (hs : s.RouteInvariant) (haccount : s.accounts.has accountId = true) :
    (Bindable captured keys s →
      (bindAffinitiesAtEpoch keys accountId captured now s).1 = .ok true) ∧
    (¬ Bindable captured keys s →
      bindAffinitiesAtEpoch keys accountId captured now s = (.ok false, s)) := by
  have hnamed := mem_hashes_of_validate hv
  have hrooted : ∀ {r}, RootedAt r keys s ↔ ∀ k ∈ validated.hashes, ∀ row,
      s.sessionRouteKeys.find k = some row → row.rootKeyHash = r := by
    intro r
    constructor
    · intro h k hk row hrow
      obtain ⟨key, hkey, rfl⟩ := List.mem_map.mp ((hnamed k).mp hk)
      exact h key hkey row hrow
    · exact fun h key hkey ↦ h _ ((hnamed _).mpr (List.mem_map_of_mem hkey))
  constructor
  · intro h
    cases captured with
    | some epoch =>
      obtain ⟨⟨root, hroot, hgeneration⟩, hat⟩ := h
      exact bindAffinitiesAtEpoch_current hv hne now hroot hgeneration (hrooted.mp hat) haccount
    | none =>
      obtain ⟨r, hat, huntouched⟩ := h
      exact accepted_of_untouched hv hne now hs haccount (hrooted.mp hat) huntouched
  · intro h
    obtain ⟨accepted, hanswer⟩ := bind_answers hv captured now haccount
    cases hbind : bindAffinitiesAtEpoch keys accountId captured now s with
    | mk result t =>
      rw [hbind] at hanswer
      cases bindAffinitiesAtEpoch_outcome hs hbind with
      | refused hfalse =>
        cases accepted with
        | false => rw [← hanswer]
        | true => exact absurd hanswer hfalse
      | empty hv' hnil =>
        rw [hv] at hv'
        cases hv'
        exact absurd hnil hne
      | atEpoch hv' he hbound =>
        rw [hv] at hv'
        cases hv'
        subst he
        exact absurd ⟨⟨_, hbound.current, hbound.generation⟩, hrooted.mpr hbound.free⟩ h
      | @unclaimed _ r root _ _ hv' he hbound =>
        rw [hv] at hv'
        cases hv'
        subst he
        refine absurd ⟨r, hrooted.mpr hbound.free, fun old hold ↦ ?_⟩ h
        rw [hbound.unchanged old hold]
        exact hbound.untouched

section Clients

variable [UuidText] [Sha256] [JsonText]

/-- What a request is given that selects under the epoch of its root: a live affinity row of its
selection gives it the account, unless the account is excluded or not eligible. -/
def GivenTo (accountId : Uuid) (rootKeyHash : String) (root : SessionRoot)
    (keys : List SessionRouteKey) (selection : SessionRouteKey) (s : Store) : Prop :=
  ∀ affinity, s.affinity.find selection.keyHash = some affinity →
    affinity.accountId = accountId ∧
    ∀ (crypto : TokenCrypto) (excluded : List Uuid) (settings : RuntimeSettings)
      (usageRefreshInterval : Nat) (selectedAt now : Clock),
      selectedAt.instant - 1000 * settings.stickySessionTtlSeconds ≤ affinity.lastUsedAt →
      accountId ∉ excluded → accountIsEligible accountId selectedAt.instant s = true →
      accountIsEligible accountId now.instant s = true →
      selectAccountForRequest crypto (selectionAffinity keys
          (some ⟨rootKeyHash, root.routeGeneration, selection.keyHash⟩))
          excluded settings usageRefreshInterval selectedAt now s =
        finishSelection crypto accountId (if excluded.isEmpty then .sticky else .failover)
          now.instant (s.updateRuntime accountId (acquiredRuntime now))

omit [Sha256] [JsonText] in
/-- A request whose selection can only be on the account is given it. -/
theorem SelectsAt.givenTo {accountId : Uuid} {rootKeyHash : String} {root : SessionRoot}
    {keys : List SessionRouteKey} {selection : SessionRouteKey} {s : Store}
    (h : SelectsAt rootKeyHash root keys selection s)
    (hrouted : ∀ affinity, s.affinity.find selection.keyHash = some affinity →
      affinity.accountId = accountId) :
    GivenTo accountId rootKeyHash root keys selection s := by
  intro affinity ha
  have haccount := hrouted affinity ha
  subst haccount
  exact ⟨rfl, fun crypto _ _ interval _ _ hlive hexcluded heligible hstill ↦
    h.returns crypto ha interval hlive hexcluded heligible hstill⟩

/-- What any later request reads back that names some of these keys, and else only keys that are in
no session yet, while nothing maps keys: it selects under the epoch of one root, and is given the
account. -/
def ReturnsTo (accountId : Uuid) (bound : List SessionRouteKey) (t : Store) : Prop :=
  ∃ rootKeyHash, ∀ events u, Run (guarded Store.Step Op.Quiet) t events u →
    ∀ keys, ClientKeys keys →
      (∃ key ∈ keys, key.keyHash ∈ bound.map SessionRouteKey.keyHash) →
      (∀ key ∈ keys, key.keyHash ∈ bound.map SessionRouteKey.keyHash ∨
        u.sessionRouteKeys.find key.keyHash = none) →
    ∃ root selection, SelectsAt rootKeyHash root keys selection u ∧
      GivenTo accountId rootKeyHash root keys selection u

/-- Keys that are bound on one root return to their account. -/
theorem BoundOn.returnsTo (hdigest : HexDigests) {rootKeyHash : String} {accountId : Uuid}
    {since : Instant} {bound : List SessionRouteKey} {t : Store} (ht : t.RoutesSound)
    (h : BoundOn rootKeyHash accountId since bound t) : ReturnsTo accountId bound t := by
  refine ⟨rootKeyHash, fun events u hrun keys hclient ⟨key, hkey, hbound⟩ honly ↦ ?_⟩
  have hquiet := Quietened.of_run hrun
  have hu : u.RoutesSound := hrun.invariant (fun _ _ _ hs hstep ↦ hs.step hstep.2) ht
  have hmapped : ∀ keyHash ∈ bound.map SessionRouteKey.keyHash, ∃ row,
      u.sessionRouteKeys.find keyHash = some row ∧ row.rootKeyHash = rootKeyHash := by
    intro keyHash hin
    obtain ⟨known, hknown, rfl⟩ := List.mem_map.mp hin
    rw [hquiet.routeKeys]
    exact h.mapped known hknown
  have hnamed : ∀ key ∈ keys, ∀ row, u.sessionRouteKeys.find key.keyHash = some row →
      key.keyHash ∈ bound.map SessionRouteKey.keyHash := by
    intro key hkey row hrow
    refine (honly key hkey).resolve_right fun hnone ↦ ?_
    rw [hnone] at hrow
    cases hrow
  have hrooted : RootedAt rootKeyHash keys u := by
    intro key hkey row hrow
    obtain ⟨stored, hstored, hroot⟩ := hmapped _ (hnamed key hkey row hrow)
    rw [hstored] at hrow
    cases hrow
    exact hroot
  obtain ⟨validated, hv, -⟩ := (hclient.acceptable hdigest).validated
  obtain ⟨row, hrow, -⟩ := hmapped _ hbound
  obtain ⟨root, selection, -, hselects⟩ := hrooted.selects hu.invariant hv ⟨key, hkey, row, hrow⟩
  refine ⟨root, selection, hselects, hselects.givenTo fun affinity ha ↦ ?_⟩
  -- the selection is mapped, so that it is one of the bound keys
  obtain ⟨stored, hstored⟩ := hselects.mapped
  obtain ⟨known, hknown, hhash⟩ :=
    List.mem_map.mp (hnamed selection hselects.named stored hstored)
  obtain ⟨routed, hrouted, haccount, -⟩ := h.routed known hknown
  have hsame := hquiet.affinity _ _ ha
  rw [← hhash, hrouted] at hsame
  cases hsame
  exact haccount

/-- The keys that are bound for a request: its own, or with that of a response. -/
inductive NamedKeys : List SessionRouteKey → Prop
  | request {affinities : List SessionRouteKey} (h : ClientKeys affinities) : NamedKeys affinities
  | response {affinities : List SessionRouteKey} (h : ClientKeys affinities)
      (responseId : String) : NamedKeys (responseAffinities affinities responseId)

omit [UuidText] in
/-- The store accepts the keys that are bound for a request as they are. -/
theorem NamedKeys.acceptable (hdigest : HexDigests) {keys : List SessionRouteKey}
    (h : NamedKeys keys) : Acceptable keys := by
  cases h with
  | request h => exact h.acceptable hdigest
  | response h responseId => exact h.acceptable_response hdigest responseId

/-- What becomes of the keys of a client: an epoch is captured for them, and a bind of keys under
whatever was captured for them, then or earlier, is accepted exactly when they may be bound. -/
structure BindsClients (s : Store) : Prop where
  captures : ∀ keys, ClientKeys keys → ∃ captured, resolveSessionRouteEpoch keys s = .ok captured
  accepted : ∀ keys accountId captured now, NamedKeys keys → keys ≠ [] →
    s.accounts.has accountId = true → Bindable captured keys s →
      (bindAffinitiesAtEpoch keys accountId captured now s).1 = .ok true ∧
      (∃ rootKeyHash, BoundOn rootKeyHash accountId (currentTimestamp now) keys
        (bindAffinitiesAtEpoch keys accountId captured now s).2) ∧
      ReturnsTo accountId keys (bindAffinitiesAtEpoch keys accountId captured now s).2
  refused : ∀ keys accountId captured now, NamedKeys keys → keys ≠ [] →
    s.accounts.has accountId = true → ¬ Bindable captured keys s →
      bindAffinitiesAtEpoch keys accountId captured now s = (.ok false, s)

/-- A session returns to its account. Whatever a client sends, in any reachable store an epoch is
captured for its keys, and the bind of a request or of its response is accepted exactly when the
captured epoch is current and the keys name no other session. After an accepted bind, and while
nothing else maps keys, every request that names some of the bound keys, if only the response, and
else only keys that are in no session, captures one root and is given the same account as long as
its affinity row lives and the account is eligible. -/
theorem bound_request_returns (hdigest : HexDigests) {s : Store} (hs : s.Reached) :
    BindsClients s where
  captures keys hclient := by
    obtain ⟨validated, hv, -⟩ := (hclient.acceptable hdigest).validated
    rw [resolveSessionRouteEpoch, hv]
    exact ⟨_, rfl⟩
  accepted keys accountId captured now hkeys hne haccount hbindable := by
    obtain ⟨validated, hv, hsame⟩ := (hkeys.acceptable hdigest).validated
    have haccepted := (bindAffinitiesAtEpoch_iff hv (by rwa [hsame]) captured now
      hs.routesSound.invariant haccount).1 hbindable
    have hstep : Store.Step s (.bindAffinitiesAtEpoch keys accountId captured, ⟨now, ""⟩)
        (bindAffinitiesAtEpoch keys accountId captured now s).2 := rfl
    obtain ⟨rootKeyHash, hon⟩ :=
      boundOn_of_accepted hs.routesSound.invariant (Prod.ext haccepted rfl)
    exact ⟨haccepted, ⟨rootKeyHash, hon⟩, hon.returnsTo hdigest (hs.routesSound.step hstep)⟩
  refused keys accountId captured now hkeys hne haccount hbindable := by
    obtain ⟨validated, hv, hsame⟩ := (hkeys.acceptable hdigest).validated
    exact (bindAffinitiesAtEpoch_iff hv (by rwa [hsame]) captured now
      hs.routesSound.invariant haccount).2 hbindable

end Clients

/-! ### The first request of a session -/

private def firstHeaders : Headers := [("session_id", [97, 98, 99])]

private def firstDigests : List (String × String) :=
  [(affinityText "session_id" "abc",
      "b5db767d787418120b382a78e3d51ffc4bb62d2a12b63d71e7f447b7f41b0c58"),
    (affinityText "response_id" "resp_1",
      "3749b0df320225d2f4c5a3e248c6590bd793401c297f5fd5da9fe66a9d621fcb")]

@[reducible] private def bodiless : JsonText where
  fromStr _ := none

/-- The first request of a session is bound to its account, and the session returns to it. -/
theorem bound_request_returns_first :
    let _ := hyphenatedText
    let _ := listedDigests firstDigests
    let _ := bodiless
    let bound := responseAffinities (requestAffinities firstHeaders []) "resp_1"
    (bindAffinitiesAtEpoch bound 1 none 1000 twoAccounts).1 = .ok true ∧
      ReturnsTo 1 bound (bindAffinitiesAtEpoch bound 1 none 1000 twoAccounts).2 := by
  let _ := hyphenatedText
  let _ := listedDigests firstDigests
  let _ := bodiless
  have hclient : ClientKeys (requestAffinities firstHeaders []) := .request firstHeaders []
  have hdigest : HexDigests := hexDigests_listedDigests (by decide +kernel)
  obtain ⟨haccepted, -, hreturns⟩ := (bound_request_returns hdigest twoAccounts_reached).accepted
    _ 1 none 1000 (.response hclient "resp_1") (by decide +kernel) (by decide +kernel)
      ⟨"", fun key _ row hrow ↦ (nomatch hrow), fun root hroot ↦ (nomatch hroot)⟩
  exact ⟨haccepted, hreturns⟩

end CodexLb
