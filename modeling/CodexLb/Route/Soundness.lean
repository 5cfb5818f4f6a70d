import CodexLb.Route.Reachable

/-!
# The route store stays sound

The representation invariant of the route tables in every reachable store,
and the coherence of rerouted sessions, with what requests see of both.
-/

namespace CodexLb

open Relational Transition

/-- A request of one session: at least one of its keys is mapped, every mapped one to the same
root, and the key that it selects by has an affinity row within the sticky time to live. -/
structure SessionRequest (keys : List SessionRouteKey) (selection : SessionRouteKey)
    (settings : RuntimeSettings) (selectedAt : Instant) (rootKeyHash : String) (s : Store) :
    Prop where
  mapped : ∃ key ∈ keys, ∃ row, s.sessionRouteKeys.find key.keyHash = some row
  rooted : ∀ key ∈ keys, ∀ row, s.sessionRouteKeys.find key.keyHash = some row →
    row.rootKeyHash = rootKeyHash
  captured : ∃ captured, resolveSessionRouteEpoch keys s = .ok captured ∧
    selectionAffinity keys captured = some selection
  live : ∃ affinity, s.affinity.find selection.keyHash = some affinity ∧
    selectedAt - 1000 * settings.stickySessionTtlSeconds ≤ affinity.lastUsedAt

/-- The key that a session's request selects by is mapped to the session's root. -/
theorem SessionRequest.selection_mapped {keys : List SessionRouteKey} {selection : SessionRouteKey}
    {settings : RuntimeSettings} {selectedAt : Instant} {rootKeyHash : String} {s : Store}
    (h : SessionRequest keys selection settings selectedAt rootKeyHash s)
    (hs : s.RouteInvariant) :
    ∃ row, s.sessionRouteKeys.find selection.keyHash = some row ∧
      row.rootKeyHash = rootKeyHash := by
  obtain ⟨captured, hcaptured, hselection⟩ := h.captured
  cases captured with
  | none =>
    -- a mapped key would have been captured
    exfalso
    obtain ⟨key, hkey, row, hrow⟩ := h.mapped
    obtain ⟨root, hroot⟩ := hs.keyHasRoot _ row hrow
    cases hv : validateSessionRouteKeys keys with
    | error e => rw [resolveSessionRouteEpoch, hv] at hcaptured; cases hcaptured
    | ok validated =>
      have hempty := (resolveSessionRouteEpoch_none hv).mp hcaptured
      have hin : key.keyHash ∈ validated.hashes :=
        (mem_hashes_of_validate hv _).mpr (List.mem_map.mpr ⟨key, hkey, rfl⟩)
      have hm : ⟨key.keyHash, row.rootKeyHash, root⟩ ∈ routedKeys validated.hashes s :=
        mem_routedKeys_iff.mpr ⟨hin, ⟨row, hrow, rfl⟩, hroot⟩
      rw [hempty] at hm
      cases hm
  | some epoch =>
    obtain ⟨validated, hv, routed, hrouted, rfl⟩ := resolveSessionRouteEpoch_some hcaptured
    obtain ⟨hin, ⟨row, hrow, -⟩, -⟩ := mem_routedKeys_iff.mp hrouted
    obtain ⟨key, hkey, he⟩ := List.mem_map.mp ((mem_hashes_of_validate hv _).mp hin)
    have hfound : (keys.find? fun key ↦ key.keyHash = routed.keyHash).isSome = true := by
      rw [List.find?_isSome]
      exact ⟨key, hkey, by simpa using he⟩
    obtain ⟨found, hf⟩ := Option.isSome_iff_exists.mp hfound
    have hsel : selection = found := by
      rw [selectionAffinity, Option.bind_some, hf, Option.some_or] at hselection
      exact (Option.some.inj hselection).symm
    have heq : found.keyHash = routed.keyHash := by simpa using List.find?_some hf
    subst hsel
    rw [← heq] at hrow
    exact ⟨row, hrow, h.rooted selection (List.mem_of_find?_eq_some hf) row hrow⟩

variable [UuidText] {s : Store}

/-- The representation invariant of the route store: it holds in every reachable store, over any
operation keys stay mapped at generations that do not decrease, and an accepted bind under an
epoch skips no key. -/
theorem route_store_invariant (hs : s.Reached) :
    s.RouteInvariant ∧
    (∀ (op : Op) (now : Clock) k r root, s.rootOf k = some (r, root) →
      ∃ r' root', (op.exec now s).rootOf k = some (r', root') ∧
        root.routeGeneration ≤ root'.routeGeneration) ∧
    ∀ keys accountId epoch now t,
      bindAffinitiesAtEpoch keys accountId (some epoch) now s = (.ok true, t) →
      ∀ key ∈ keys, ∃ affinity, t.affinity.find key.keyHash = some affinity ∧
        affinity.accountId = accountId ∧ affinity.routeGeneration = epoch.routeGeneration := by
  have hinv := hs.routesSound.invariant
  refine ⟨hinv, ?_, ?_⟩
  · intro op now k r root hroot
    have hgen : s.generation k = some root.routeGeneration := by
      rw [Store.generation, Store.route, hroot]
      rfl
    obtain ⟨g, hg, hle⟩ := (op.routeChange now hinv).forward hinv k _ hgen
    obtain ⟨⟨r', g'⟩, hroute, rfl⟩ := Option.map_eq_some_iff.mp hg
    obtain ⟨root', hroot', rfl⟩ := Store.route_eq_some_iff.mp hroute
    exact ⟨r', root', hroot', hle⟩
  · intro keys accountId epoch now t hbind key hkey
    have hin : ∀ validated, validateSessionRouteKeys keys = .ok validated →
        key.keyHash ∈ validated.hashes := fun validated hv ↦
      (mem_hashes_of_validate hv _).mpr (List.mem_map.mpr ⟨key, hkey, rfl⟩)
    cases bindAffinitiesAtEpoch_outcome hinv hbind with
    | refused h => exact absurd rfl h
    | empty hv h =>
      have hmem := hin _ hv
      rw [RouteKeys.hashes, h] at hmem
      cases hmem
    | atEpoch hv he h =>
      cases he
      obtain ⟨kind, ha⟩ := h.affinity_bound hinv (hin _ hv)
      exact ⟨_, ha, rfl, rfl⟩
    | unclaimed hv he h => cases he

omit [UuidText] in
/-- The bound session satisfies the invariant, and a further bind under its epoch skips no key. -/
theorem route_store_invariant_bound : boundSession.RouteInvariant ∧
    ∃ affinity, (bindAffinitiesAtEpoch [sessionKey] 2 (some ⟨hexHash 1, 0, hexHash 1⟩) 3000
      boundSession).2.affinity.find sessionKey.keyHash = some affinity ∧
        affinity.accountId = 2 ∧ affinity.routeGeneration = 0 := by
  let _ := hyphenatedText
  obtain ⟨hinv, -, hbind⟩ := route_store_invariant boundSession_reached
  have hok : (bindAffinitiesAtEpoch [sessionKey] 2 (some ⟨hexHash 1, 0, hexHash 1⟩) 3000
      boundSession).1 = .ok true := by decide +kernel
  exact ⟨hinv, hbind [sessionKey] 2 ⟨hexHash 1, 0, hexHash 1⟩ 3000 _ (Prod.ext hok rfl) sessionKey
    (List.mem_singleton_self _)⟩

/-- A rerouted session never splits across accounts: all its affinity rows are on the effective
account at the root's generation, so its requests are pinned to that account. -/
theorem rerouted_session_never_splits (hs : s.Reached) {r : String} {root : SessionRoot} {e : Uuid}
    (hroot : s.sessionRoots.find r = some root) (hreroute : root.lastAction = some .reroute)
    (heffective : root.effectiveAccountId = some e) :
    (∀ k row affinity, s.sessionRouteKeys.find k = some row → row.rootKeyHash = r →
      s.affinity.find k = some affinity →
      affinity.accountId = e ∧ affinity.routeGeneration = root.routeGeneration) ∧
    ∀ (crypto : TokenCrypto) (keys : List SessionRouteKey) (selection : SessionRouteKey)
      (excluded : List Uuid) (settings : RuntimeSettings) (usageRefreshInterval : Nat)
      (selectedAt now : Clock),
      SessionRequest keys selection settings selectedAt.instant r s → e ∉ excluded →
      accountIsEligible e selectedAt.instant s = true →
      accountIsEligible e now.instant s = true →
      let selected := selectAccountForRequest crypto (some selection) excluded settings
        usageRefreshInterval selectedAt now s
      selected = finishSelection crypto e (if excluded.isEmpty then .sticky else .failover)
          now.instant (s.updateRuntime e (acquiredRuntime now)) ∧
        ∀ account, selected.1 = .ok account → account.accountId = e := by
  have hcoherent : ∀ k row affinity, s.sessionRouteKeys.find k = some row →
      row.rootKeyHash = r → s.affinity.find k = some affinity →
      affinity.accountId = e ∧ affinity.routeGeneration = root.routeGeneration := by
    rintro k row affinity hrow rfl ha
    exact hs.routesSound.coherent k row root e affinity hrow hroot hreroute heffective ha
  refine ⟨hcoherent, ?_⟩
  intro crypto keys selection excluded settings usageRefreshInterval selectedAt now hrequest hx
    heligible hstill selected
  obtain ⟨row, hrow, hr⟩ := hrequest.selection_mapped hs.routesSound.invariant
  obtain ⟨affinity, ha, hlive⟩ := hrequest.live
  have hacc := (hcoherent _ row affinity hrow hr ha).1
  have hpinned : pinnedAccount selection.keyHash settings selectedAt.instant s = some e := by
    rw [pinnedAccount, ha, Option.bind_some, hacc, if_pos ⟨hlive, heligible⟩]
  have hselected := selectAccountForRequest_pinned crypto usageRefreshInterval hpinned hx hstill
  refine ⟨hselected, fun account haccount ↦ ?_⟩
  change (selectAccountForRequest crypto (some selection) excluded settings usageRefreshInterval
    selectedAt now s).1 = .ok account at haccount
  rw [hselected] at haccount
  exact finishSelection_accountId haccount

omit [UuidText] in
private theorem reroutedSession_facts :
    let s := reroutedSession boundSession []
    s.sessionRoots.find (hexHash 1) = some (commandedRoot .reroute reroutePlan 2000) ∧
      s.sessionRouteKeys.find (hexHash 1) = some ⟨hexHash 1, "session_id"⟩ ∧
      s.affinity.find (hexHash 1) = some ⟨"session_id", 2, 1, 2000⟩ ∧
      resolveSessionRouteEpoch [sessionKey] s = .ok (some ⟨hexHash 1, 1, hexHash 1⟩) ∧
      accountIsEligible 2 2500 s = true := by
  decide +kernel

omit [UuidText] in
/-- A request of the session that was sent to the second account is pinned to it. -/
theorem rerouted_session_never_splits_selected :
    let _ := hyphenatedText
    let crypto : TokenCrypto := ⟨Except.ok⟩
    selectAccountForRequest crypto (some sessionKey) [] .default 300 ⟨2500, ""⟩ ⟨2500, ""⟩
        (reroutedSession boundSession []) =
      finishSelection crypto 2 .sticky 2500 ((reroutedSession boundSession []).updateRuntime 2
        (acquiredRuntime ⟨2500, ""⟩)) := by
  let _ := hyphenatedText
  have hrun : Run Store.Step boundSession [(.applySessionRouteAction .default 300
      (rerouteSession "two" false) [] 2000, ⟨2000, ""⟩)] (reroutedSession boundSession []) :=
    .single rfl
  obtain ⟨hroot, hrow, haffinity, hcaptured, heligible⟩ := reroutedSession_facts
  have hrequest : SessionRequest [sessionKey] sessionKey .default 2500 (hexHash 1)
      (reroutedSession boundSession []) :=
    { mapped := ⟨sessionKey, List.mem_singleton_self _, _, hrow⟩
      rooted := by
        intro key hkey row hfind
        rw [List.mem_singleton.mp hkey] at hfind
        cases hrow.symm.trans hfind
        rfl
      captured := ⟨_, hcaptured, by decide +kernel⟩
      live := ⟨_, haffinity, by decide⟩ }
  exact ((rerouted_session_never_splits (boundSession_reached.run hrun) hroot rfl rfl).2 ⟨Except.ok⟩
    [sessionKey] sessionKey [] .default 300 ⟨2500, ""⟩ ⟨2500, ""⟩ hrequest List.not_mem_nil
    heligible heligible).1

end CodexLb
