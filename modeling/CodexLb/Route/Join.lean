import CodexLb.Route.Bind

/-!
# A bind hands its keys over

Both paths of a bind map their keys to one root whose row does not fall
behind, and write affinity rows at its generation.
-/

namespace CodexLb

open Relational

/-! ### The keys of a bind -/

section Bound

variable {validated : RouteKeys} {accountId : Uuid} {now : Instant} {s t : Store}

private theorem exists_key {k : String} (h : k ∈ validated.hashes) :
    ∃ key ∈ validated.keys, key.keyHash = k := by
  obtain ⟨key, hk, rfl⟩ := List.mem_map.mp h
  exact ⟨key, hk, rfl⟩

/-- The keys of a bind and the keys that are already mapped to its root. -/
def joinedKeys (validated : RouteKeys) (rootKeyHash : String) (s : Store) : Set String :=
  {k | k ∈ validated.hashes ∨
    ∃ row, s.sessionRouteKeys.find k = some row ∧ row.rootKeyHash = rootKeyHash}

private theorem root_of_joined {rootKeyHash : String}
    (hfree : ∀ k ∈ validated.hashes, ∀ row, s.sessionRouteKeys.find k = some row →
      row.rootKeyHash = rootKeyHash) {k : String} (hk : k ∈ joinedKeys validated rootKeyHash s)
    {row : SessionRouteKeyRow} (hrow : s.sessionRouteKeys.find k = some row) :
    row.rootKeyHash = rootKeyHash := by
  rcases hk with hk | ⟨other, ho, he⟩
  · exact hfree k hk row hrow
  · rw [hrow] at ho
    cases ho
    exact he

private theorem routeKeys_bound {rootKeyHash : String} (write : AffinityWrite)
    (hfree : ∀ k ∈ validated.hashes, ∀ row, s.sessionRouteKeys.find k = some row →
      row.rootKeyHash = rootKeyHash) {key : SessionRouteKey} (hk : key ∈ validated.keys) :
    (boundKeys rootKeyHash write validated.keys s).sessionRouteKeys.find key.keyHash =
      some ⟨rootKeyHash, key.kind⟩ := by
  rw [boundKeys, Table.find_upsertAll_of_mem _ _ _ validated.distinct hk]
  cases hrow : s.sessionRouteKeys.find key.keyHash with
  | none => rfl
  | some row =>
    have he := hfree key.keyHash (List.mem_map.mpr ⟨key, hk, rfl⟩) row hrow
    simp [he]

private theorem affinity_written {rootKeyHash : String} (write : AffinityWrite)
    {key : SessionRouteKey} (hk : key ∈ validated.keys) :
    (boundKeys rootKeyHash write validated.keys s).affinity.find key.keyHash =
      some (((s.affinity.find key.keyHash).map fun row ↦
        (write.rewrite key row).getD row).getD (write.insert key)) := by
  rw [boundKeys, Table.find_upsertAll_of_mem _ _ _ validated.distinct hk]

private theorem routeKeys_unbound (rootKeyHash : String) (write : AffinityWrite) {k : String}
    (hk : k ∉ validated.hashes) :
    (boundKeys rootKeyHash write validated.keys s).sessionRouteKeys.find k =
      s.sessionRouteKeys.find k :=
  Table.find_upsertAll_of_notMem _ _ _ _ _ hk

private theorem affinity_kept (rootKeyHash : String) (write : AffinityWrite) {k : String}
    (hk : k ∉ validated.hashes) :
    (boundKeys rootKeyHash write validated.keys s).affinity.find k = s.affinity.find k :=
  Table.find_upsertAll_of_notMem _ _ _ _ _ hk

/-- Keys that are free or mapped to one root are handed over to it, when its row does not fall
behind. -/
private theorem handover_of_join {rootKeyHash : String} {root : SessionRoot}
    (write : AffinityWrite)
    (hfree : ∀ k ∈ validated.hashes, ∀ row, s.sessionRouteKeys.find k = some row →
      row.rootKeyHash = rootKeyHash)
    (hrooted : rootKeyHash ∈ joinedKeys validated rootKeyHash s)
    (hkeys : t.sessionRouteKeys =
      (boundKeys rootKeyHash write validated.keys s).sessionRouteKeys)
    (hinstalled : t.sessionRoots.find rootKeyHash = some root)
    (hothers : ∀ r, r ≠ rootKeyHash → t.sessionRoots.find r = s.sessionRoots.find r)
    (hnewer : ∀ old, s.sessionRoots.find rootKeyHash = some old →
      old.routeGeneration ≤ root.routeGeneration ∧
        (old.lastAction.isSome = true → root.lastAction.isSome = true))
    (hwritten : ∀ k ∈ joinedKeys validated rootKeyHash s, t.affinity.find k = s.affinity.find k ∨
      ∃ affinity, t.affinity.find k = some affinity ∧
        affinity.routeGeneration = root.routeGeneration ∧
        s.accounts.has affinity.accountId = true)
    (hkept : ∀ k, k ∉ joinedKeys validated rootKeyHash s →
      t.affinity.find k = s.affinity.find k)
    (hcoherent : s.Coherent → root.lastAction = some .reroute → ∀ e,
      root.effectiveAccountId = some e → ∀ k ∈ joinedKeys validated rootKeyHash s,
      ∀ affinity, t.affinity.find k = some affinity →
      affinity.accountId = e ∧ affinity.routeGeneration = root.routeGeneration)
    (haccounts : t.accounts = s.accounts)
    (hnamed : s.AccountsStored → ∀ id, root.requestedAccountId = some id ∨
      root.effectiveAccountId = some id → s.accounts.has id = true)
    (hrebalance : s.CommandsReplayable → root.lastAction = some .rebalance →
      root.requestedAccountId = none) :
    Handover (joinedKeys validated rootKeyHash s) rootKeyHash root s t := by
  have hroot : ∀ k ∈ joinedKeys validated rootKeyHash s, ∀ row,
      s.sessionRouteKeys.find k = some row → row.rootKeyHash = rootKeyHash :=
    fun k hk row hrow ↦ root_of_joined hfree hk hrow
  have hmapped : ∀ k ∈ joinedKeys validated rootKeyHash s,
      (∃ key ∈ validated.keys, key.keyHash = k ∧
        t.sessionRouteKeys.find k = some ⟨rootKeyHash, key.kind⟩) ∨
      ∃ kind, s.sessionRouteKeys.find k = some ⟨rootKeyHash, kind⟩ ∧
        t.sessionRouteKeys.find k = some ⟨rootKeyHash, kind⟩ := by
    intro k hk
    by_cases hin : k ∈ validated.hashes
    · obtain ⟨key, hkey, rfl⟩ := exists_key hin
      exact .inl ⟨key, hkey, rfl, by rw [hkeys, routeKeys_bound write hfree hkey]⟩
    · obtain ⟨⟨r, kind⟩, hrow, he⟩ := hk.resolve_left hin
      cases he
      exact .inr ⟨kind, hrow, by rw [hkeys, routeKeys_unbound _ write hin, hrow]⟩
  exact {
    rooted := hrooted
    closed := by
      intro k row hrow hk
      have hne : row.rootKeyHash ≠ rootKeyHash := fun he ↦ hk (.inr ⟨row, hrow, he⟩)
      refine ⟨hne, fun j hj other ho ↦ ?_⟩
      rw [hroot j hj other ho]
      exact hne.symm
    mapped := by
      intro k hk
      rcases hmapped k hk with ⟨key, -, -, h⟩ | ⟨kind, -, h⟩
      · exact ⟨key.kind, h⟩
      · exact ⟨kind, h⟩
    unmapped := by
      intro k hk
      rw [hkeys, routeKeys_unbound _ write fun hin ↦ hk (.inl hin)]
    installed := hinstalled
    merged := by
      rintro r hr ⟨k, hk, row, hrow, rfl⟩
      exact absurd (hroot k hk row hrow) hr
    others := fun r hr _ ↦ hothers r hr
    newer := by
      intro k hk row old hrow hold
      rw [hroot k hk row hrow] at hold
      exact hnewer old hold
    written := hwritten
    kept := hkept
    coherent := hcoherent
    accounts := haccounts
    named := hnamed
    wellFormed := by
      intro hwf k hk row hrow
      rcases hmapped k hk with ⟨key, hkey, rfl, h⟩ | ⟨kind, hold, h⟩
      · rw [h] at hrow
        cases hrow
        exact validated.wellFormed key hkey
      · rw [h] at hrow
        cases hrow
        exact hwf.wellFormed k _ hold
    rebalance := hrebalance }

end Bound

/-! ### Under a captured epoch -/

namespace BoundAtEpoch

variable {validated : RouteKeys} {accountId : Uuid} {epoch : SessionRouteEpoch}
  {root : SessionRoot} {now : Instant} {s t : Store}

/-- Every bound key's row is not newer than the epoch. -/
theorem affinity_le (h : BoundAtEpoch validated accountId epoch root now s t)
    (hs : s.RouteInvariant) {k : String} (hk : k ∈ joinedKeys validated epoch.rootKeyHash s)
    {affinity : Affinity} (ha : s.affinity.find k = some affinity) :
    affinity.routeGeneration ≤ epoch.routeGeneration := by
  cases hrow : s.sessionRouteKeys.find k with
  | none => rw [hs.unmappedAffinity k affinity hrow ha]; exact Nat.zero_le _
  | some row =>
    have he : row.rootKeyHash = epoch.rootKeyHash := root_of_joined h.free hk hrow
    rw [← h.generation]
    exact hs.mappedAffinity k row root affinity hrow (by rw [he, h.current]) ha

/-- The account of a committed bind is stored. -/
theorem account_stored (h : BoundAtEpoch validated accountId epoch root now s t)
    (hs : s.RouteInvariant) : s.accounts.has accountId = true := by
  apply h.account
  intro key hkey affinity ha
  exact h.affinity_le hs (.inl (List.mem_map.mpr ⟨key, hkey, rfl⟩)) ha

/-- The row of the root after the bind. -/
def rootAfter (accountId : Uuid) (now : Instant) (root : SessionRoot) : SessionRoot :=
  if replacesEffective root accountId then fallbackRoot accountId now root else root

private theorem rootAfter_routeGeneration (root : SessionRoot) :
    (rootAfter accountId now root).routeGeneration = root.routeGeneration := by
  rw [rootAfter]
  split <;> rfl

private theorem rootAfter_lastAction (root : SessionRoot) :
    (rootAfter accountId now root).lastAction = root.lastAction := by
  rw [rootAfter]
  split <;> rfl

private theorem rootAfter_requestedAccountId (root : SessionRoot) :
    (rootAfter accountId now root).requestedAccountId = root.requestedAccountId := by
  rw [rootAfter]
  split <;> rfl

private theorem bound_key (h : BoundAtEpoch validated accountId epoch root now s t)
    (hs : s.RouteInvariant) {k : String} (hk : k ∈ validated.hashes) :
    ∃ kind, (boundKeys epoch.rootKeyHash (affinityAtEpoch accountId epoch.routeGeneration now)
      validated.keys s).affinity.find k =
        some ⟨kind, accountId, epoch.routeGeneration, now⟩ := by
  obtain ⟨key, hkey, rfl⟩ := exists_key hk
  refine ⟨key.kind, ?_⟩
  rw [affinity_written _ hkey]
  cases ha : s.affinity.find key.keyHash with
  | none => rfl
  | some row =>
    rw [Option.map_some, affinityAtEpoch_rewrite accountId now key (h.affinity_le hs (.inl hk) ha)]
    rfl

private theorem joined_iff (h : BoundAtEpoch validated accountId epoch root now s t) (k : String) :
    ((boundKeys epoch.rootKeyHash (affinityAtEpoch accountId epoch.routeGeneration now)
      validated.keys s).sessionRouteKeys.find k).any
        (fun row ↦ row.rootKeyHash = epoch.rootKeyHash) = true ↔
      k ∈ joinedKeys validated epoch.rootKeyHash s := by
  by_cases hin : k ∈ validated.hashes
  · obtain ⟨key, hkey, rfl⟩ := exists_key hin
    rw [routeKeys_bound _ h.free hkey]
    simp [joinedKeys, hin]
  · rw [routeKeys_unbound _ _ hin, Option.any_eq_true]
    simp [joinedKeys, hin]

/-- A row of the session that the bind moved to its account. -/
def movedAffinity (accountId : Uuid) (routeGeneration : Nat) (now : Instant) (row : Affinity) :
    Affinity :=
  { row with
    accountId := accountId
    routeGeneration := routeGeneration
    lastUsedAt := now }

private theorem affinity_joined (h : BoundAtEpoch validated accountId epoch root now s t)
    {k : String} (hk : k ∈ joinedKeys validated epoch.rootKeyHash s) :
    t.affinity.find k = ((boundKeys epoch.rootKeyHash
      (affinityAtEpoch accountId epoch.routeGeneration now) validated.keys s).affinity.find k).map
        fun row ↦
          if replacesEffective root accountId then
            movedAffinity accountId epoch.routeGeneration now row
          else row := by
  rw [h.store, storeAtEpoch]
  split
  · next hrep =>
    rw [propagatedFallback, Table.find_update]
    simp only [(h.joined_iff k).mpr hk, if_true]
    rfl
  · simp

/-- A key that does not join keeps its row. -/
theorem affinity_unjoined (h : BoundAtEpoch validated accountId epoch root now s t) {k : String}
    (hk : k ∉ joinedKeys validated epoch.rootKeyHash s) :
    t.affinity.find k = s.affinity.find k := by
  have hno := mt (h.joined_iff k).mp hk
  have hkept := affinity_kept (s := s) epoch.rootKeyHash
    (affinityAtEpoch accountId epoch.routeGeneration now) fun hin ↦ hk (.inl hin)
  rw [h.store, storeAtEpoch]
  split
  · rw [propagatedFallback, Table.find_update, hkept]
    simp only [Bool.not_eq_true] at hno
    simp [hno]
  · exact hkept

/-- A bound key's row is on the account at the generation of the epoch. -/
theorem affinity_bound (h : BoundAtEpoch validated accountId epoch root now s t)
    (hs : s.RouteInvariant) {k : String} (hk : k ∈ validated.hashes) :
    ∃ kind, t.affinity.find k = some ⟨kind, accountId, epoch.routeGeneration, now⟩ := by
  obtain ⟨kind, hb⟩ := h.bound_key hs hk
  refine ⟨kind, ?_⟩
  rw [h.affinity_joined (.inl hk), hb, Option.map_some]
  split <;> rfl

/-- A key of the root that is not bound keeps its row, or moves with the session. -/
theorem affinity_rest (h : BoundAtEpoch validated accountId epoch root now s t) {k : String}
    (hk : k ∈ joinedKeys validated epoch.rootKeyHash s) (hin : k ∉ validated.hashes) :
    t.affinity.find k = (s.affinity.find k).map fun row ↦
      if replacesEffective root accountId then
        movedAffinity accountId epoch.routeGeneration now row
      else row := by
  rw [h.affinity_joined hk, affinity_kept _ _ hin]

/-- Only the captured root is rewritten. -/
theorem roots_after (h : BoundAtEpoch validated accountId epoch root now s t) (r : String) :
    t.sessionRoots.find r =
      if r = epoch.rootKeyHash then some (rootAfter accountId now root)
      else s.sessionRoots.find r := by
  have hgen := h.generation
  rw [h.store, storeAtEpoch, rootAfter]
  split
  · rw [propagatedFallback, Table.find_update]
    change (s.sessionRoots.find r).map _ = _
    split
    · next hr => subst hr; rw [h.current]; simp [hgen]
    · next hr => cases s.sessionRoots.find r <;> simp [hr]
  · change s.sessionRoots.find r = _
    split
    · next hr => rw [hr, h.current]
    · rfl

/-- A row of the session is on the account at the generation of the epoch, or it is kept. -/
private theorem affinity_after (h : BoundAtEpoch validated accountId epoch root now s t)
    (hs : s.RouteInvariant) {k : String} (hk : k ∈ joinedKeys validated epoch.rootKeyHash s) :
    (∃ affinity, t.affinity.find k = some affinity ∧ affinity.accountId = accountId ∧
      affinity.routeGeneration = epoch.routeGeneration) ∨
    t.affinity.find k = s.affinity.find k ∧ k ∉ validated.hashes ∧
      (replacesEffective root accountId = true → s.affinity.find k = none) := by
  by_cases hin : k ∈ validated.hashes
  · obtain ⟨kind, ha⟩ := h.affinity_bound hs hin
    exact .inl ⟨_, ha, rfl, rfl⟩
  · rw [h.affinity_rest hk hin]
    cases ha : s.affinity.find k with
    | none => exact .inr ⟨rfl, hin, fun _ ↦ rfl⟩
    | some row =>
      rw [Option.map_some]
      by_cases hrep : replacesEffective root accountId = true
      · rw [if_pos hrep]
        exact .inl ⟨_, rfl, rfl, rfl⟩
      · rw [if_neg hrep]
        exact .inr ⟨rfl, hin, fun h ↦ absurd h hrep⟩

/-- A bind under the epoch of a rerouted root leaves its session on one account. -/
private theorem coherent_after (h : BoundAtEpoch validated accountId epoch root now s t)
    (hs : s.RouteInvariant) (hcoh : s.Coherent) (hl : root.lastAction = some .reroute)
    {e : Uuid} (he : (rootAfter accountId now root).effectiveAccountId = some e) {k : String}
    (hk : k ∈ joinedKeys validated epoch.rootKeyHash s) {affinity : Affinity}
    (ha : t.affinity.find k = some affinity) :
    affinity.accountId = e ∧ affinity.routeGeneration = epoch.routeGeneration := by
  -- the account is the effective one already, or the whole session moves to it
  have hea : accountId = e := by
    rw [rootAfter] at he
    split at he
    · exact Option.some.inj he
    · next hrep =>
      have heff : root.effectiveAccountId = some accountId := by
        simpa [replacesEffective, hl] using hrep
      exact Option.some.inj (heff.symm.trans he)
  rcases h.affinity_after hs hk with ⟨row, hrow, hon, hat⟩ | ⟨hsame, hin, hmoved⟩
  · rw [hrow] at ha
    cases ha
    exact ⟨hon.trans hea, hat⟩
  · rw [hsame] at ha
    have hrep : ¬replacesEffective root accountId = true := by
      intro hrep
      rw [hmoved hrep] at ha
      cases ha
    rw [rootAfter, if_neg hrep] at he
    obtain ⟨stored, hstored, her⟩ := hk.resolve_left hin
    rw [← h.generation]
    exact hcoh k stored root e affinity hstored (by rw [her, h.current]) hl he ha

/-- A committed bind under an epoch hands its keys over to the captured root. -/
theorem handover (h : BoundAtEpoch validated accountId epoch root now s t)
    (hs : s.RouteInvariant) :
    Handover (joinedKeys validated epoch.rootKeyHash s) epoch.rootKeyHash
      (rootAfter accountId now root) s t := by
  have hgen : (rootAfter accountId now root).routeGeneration = epoch.routeGeneration := by
    rw [rootAfter_routeGeneration, h.generation]
  have hacc := h.account_stored hs
  refine handover_of_join (affinityAtEpoch accountId epoch.routeGeneration now) h.free ?_ ?_ ?_ ?_
    ?_ ?_ ?_ ?_ ?_ ?_ ?_
  · obtain ⟨row, hrow, he⟩ := hs.rootOwnsKey _ _ h.current
    exact .inr ⟨row, hrow, he⟩
  · rw [h.store, storeAtEpoch]
    split <;> rfl
  · rw [h.roots_after, if_pos rfl]
  · intro r hr
    rw [h.roots_after, if_neg hr]
  · intro old hold
    rw [h.current] at hold
    cases hold
    rw [rootAfter_routeGeneration, rootAfter_lastAction]
    exact ⟨Nat.le_refl _, id⟩
  · intro k hk
    rcases h.affinity_after hs hk with ⟨row, hrow, hon, hat⟩ | ⟨hsame, -⟩
    · refine .inr ⟨row, hrow, hat.trans hgen.symm, ?_⟩
      rw [hon]
      exact hacc
    · exact .inl hsame
  · intro k hk
    exact h.affinity_unjoined hk
  · intro hcoh hl e he k hk affinity ha
    rw [rootAfter_lastAction] at hl
    rw [hgen]
    exact h.coherent_after hs hcoh hl he hk ha
  · rw [h.store, storeAtEpoch]
    split <;> rfl
  · intro hst id hid
    rw [rootAfter_requestedAccountId] at hid
    rcases hid with hid | hid
    · exact hst.requested _ _ id h.current hid
    · rw [rootAfter] at hid
      split at hid
      · cases hid
        exact hacc
      · exact hst.effective _ _ id h.current hid
  · intro hwf hl
    rw [rootAfter_lastAction] at hl
    rw [rootAfter_requestedAccountId]
    exact hwf.rebalance _ _ h.current hl

end BoundAtEpoch

/-! ### Without an epoch -/

namespace BoundUnclaimed

variable {validated : RouteKeys} {accountId : Uuid} {rootKeyHash : String} {root : SessionRoot}
  {now : Instant} {s before t : Store}

/-- The rows of an untouched root are at generation zero. -/
private theorem affinity_zero
    (h : BoundUnclaimed validated accountId rootKeyHash root now s before t)
    (hs : s.RouteInvariant) {k : String} (hk : k ∈ joinedKeys validated rootKeyHash s)
    {affinity : Affinity} (ha : s.affinity.find k = some affinity) :
    affinity.routeGeneration = 0 := by
  cases hrow : s.sessionRouteKeys.find k with
  | none => exact hs.unmappedAffinity k affinity hrow ha
  | some row =>
    obtain ⟨old, hold⟩ := hs.keyHasRoot k row hrow
    have hle := hs.mappedAffinity k row old affinity hrow hold ha
    rw [root_of_joined h.free hk hrow] at hold
    rw [h.unchanged old hold, h.untouched.1] at hle
    exact Nat.le_zero.mp hle

/-- A committed bind without an epoch hands its keys over to an untouched root. -/
theorem handover (h : BoundUnclaimed validated accountId rootKeyHash root now s before t)
    (hs : s.RouteInvariant) :
    Handover (joinedKeys validated rootKeyHash s) rootKeyHash root s t := by
  have hbefore := h.speculative
  have hkeys : before.sessionRouteKeys = s.sessionRouteKeys := by rw [hbefore]
  have haffinity : before.affinity = s.affinity := by rw [hbefore]
  have hwritten : ∀ key ∈ validated.keys, t.affinity.find key.keyHash =
      some (((s.affinity.find key.keyHash).map fun row ↦
        ((affinityUnclaimed accountId now).rewrite key row).getD row).getD
          ((affinityUnclaimed accountId now).insert key)) := by
    intro key hkey
    rw [h.store, affinity_written _ hkey, haffinity]
  have hrest : ∀ k, k ∉ validated.hashes → t.affinity.find k = s.affinity.find k := by
    intro k hk
    rw [h.store, affinity_kept _ _ hk, haffinity]
  refine handover_of_join (affinityUnclaimed accountId now) h.free ?_ ?_ ?_ ?_ ?_ ?_ ?_ ?_ ?_ ?_ ?_
  · rcases h.rooted with ⟨hin, -⟩ | hstored
    · exact .inl hin
    · obtain ⟨row, hrow, he⟩ := hs.rootOwnsKey _ _ hstored
      exact .inr ⟨row, hrow, he⟩
  · rw [h.store, boundKeys, boundKeys, hkeys]
  · rw [h.store]
    exact h.installed
  · intro r hr
    rw [h.store]
    exact h.others r hr
  · intro old hold
    rw [h.unchanged old hold]
    exact ⟨Nat.le_refl _, id⟩
  · intro k hk
    by_cases hin : k ∈ validated.hashes
    · obtain ⟨key, hkey, rfl⟩ := exists_key hin
      refine .inr ?_
      rw [hwritten key hkey, h.untouched.1]
      cases ha : s.affinity.find key.keyHash with
      | none => exact ⟨_, rfl, rfl, h.account⟩
      | some row =>
        have hzero : row.routeGeneration = 0 := h.affinity_zero hs hk ha
        exact ⟨_, rfl, hzero, h.account⟩
    · exact .inl (hrest k hin)
  · intro k hk
    exact hrest k fun hin ↦ hk (.inl hin)
  · intro _ hl
    rw [h.untouched.2] at hl
    cases hl
  · rw [h.store, boundKeys, hbefore]
  · intro hst id hid
    rcases h.rooted with ⟨-, hnew⟩ | hstored
    · rw [hnew] at hid
      rcases hid with hid | hid <;> cases hid
    · rcases hid with hid | hid
      · exact hst.requested _ _ id hstored hid
      · exact hst.effective _ _ id hstored hid
  · intro _ hl
    rw [h.untouched.2] at hl
    cases hl

end BoundUnclaimed

end CodexLb
