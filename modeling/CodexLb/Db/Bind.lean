import CodexLb.Db.RouteKeys

/-!
# Binding affinities

`bind_affinities_at_epoch` and `bind_affinity` (`src/db.rs:1542–1554` and
`1673–1884`). The epoch path checks the captured root, the path without an
epoch founds a root or joins one that no command has touched.
-/

namespace CodexLb

open Relational

/-- The seconds of `CURRENT_TIMESTAMP`. -/
def currentTimestamp (now : Instant) : Instant := now / 1000 * 1000

/-- The upsert on `session_route_keys` of a bind, `src/db.rs:1721–1734`: a key that is mapped
to another root is left there. -/
def claimRouteKey (rootKeyHash : String) (s : Store) (key : SessionRouteKey) : Store :=
  { s with
    sessionRouteKeys := s.sessionRouteKeys.upsert key.keyHash ⟨rootKeyHash, key.kind⟩ fun row ↦
      if row.rootKeyHash = rootKeyHash then { row with kind := key.kind } else row }

/-- An upsert on `affinity`: the row to insert, and the rewrite of a stored row unless the
`WHERE` of its conflict clause refuses it. -/
structure AffinityWrite where
  insert : SessionRouteKey → Affinity
  rewrite : SessionRouteKey → Affinity → Option Affinity

/-- Run an affinity upsert for a key. A written row must name a stored account. -/
def writeAffinity (write : AffinityWrite) (accountId : Uuid) (s : Store) (key : SessionRouteKey) :
    Except AppError Store :=
  if ((s.affinity.find key.keyHash).all fun row ↦ (write.rewrite key row).isSome) &&
      !s.accounts.has accountId then
    .error foreignKeyError
  else
    .ok { s with
      affinity := s.affinity.upsert key.keyHash (write.insert key) fun row ↦
        (write.rewrite key row).getD row }

/-- The loop over the keys of a bind, `src/db.rs:1720–1757` and `1849–1879`. -/
def bindKeys (rootKeyHash : String) (write : AffinityWrite) (accountId : Uuid)
    (keys : List SessionRouteKey) (s : Store) : Except AppError Store :=
  keys.foldlM (fun s key ↦ writeAffinity write accountId (claimRouteKey rootKeyHash s key) key) s

/-- The affinity upsert of the epoch path, `src/db.rs:1735–1756`. -/
def affinityAtEpoch (accountId : Uuid) (routeGeneration : Nat) (now : Instant) :
    AffinityWrite where
  insert key := ⟨key.kind, accountId, routeGeneration, now⟩
  rewrite key row :=
    if row.routeGeneration ≤ routeGeneration then some ⟨key.kind, accountId, routeGeneration, now⟩
    else none

/-- The epoch upsert rewrites a row that is not newer than the epoch. -/
theorem affinityAtEpoch_rewrite (accountId : Uuid) {routeGeneration : Nat} (now : Instant)
    (key : SessionRouteKey) {row : Affinity} (h : row.routeGeneration ≤ routeGeneration) :
    (affinityAtEpoch accountId routeGeneration now).rewrite key row =
      some ⟨key.kind, accountId, routeGeneration, now⟩ := if_pos h

/-- The affinity upsert without an epoch, `src/db.rs:1865–1878`. -/
def affinityUnclaimed (accountId : Uuid) (now : Instant) : AffinityWrite where
  insert key := ⟨key.kind, accountId, 0, currentTimestamp now⟩
  rewrite key row :=
    some { row with kind := key.kind, accountId := accountId, lastUsedAt := now }

/-- A locked root after a bind on another account than its effective one,
`src/db.rs:1775–1791`. -/
def fallbackRoot (accountId : Uuid) (now : Instant) (root : SessionRoot) : SessionRoot :=
  { root with
    effectiveAccountId := some accountId
    actionStatus :=
      if root.requestedAccountId ≠ some accountId then some .fallback else some .applied
    updatedAt := now }

/-- The store after the fallback propagation of a bind, `src/db.rs:1758–1792`. -/
def propagatedFallback (epoch : SessionRouteEpoch) (accountId : Uuid) (now : Instant)
    (s : Store) : Store :=
  { s with
    affinity := s.affinity.update
      (fun k _ ↦ (s.sessionRouteKeys.find k).any fun row ↦ row.rootKeyHash = epoch.rootKeyHash)
      fun row ↦ { row with
        accountId := accountId
        routeGeneration := epoch.routeGeneration
        lastUsedAt := now }
    sessionRoots := s.sessionRoots.update
      (fun k root ↦ k = epoch.rootKeyHash && root.routeGeneration = epoch.routeGeneration)
      (fallbackRoot accountId now) }

/-- The fallback propagation of a bind; the root that it rewrites must name a stored account. -/
def propagateFallback (epoch : SessionRouteEpoch) (accountId : Uuid) (now : Instant)
    (s : Store) : Except AppError Store :=
  if s.accounts.has accountId then .ok (propagatedFallback epoch accountId now s)
  else .error foreignKeyError

/-- Whether a bind on an account replaces the effective account of a rerouted session,
`src/db.rs:1758`. -/
def replacesEffective (root : SessionRoot) (accountId : Uuid) : Bool :=
  root.lastAction = some .reroute && root.effectiveAccountId ≠ some accountId

/-- The epoch path of `bind_affinities_at_epoch`, `src/db.rs:1683–1793`. -/
def bindAtEpoch (keys : RouteKeys) (accountId : Uuid) (epoch : SessionRouteEpoch) (now : Instant)
    (s : Store) : Except AppError (Ending Bool × Store) :=
  match (s.sessionRoots.find epoch.rootKeyHash).filter
      fun root ↦ root.routeGeneration = epoch.routeGeneration with
  | none => .ok (.rollback false, s)
  | some root =>
    if (s.sessionRouteKeys.select fun k row ↦
        row.rootKeyHash ≠ epoch.rootKeyHash && keys.hashes.contains k).length ≠ 0 then
      .ok (.rollback false, s)
    else do
      let s ← bindKeys epoch.rootKeyHash (affinityAtEpoch accountId epoch.routeGeneration now)
        accountId keys.keys s
      if replacesEffective root accountId then
        let s ← propagateFallback epoch accountId now s
        return (.commit true, s)
      else return (.commit true, s)

/-- The root that keys without an epoch would found, `src/db.rs:1795–1800`. -/
def preferredRoot (keys : List SessionRouteKey) : Option String :=
  ((keys.find? fun key ↦ key.kind = "session_id").or keys.head?).map SessionRouteKey.keyHash

/-- The distinct roots of some keys, `src/db.rs:1812–1829`. -/
def mappedSessionRoots (keyHashes : List String) (s : Store) : List (String × SessionRoot) :=
  (mappedRoots keyHashes s).filterMap fun root ↦
    (s.sessionRoots.find root).map fun row ↦ (root, row)

/-- The root that keys without an epoch join, or found; `src/db.rs:1836–1840`. -/
def unclaimedRoot (preferred : String) (mapped : List (String × SessionRoot)) : String :=
  (mapped.head?.map Prod.fst).getD preferred

/-- Undo a root that was inserted and is not the one joined, `src/db.rs:1841–1848`. -/
def dropSpeculativeRoot (inserted : Bool) (preferred rootKeyHash : String) (s : Store) : Store :=
  if inserted && rootKeyHash != preferred then
    { s with
      sessionRoots := s.sessionRoots.delete fun k root ↦
        k = preferred && root.lastAction.isNone &&
          (s.sessionRouteKeys.select fun _ row ↦ row.rootKeyHash = preferred).isEmpty }
  else s

/-- The path of `bind_affinities_at_epoch` without an epoch, `src/db.rs:1794–1880`. -/
def bindUnclaimed (keys : RouteKeys) (preferred : String) (accountId : Uuid) (now : Instant)
    (s : Store) : Except AppError (Ending Bool × Store) :=
  let claimed := s.withRoot preferred now
  let mapped := mappedSessionRoots keys.hashes claimed
  if 1 < mapped.length || mapped.head?.any fun root ↦
      root.2.routeGeneration != 0 || root.2.lastAction.isSome then
    .ok (.rollback false, s)
  else do
    let rootKeyHash := unclaimedRoot preferred mapped
    let s ← bindKeys rootKeyHash (affinityUnclaimed accountId now) accountId keys.keys
      (dropSpeculativeRoot (!s.sessionRoots.has preferred) preferred rootKeyHash claimed)
    return (.commit true, s)

/-- `bind_affinities_at_epoch`, `src/db.rs:1673–1884`. -/
def bindAffinitiesAtEpoch (keys : List SessionRouteKey) (accountId : Uuid)
    (epoch : Option SessionRouteEpoch) (now : Instant) (s : Store) : Except AppError Bool × Store :=
  match validateSessionRouteKeys keys with
  | .error e => (.error e, s)
  | .ok keys =>
    match preferredRoot keys.keys with
    | none => (.ok true, s)
    | some preferred =>
      match epoch with
      | some epoch => transaction (bindAtEpoch keys accountId epoch now) s
      | none => transaction (bindUnclaimed keys preferred accountId now) s

/-! ### The loop over the keys -/

/-- The store after the loop of a bind. -/
def boundKeys (rootKeyHash : String) (write : AffinityWrite) (keys : List SessionRouteKey)
    (s : Store) : Store :=
  { s with
    sessionRouteKeys := s.sessionRouteKeys.upsertAll keys SessionRouteKey.keyHash
      (fun key ↦ ⟨rootKeyHash, key.kind⟩) fun key row ↦
        if row.rootKeyHash = rootKeyHash then { row with kind := key.kind } else row
    affinity := s.affinity.upsertAll keys SessionRouteKey.keyHash write.insert
      fun key row ↦ (write.rewrite key row).getD row }

private theorem writeAffinity_ok {write : AffinityWrite} {accountId : Uuid} {s t : Store}
    {key : SessionRouteKey} (h : writeAffinity write accountId s key = .ok t) :
    t = { s with
      affinity := s.affinity.upsert key.keyHash (write.insert key) fun row ↦
        (write.rewrite key row).getD row } ∧
    ((∀ row, s.affinity.find key.keyHash = some row → (write.rewrite key row).isSome) →
      s.accounts.has accountId = true) := by
  unfold writeAffinity at h
  split at h
  · cases h
  · next hw =>
    cases h
    refine ⟨rfl, fun hall ↦ ?_⟩
    cases hf : s.affinity.find key.keyHash with
    | none => simpa [hf] using hw
    | some row => simpa [hf, hall row hf] using hw

/-- The loop of a bind writes every key, and each written row names a stored account. -/
theorem bindKeys_ok {rootKeyHash : String} {write : AffinityWrite} {accountId : Uuid}
    {keys : List SessionRouteKey} {s t : Store}
    (h : bindKeys rootKeyHash write accountId keys s = .ok t)
    (hd : (keys.map SessionRouteKey.keyHash).Nodup) :
    t = boundKeys rootKeyHash write keys s ∧
    ∀ key ∈ keys, (∀ row, s.affinity.find key.keyHash = some row →
      (write.rewrite key row).isSome) → s.accounts.has accountId = true := by
  induction keys generalizing s with
  | nil =>
    cases h
    exact ⟨rfl, fun _ hk ↦ absurd hk List.not_mem_nil⟩
  | cons key keys ih =>
    rw [List.map_cons, List.nodup_cons] at hd
    rw [bindKeys, List.foldlM_cons] at h
    obtain ⟨u, hu, h⟩ := bind_eq_ok.mp h
    obtain ⟨rfl, hacc⟩ := writeAffinity_ok hu
    obtain ⟨ht, hrest⟩ := ih h hd.2
    refine ⟨ht, fun other ho hrow ↦ ?_⟩
    rcases List.mem_cons.mp ho with rfl | ho
    · exact hacc hrow
    · refine hrest other ho ?_
      have hne : other.keyHash ≠ key.keyHash := by
        intro he
        exact hd.1 (List.mem_map.mpr ⟨other, ho, he⟩)
      simpa [claimRouteKey, hne] using hrow

/-- The loop of a bind to a stored account never fails. -/
theorem bindKeys_of_account (rootKeyHash : String) (write : AffinityWrite) {accountId : Uuid}
    (keys : List SessionRouteKey) {s : Store} (ha : s.accounts.has accountId = true) :
    bindKeys rootKeyHash write accountId keys s = .ok (boundKeys rootKeyHash write keys s) := by
  induction keys generalizing s with
  | nil => rfl
  | cons key keys ih =>
    have hw : writeAffinity write accountId (claimRouteKey rootKeyHash s key) key =
        .ok { claimRouteKey rootKeyHash s key with
          affinity := s.affinity.upsert key.keyHash (write.insert key) fun row ↦
            (write.rewrite key row).getD row } := by
      unfold writeAffinity
      rw [if_neg (by simp [claimRouteKey, ha])]
      rfl
    rw [bindKeys, List.foldlM_cons, hw]
    exact ih ha

/-! ### What a bind leaves alone -/

/-- The account of the affinity rows, the roots and the keys are all that differs. -/
def WritesRoutes (s t : Store) : Prop :=
  t = { s with
    affinity := t.affinity
    sessionRoots := t.sessionRoots
    sessionRouteKeys := t.sessionRouteKeys }

private theorem WritesRoutes.trans {s t u : Store} (h : WritesRoutes s t)
    (k : WritesRoutes t u) : WritesRoutes s u := by
  unfold WritesRoutes at *
  rw [k, h]

private theorem bindKeys_writes {rootKeyHash : String} {write : AffinityWrite} {accountId : Uuid}
    {keys : RouteKeys} {s t : Store}
    (h : bindKeys rootKeyHash write accountId keys.keys s = .ok t) : WritesRoutes s t := by
  rw [(bindKeys_ok h keys.distinct).1]
  rfl

private theorem bindAtEpoch_writes {keys : RouteKeys} {accountId : Uuid}
    {epoch : SessionRouteEpoch} {now : Instant} {s t : Store} {bound : Bool}
    (h : bindAtEpoch keys accountId epoch now s = .ok (.commit bound, t)) : WritesRoutes s t := by
  unfold bindAtEpoch at h
  split at h
  · cases h
  · split at h
    · cases h
    · obtain ⟨u, hu, h⟩ := bind_eq_ok.mp h
      have hkeys := bindKeys_writes hu
      split at h
      · obtain ⟨v, hv, h⟩ := bind_eq_ok.mp h
        cases h
        unfold propagateFallback at hv
        split at hv
        · cases hv
          exact hkeys.trans rfl
        · cases hv
      · cases h
        exact hkeys

private theorem bindUnclaimed_writes {keys : RouteKeys} {preferred : String} {accountId : Uuid}
    {now : Instant} {s t : Store} {bound : Bool}
    (h : bindUnclaimed keys preferred accountId now s = .ok (.commit bound, t)) :
    WritesRoutes s t := by
  unfold bindUnclaimed at h
  dsimp only at h
  split at h
  · cases h
  · obtain ⟨u, hu, h⟩ := bind_eq_ok.mp h
    cases h
    refine WritesRoutes.trans ?_ (bindKeys_writes hu)
    unfold dropSpeculativeRoot
    split <;> rfl

/-- A bind writes the route tables and the affinity rows, and nothing else. -/
theorem bindAffinitiesAtEpoch_writes (keys : List SessionRouteKey) (accountId : Uuid)
    (epoch : Option SessionRouteEpoch) (now : Instant) (s : Store) :
    WritesRoutes s (bindAffinitiesAtEpoch keys accountId epoch now s).2 := by
  unfold bindAffinitiesAtEpoch
  split
  · rfl
  · split
    · rfl
    · split
      · exact transaction_keeps (WritesRoutes s) rfl fun _ _ h ↦ bindAtEpoch_writes h
      · exact transaction_keeps (WritesRoutes s) rfl fun _ _ h ↦ bindUnclaimed_writes h

/-! ### When a bind is refused or accepted -/

/-- Keys have a preferred root. -/
theorem preferredRoot_of_ne {keys : List SessionRouteKey} (h : keys ≠ []) :
    ∃ preferred, preferredRoot keys = some preferred := by
  cases keys with
  | nil => exact absurd rfl h
  | cons key rest =>
    rw [preferredRoot, List.head?_cons, Option.or_some, Option.map_some]
    exact ⟨_, rfl⟩

/-- A bind whose captured root is gone or has moved on is refused and changes nothing. -/
theorem bindAffinitiesAtEpoch_stale {keys : List SessionRouteKey} {validated : RouteKeys}
    (hv : validateSessionRouteKeys keys = .ok validated) (hne : validated.keys ≠ [])
    (accountId : Uuid) {epoch : SessionRouteEpoch} (now : Instant) {s : Store}
    (hstale : ∀ root, s.sessionRoots.find epoch.rootKeyHash = some root →
      root.routeGeneration ≠ epoch.routeGeneration) :
    bindAffinitiesAtEpoch keys accountId (some epoch) now s = (.ok false, s) := by
  obtain ⟨preferred, hp⟩ := preferredRoot_of_ne hne
  have hnone : (s.sessionRoots.find epoch.rootKeyHash).filter
      (fun root ↦ decide (root.routeGeneration = epoch.routeGeneration)) = none := by
    rw [Option.filter_eq_none_iff]
    intro root hr
    simpa using hstale root hr
  simp only [bindAffinitiesAtEpoch, hv, hp, transaction, bindAtEpoch, hnone]

/-- A bind to a stored account under the current epoch of its keys is accepted. -/
theorem bindAffinitiesAtEpoch_current {keys : List SessionRouteKey} {validated : RouteKeys}
    (hv : validateSessionRouteKeys keys = .ok validated) (hne : validated.keys ≠ [])
    {accountId : Uuid} {epoch : SessionRouteEpoch} {root : SessionRoot} (now : Instant)
    {s : Store} (hroot : s.sessionRoots.find epoch.rootKeyHash = some root)
    (hgeneration : root.routeGeneration = epoch.routeGeneration)
    (hfree : ∀ k ∈ validated.hashes, ∀ row, s.sessionRouteKeys.find k = some row →
      row.rootKeyHash = epoch.rootKeyHash)
    (haccount : s.accounts.has accountId = true) :
    (bindAffinitiesAtEpoch keys accountId (some epoch) now s).1 = .ok true := by
  obtain ⟨preferred, hp⟩ := preferredRoot_of_ne hne
  have hcurrent : (s.sessionRoots.find epoch.rootKeyHash).filter
      (fun root ↦ decide (root.routeGeneration = epoch.routeGeneration)) = some root := by
    rw [hroot, Option.filter_some, if_pos (decide_eq_true hgeneration)]
  have hnone : (s.sessionRouteKeys.select fun k row ↦
      decide (row.rootKeyHash ≠ epoch.rootKeyHash) && validated.hashes.contains k).length = 0 := by
    rw [List.length_eq_zero_iff, List.eq_nil_iff_forall_not_mem]
    rintro ⟨k, row⟩ hm
    obtain ⟨hrow, hother⟩ := Table.mem_select_iff.mp hm
    rw [Bool.and_eq_true, decide_eq_true_eq, List.contains_eq_mem, decide_eq_true_eq] at hother
    exact hother.1 (hfree k hother.2 row hrow)
  have hbound := bindKeys_of_account epoch.rootKeyHash
    (affinityAtEpoch accountId epoch.routeGeneration now) validated.keys haccount
  have hpropagated : propagateFallback epoch accountId now (boundKeys epoch.rootKeyHash
      (affinityAtEpoch accountId epoch.routeGeneration now) validated.keys s) =
      .ok (propagatedFallback epoch accountId now (boundKeys epoch.rootKeyHash
        (affinityAtEpoch accountId epoch.routeGeneration now) validated.keys s)) :=
    if_pos haccount
  have hbody : ∃ t, bindAtEpoch validated accountId epoch now s = .ok (.commit true, t) := by
    simp only [bindAtEpoch, hcurrent, hnone, ne_eq, not_true_eq_false, if_false, hbound]
    cases hrep : replacesEffective root accountId with
    | false => exact ⟨_, rfl⟩
    | true =>
      simp only [if_true, bind, Except.bind, hpropagated]
      exact ⟨_, rfl⟩
  obtain ⟨t, ht⟩ := hbody
  simp only [bindAffinitiesAtEpoch, hv, hp, transaction, ht]

end CodexLb
