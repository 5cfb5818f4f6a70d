import CodexLb.Db.RouteAction

/-!
# What a write can do to the routes

Every writer of the route tables does one of two things. It forgets rows and
references, or it hands a set of keys over to one root. The invariants of the
route store are proved once for each of the two.
-/

namespace CodexLb

open Relational

namespace Store

/-- The representation invariant of the route tables. -/
structure RouteInvariant (s : Store) : Prop where
  rootOwnsKey : ∀ r root, s.sessionRoots.find r = some root →
    ∃ row, s.sessionRouteKeys.find r = some row ∧ row.rootKeyHash = r
  keyHasRoot : ∀ k row, s.sessionRouteKeys.find k = some row →
    ∃ root, s.sessionRoots.find row.rootKeyHash = some root
  mappedAffinity : ∀ k row root affinity, s.sessionRouteKeys.find k = some row →
    s.sessionRoots.find row.rootKeyHash = some root → s.affinity.find k = some affinity →
    affinity.routeGeneration ≤ root.routeGeneration
  unmappedAffinity : ∀ k affinity, s.sessionRouteKeys.find k = none →
    s.affinity.find k = some affinity → affinity.routeGeneration = 0

/-- Every account that the route tables name is stored: the foreign keys on `accounts`. -/
structure AccountsStored (s : Store) : Prop where
  affinity : ∀ k affinity, s.affinity.find k = some affinity →
    s.accounts.has affinity.accountId = true
  requested : ∀ r root id, s.sessionRoots.find r = some root →
    root.requestedAccountId = some id → s.accounts.has id = true
  effective : ∀ r root id, s.sessionRoots.find r = some root →
    root.effectiveAccountId = some id → s.accounts.has id = true

/-- Every mapped key passes the checks on caller-supplied keys, and a rebalance names no
account. -/
structure CommandsReplayable (s : Store) : Prop where
  wellFormed : ∀ k row, s.sessionRouteKeys.find k = some row →
    validAffinityHash k = true ∧ validRouteKind row.kind = true
  rebalance : ∀ r root, s.sessionRoots.find r = some root → root.lastAction = some .rebalance →
    root.requestedAccountId = none

/-- Every affinity row of a rerouted session is on its effective account at its generation. -/
def Coherent (s : Store) : Prop :=
  ∀ k row root e affinity, s.sessionRouteKeys.find k = some row →
    s.sessionRoots.find row.rootKeyHash = some root → root.lastAction = some .reroute →
    root.effectiveAccountId = some e → s.affinity.find k = some affinity →
    affinity.accountId = e ∧ affinity.routeGeneration = root.routeGeneration

end Store

/-- A root whose references to some accounts are set to null. -/
def SessionRoot.keepAccounts (keep : Uuid → Bool) (root : SessionRoot) : SessionRoot :=
  { root with
    requestedAccountId := root.requestedAccountId.filter keep
    effectiveAccountId := root.effectiveAccountId.filter keep }

/-- Some affinity rows and the references to some accounts go, nothing else of the routes
changes. -/
structure Forgetting (keep : Uuid → Bool) (s t : Store) : Prop where
  routeKeys : ∀ k, t.sessionRouteKeys.find k = s.sessionRouteKeys.find k
  roots : ∀ r, t.sessionRoots.find r = (s.sessionRoots.find r).map (.keepAccounts keep)
  affinity : ∀ k affinity, t.affinity.find k = some affinity →
    s.affinity.find k = some affinity ∧ keep affinity.accountId = true
  accounts : ∀ id, s.accounts.has id = true → keep id = true → t.accounts.has id = true

/-- A set of keys is mapped to one root, whose row becomes `root`; the other roots that they
were mapped to go. -/
structure Handover (keys : Set String) (rootKeyHash : String) (root : SessionRoot)
    (s t : Store) : Prop where
  rooted : rootKeyHash ∈ keys
  closed : ∀ k row, s.sessionRouteKeys.find k = some row → k ∉ keys →
    row.rootKeyHash ≠ rootKeyHash ∧ ∀ j ∈ keys, ∀ other, s.sessionRouteKeys.find j = some other →
      other.rootKeyHash ≠ row.rootKeyHash
  mapped : ∀ k ∈ keys, ∃ kind, t.sessionRouteKeys.find k = some ⟨rootKeyHash, kind⟩
  unmapped : ∀ k, k ∉ keys → t.sessionRouteKeys.find k = s.sessionRouteKeys.find k
  installed : t.sessionRoots.find rootKeyHash = some root
  merged : ∀ r, r ≠ rootKeyHash →
    (∃ k ∈ keys, ∃ row, s.sessionRouteKeys.find k = some row ∧ row.rootKeyHash = r) →
    t.sessionRoots.find r = none
  others : ∀ r, r ≠ rootKeyHash →
    (∀ k ∈ keys, ∀ row, s.sessionRouteKeys.find k = some row → row.rootKeyHash ≠ r) →
    t.sessionRoots.find r = s.sessionRoots.find r
  newer : ∀ k ∈ keys, ∀ row old, s.sessionRouteKeys.find k = some row →
    s.sessionRoots.find row.rootKeyHash = some old →
    old.routeGeneration ≤ root.routeGeneration ∧
      (old.lastAction.isSome = true → root.lastAction.isSome = true)
  written : ∀ k ∈ keys, t.affinity.find k = s.affinity.find k ∨
    ∃ affinity, t.affinity.find k = some affinity ∧
      affinity.routeGeneration = root.routeGeneration ∧
      s.accounts.has affinity.accountId = true
  kept : ∀ k, k ∉ keys → t.affinity.find k = s.affinity.find k
  coherent : s.Coherent → root.lastAction = some .reroute → ∀ e,
    root.effectiveAccountId = some e → ∀ k ∈ keys, ∀ affinity, t.affinity.find k = some affinity →
    affinity.accountId = e ∧ affinity.routeGeneration = root.routeGeneration
  accounts : t.accounts = s.accounts
  named : s.AccountsStored → ∀ id, root.requestedAccountId = some id ∨
    root.effectiveAccountId = some id → s.accounts.has id = true
  wellFormed : s.CommandsReplayable → ∀ k ∈ keys, ∀ row, t.sessionRouteKeys.find k = some row →
    validAffinityHash k = true ∧ validRouteKind row.kind = true
  rebalance : s.CommandsReplayable → root.lastAction = some .rebalance →
    root.requestedAccountId = none

/-- What one committed write does to the routes. -/
inductive RouteChange (s t : Store) : Prop
  | forget (keep : Uuid → Bool) (h : Forgetting keep s t)
  | handover (keys : Set String) (rootKeyHash : String) (root : SessionRoot)
      (h : Handover keys rootKeyHash root s t)

/-! ### Forgetting -/

namespace Forgetting

variable {keep : Uuid → Bool} {s t : Store}

/-- Changing nothing of the routes while no account goes. -/
theorem of_eq (hk : t.sessionRouteKeys = s.sessionRouteKeys) (hr : t.sessionRoots = s.sessionRoots)
    (ha : t.affinity = s.affinity) (hacc : ∀ id, s.accounts.has id = true →
      t.accounts.has id = true) : Forgetting (fun _ ↦ true) s t where
  routeKeys k := by rw [hk]
  roots r := by
    rw [hr]
    cases s.sessionRoots.find r with
    | none => rfl
    | some root =>
      obtain ⟨generation, action, requested, effective, status, updatedAt⟩ := root
      cases requested <;> cases effective <;> rfl
  affinity k affinity h := by
    rw [ha] at h
    exact ⟨h, rfl⟩
  accounts id h _ := hacc id h

private theorem root_of (h : Forgetting keep s t) {r : String} {root : SessionRoot}
    (hr : t.sessionRoots.find r = some root) :
    ∃ old, s.sessionRoots.find r = some old ∧ root = old.keepAccounts keep := by
  rw [h.roots, Option.map_eq_some_iff] at hr
  obtain ⟨old, ho, rfl⟩ := hr
  exact ⟨old, ho, rfl⟩

/-- Forgetting keeps the representation invariant. -/
theorem routeInvariant (h : Forgetting keep s t) (hs : s.RouteInvariant) : t.RouteInvariant where
  rootOwnsKey r root hr := by
    obtain ⟨old, ho, -⟩ := h.root_of hr
    rw [h.routeKeys]
    exact hs.rootOwnsKey r old ho
  keyHasRoot k row hk := by
    rw [h.routeKeys] at hk
    obtain ⟨root, hr⟩ := hs.keyHasRoot k row hk
    exact ⟨root.keepAccounts keep, by rw [h.roots, hr]; rfl⟩
  mappedAffinity k row root affinity hk hr ha := by
    rw [h.routeKeys] at hk
    obtain ⟨old, ho, rfl⟩ := h.root_of hr
    exact hs.mappedAffinity k row old affinity hk ho (h.affinity k affinity ha).1
  unmappedAffinity k affinity hk ha := by
    rw [h.routeKeys] at hk
    exact hs.unmappedAffinity k affinity hk (h.affinity k affinity ha).1

/-- Forgetting an account removes every reference to it. -/
theorem accountsStored (h : Forgetting keep s t) (hs : s.AccountsStored) : t.AccountsStored where
  affinity k affinity ha := by
    obtain ⟨ha, hkeep⟩ := h.affinity k affinity ha
    exact h.accounts _ (hs.affinity k affinity ha) hkeep
  requested r root id hr hid := by
    obtain ⟨old, ho, rfl⟩ := h.root_of hr
    obtain ⟨hid, hkeep⟩ := Option.filter_eq_some_iff.mp hid
    exact h.accounts id (hs.requested r old id ho hid) hkeep
  effective r root id hr hid := by
    obtain ⟨old, ho, rfl⟩ := h.root_of hr
    obtain ⟨hid, hkeep⟩ := Option.filter_eq_some_iff.mp hid
    exact h.accounts id (hs.effective r old id ho hid) hkeep

/-- Forgetting keeps every stored command replayable. -/
theorem commandsReplayable (h : Forgetting keep s t) (hs : s.CommandsReplayable) :
    t.CommandsReplayable where
  wellFormed k row hk := by
    rw [h.routeKeys] at hk
    exact hs.wellFormed k row hk
  rebalance r root hr hl := by
    obtain ⟨old, ho, rfl⟩ := h.root_of hr
    have hn : old.requestedAccountId = none := hs.rebalance r old ho hl
    simp [SessionRoot.keepAccounts, hn]

/-- Forgetting keeps rerouted sessions together. -/
theorem coherent (h : Forgetting keep s t) (hs : s.Coherent) : t.Coherent := by
  intro k row root e affinity hk hr hl he ha
  rw [h.routeKeys] at hk
  obtain ⟨old, ho, rfl⟩ := h.root_of hr
  have he' := (Option.filter_eq_some_iff.mp he).1
  exact hs k row old e affinity hk ho hl he' (h.affinity k affinity ha).1

end Forgetting

/-! ### Handing over -/

namespace Handover

variable {keys : Set String} {rootKeyHash : String} {root : SessionRoot} {s t : Store}

/-- A root other than the new one that is still there was there before, and none of the keys
was mapped to it. -/
private theorem other_root (h : Handover keys rootKeyHash root s t) {r : String}
    {old : SessionRoot} (hne : r ≠ rootKeyHash) (hr : t.sessionRoots.find r = some old) :
    s.sessionRoots.find r = some old ∧
      ∀ k ∈ keys, ∀ row, s.sessionRouteKeys.find k = some row → row.rootKeyHash ≠ r := by
  have hfree : ∀ k ∈ keys, ∀ row, s.sessionRouteKeys.find k = some row →
      row.rootKeyHash ≠ r := by
    intro k hk row hrow he
    rw [h.merged r hne ⟨k, hk, row, hrow, he⟩] at hr
    cases hr
  exact ⟨h.others r hne hfree ▸ hr, hfree⟩

/-- A key outside the set keeps its root. -/
private theorem root_outside (h : Handover keys rootKeyHash root s t) {k : String}
    {row : SessionRouteKeyRow} (hk : k ∉ keys) (hrow : s.sessionRouteKeys.find k = some row) :
    row.rootKeyHash ≠ rootKeyHash ∧
      t.sessionRoots.find row.rootKeyHash = s.sessionRoots.find row.rootKeyHash := by
  obtain ⟨hne, hfree⟩ := h.closed k row hrow hk
  exact ⟨hne, h.others _ hne fun j hj other ho ↦ hfree j hj other ho⟩

/-- No affinity row of the keys was newer than their new root. -/
private theorem affinity_le (h : Handover keys rootKeyHash root s t) (hs : s.RouteInvariant)
    {k : String} (hk : k ∈ keys) {affinity : Affinity} (ha : s.affinity.find k = some affinity) :
    affinity.routeGeneration ≤ root.routeGeneration := by
  cases hrow : s.sessionRouteKeys.find k with
  | none => rw [hs.unmappedAffinity k affinity hrow ha]; exact Nat.zero_le _
  | some row =>
    obtain ⟨old, ho⟩ := hs.keyHasRoot k row hrow
    exact Nat.le_trans (hs.mappedAffinity k row old affinity hrow ho ha)
      (h.newer k hk row old hrow ho).1

/-- Handing keys over keeps the representation invariant. -/
theorem routeInvariant (h : Handover keys rootKeyHash root s t) (hs : s.RouteInvariant) :
    t.RouteInvariant where
  rootOwnsKey r old hr := by
    by_cases he : r = rootKeyHash
    · subst he
      obtain ⟨kind, hk⟩ := h.mapped r h.rooted
      exact ⟨_, hk, rfl⟩
    · obtain ⟨hr, hfree⟩ := h.other_root he hr
      obtain ⟨row, hrow, hself⟩ := hs.rootOwnsKey r old hr
      have hout : r ∉ keys := fun hm ↦ hfree r hm row hrow hself
      exact ⟨row, by rw [h.unmapped r hout, hrow], hself⟩
  keyHasRoot k row hk := by
    by_cases hm : k ∈ keys
    · obtain ⟨kind, hkk⟩ := h.mapped k hm
      rw [hkk] at hk
      cases hk
      exact ⟨root, h.installed⟩
    · rw [h.unmapped k hm] at hk
      obtain ⟨old, ho⟩ := hs.keyHasRoot k row hk
      exact ⟨old, by rw [(h.root_outside hm hk).2, ho]⟩
  mappedAffinity k row old affinity hk hr ha := by
    by_cases hm : k ∈ keys
    · obtain ⟨kind, hkk⟩ := h.mapped k hm
      rw [hkk] at hk
      cases hk
      rw [h.installed] at hr
      cases hr
      rcases h.written k hm with hsame | ⟨new, hnew, hgen, -⟩
      · rw [hsame] at ha
        exact h.affinity_le hs hm ha
      · rw [hnew] at ha
        cases ha
        exact hgen.le
    · rw [h.unmapped k hm] at hk
      rw [(h.root_outside hm hk).2] at hr
      rw [h.kept k hm] at ha
      exact hs.mappedAffinity k row old affinity hk hr ha
  unmappedAffinity k affinity hk ha := by
    by_cases hm : k ∈ keys
    · obtain ⟨kind, hkk⟩ := h.mapped k hm
      rw [hkk] at hk
      cases hk
    · rw [h.unmapped k hm] at hk
      rw [h.kept k hm] at ha
      exact hs.unmappedAffinity k affinity hk ha

/-- Handing keys over names stored accounts only. -/
theorem accountsStored (h : Handover keys rootKeyHash root s t) (hs : s.AccountsStored) :
    t.AccountsStored where
  affinity k affinity ha := by
    rw [h.accounts]
    by_cases hm : k ∈ keys
    · rcases h.written k hm with hsame | ⟨new, hnew, -, hacc⟩
      · rw [hsame] at ha
        exact hs.affinity k affinity ha
      · rw [hnew] at ha
        cases ha
        exact hacc
    · rw [h.kept k hm] at ha
      exact hs.affinity k affinity ha
  requested r old id hr hid := by
    rw [h.accounts]
    by_cases he : r = rootKeyHash
    · subst he
      rw [h.installed] at hr
      cases hr
      exact h.named hs id (.inl hid)
    · exact hs.requested r old id (h.other_root he hr).1 hid
  effective r old id hr hid := by
    rw [h.accounts]
    by_cases he : r = rootKeyHash
    · subst he
      rw [h.installed] at hr
      cases hr
      exact h.named hs id (.inr hid)
    · exact hs.effective r old id (h.other_root he hr).1 hid

/-- Handing keys over keeps every stored command replayable. -/
theorem commandsReplayable (h : Handover keys rootKeyHash root s t)
    (hs : s.CommandsReplayable) : t.CommandsReplayable where
  wellFormed k row hk := by
    by_cases hm : k ∈ keys
    · exact h.wellFormed hs k hm row hk
    · rw [h.unmapped k hm] at hk
      exact hs.wellFormed k row hk
  rebalance r old hr hl := by
    by_cases he : r = rootKeyHash
    · subst he
      rw [h.installed] at hr
      cases hr
      exact h.rebalance hs hl
    · exact hs.rebalance r old (h.other_root he hr).1 hl

/-- Handing keys over keeps rerouted sessions together. -/
theorem preserves_coherent (h : Handover keys rootKeyHash root s t) (hs : s.Coherent) :
    t.Coherent := by
  intro k row old e affinity hk hr hl he ha
  by_cases hm : k ∈ keys
  · obtain ⟨kind, hkk⟩ := h.mapped k hm
    rw [hkk] at hk
    cases hk
    rw [h.installed] at hr
    cases hr
    exact h.coherent hs hl e he k hm affinity ha
  · rw [h.unmapped k hm] at hk
    rw [(h.root_outside hm hk).2] at hr
    rw [h.kept k hm] at ha
    exact hs k row old e affinity hk hr hl he ha

end Handover

/-! ### Any change -/

namespace RouteChange

variable {s t : Store}

/-- Every write keeps the representation invariant. -/
theorem routeInvariant (h : RouteChange s t) (hs : s.RouteInvariant) : t.RouteInvariant := by
  cases h with
  | forget keep h => exact h.routeInvariant hs
  | handover keys rootKeyHash root h => exact h.routeInvariant hs

/-- Every write names stored accounts only. -/
theorem accountsStored (h : RouteChange s t) (hs : s.AccountsStored) : t.AccountsStored := by
  cases h with
  | forget keep h => exact h.accountsStored hs
  | handover keys rootKeyHash root h => exact h.accountsStored hs

/-- Every write keeps every stored command replayable. -/
theorem commandsReplayable (h : RouteChange s t) (hs : s.CommandsReplayable) :
    t.CommandsReplayable := by
  cases h with
  | forget keep h => exact h.commandsReplayable hs
  | handover keys rootKeyHash root h => exact h.commandsReplayable hs

/-- Every write keeps rerouted sessions together. -/
theorem coherent (h : RouteChange s t) (hs : s.Coherent) : t.Coherent := by
  cases h with
  | forget keep h => exact h.coherent hs
  | handover keys rootKeyHash root h => exact h.preserves_coherent hs

end RouteChange
end CodexLb
