import CodexLb.Db.Bind
import CodexLb.Route.Refinement

/-!
# What a bind commits

A bind that commits hands its keys over to one root: the captured one, or one
that no command has touched. Everything else it can do is to change nothing.
-/

namespace CodexLb

open Relational

/-- The store that a bind under a captured epoch commits. -/
def storeAtEpoch (validated : RouteKeys) (accountId : Uuid) (epoch : SessionRouteEpoch)
    (root : SessionRoot) (now : Instant) (s : Store) : Store :=
  let bound := boundKeys epoch.rootKeyHash
    (affinityAtEpoch accountId epoch.routeGeneration now) validated.keys s
  if replacesEffective root accountId then propagatedFallback epoch accountId now bound
  else bound

/-- A bind that committed under a captured epoch. -/
structure BoundAtEpoch (validated : RouteKeys) (accountId : Uuid) (epoch : SessionRouteEpoch)
    (root : SessionRoot) (now : Instant) (s t : Store) : Prop where
  nonempty : validated.keys ≠ []
  current : s.sessionRoots.find epoch.rootKeyHash = some root
  generation : root.routeGeneration = epoch.routeGeneration
  free : ∀ k ∈ validated.hashes, ∀ row, s.sessionRouteKeys.find k = some row →
    row.rootKeyHash = epoch.rootKeyHash
  account : (∀ key ∈ validated.keys, ∀ affinity, s.affinity.find key.keyHash = some affinity →
    affinity.routeGeneration ≤ epoch.routeGeneration) → s.accounts.has accountId = true
  store : t = storeAtEpoch validated accountId epoch root now s

/-- A bind that committed without an epoch, in a root that no command has touched: `before` is
the store with the roots that the bind leaves. -/
structure BoundUnclaimed (validated : RouteKeys) (accountId : Uuid) (rootKeyHash : String)
    (root : SessionRoot) (now : Instant) (s before t : Store) : Prop where
  nonempty : validated.keys ≠ []
  rooted : (rootKeyHash ∈ validated.hashes ∧ root = .default now) ∨
    s.sessionRoots.find rootKeyHash = some root
  untouched : root.routeGeneration = 0 ∧ root.lastAction = none
  free : ∀ k ∈ validated.hashes, ∀ row, s.sessionRouteKeys.find k = some row →
    row.rootKeyHash = rootKeyHash
  unchanged : ∀ old, s.sessionRoots.find rootKeyHash = some old → old = root
  installed : before.sessionRoots.find rootKeyHash = some root
  others : ∀ r, r ≠ rootKeyHash → before.sessionRoots.find r = s.sessionRoots.find r
  speculative : before = { s with sessionRoots := before.sessionRoots }
  account : s.accounts.has accountId = true
  store : t = boundKeys rootKeyHash (affinityUnclaimed accountId now) validated.keys before

/-- Everything a call of `bind_affinities_at_epoch` can do. -/
inductive BindOutcome (keys : List SessionRouteKey) (accountId : Uuid)
    (epoch : Option SessionRouteEpoch) (now : Instant) (s : Store) :
    Except AppError Bool → Store → Prop
  | refused {r : Except AppError Bool} (h : r ≠ .ok true) :
    BindOutcome keys accountId epoch now s r s
  | empty {validated : RouteKeys} (hv : validateSessionRouteKeys keys = .ok validated)
      (h : validated.keys = []) : BindOutcome keys accountId epoch now s (.ok true) s
  | atEpoch {validated : RouteKeys} {captured : SessionRouteEpoch} {root : SessionRoot}
      {t : Store} (hv : validateSessionRouteKeys keys = .ok validated) (he : epoch = some captured)
      (h : BoundAtEpoch validated accountId captured root now s t) :
      BindOutcome keys accountId epoch now s (.ok true) t
  | unclaimed {validated : RouteKeys} {rootKeyHash : String} {root : SessionRoot}
      {before t : Store} (hv : validateSessionRouteKeys keys = .ok validated) (he : epoch = none)
      (h : BoundUnclaimed validated accountId rootKeyHash root now s before t) :
      BindOutcome keys accountId epoch now s (.ok true) t

/-! ### The two paths -/

private theorem bindAtEpoch_commit {validated : RouteKeys} {accountId : Uuid}
    {epoch : SessionRouteEpoch} {now : Instant} {s t : Store} {b : Bool}
    (hne : validated.keys ≠ [])
    (h : bindAtEpoch validated accountId epoch now s = .ok (.commit b, t)) :
    b = true ∧ ∃ root, BoundAtEpoch validated accountId epoch root now s t := by
  unfold bindAtEpoch at h
  split at h
  · cases h
  · next root hr =>
    obtain ⟨hcur, hgen⟩ := Option.filter_eq_some_iff.mp hr
    split at h
    · cases h
    · next hfree =>
      obtain ⟨u, hu, h⟩ := bind_eq_ok.mp h
      obtain ⟨rfl, hacc⟩ := bindKeys_ok hu validated.distinct
      have hbound : ∀ t, t = storeAtEpoch validated accountId epoch root now s →
          BoundAtEpoch validated accountId epoch root now s t := by
        intro t ht
        refine ⟨hne, hcur, by simpa using hgen, ?_, ?_, ht⟩
        · intro k hk row hrow
          by_contra hconflict
          rw [ne_eq, not_not, List.length_eq_zero_iff] at hfree
          have hm : (k, row) ∈ s.sessionRouteKeys.select fun k row ↦
              row.rootKeyHash ≠ epoch.rootKeyHash && validated.hashes.contains k :=
            Table.mem_select_iff.mpr ⟨hrow, by simp [hconflict, hk]⟩
          rw [hfree] at hm
          cases hm
        · intro hle
          obtain ⟨key, hkey⟩ := List.exists_mem_of_ne_nil _ hne
          refine hacc key hkey fun row hrow ↦ ?_
          rw [affinityAtEpoch_rewrite accountId now key (hle key hkey row hrow)]
          rfl
      split at h
      · next hrep =>
        obtain ⟨v, hv, h⟩ := bind_eq_ok.mp h
        cases h
        refine ⟨rfl, root, hbound _ ?_⟩
        unfold propagateFallback at hv
        split at hv
        · cases hv
          exact (if_pos hrep).symm
        · cases hv
      · next hrep =>
        cases h
        exact ⟨rfl, root, hbound _ (if_neg hrep).symm⟩


/-- The distinct roots of some keys are the roots of these keys. -/
theorem mem_mappedSessionRoots {keyHashes : List String} {s : Store} {r : String}
    {root : SessionRoot} :
    (r, root) ∈ mappedSessionRoots keyHashes s ↔ ∃ k ∈ keyHashes, s.rootOf k = some (r, root) := by
  rw [mappedSessionRoots, List.mem_filterMap]
  constructor
  · rintro ⟨r', hm, hr⟩
    obtain ⟨row, hrow, he⟩ := Option.map_eq_some_iff.mp hr
    cases he
    obtain ⟨k, stored, hk, hf, hs⟩ := mem_mappedRoots_iff.mp hm
    exact ⟨k, hk, Store.rootOf_eq_some_iff.mpr ⟨stored, hf, hs, hrow⟩⟩
  · rintro ⟨k, hk, hr⟩
    obtain ⟨row, hf, he, hroot⟩ := Store.rootOf_eq_some_iff.mp hr
    exact ⟨r, mem_mappedRoots_iff.mpr ⟨k, row, hk, hf, he⟩, by rw [hroot]; rfl⟩

/-- Inserting a root that is stored, or that no key is mapped to, keeps every key on its root. -/
theorem Store.RouteInvariant.rootOf_withRoot {s : Store} (hs : s.RouteInvariant) (r : String)
    (now : Instant) (k : String) : (s.withRoot r now).rootOf k = s.rootOf k := by
  rw [rootOf, rootOf]
  change (s.sessionRouteKeys.find k).bind _ = _
  cases hk : s.sessionRouteKeys.find k with
  | none => rfl
  | some row =>
    obtain ⟨root, hroot⟩ := hs.keyHasRoot k row hk
    rw [Option.bind_some, Option.bind_some, withRoot, Table.find_insert]
    split
    · next he => rw [← he, hroot]; rfl
    · rfl

private theorem find_withRoot (s : Store) (preferred : String) (now : Instant) (r : String) :
    (s.withRoot preferred now).sessionRoots.find r =
      if r = preferred then some ((s.sessionRoots.find preferred).getD (.default now))
      else s.sessionRoots.find r :=
  Table.find_insert ..

private theorem find_dropSpeculativeRoot {s : Store} (hs : s.RouteInvariant)
    {preferred rootKeyHash : String} (hne : rootKeyHash ≠ preferred) (now : Instant) (r : String) :
    (dropSpeculativeRoot (!s.sessionRoots.has preferred) preferred rootKeyHash
      (s.withRoot preferred now)).sessionRoots.find r = s.sessionRoots.find r := by
  unfold dropSpeculativeRoot
  split
  · next hdrop =>
    have hnew : s.sessionRoots.find preferred = none := by
      rw [← Table.has_eq_false_iff]
      simpa [hne] using hdrop
    have hunused : (s.sessionRouteKeys.select fun _ row ↦ row.rootKeyHash = preferred) = [] := by
      rw [List.eq_nil_iff_forall_not_mem]
      rintro ⟨k, row⟩ hm
      obtain ⟨hk, he⟩ := Table.mem_select_iff.mp hm
      obtain ⟨root, hroot⟩ := hs.keyHasRoot k row hk
      rw [of_decide_eq_true he, hnew] at hroot
      cases hroot
    rw [Table.find_delete, find_withRoot]
    change Option.filter (fun root : SessionRoot ↦ !(decide (r = preferred) &&
      root.lastAction.isNone &&
      (s.sessionRouteKeys.select fun _ row ↦ row.rootKeyHash = preferred).isEmpty)) _ = _
    rw [hunused]
    split
    · next he => subst he; rw [hnew]; simp [SessionRoot.default]
    · next he => cases s.sessionRoots.find r <;> simp [he]
  · next hkeep =>
    have hold : s.sessionRoots.has preferred = true := by simpa [hne] using hkeep
    obtain ⟨old, ho⟩ := Table.has_iff.mp hold
    rw [find_withRoot]
    split
    · next he => subst he; rw [ho]; rfl
    · rfl

/-- The preferred root is one of the keys. -/
theorem preferredRoot_mem {keys : List SessionRouteKey} {preferred : String}
    (h : preferredRoot keys = some preferred) : preferred ∈ keys.map SessionRouteKey.keyHash := by
  obtain ⟨key, hk, rfl⟩ := Option.map_eq_some_iff.mp h
  refine List.mem_map.mpr ⟨key, ?_, rfl⟩
  rcases Option.or_eq_some_iff.mp hk with hf | ⟨-, hh⟩
  · exact List.mem_of_find?_eq_some hf
  · exact List.mem_of_mem_head? hh

/-- Without a mapped key the preferred root is founded. -/
private theorem found_unclaimed {validated : RouteKeys} {preferred : String} {accountId : Uuid}
    {now : Instant} {s before t : Store} (hs : s.RouteInvariant)
    (hin : preferred ∈ validated.hashes)
    (hnone : ∀ k ∈ validated.hashes, s.sessionRouteKeys.find k = none)
    (haccount : s.accounts.has accountId = true)
    (hbefore : before = s.withRoot preferred now)
    (ht : t = boundKeys preferred (affinityUnclaimed accountId now) validated.keys before) :
    BoundUnclaimed validated accountId preferred (.default now) now s before t := by
  have hnew : s.sessionRoots.find preferred = none := by
    cases hr : s.sessionRoots.find preferred with
    | none => rfl
    | some old =>
      obtain ⟨row, hrow, -⟩ := hs.rootOwnsKey preferred old hr
      rw [hnone preferred hin] at hrow
      cases hrow
  refine ⟨?_, .inl ⟨hin, rfl⟩, ⟨rfl, rfl⟩, ?_, ?_, ?_, ?_, ?_, haccount, ht⟩
  · intro hk
    rw [RouteKeys.hashes, hk] at hin
    cases hin
  · intro k hk row hrow
    rw [hnone k hk] at hrow
    cases hrow
  · intro old hold
    rw [hnew] at hold
    cases hold
  · rw [hbefore, find_withRoot, if_pos rfl, hnew]
    rfl
  · intro r hr
    rw [hbefore, find_withRoot, if_neg hr]
  · rw [hbefore]
    rfl

/-- A single mapped root that no command has touched is joined. -/
private theorem join_unclaimed {validated : RouteKeys} {preferred rootKeyHash k₀ : String}
    {root : SessionRoot} {accountId : Uuid} {now : Instant} {s before t : Store}
    (hs : s.RouteInvariant) (hk₀ : k₀ ∈ validated.hashes)
    (hroot : s.rootOf k₀ = some (rootKeyHash, root))
    (huntouched : root.routeGeneration = 0 ∧ root.lastAction = none)
    (honly : ∀ k ∈ validated.hashes, ∀ r old, s.rootOf k = some (r, old) → r = rootKeyHash)
    (haccount : s.accounts.has accountId = true)
    (hbefore : before = dropSpeculativeRoot (!s.sessionRoots.has preferred) preferred rootKeyHash
      (s.withRoot preferred now))
    (ht : t = boundKeys rootKeyHash (affinityUnclaimed accountId now) validated.keys before) :
    BoundUnclaimed validated accountId rootKeyHash root now s before t := by
  obtain ⟨-, -, -, hstored⟩ := Store.rootOf_eq_some_iff.mp hroot
  have hfind : ∀ r, before.sessionRoots.find r = s.sessionRoots.find r := by
    intro r
    rw [hbefore]
    by_cases he : rootKeyHash = preferred
    · subst he
      rw [dropSpeculativeRoot, if_neg (by simp), find_withRoot, hstored]
      split
      · next hr => rw [hr, hstored]; rfl
      · rfl
    · exact find_dropSpeculativeRoot hs he now r
  refine ⟨?_, .inr hstored, huntouched, ?_, ?_, ?_, ?_, ?_, haccount, ht⟩
  · intro hk
    rw [RouteKeys.hashes, hk] at hk₀
    cases hk₀
  · intro k hk row hrow
    obtain ⟨old, hold⟩ := hs.rootOf_of_mapped hrow
    exact honly k hk _ old hold
  · intro old hold
    rw [hstored] at hold
    cases hold
    rfl
  · rw [hfind, hstored]
  · intro r _
    exact hfind r
  · rw [hbefore]
    unfold dropSpeculativeRoot
    split <;> rfl

private theorem bindUnclaimed_commit {validated : RouteKeys} {preferred : String}
    {accountId : Uuid} {now : Instant} {s t : Store} {b : Bool} (hs : s.RouteInvariant)
    (hp : preferredRoot validated.keys = some preferred)
    (h : bindUnclaimed validated preferred accountId now s = .ok (.commit b, t)) :
    b = true ∧ ∃ rootKeyHash root before,
      BoundUnclaimed validated accountId rootKeyHash root now s before t := by
  have hin : preferred ∈ validated.hashes := preferredRoot_mem hp
  have hmem : ∀ k ∈ validated.hashes, ∀ r root, s.rootOf k = some (r, root) →
      (r, root) ∈ mappedSessionRoots validated.hashes (s.withRoot preferred now) := by
    intro k hk r root hroot
    exact mem_mappedSessionRoots.mpr ⟨k, hk, by rw [hs.rootOf_withRoot, hroot]⟩
  unfold bindUnclaimed at h
  simp only at h
  split at h
  · cases h
  · next hcond =>
    obtain ⟨u, hu, h⟩ := bind_eq_ok.mp h
    cases h
    obtain ⟨ht, hacc⟩ := bindKeys_ok hu validated.distinct
    have haccount : s.accounts.has accountId = true := by
      obtain ⟨key, hkey, -⟩ := List.mem_map.mp hin
      have ha := hacc key hkey fun row _ ↦ rfl
      unfold dropSpeculativeRoot at ha
      split at ha <;> exact ha
    refine ⟨rfl, ?_⟩
    cases hm : mappedSessionRoots validated.hashes (s.withRoot preferred now) with
    | nil =>
      have hnone : ∀ k ∈ validated.hashes, s.sessionRouteKeys.find k = none := by
        intro k hk
        cases hrow : s.sessionRouteKeys.find k with
        | none => rfl
        | some row =>
          obtain ⟨root, hroot⟩ := hs.rootOf_of_mapped hrow
          have hin := hmem k hk _ root hroot
          rw [hm] at hin
          cases hin
      rw [hm] at ht
      refine ⟨preferred, .default now, _, found_unclaimed hs hin hnone haccount ?_ ht⟩
      rw [dropSpeculativeRoot, if_neg (by simp [unclaimedRoot])]
    | cons first rest =>
      obtain ⟨r, root⟩ := first
      rw [hm] at ht hcond
      have hrest : rest = [] := by
        cases rest with
        | nil => rfl
        | cons second rest => simp at hcond
      subst hrest
      obtain ⟨k₀, hk₀, hroot⟩ := mem_mappedSessionRoots.mp (hm ▸ List.mem_singleton_self _)
      rw [hs.rootOf_withRoot] at hroot
      have huntouched : root.routeGeneration = 0 ∧ root.lastAction = none := by
        simpa [Option.isSome_eq_false_iff] using hcond
      refine ⟨r, root, _, join_unclaimed hs hk₀ hroot huntouched ?_ haccount rfl ht⟩
      intro k hk r' old hold
      have hin := hmem k hk r' old hold
      rw [hm, List.mem_singleton] at hin
      cases hin
      rfl

private theorem bindAtEpoch_rollback {validated : RouteKeys} {accountId : Uuid}
    {epoch : SessionRouteEpoch} {now : Instant} {s t : Store} {b : Bool}
    (h : bindAtEpoch validated accountId epoch now s = .ok (.rollback b, t)) : b = false := by
  unfold bindAtEpoch at h
  split at h
  · cases h
    rfl
  · split at h
    · cases h
      rfl
    · obtain ⟨u, -, h⟩ := bind_eq_ok.mp h
      split at h
      · obtain ⟨v, -, h⟩ := bind_eq_ok.mp h
        cases h
      · cases h

private theorem bindUnclaimed_rollback {validated : RouteKeys} {preferred : String}
    {accountId : Uuid} {now : Instant} {s t : Store} {b : Bool}
    (h : bindUnclaimed validated preferred accountId now s = .ok (.rollback b, t)) :
    b = false := by
  unfold bindUnclaimed at h
  simp only at h
  split at h
  · cases h
    rfl
  · obtain ⟨u, -, h⟩ := bind_eq_ok.mp h
    cases h

private theorem refused_of_rollback {keys : List SessionRouteKey} {accountId : Uuid}
    {epoch : Option SessionRouteEpoch} {now : Instant} {s t u : Store} {b : Bool}
    {body : Store → Except AppError (Ending Bool × Store)} (ht : t = s)
    (hb : body s = .ok (.rollback b, u))
    (hfalse : ∀ {b u}, body s = .ok (.rollback b, u) → b = false) :
    BindOutcome keys accountId epoch now s (.ok b) t := by
  rw [ht, hfalse hb]
  exact .refused (by simp)

/-- A bind changes nothing unless it commits in one of its two paths. -/
theorem bindAffinitiesAtEpoch_outcome {s t : Store} (hs : s.RouteInvariant)
    {keys : List SessionRouteKey} {accountId : Uuid} {epoch : Option SessionRouteEpoch}
    {now : Instant} {r : Except AppError Bool}
    (h : bindAffinitiesAtEpoch keys accountId epoch now s = (r, t)) :
    BindOutcome keys accountId epoch now s r t := by
  unfold bindAffinitiesAtEpoch at h
  split at h
  · cases h
    exact .refused nofun
  · next validated hv =>
    split at h
    · next hp =>
      cases h
      refine .empty hv ?_
      cases hk : validated.keys with
      | nil => rfl
      | cons key rest =>
        rw [preferredRoot, hk, List.head?_cons, Option.or_some] at hp
        cases hp
    · next preferred hp =>
      have hne : validated.keys ≠ [] := by
        intro hk
        rw [hk] at hp
        cases hp
      split at h
      · next captured =>
        cases r with
        | error e => rw [transaction_error h]; exact .refused nofun
        | ok b =>
          rcases transaction_ok_iff.mp h with hc | ⟨ht, u, hb⟩
          · obtain ⟨rfl, root, hbound⟩ := bindAtEpoch_commit hne hc
            exact .atEpoch hv rfl hbound
          · exact refused_of_rollback ht hb bindAtEpoch_rollback
      · cases r with
        | error e => rw [transaction_error h]; exact .refused nofun
        | ok b =>
          rcases transaction_ok_iff.mp h with hc | ⟨ht, u, hb⟩
          · obtain ⟨rfl, rootKeyHash, root, before, hbound⟩ := bindUnclaimed_commit hs hp hc
            exact .unclaimed hv rfl hbound
          · exact refused_of_rollback ht hb bindUnclaimed_rollback

/-- A bind without an epoch is refused, and changes nothing, once one of its keys belongs to a
session that has received a route action. -/
theorem bindAffinitiesAtEpoch_commanded {s : Store} (hs : s.RouteInvariant)
    {keys : List SessionRouteKey} {validated : RouteKeys}
    (hv : validateSessionRouteKeys keys = .ok validated) {k : String} (hk : k ∈ validated.hashes)
    (hc : s.Commanded k) (accountId : Uuid) (now : Instant) :
    bindAffinitiesAtEpoch keys accountId none now s = (.ok false, s) := by
  obtain ⟨r, root, hroot, hact⟩ := hc
  cases hp : preferredRoot validated.keys with
  | none =>
    cases hkeys : validated.keys with
    | nil =>
      rw [RouteKeys.hashes, hkeys] at hk
      cases hk
    | cons key rest =>
      rw [preferredRoot, hkeys, List.head?_cons, Option.or_some] at hp
      cases hp
  | some preferred =>
    have hm : (r, root) ∈ mappedSessionRoots validated.hashes (s.withRoot preferred now) :=
      mem_mappedSessionRoots.mpr ⟨k, hk, by rw [hs.rootOf_withRoot, hroot]⟩
    have hrefused : bindUnclaimed validated preferred accountId now s =
        .ok (.rollback false, s) := by
      unfold bindUnclaimed
      simp only
      split
      · rfl
      · next hcond =>
        -- the only mapped root would be the commanded one
        exfalso
        apply hcond
        cases hroots : mappedSessionRoots validated.hashes (s.withRoot preferred now) with
        | nil => rw [hroots] at hm; cases hm
        | cons first rest =>
          cases rest with
          | nil =>
            rw [hroots, List.mem_singleton] at hm
            simp [← hm, hact]
          | cons second rest => simp
    simp only [bindAffinitiesAtEpoch, hv, hp, transaction, hrefused]

end CodexLb
