import CodexLb.Registry.Connections
import CodexLb.Transition.Run

/-!
# Delivery of reroute signals

A history keeps, next to the registry, the registrations that are live and the
reroutes that were signalled. A reroute reaches every connection that shares a
key with it as long as the generation recorded for a key never falls behind.
-/

namespace CodexLb

open Relational Transition

/-- A live registration, with the arguments of `register`. -/
structure Registration where
  token : Nat
  rootKeyHash : String
  aliases : List String
  generation : Int
  deriving DecidableEq, Repr

/-- The arguments of a call of `signal_reroute`. -/
structure Reroute where
  rootKeyHash : String
  aliases : List String
  generation : Int
  deriving DecidableEq, Repr

/-- A registration names its root hash and its aliases. -/
def Registration.Names (c : Registration) (key : String) : Prop :=
  key = c.rootKeyHash ∨ key ∈ c.aliases

/-- A reroute names its root hash and its aliases. -/
def Reroute.Names (reroute : Reroute) (key : String) : Prop :=
  key = reroute.rootKeyHash ∨ key ∈ reroute.aliases

/-- The registry with its live registrations and the reroutes so far. -/
structure RegistryHistory where
  inner : RegistryInner
  live : List Registration
  reroutes : List Reroute

/-- The history of a new registry. -/
def RegistryHistory.start : RegistryHistory := ⟨.default, [], []⟩

/-- The history after an event. -/
def RegistryEvent.record (event : RegistryEvent) (h : RegistryHistory) : RegistryHistory :=
  match event with
  | .register rootKeyHash aliases _ generation =>
    { h with
      inner := event.exec h.inner
      live := ⟨h.inner.token, rootKeyHash, aliases, generation⟩ :: h.live }
  | .signalReroute rootKeyHash aliases generation =>
    { h with
      inner := event.exec h.inner
      reroutes := ⟨rootKeyHash, aliases, generation⟩ :: h.reroutes }
  | .drop token =>
    { h with
      inner := event.exec h.inner
      live := h.live.filter fun c ↦ c.token ≠ token }

/-- One event of a history. -/
def RegistryHistory.Step (h : RegistryHistory) (event : RegistryEvent) (h' : RegistryHistory) :
    Prop := event.record h = h'

/-- The signal that the receiver of a connection holds. -/
def RegistryInner.received (inner : RegistryInner) (token : Nat) : Option Int :=
  (inner.connections.find token).bind ConnectionEntry.signal

/-- Every live connection that shares a key with a newer reroute holds a newer signal. -/
def RegistryHistory.Delivered (h : RegistryHistory) : Prop :=
  ∀ c ∈ h.live, ∀ reroute ∈ h.reroutes, c.generation < reroute.generation →
    (∃ key, c.Names key ∧ reroute.Names key) →
    ∃ generation, h.inner.received c.token = some generation ∧ c.generation < generation

/-- The generation recorded for the root that a key is mapped to. -/
def RegistryInner.generationOf (inner : RegistryInner) (key : String) : Option Int :=
  (inner.rootByKey.find key).bind inner.generationByRoot.find

/-- A key is ahead of a generation when the root that it is mapped to has a newer one. -/
def RegistryInner.Ahead (inner : RegistryInner) (generation : Int) (key : String) : Prop :=
  ∃ recorded, inner.generationOf key = some recorded ∧ generation < recorded

/-- A registration gets a token that no connection has, and its root hash is mapped, or one of its
aliases, or none of them is mapped. When one of its keys is ahead of it, its root hash is too if it
is mapped, and otherwise every mapped alias is. A reroute is not older than what is recorded for its
keys, unless its own root already has a generation as new. -/
def NeverFallsBehind (h : RegistryHistory) : RegistryEvent → Prop
  | .register rootKeyHash aliases _ generation =>
    h.inner.connections.has h.inner.token = false ∧
    (h.inner.rootByKey.has rootKeyHash = true ∨ rootKeyHash ∈ aliases ∨
      ∀ key ∈ aliases, h.inner.rootByKey.find key = none) ∧
    ∀ key, key = rootKeyHash ∨ key ∈ aliases → h.inner.Ahead generation key →
      ∀ other, other = rootKeyHash ∨ h.inner.rootByKey.has rootKeyHash = false ∧ other ∈ aliases →
        h.inner.rootByKey.has other = true → h.inner.Ahead generation other
  | .signalReroute rootKeyHash aliases generation =>
    ∀ key, key = rootKeyHash ∨ key ∈ aliases → ∀ recorded,
      h.inner.generationOf key = some recorded → recorded ≤ generation ∨
        ∃ current, h.inner.generationByRoot.find rootKeyHash = some current ∧ recorded ≤ current
  | .drop _ => True

/-- What the registry keeps about a history. -/
structure RegistryHistory.Tracked (h : RegistryHistory) : Prop where
  entry : ∀ c ∈ h.live, ∃ entry, h.inner.connections.find c.token = some entry ∧
    entry.generation = c.generation
  indexed : ∀ c ∈ h.live, ∀ key, c.Names key → c.token ∈ h.inner.tokensOf key ∨
    ∃ root, h.inner.rootByKey.find key = some root ∧ c.token ∈ h.inner.tokensOf root
  recorded : ∀ reroute ∈ h.reroutes, ∀ key, reroute.Names key →
    ∃ generation, h.inner.generationOf key = some generation ∧ reroute.generation ≤ generation
  delivered : h.Delivered

section Steps

variable {h : RegistryHistory} {rootKeyHash : String} {aliases : List String}
  {accountId : Uuid} {generation : Int}

/-- A root hash without mapping, and with unmapped aliases only, is its own root. -/
private theorem canonicalRoot_of_unmapped {inner : RegistryInner}
    (hroot : inner.rootByKey.find rootKeyHash = none)
    (haliases : ∀ key ∈ aliases, inner.rootByKey.find key = none) :
    inner.canonicalRoot rootKeyHash aliases = rootKeyHash := by
  have hnil : aliases.filterMap inner.rootByKey.find = [] := List.filterMap_eq_nil_iff.mpr haliases
  rw [RegistryInner.canonicalRoot, hroot, hnil]
  rfl

/-- A registration that names a mapped key settles on the root of its root hash, or when that is
not mapped on the root of one of its aliases. -/
private theorem exists_find_canonicalRoot {inner : RegistryInner} {key root : String}
    (hnames : key = rootKeyHash ∨ key ∈ aliases) (hfind : inner.rootByKey.find key = some root) :
    ∃ other, (other = rootKeyHash ∨
        inner.rootByKey.has rootKeyHash = false ∧ other ∈ aliases) ∧
      inner.rootByKey.find other = some (inner.canonicalRoot rootKeyHash aliases) := by
  cases hroot : inner.rootByKey.find rootKeyHash with
  | some own =>
    refine ⟨rootKeyHash, .inl rfl, ?_⟩
    simp only [RegistryInner.canonicalRoot, hroot]
  | none =>
    have halias : key ∈ aliases := by
      rcases hnames with rfl | halias
      · cases hfind.symm.trans hroot
      · exact halias
    have hmem : root ∈ aliases.filterMap inner.rootByKey.find :=
      List.mem_filterMap.mpr ⟨key, halias, hfind⟩
    cases hleast : (aliases.filterMap inner.rootByKey.find).min? with
    | none =>
      rw [List.min?_eq_none_iff.mp hleast] at hmem
      cases hmem
    | some least =>
      obtain ⟨other, hother, hsettled⟩ := List.mem_filterMap.mp (List.min?_mem hleast)
      refine ⟨other, .inr ⟨Table.has_eq_false_iff.mpr hroot, hother⟩, ?_⟩
      simp only [RegistryInner.canonicalRoot, hroot, hleast, Option.getD_some]
      exact hsettled

/-- A late registration that names a key ahead of it starts out signaled. -/
private theorem initialSignal_of_ahead {inner : RegistryInner} {key : String}
    (hagree : ∀ other, other = rootKeyHash ∨
        inner.rootByKey.has rootKeyHash = false ∧ other ∈ aliases →
      inner.rootByKey.has other = true → inner.Ahead generation other)
    (hnames : key = rootKeyHash ∨ key ∈ aliases) (hahead : inner.Ahead generation key) :
    ∃ received, inner.initialSignal (inner.canonicalRoot rootKeyHash aliases) generation =
      some received ∧ generation < received := by
  obtain ⟨recorded, hrecorded, -⟩ := hahead
  obtain ⟨root, hfind, -⟩ := Option.bind_eq_some_iff.mp hrecorded
  obtain ⟨other, hother, hsettled⟩ := exists_find_canonicalRoot hnames hfind
  have hmapped : inner.rootByKey.has other = true := Table.has_iff.mpr ⟨_, hsettled⟩
  obtain ⟨current, hcurrent, hbehind⟩ := hagree other hother hmapped
  rw [RegistryInner.generationOf, hsettled, Option.bind_some] at hcurrent
  refine ⟨current, ?_, hbehind⟩
  rw [RegistryInner.initialSignal, hcurrent, Option.getD_some, if_pos hbehind]

/-- A registration keeps the mapping of every mapped key. -/
private theorem find_rootByKey_register {inner : RegistryInner} {key root : String}
    (hmapped : inner.rootByKey.find key = some root) :
    (inner.register rootKeyHash aliases accountId generation).rootByKey.find key = some root := by
  rw [RegistryInner.register,
    Table.find_insertKeys _ (RegistryInner.nodup_registeredKeys ..), hmapped]
  simp

/-- A reroute maps the keys that it names to its root, and no others. -/
private theorem find_rootByKey_signalReroute (inner : RegistryInner) (key : String) :
    (inner.signalReroute rootKeyHash aliases generation).2.rootByKey.find key =
      if key = rootKeyHash ∨ key ∈ aliases then some rootKeyHash
      else inner.rootByKey.find key := by
  simp only [RegistryInner.signalReroute,
    Table.find_upsertKeys _ (List.nodup_dedup aliases).insert, List.mem_insert_iff, List.mem_dedup]
  split
  · cases inner.rootByKey.find key <;> rfl
  · rfl

/-- A registration leads to its token from every key that it names. -/
private theorem indexed_registered {inner : RegistryInner} {key : String}
    (hroot : inner.rootByKey.has rootKeyHash = true ∨ rootKeyHash ∈ aliases ∨
      ∀ key ∈ aliases, inner.rootByKey.find key = none)
    (hnames : key = rootKeyHash ∨ key ∈ aliases) :
    key ∈ inner.registeredKeys rootKeyHash aliases ∨
      ∃ root, inner.rootByKey.find key = some root ∧
        root ∈ inner.registeredKeys rootKeyHash aliases := by
  simp only [RegistryInner.mem_registeredKeys]
  have hmapped : ∀ root, inner.rootByKey.find rootKeyHash = some root →
      root = inner.canonicalRoot rootKeyHash aliases := by
    intro root hfind
    rw [RegistryInner.canonicalRoot, hfind]
  rcases hnames with rfl | halias
  · cases hfind : inner.rootByKey.find key with
    | some root => exact .inr ⟨root, rfl, .inl (hmapped root hfind)⟩
    | none =>
      left
      rcases hroot with hhas | halias | hunmapped
      · rw [Table.has_eq_false_iff.mpr hfind] at hhas
        cases hhas
      · exact .inr halias
      · exact .inl (canonicalRoot_of_unmapped hfind hunmapped).symm
  · exact .inl (.inr halias)

/-- A registration keeps track of the history. -/
theorem RegistryHistory.Tracked.register (ht : h.Tracked)
    (hgood : NeverFallsBehind h (.register rootKeyHash aliases accountId generation)) :
    ((RegistryEvent.register rootKeyHash aliases accountId generation).record h).Tracked := by
  obtain ⟨hfresh, hroot, hnewest⟩ := hgood
  have hnone := Table.has_eq_false_iff.mp hfresh
  have hother : ∀ c ∈ h.live, c.token ≠ h.inner.token := by
    intro c hc he
    obtain ⟨entry, hentry, -⟩ := ht.entry c hc
    rw [he, hnone] at hentry
    cases hentry
  refine ⟨?_, ?_, ?_, ?_⟩
  · intro c hc
    change ∃ entry, (h.inner.register ..).connections.find c.token = some entry ∧ _
    rw [RegistryInner.find_connections_register]
    rcases List.mem_cons.mp hc with rfl | hc
    · exact ⟨_, if_pos rfl, rfl⟩
    · rw [if_neg (hother c hc)]
      exact ht.entry c hc
  · intro c hc key hnames
    change _ ∈ (h.inner.register ..).tokensOf key ∨
      ∃ root, (h.inner.register ..).rootByKey.find key = some root ∧
        _ ∈ (h.inner.register ..).tokensOf root
    simp only [RegistryInner.mem_tokensOf_register]
    rcases List.mem_cons.mp hc with rfl | hc
    · rcases indexed_registered hroot hnames with hin | ⟨root, hfind, hin⟩
      · exact .inl (.inr ⟨rfl, hin⟩)
      · exact .inr ⟨root, find_rootByKey_register hfind, .inr ⟨rfl, hin⟩⟩
    · rcases ht.indexed c hc key hnames with hin | ⟨root, hfind, hin⟩
      · exact .inl (.inl hin)
      · exact .inr ⟨root, find_rootByKey_register hfind, .inl hin⟩
  · intro reroute hreroute key hnames
    obtain ⟨recorded, hrecorded, hle⟩ := ht.recorded reroute hreroute key hnames
    refine ⟨recorded, ?_, hle⟩
    obtain ⟨root, hfind, hgeneration⟩ := Option.bind_eq_some_iff.mp hrecorded
    change (((h.inner.register ..).rootByKey.find key).bind h.inner.generationByRoot.find) = _
    rw [find_rootByKey_register hfind, Option.bind_some, hgeneration]
  · intro c hc reroute hreroute hlt hshared
    change ∃ received, ((h.inner.register ..).connections.find c.token).bind _ = some received ∧ _
    rw [RegistryInner.find_connections_register]
    rcases List.mem_cons.mp hc with rfl | hc
    · -- the recorded generation of a shared key is newer, so the chosen root's is
      obtain ⟨key, hnames, hnamed⟩ := hshared
      obtain ⟨recorded, hrecorded, hle⟩ := ht.recorded reroute hreroute key hnamed
      have hnewer : generation < recorded := Int.lt_of_lt_of_le hlt hle
      obtain ⟨received, hreceived, hbehind⟩ := initialSignal_of_ahead
        (hnewest key hnames ⟨recorded, hrecorded, hnewer⟩) hnames ⟨recorded, hrecorded, hnewer⟩
      refine ⟨received, ?_, hbehind⟩
      rw [if_pos rfl, Option.bind_some]
      exact hreceived
    · rw [if_neg (hother c hc)]
      exact ht.delivered c hc reroute hreroute hlt hshared

/-- A reroute records a generation for its root that is behind neither its own nor the old one. -/
private theorem find_generationByRoot_signalReroute (inner : RegistryInner) :
    ∃ current, (inner.signalReroute rootKeyHash aliases generation).2.generationByRoot.find
      rootKeyHash = some current ∧ generation ≤ current ∧
        ∀ before, inner.generationByRoot.find rootKeyHash = some before → before ≤ current := by
  simp only [RegistryInner.signalReroute, Table.find_upsert, if_true]
  cases inner.generationByRoot.find rootKeyHash with
  | none =>
    refine ⟨generation, rfl, Int.le_refl _, ?_⟩
    intro before h
    cases h
  | some before =>
    refine ⟨max before generation, rfl, Int.le_max_right _ _, ?_⟩
    rintro _ ⟨⟩
    exact Int.le_max_left _ _

/-- The generation of a key that a reroute does not name never decreases. -/
private theorem generationOf_signalReroute {inner : RegistryInner} {key : String} {recorded : Int}
    (hother : ¬(key = rootKeyHash ∨ key ∈ aliases))
    (hrecorded : inner.generationOf key = some recorded) :
    ∃ current, (inner.signalReroute rootKeyHash aliases generation).2.generationOf key =
      some current ∧ recorded ≤ current := by
  obtain ⟨root, hfind, hgeneration⟩ := Option.bind_eq_some_iff.mp hrecorded
  rw [RegistryInner.generationOf, find_rootByKey_signalReroute, if_neg hother, hfind,
    Option.bind_some]
  by_cases he : root = rootKeyHash
  · subst he
    obtain ⟨current, hcurrent, -, hold⟩ := find_generationByRoot_signalReroute inner
    exact ⟨current, hcurrent, hold recorded hgeneration⟩
  · refine ⟨recorded, ?_, Int.le_refl _⟩
    rw [RegistryInner.signalReroute, Table.find_upsert, if_neg he, hgeneration]

/-- A reroute that shares a key with a live connection matches it. -/
private theorem RegistryHistory.Tracked.matched (ht : h.Tracked) {c : Registration}
    (hc : c ∈ h.live) {key : String} (hnames : c.Names key)
    (hnamed : key = rootKeyHash ∨ key ∈ aliases) :
    c.token ∈ h.inner.matchingTokens rootKeyHash aliases := by
  apply RegistryInner.mem_matchingTokens.mpr
  rcases ht.indexed c hc key hnames with hin | ⟨root, hfind, hin⟩
  · exact ⟨key, RegistryInner.mem_lookupKeys.mpr (.inl hnamed), hin⟩
  · exact ⟨root, RegistryInner.mem_lookupKeys.mpr (.inr ⟨key, hnamed, hfind⟩), hin⟩

/-- A newer reroute puts its generation into the receiver of a connection. -/
private theorem signal_signaled {entry : ConnectionEntry} (hnewer : entry.generation < generation) :
    (RegistryInner.signaled rootKeyHash generation entry).signal = some generation := by
  rw [RegistryInner.signaled, if_pos hnewer]

/-- A reroute keeps every newer signal in the receivers, or replaces it by a newer one. -/
theorem received_signalReroute {inner : RegistryInner} {token : Nat}
    {entry : ConnectionEntry} (hentry : inner.connections.find token = some entry) {received : Int}
    (hreceived : inner.received token = some received) (hnewer : entry.generation < received) :
    ∃ received, (inner.signalReroute rootKeyHash aliases generation).2.received token =
      some received ∧ entry.generation < received := by
  rw [RegistryInner.received, hentry, Option.bind_some] at hreceived
  rw [RegistryInner.received, RegistryInner.find_connections_signalReroute, hentry,
    Option.map_some, Option.bind_some]
  split
  · by_cases hreplaced : entry.generation < generation
    · exact ⟨generation, signal_signaled hreplaced, hreplaced⟩
    · refine ⟨received, ?_, hnewer⟩
      rw [RegistryInner.signaled, if_neg hreplaced, hreceived]
  · exact ⟨received, hreceived, hnewer⟩

/-- A reroute keeps track of the history. -/
theorem RegistryHistory.Tracked.signalReroute (ht : h.Tracked)
    (hgood : NeverFallsBehind h (.signalReroute rootKeyHash aliases generation)) :
    ((RegistryEvent.signalReroute rootKeyHash aliases generation).record h).Tracked := by
  refine ⟨?_, ?_, ?_, ?_⟩
  · intro c hc
    obtain ⟨entry, hentry, hsame⟩ := ht.entry c hc
    change ∃ entry, (h.inner.signalReroute ..).2.connections.find c.token = some entry ∧ _
    rw [RegistryInner.find_connections_signalReroute, hentry, Option.map_some]
    refine ⟨_, rfl, ?_⟩
    split
    · exact hsame
    · exact hsame
  · intro c hc key hnames
    change _ ∈ (h.inner.signalReroute ..).2.tokensOf key ∨
      ∃ root, (h.inner.signalReroute ..).2.rootByKey.find key = some root ∧
        _ ∈ (h.inner.signalReroute ..).2.tokensOf root
    simp only [RegistryInner.mem_tokensOf_signalReroute, find_rootByKey_signalReroute]
    rcases ht.indexed c hc key hnames with hin | ⟨root, hfind, hin⟩
    · exact .inl (.inl hin)
    · split
      · next hnamed => exact .inr ⟨_, rfl, .inr ⟨rfl, ht.matched hc hnames hnamed⟩⟩
      · exact .inr ⟨root, hfind, .inl hin⟩
  · intro reroute hreroute key hnamed
    change ∃ recorded, (h.inner.signalReroute rootKeyHash aliases generation).2.generationOf key =
      some recorded ∧ _
    by_cases hboth : key = rootKeyHash ∨ key ∈ aliases
    · obtain ⟨current, hcurrent, hnew, hold⟩ := find_generationByRoot_signalReroute h.inner
      refine ⟨current, ?_, ?_⟩
      · rw [RegistryInner.generationOf, find_rootByKey_signalReroute, if_pos hboth,
          Option.bind_some, hcurrent]
      · rcases List.mem_cons.mp hreroute with rfl | hreroute
        · exact hnew
        · obtain ⟨recorded, hrecorded, hle⟩ := ht.recorded reroute hreroute key hnamed
          apply Int.le_trans hle
          rcases hgood key hboth recorded hrecorded with hlater | ⟨before, hbefore, hlater⟩
          · exact Int.le_trans hlater hnew
          · exact Int.le_trans hlater (hold before hbefore)
    · rcases List.mem_cons.mp hreroute with rfl | hreroute
      · exact absurd hnamed hboth
      · obtain ⟨recorded, hrecorded, hle⟩ := ht.recorded reroute hreroute key hnamed
        obtain ⟨current, hcurrent, hlater⟩ := generationOf_signalReroute hboth hrecorded
        exact ⟨current, hcurrent, Int.le_trans hle hlater⟩
  · intro c hc reroute hreroute hlt hshared
    obtain ⟨entry, hentry, hsame⟩ := ht.entry c hc
    rcases List.mem_cons.mp hreroute with rfl | hreroute
    · obtain ⟨key, hnames, hnamed⟩ := hshared
      refine ⟨generation, ?_, hlt⟩
      change ((h.inner.signalReroute ..).2.connections.find c.token).bind _ = _
      rw [RegistryInner.find_connections_signalReroute, hentry, Option.map_some, Option.bind_some,
        if_pos (ht.matched hc hnames hnamed)]
      exact signal_signaled (by rw [hsame]; exact hlt)
    · obtain ⟨received, hreceived, hnewer⟩ := ht.delivered c hc reroute hreroute hlt hshared
      rw [← hsame] at hnewer ⊢
      exact received_signalReroute hentry hreceived hnewer

/-- Dropping a registration keeps track of the others. -/
theorem RegistryHistory.Tracked.drop (ht : h.Tracked) (token : Nat) :
    ((RegistryEvent.drop token).record h).Tracked := by
  have hrest : ∀ c ∈ h.live.filter fun c ↦ c.token ≠ token, c ∈ h.live ∧ c.token ≠ token := by
    intro c hc
    obtain ⟨hlive, hne⟩ := List.mem_filter.mp hc
    exact ⟨hlive, of_decide_eq_true hne⟩
  have hfind : ∀ c ∈ h.live.filter fun c ↦ c.token ≠ token,
      (h.inner.unregister token).connections.find c.token =
        h.inner.connections.find c.token := by
    intro c hc
    rw [RegistryInner.find_connections_unregister, if_neg (hrest c hc).2]
  have hroots : (h.inner.unregister token).rootByKey = h.inner.rootByKey ∧
      (h.inner.unregister token).generationByRoot = h.inner.generationByRoot := by
    unfold RegistryInner.unregister
    split <;> exact ⟨rfl, rfl⟩
  have hindex : ∀ c ∈ h.live.filter fun c ↦ c.token ≠ token, ∀ key,
      c.token ∈ h.inner.tokensOf key → c.token ∈ (h.inner.unregister token).tokensOf key := by
    intro c hc key hin
    cases hdropped : h.inner.connections.find token with
    | none =>
      rw [RegistryInner.unregister, hdropped]
      exact hin
    | some entry =>
      apply (RegistryInner.mem_tokensOf_unregister hdropped).mpr
      exact ⟨hin, fun hsame ↦ (hrest c hc).2 hsame.1⟩
  refine ⟨?_, ?_, ?_, ?_⟩
  · intro c hc
    change ∃ entry, (h.inner.unregister token).connections.find c.token = some entry ∧ _
    rw [hfind c hc]
    exact ht.entry c (hrest c hc).1
  · intro c hc key hnames
    change _ ∈ (h.inner.unregister token).tokensOf key ∨
      ∃ root, (h.inner.unregister token).rootByKey.find key = some root ∧
        _ ∈ (h.inner.unregister token).tokensOf root
    rw [hroots.1]
    rcases ht.indexed c (hrest c hc).1 key hnames with hin | ⟨root, hmapped, hin⟩
    · exact .inl (hindex c hc key hin)
    · exact .inr ⟨root, hmapped, hindex c hc root hin⟩
  · intro reroute hreroute key hnames
    change ∃ generation, (((h.inner.unregister token).rootByKey.find key).bind
      (h.inner.unregister token).generationByRoot.find) = some generation ∧ _
    rw [hroots.1, hroots.2]
    exact ht.recorded reroute hreroute key hnames
  · intro c hc reroute hreroute hlt hshared
    change ∃ generation, ((h.inner.unregister token).connections.find c.token).bind _ =
      some generation ∧ _
    rw [hfind c hc]
    exact ht.delivered c (hrest c hc).1 reroute hreroute hlt hshared

end Steps

/-- No reroute signal is lost: in every history whose generations never fall behind, every live
connection holds a signal newer than its generation as soon as any reroute that shares a key with
it was newer, whether it came before or after the registration. -/
theorem no_reroute_signal_lost {h : RegistryHistory} {events : List RegistryEvent}
    (hrun : Run (guarded RegistryHistory.Step NeverFallsBehind) .start events h) :
    h.Delivered := by
  have htracked : h.Tracked := by
    apply hrun.invariant
    · rintro h event h' ht ⟨hgood, hstep⟩
      subst hstep
      cases event with
      | register rootKeyHash aliases accountId generation => exact ht.register hgood
      | signalReroute rootKeyHash aliases generation => exact ht.signalReroute hgood
      | drop token => exact ht.drop token
    · have hnone : ∀ c, c ∉ RegistryHistory.start.live := fun _ ↦ List.not_mem_nil
      exact ⟨fun c hc ↦ absurd hc (hnone c), fun c hc ↦ absurd hc (hnone c),
        fun reroute hreroute ↦ absurd hreroute List.not_mem_nil, fun c hc ↦ absurd hc (hnone c)⟩
  exact htracked.delivered

/-- A connection that opens late, after two reroutes under different roots that it shares a key with
each, starts out signaled. -/
theorem no_reroute_signal_lost_late :
    (((RegistryEvent.register "x" ["x", "a", "b"] 1 4).record
      ((RegistryEvent.signalReroute "b0" ["b"] 6).record
        ((RegistryEvent.signalReroute "z" ["a"] 5).record .start))).Delivered) := by
  have hfirst : NeverFallsBehind .start (.signalReroute "z" ["a"] 5) := by
    intro key _ recorded hrecorded
    cases hrecorded
  have hsecond : NeverFallsBehind ((RegistryEvent.signalReroute "z" ["a"] 5).record .start)
      (.signalReroute "b0" ["b"] 6) := by
    intro key hnames recorded hrecorded
    rcases hnames with rfl | hnames
    · cases hrecorded
    · cases List.mem_singleton.mp hnames
      cases hrecorded
  have hregister : NeverFallsBehind ((RegistryEvent.signalReroute "b0" ["b"] 6).record
      ((RegistryEvent.signalReroute "z" ["a"] 5).record .start))
      (.register "x" ["x", "a", "b"] 1 4) := by
    refine ⟨by decide +kernel, .inr (.inl (by decide)), ?_⟩
    intro _ _ _ other hother hmapped
    have hnames : other ∈ ["x", "a", "b"] := by
      rcases hother with rfl | ⟨-, halias⟩
      · decide
      · exact halias
    simp only [List.mem_cons, List.not_mem_nil, or_false] at hnames
    rcases hnames with rfl | rfl | rfl
    · cases hmapped
    · exact ⟨5, by decide +kernel, by decide⟩
    · exact ⟨6, by decide +kernel, by decide⟩
  exact no_reroute_signal_lost
    (.cons ⟨hfirst, rfl⟩ (.cons ⟨hsecond, rfl⟩ (.single ⟨hregister, rfl⟩)))

/-- A live connection without a signal, and older than a reroute that shares a key with it, has lost
that reroute. -/
private theorem not_delivered_of_silent {h : RegistryHistory} (c : Registration)
    (reroute : Reroute) (key : String) (hc : c ∈ h.live) (hreroute : reroute ∈ h.reroutes)
    (hlt : c.generation < reroute.generation) (hnames : c.Names key) (hnamed : reroute.Names key)
    (hsilent : h.inner.received c.token = none) : ¬ h.Delivered := by
  intro hdelivered
  obtain ⟨received, hreceived, -⟩ := hdelivered c hc reroute hreroute hlt ⟨key, hnames, hnamed⟩
  cases hreceived.symm.trans hsilent

/-- A reroute is lost in three ways: its key is rerouted again under another root and an older
generation before the connection opens; the connection settles on the least of several roots that
its aliases are mapped to, which is not the one that was rerouted; the connection settles on the
root of an alias, is not indexed under its own root hash, and that is what a later reroute names. -/
theorem reroute_signal_lost :
    (∃ h, Run RegistryHistory.Step .start
      [.signalReroute "r" ["a"] 5, .signalReroute "s" ["a"] 3, .register "a" ["a"] 1 4] h ∧
      h.inner.received 1 = none ∧ ¬ h.Delivered) ∧
    (∃ h, Run RegistryHistory.Step .start
      [.signalReroute "z" ["a"] 5, .signalReroute "b0" ["b"] 3,
        .register "x" ["x", "a", "b"] 1 4] h ∧
      h.inner.received 1 = none ∧ ¬ h.Delivered) ∧
    ∃ h, Run RegistryHistory.Step .start
      [.signalReroute "r" ["a"] 5, .register "x" ["a"] 1 5, .signalReroute "x" [] 6] h ∧
      h.inner.received 1 = none ∧ ¬ h.Delivered := by
  have hrun : ∀ first second third : RegistryEvent, Run RegistryHistory.Step .start
      [first, second, third] (third.record (second.record (first.record .start))) :=
    fun _ _ _ ↦ .cons rfl (.cons rfl (.single rfl))
  refine ⟨⟨_, hrun .., ?_⟩, ⟨_, hrun .., ?_⟩, ⟨_, hrun .., ?_⟩⟩
  · exact ⟨by decide +kernel, not_delivered_of_silent ⟨1, "a", ["a"], 4⟩ ⟨"r", ["a"], 5⟩ "a"
      (by decide +kernel) (by decide +kernel) (by decide)
      (.inl rfl) (.inr (by decide)) (by decide +kernel)⟩
  · exact ⟨by decide +kernel, not_delivered_of_silent ⟨1, "x", ["x", "a", "b"], 4⟩
      ⟨"z", ["a"], 5⟩ "a" (by decide +kernel) (by decide +kernel) (by decide)
      (.inr (by decide)) (.inr (by decide)) (by decide +kernel)⟩
  · exact ⟨by decide +kernel, not_delivered_of_silent ⟨1, "x", ["a"], 5⟩ ⟨"x", [], 6⟩ "x"
      (by decide +kernel) (by decide +kernel) (by decide)
      (.inl rfl) (.inl rfl) (by decide +kernel)⟩

end CodexLb
