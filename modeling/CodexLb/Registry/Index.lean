import CodexLb.Registry.Connections
import CodexLb.Transition.Run

/-!
# The connection index

`unregister` cleans up the keys that an entry remembers: its aliases and one
root. The index stays exact as long as no reroute replaces a root under which a
connection is indexed on that root's account alone.
-/

namespace CodexLb

open Relational Transition

/-- The entry of a connection remembers that the connection is indexed under a key. -/
def ConnectionEntry.Remembers (entry : ConnectionEntry) (key : String) : Prop :=
  key = entry.rootKeyHash ∨ key ∈ entry.aliases

instance (entry : ConnectionEntry) (key : String) : Decidable (entry.Remembers key) :=
  inferInstanceAs (Decidable (key = entry.rootKeyHash ∨ key ∈ entry.aliases))

/-- The live connections that remember one of some keys. -/
def RegistryInner.liveConnections (inner : RegistryInner) (keys : List String) : Finset Nat :=
  ((inner.connections.select fun _ entry ↦ decide (∃ key ∈ keys, entry.Remembers key)).map
    Prod.fst).toFinset

/-- The index holds live connections only, counts exactly those, and is empty without them. -/
structure RegistryInner.CleanIndex (inner : RegistryInner) : Prop where
  live : ∀ key tokens, inner.connectionsByKey.find key = some tokens →
    ∀ token ∈ tokens, inner.connections.has token = true
  nonempty : ∀ key tokens, inner.connectionsByKey.find key = some tokens → tokens ≠ ∅
  snapshot : ∀ rootKeyHash aliases, (inner.snapshot rootKeyHash aliases).connectionCount =
    (inner.liveConnections (inner.lookupKeys rootKeyHash aliases)).card
  signal : ∀ rootKeyHash aliases generation,
    (inner.signalReroute rootKeyHash aliases generation).1.matchingConnections =
      (inner.liveConnections (inner.lookupKeys rootKeyHash aliases)).card
  dropped : inner.connections.rows = [] → inner.connectionsByKey.rows = [] ∧
    ∀ rootKeyHash aliases, (inner.snapshot rootKeyHash aliases).connectionCount = 0

/-- A registration gets a token that no live connection has, and a reroute matches a connection
only while the root of its entry is one of its aliases or the root of the reroute. -/
def KeepsTrack (inner : RegistryInner) : RegistryEvent → Prop
  | .register .. => inner.connections.has inner.token = false
  | .signalReroute rootKeyHash aliases _ =>
    ∀ token ∈ inner.matchingTokens rootKeyHash aliases, ∀ entry,
      inner.connections.find token = some entry →
      entry.rootKeyHash ∈ entry.aliases ∨ entry.rootKeyHash = rootKeyHash
  | .drop _ => True

/-- The index holds exactly what the entries remember. -/
structure RegistryInner.ExactIndex (inner : RegistryInner) : Prop where
  exact : ∀ key token, token ∈ inner.tokensOf key ↔
    ∃ entry, inner.connections.find token = some entry ∧ entry.Remembers key
  nonempty : ∀ key tokens, inner.connectionsByKey.find key = some tokens → tokens ≠ ∅

namespace RegistryInner

variable {inner after : RegistryInner} {rootKeyHash : String} {aliases : List String}
  {accountId : Uuid} {generation : Int}

/-- The registry starts with an exact index. -/
theorem ExactIndex.default : RegistryInner.default.ExactIndex where
  exact key token := by
    constructor
    · intro h
      cases h
    · rintro ⟨entry, hentry, -⟩
      cases hentry
  nonempty key tokens h := by cases h

/-- An indexed token is that of a live connection. -/
theorem ExactIndex.live (h : inner.ExactIndex) {key : String} {token : Nat}
    (ht : token ∈ inner.tokensOf key) : ∃ entry, inner.connections.find token = some entry := by
  obtain ⟨entry, hentry, -⟩ := (h.exact key token).mp ht
  exact ⟨entry, hentry⟩

/-- A registration under a fresh token keeps the index exact. -/
theorem ExactIndex.register (h : inner.ExactIndex)
    (hfresh : inner.connections.has inner.token = false) :
    (inner.register rootKeyHash aliases accountId generation).ExactIndex := by
  have hnone := Table.has_eq_false_iff.mp hfresh
  constructor
  · intro key token
    rw [mem_tokensOf_register, find_connections_register]
    by_cases ht : token = inner.token
    · subst ht
      have hold : inner.token ∉ inner.tokensOf key := by
        intro hin
        obtain ⟨entry, hentry⟩ := h.live hin
        rw [hnone] at hentry
        cases hentry
      have hremembers : (inner.registered rootKeyHash aliases accountId generation).Remembers key ↔
          key ∈ inner.registeredKeys rootKeyHash aliases := by
        rw [ConnectionEntry.Remembers, registered, or_iff_right_of_imp]
        intro hroot
        exact mem_registeredKeys.mpr (.inl hroot)
      simp [hold, hremembers]
    · rw [if_neg ht, h.exact]
      simp [ht]
  · intro key tokens hfind
    rw [RegistryInner.register, Table.find_upsertKeys _ (nodup_registeredKeys ..)] at hfind
    split at hfind
    · rw [Option.some.injEq] at hfind
      rw [← hfind]
      cases inner.connectionsByKey.find key with
      | none => exact Finset.singleton_ne_empty _
      | some tokens => exact Finset.insert_ne_empty _ _
    · exact h.nonempty key tokens hfind

/-- A reroute that replaces no root on which the index depends keeps the index exact. -/
theorem ExactIndex.signalReroute (h : inner.ExactIndex)
    (hroots : ∀ token ∈ inner.matchingTokens rootKeyHash aliases, ∀ entry,
      inner.connections.find token = some entry →
      entry.rootKeyHash ∈ entry.aliases ∨ entry.rootKeyHash = rootKeyHash) :
    (inner.signalReroute rootKeyHash aliases generation).2.ExactIndex := by
  constructor
  · intro key token
    rw [mem_tokensOf_signalReroute, find_connections_signalReroute, h.exact]
    by_cases hm : token ∈ inner.matchingTokens rootKeyHash aliases
    · obtain ⟨found, _, hin⟩ := mem_matchingTokens.mp hm
      obtain ⟨entry, hentry⟩ := h.live hin
      have hcase := hroots token hm entry hentry
      simp only [hentry, hm, Option.map_some, if_true, Option.some.injEq, exists_eq_left',
        ConnectionEntry.Remembers, signaled, and_true]
      constructor
      · rintro ((hroot | hkey) | hroot)
        · rcases hcase with halias | hsame
          · exact .inr (hroot ▸ halias)
          · exact .inl (hroot.trans hsame)
        · exact .inr hkey
        · exact .inl hroot
      · rintro (hroot | hkey)
        · exact .inr hroot
        · exact .inl (.inr hkey)
    · simp [hm]
  · intro key tokens hfind
    simp only [RegistryInner.signalReroute] at hfind
    split at hfind
    · exact h.nonempty key tokens hfind
    · next hne =>
      rw [Table.find_upsert] at hfind
      split at hfind
      · rw [Option.some.injEq] at hfind
        rw [← hfind]
        cases inner.connectionsByKey.find rootKeyHash with
        | none => exact hne
        | some old =>
          intro hempty
          exact hne (Finset.union_eq_empty.mp hempty).2
      · exact h.nonempty key tokens hfind

/-- Dropping a registration keeps the index exact. -/
theorem ExactIndex.unregister (h : inner.ExactIndex) (dropped : Nat) :
    (inner.unregister dropped).ExactIndex := by
  cases hfound : inner.connections.find dropped with
  | none =>
    have hsame : inner.unregister dropped = inner := by
      rw [RegistryInner.unregister, hfound]
    rw [hsame]
    exact h
  | some entry =>
    constructor
    · intro key token
      rw [mem_tokensOf_unregister hfound, find_connections_unregister, h.exact]
      by_cases ht : token = dropped
      · subst ht
        rw [if_pos rfl]
        constructor
        · rintro ⟨⟨found, hfind, hremembers⟩, hkept⟩
          cases hfound.symm.trans hfind
          exact absurd ⟨rfl, hremembers⟩ hkept
        · rintro ⟨_, hnone, -⟩
          cases hnone
      · simp [ht]
    · intro key tokens hfind
      rw [find_unregister hfound] at hfind
      split at hfind
      · have hne := (Option.filter_eq_some_iff.mp hfind).2
        simpa using hne
      · exact h.nonempty key tokens hfind

/-- An event that keeps track of every connection keeps the index exact. -/
theorem ExactIndex.step (h : inner.ExactIndex) {event : RegistryEvent}
    (hkeeps : KeepsTrack inner event) (hstep : inner.Step event after) : after.ExactIndex := by
  subst hstep
  cases event with
  | register rootKeyHash aliases accountId generation => exact h.register hkeeps
  | signalReroute rootKeyHash aliases generation => exact h.signalReroute hkeeps
  | drop token => exact h.unregister token

/-- With an exact index, a lookup finds exactly the live connections that remember its keys. -/
theorem ExactIndex.matchingTokens_eq (h : inner.ExactIndex) (rootKeyHash : String)
    (aliases : List String) : inner.matchingTokens rootKeyHash aliases =
      inner.liveConnections (inner.lookupKeys rootKeyHash aliases) := by
  ext token
  rw [mem_matchingTokens, liveConnections, List.mem_toFinset, List.mem_map]
  constructor
  · rintro ⟨key, hkey, hin⟩
    obtain ⟨entry, hentry, hremembers⟩ := (h.exact key token).mp hin
    exact ⟨(token, entry), Table.mem_select_iff.mpr
      ⟨hentry, decide_eq_true ⟨key, hkey, hremembers⟩⟩, rfl⟩
  · rintro ⟨⟨found, entry⟩, hrow, rfl⟩
    obtain ⟨hentry, hmatches⟩ := Table.mem_select_iff.mp hrow
    obtain ⟨key, hkey, hremembers⟩ := of_decide_eq_true hmatches
    exact ⟨key, hkey, (h.exact key found).mpr ⟨entry, hentry, hremembers⟩⟩

/-- An exact index is clean. -/
theorem ExactIndex.cleanIndex (h : inner.ExactIndex) : inner.CleanIndex where
  live key tokens hfind token ht := by
    have hin : token ∈ inner.tokensOf key := by rwa [tokensOf, hfind]
    exact Table.has_iff.mpr (h.live hin)
  nonempty := h.nonempty
  snapshot rootKeyHash aliases := by
    rw [RegistryInner.snapshot, h.matchingTokens_eq]
  signal rootKeyHash aliases generation := by
    rw [RegistryInner.signalReroute, h.matchingTokens_eq]
  dropped hnone := by
    have hgone : ∀ token, inner.connections.find token = none := by
      intro token
      rw [Table.find, hnone]
      rfl
    constructor
    · apply List.eq_nil_iff_forall_not_mem.mpr
      rintro ⟨key, tokens⟩ hrow
      have hfind := Table.mem_rows_iff.mp hrow
      obtain ⟨token, ht⟩ := Finset.nonempty_iff_ne_empty.mpr (h.nonempty key tokens hfind)
      have hin : token ∈ inner.tokensOf key := by rwa [tokensOf, hfind]
      obtain ⟨entry, hentry⟩ := h.live hin
      rw [hgone] at hentry
      cases hentry
    · intro rootKeyHash aliases
      rw [RegistryInner.snapshot, h.matchingTokens_eq, liveConnections, Table.select, hnone]
      rfl

end RegistryInner

/-- The index never outlives its connections: in every history that keeps track of them, it holds
live connections only, its counts are exact, and it ends up empty. -/
theorem index_never_outlives_connections {inner : RegistryInner} {events : List RegistryEvent}
    (hrun : Run (guarded RegistryInner.Step KeepsTrack) .default events inner) :
    inner.CleanIndex := by
  have hexact : inner.ExactIndex := by
    apply hrun.invariant _ RegistryInner.ExactIndex.default
    rintro inner event after h ⟨hkeeps, hstep⟩
    exact h.step hkeeps hstep
  exact hexact.cleanIndex

/-- A connection that was rerouted once and dropped leaves no trace. -/
theorem index_never_outlives_connections_dropped :
    (((RegistryInner.default.register "a" ["a"] 1 0).signalReroute "r" ["a"] 1).2.unregister
      1).CleanIndex := by
  have hsignal : KeepsTrack (RegistryInner.default.register "a" ["a"] 1 0)
      (.signalReroute "r" ["a"] 1) := by
    intro token hm entry hentry
    rw [RegistryInner.find_connections_register] at hentry
    split at hentry
    · cases hentry
      exact .inl (by decide)
    · cases hentry
  have hrun : Run (guarded RegistryInner.Step KeepsTrack) .default
      [.register "a" ["a"] 1 0, .signalReroute "r" ["a"] 1, .drop 1] _ :=
    .cons ⟨(by decide : RegistryInner.default.connections.has _ = false), rfl⟩
      (.cons ⟨hsignal, rfl⟩ (.single ⟨trivial, rfl⟩))
  exact index_never_outlives_connections hrun

/-- A connection that was rerouted under two roots and dropped stays in the index under the first
one, and is still counted. -/
theorem index_outlives_connection :
    ∃ inner, Run RegistryInner.Step .default
      [.register "a" ["a"] 1 0, .signalReroute "r" ["a"] 1, .signalReroute "s" ["a"] 2, .drop 1]
      inner ∧ inner.connections.rows = [] ∧ (inner.snapshot "r" []).connectionCount = 1 ∧
      ¬ inner.CleanIndex := by
  refine ⟨_, .cons rfl (.cons rfl (.cons rfl (.single rfl))), by decide +kernel,
    by decide +kernel, fun hclean ↦ ?_⟩
  have hzero := (hclean.dropped (by decide +kernel)).2 "r" []
  revert hzero
  decide +kernel

end CodexLb
