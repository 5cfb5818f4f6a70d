import CodexLb.Base.Models
import CodexLb.Relational.Table
import Mathlib.Data.Finset.Card
import Mathlib.Data.Finset.Option
import Mathlib.Data.Finset.Union
import Mathlib.Data.String.Basic

/-!
# The session connection registry

The in-memory index of open WebSockets, `src/session_registry.rs`. A hash map
is a table, a set of keys a list without duplicates, a set of tokens a finite
set; the watch channel of a connection is the value that it holds.
-/

namespace CodexLb

open Relational

/-- `ConnectionEntry`, `src/session_registry.rs:41–47`, with the signal that its receiver holds. -/
structure ConnectionEntry where
  rootKeyHash : String
  aliases : List String
  accountId : Uuid
  generation : Int
  signal : Option Int
  deriving DecidableEq, Repr

/-- `RegistryInner`, `src/session_registry.rs:32–39`. -/
structure RegistryInner where
  nextToken : Nat
  connections : Table Nat ConnectionEntry
  connectionsByKey : Table String (Finset Nat)
  rootByKey : Table String String
  generationByRoot : Table String Int
  deriving DecidableEq

/-- `SessionConnectionSnapshot`, `src/session_registry.rs:14–18`. -/
structure SessionConnectionSnapshot where
  connectionCount : Nat
  accountIds : Finset Uuid
  deriving DecidableEq

/-- `SessionSignalResult`, `src/session_registry.rs:20–25`. -/
structure SessionSignalResult where
  matchingConnections : Nat
  signaledConnections : Nat
  accountIds : Finset Uuid
  deriving DecidableEq

namespace RegistryInner

/-- `RegistryInner::default`. -/
def default : RegistryInner := ⟨0, .empty, .empty, .empty, .empty⟩

/-- The root that `register` settles on: that of the given root hash, else the least of those that
the aliases are mapped to, else the given root hash; `src/session_registry.rs:66–77`. -/
def canonicalRoot (inner : RegistryInner) (rootKeyHash : String) (aliases : List String) : String :=
  match inner.rootByKey.find rootKeyHash with
  | some root => root
  | none => ((aliases.filterMap inner.rootByKey.find).min?).getD rootKeyHash

/-- The keys under which `register` indexes a connection; `src/session_registry.rs:64–78`. -/
def registeredKeys (inner : RegistryInner) (rootKeyHash : String) (aliases : List String) :
    List String := aliases.dedup.insert (inner.canonicalRoot rootKeyHash aliases)

/-- The token of the next registration, a `u64` that wraps around to one;
`src/session_registry.rs:89–90`. -/
def token (inner : RegistryInner) : Nat := max ((inner.nextToken + 1) % 2 ^ 64) 1

/-- The signal that a registration starts with; `src/session_registry.rs:79–87`. -/
def initialSignal (inner : RegistryInner) (root : String) (generation : Int) : Option Int :=
  let currentGeneration := (inner.generationByRoot.find root).getD generation
  if generation < currentGeneration then some currentGeneration else none

/-- `register`, `src/session_registry.rs:56–116`. The registration is known by its token. -/
def register (inner : RegistryInner) (rootKeyHash : String) (aliases : List String)
    (accountId : Uuid) (generation : Int) : RegistryInner :=
  let root := inner.canonicalRoot rootKeyHash aliases
  let keys := inner.registeredKeys rootKeyHash aliases
  let entry : ConnectionEntry := ⟨root, keys, accountId, generation,
    inner.initialSignal root generation⟩
  { inner with
    nextToken := inner.token
    connections := inner.connections.upsert inner.token entry fun _ ↦ entry
    connectionsByKey :=
      inner.connectionsByKey.upsertKeys keys {inner.token} (Insert.insert inner.token)
    rootByKey := inner.rootByKey.insertKeys keys root }

/-- The keys that a lookup follows: the given ones and the roots that they are mapped to;
`src/session_registry.rs:235–244`. -/
def lookupKeys (inner : RegistryInner) (rootKeyHash : String) (aliases : List String) :
    List String :=
  let keys := aliases.dedup.insert rootKeyHash
  keys ++ keys.filterMap inner.rootByKey.find

/-- The connections that are indexed under a key. -/
def tokensOf (inner : RegistryInner) (key : String) : Finset Nat :=
  (inner.connectionsByKey.find key).getD ∅

/-- `matching_tokens`, `src/session_registry.rs:230–250`. -/
def matchingTokens (inner : RegistryInner) (rootKeyHash : String) (aliases : List String) :
    Finset Nat :=
  (inner.lookupKeys rootKeyHash aliases).toFinset.biUnion inner.tokensOf

/-- The accounts of some connections. -/
def accountsOf (inner : RegistryInner) (tokens : Finset Nat) : Finset Uuid :=
  tokens.biUnion fun token ↦ ((inner.connections.find token).map ConnectionEntry.accountId).toFinset

/-- `snapshot`, `src/session_registry.rs:118–133`. -/
def snapshot (inner : RegistryInner) (rootKeyHash : String) (aliases : List String) :
    SessionConnectionSnapshot :=
  let tokens := inner.matchingTokens rootKeyHash aliases
  ⟨tokens.card, inner.accountsOf tokens⟩

/-- A matching connection after a reroute; `src/session_registry.rs:166–176`. -/
def signaled (rootKeyHash : String) (generation : Int) (entry : ConnectionEntry) :
    ConnectionEntry :=
  { entry with
    rootKeyHash := rootKeyHash
    signal := if entry.generation < generation then some generation else entry.signal }

/-- `signal_reroute`, `src/session_registry.rs:135–192`. -/
def signalReroute (inner : RegistryInner) (rootKeyHash : String) (aliases : List String)
    (generation : Int) : SessionSignalResult × RegistryInner :=
  let tokens := inner.matchingTokens rootKeyHash aliases
  let old := tokens.filter fun token ↦
    (inner.connections.find token).any fun entry ↦ entry.generation < generation
  (⟨tokens.card, old.card, inner.accountsOf tokens⟩,
    { inner with
      generationByRoot := inner.generationByRoot.upsert rootKeyHash generation (max · generation)
      rootByKey := inner.rootByKey.upsertKeys (aliases.dedup.insert rootKeyHash) rootKeyHash
        fun _ ↦ rootKeyHash
      connections := inner.connections.update (fun token _ ↦ token ∈ tokens)
        (signaled rootKeyHash generation)
      connectionsByKey :=
        if tokens = ∅ then inner.connectionsByKey
        else inner.connectionsByKey.upsert rootKeyHash tokens (· ∪ tokens) })

/-- `unregister`, `src/session_registry.rs:194–209`, which dropping a registration runs. -/
def unregister (inner : RegistryInner) (token : Nat) : RegistryInner :=
  match inner.connections.find token with
  | none => inner
  | some entry =>
    let keys := entry.aliases.insert entry.rootKeyHash
    { inner with
      connections := inner.connections.delete fun other _ ↦ other = token
      connectionsByKey :=
        (inner.connectionsByKey.update (fun key _ ↦ key ∈ keys) (·.erase token)).delete
          fun key tokens ↦ key ∈ keys && tokens = ∅ }

/-! ### What the operations do to the index -/

variable {inner : RegistryInner} {rootKeyHash key : String} {aliases : List String}
  {accountId : Uuid} {generation : Int} {token : Nat}

/-- The keys of a registration are distinct. -/
theorem nodup_registeredKeys (inner : RegistryInner) (rootKeyHash : String)
    (aliases : List String) : (inner.registeredKeys rootKeyHash aliases).Nodup :=
  (List.nodup_dedup aliases).insert

/-- A connection is indexed under its aliases and the root that it settles on. -/
theorem mem_registeredKeys : key ∈ inner.registeredKeys rootKeyHash aliases ↔
    key = inner.canonicalRoot rootKeyHash aliases ∨ key ∈ aliases := by
  rw [registeredKeys, List.mem_insert_iff, List.mem_dedup]

/-- A lookup follows the given keys and the roots that they are mapped to. -/
theorem mem_lookupKeys : key ∈ inner.lookupKeys rootKeyHash aliases ↔
    (key = rootKeyHash ∨ key ∈ aliases) ∨
      ∃ given, (given = rootKeyHash ∨ given ∈ aliases) ∧ inner.rootByKey.find given = some key := by
  simp only [lookupKeys, List.mem_append, List.mem_filterMap, List.mem_insert_iff, List.mem_dedup]

/-- A connection matches when it is indexed under one of the keys that the lookup follows. -/
theorem mem_matchingTokens : token ∈ inner.matchingTokens rootKeyHash aliases ↔
    ∃ key ∈ inner.lookupKeys rootKeyHash aliases, token ∈ inner.tokensOf key := by
  simp only [matchingTokens, Finset.mem_biUnion, List.mem_toFinset]

/-- A registration indexes its own token under its own keys. -/
theorem mem_tokensOf_register :
    token ∈ (inner.register rootKeyHash aliases accountId generation).tokensOf key ↔
      token ∈ inner.tokensOf key ∨
        token = inner.token ∧ key ∈ inner.registeredKeys rootKeyHash aliases := by
  simp only [tokensOf, register, Table.find_upsertKeys _ (nodup_registeredKeys ..)]
  split
  · next hk =>
    cases inner.connectionsByKey.find key with
    | none => simp [hk]
    | some tokens => simp [hk, or_comm]
  · next hk => simp [hk]

/-- A reroute indexes the matching connections under its root. -/
theorem mem_tokensOf_signalReroute :
    token ∈ (inner.signalReroute rootKeyHash aliases generation).2.tokensOf key ↔
      token ∈ inner.tokensOf key ∨
        key = rootKeyHash ∧ token ∈ inner.matchingTokens rootKeyHash aliases := by
  simp only [tokensOf, signalReroute]
  split
  · next hempty => simp [hempty]
  · rw [Table.find_upsert]
    split
    · next hk =>
      subst hk
      cases inner.connectionsByKey.find key <;> simp
    · next hk => simp [hk]

/-- Dropping a connection rewrites the keys that its entry remembers, and removes those that are
left without a connection. -/
theorem find_unregister {dropped : Nat} {entry : ConnectionEntry}
    (h : inner.connections.find dropped = some entry) (key : String) :
    (inner.unregister dropped).connectionsByKey.find key =
      if key = entry.rootKeyHash ∨ key ∈ entry.aliases then
        ((inner.connectionsByKey.find key).map (·.erase dropped)).filter fun tokens ↦ tokens ≠ ∅
      else inner.connectionsByKey.find key := by
  simp only [unregister, h, Table.find_delete, Table.find_update, List.mem_insert_iff]
  by_cases hk : key = entry.rootKeyHash ∨ key ∈ entry.aliases
  · cases inner.connectionsByKey.find key <;> simp [hk]
  · cases inner.connectionsByKey.find key <;> simp [hk]

/-- Dropping a connection removes it from the keys that its entry remembers. -/
theorem mem_tokensOf_unregister {dropped : Nat} {entry : ConnectionEntry}
    (h : inner.connections.find dropped = some entry) :
    token ∈ (inner.unregister dropped).tokensOf key ↔
      token ∈ inner.tokensOf key ∧
        ¬ (token = dropped ∧ (key = entry.rootKeyHash ∨ key ∈ entry.aliases)) := by
  rw [tokensOf, find_unregister h, tokensOf]
  split
  · next hk =>
    cases inner.connectionsByKey.find key with
    | none => simp
    | some tokens =>
      have hmem : token ∈ (Option.filter (fun tokens ↦ tokens ≠ ∅)
          (some (tokens.erase dropped))).getD ∅ ↔ token ∈ tokens.erase dropped := by
        by_cases hempty : tokens.erase dropped = ∅
        · simp [Option.filter, hempty]
        · simp [Option.filter, hempty]
      rw [Option.map_some, hmem, Finset.mem_erase, Option.getD_some]
      simp [hk, and_comm]
  · next hk => simp [hk]

/-- The entry that a registration stores. -/
def registered (inner : RegistryInner) (rootKeyHash : String) (aliases : List String)
    (accountId : Uuid) (generation : Int) : ConnectionEntry :=
  let root := inner.canonicalRoot rootKeyHash aliases
  ⟨root, inner.registeredKeys rootKeyHash aliases, accountId, generation,
    inner.initialSignal root generation⟩

/-- A registration stores its own entry. -/
theorem find_connections_register (token : Nat) :
    (inner.register rootKeyHash aliases accountId generation).connections.find token =
      if token = inner.token then some (inner.registered rootKeyHash aliases accountId generation)
      else inner.connections.find token := by
  simp only [register, registered, Table.find_upsert]
  split
  · cases inner.connections.find inner.token <;> rfl
  · rfl

/-- A reroute rewrites the entries of the matching connections. -/
theorem find_connections_signalReroute (token : Nat) :
    (inner.signalReroute rootKeyHash aliases generation).2.connections.find token =
      (inner.connections.find token).map fun entry ↦
        if token ∈ inner.matchingTokens rootKeyHash aliases then
          signaled rootKeyHash generation entry
        else entry := by
  simp only [signalReroute, Table.find_update, decide_eq_true_eq]

/-- Dropping a connection removes its entry. -/
theorem find_connections_unregister (dropped token : Nat) :
    (inner.unregister dropped).connections.find token =
      if token = dropped then none else inner.connections.find token := by
  unfold unregister
  split
  · next hnone =>
    split
    · next he => rw [he, hnone]
    · rfl
  · rw [Table.find_delete]
    split
    · next he => cases inner.connections.find token <;> simp [he]
    · next he => cases inner.connections.find token <;> simp [he]

end RegistryInner

/-! ### Histories -/

/-- What happens to the registry; a registration is dropped by its token. -/
inductive RegistryEvent where
  | register (rootKeyHash : String) (aliases : List String) (accountId : Uuid) (generation : Int)
  | signalReroute (rootKeyHash : String) (aliases : List String) (generation : Int)
  | drop (token : Nat)
  deriving DecidableEq, Repr

/-- The registry after an event. -/
def RegistryEvent.exec (event : RegistryEvent) (inner : RegistryInner) : RegistryInner :=
  match event with
  | .register rootKeyHash aliases accountId generation =>
    inner.register rootKeyHash aliases accountId generation
  | .signalReroute rootKeyHash aliases generation =>
    (inner.signalReroute rootKeyHash aliases generation).2
  | .drop token => inner.unregister token

/-- One event of the registry. -/
def RegistryInner.Step (inner : RegistryInner) (event : RegistryEvent) (after : RegistryInner) :
    Prop := event.exec inner = after

end CodexLb
