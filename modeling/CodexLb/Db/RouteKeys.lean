import CodexLb.Db.Accounts
import CodexLb.Relational.Query
import Mathlib.Data.List.Dedup

/-!
# Session route keys

Validation of caller-supplied keys (`src/db.rs:1894–1944`), resolution of a
reroute target (`src/db.rs:442–496`) and of the epoch that a transport
captures (`src/db.rs:1556–1602`). Validated keys are a type of their own.
-/

namespace CodexLb

open Relational

/-- `valid_affinity_hash`, `src/db.rs:1938–1943`. -/
def validAffinityHash (value : String) : Bool :=
  value.toList.length == 64 &&
    value.toList.all fun c ↦ c.isDigit || (decide ('a' ≤ c) && decide (c ≤ 'f'))

/-- The hash text of a number, as `affinity_hash` prints digests; `src/db.rs:1886–1892`. -/
def hexHash (n : Nat) : String := String.ofList (hexDigits 64 n)

/-- The test on a trimmed kind, `src/db.rs:1909–1915`. -/
def validRouteKind (kind : String) : Bool :=
  !kind.toList.isEmpty && decide (kind.toList.length ≤ 64) && kind.toList.all isWordChar

/-- A hash of 64 lowercase hexadecimal digits and a kind of 1 to 64 word characters. -/
def SessionRouteKey.WellFormed (key : SessionRouteKey) : Prop :=
  validAffinityHash key.keyHash = true ∧ validRouteKind key.kind = true

/-- Well-formed keys under distinct hashes, in the order of their first occurrence. -/
structure RouteKeys where
  keys : List SessionRouteKey
  distinct : (keys.map SessionRouteKey.keyHash).Nodup
  wellFormed : ∀ key ∈ keys, key.WellFormed
  deriving DecidableEq

namespace RouteKeys

/-- No keys. -/
def empty : RouteKeys := ⟨[], List.nodup_nil, fun _ h ↦ absurd h List.not_mem_nil⟩

/-- The hashes of the keys. -/
def hashes (validated : RouteKeys) : List String := validated.keys.map SessionRouteKey.keyHash

private theorem notMem_of_find? {keys : List SessionRouteKey} {keyHash : String}
    (h : keys.find? (fun known ↦ known.keyHash = keyHash) = none) :
    keyHash ∉ keys.map SessionRouteKey.keyHash := by
  intro hm
  obtain ⟨known, hk, rfl⟩ := List.mem_map.mp hm
  simpa using List.find?_eq_none.mp h known hk

/-- Append a well-formed key under a new hash. -/
def push (validated : RouteKeys) (key : SessionRouteKey) (hw : key.WellFormed)
    (hn : key.keyHash ∉ validated.keys.map SessionRouteKey.keyHash) : RouteKeys where
  keys := validated.keys ++ [key]
  distinct := by
    rw [List.map_append, List.map_singleton]
    exact validated.distinct.append (List.nodup_singleton _)
      (List.disjoint_singleton.mpr hn)
  wellFormed := by
    intro known hk
    rcases List.mem_append.mp hk with hk | hk
    · exact validated.wellFormed known hk
    · rw [List.mem_singleton.mp hk]
      exact hw

/-- One key of `validate_session_route_keys`, `src/db.rs:1902–1933`. -/
def addKey (validated : RouteKeys) (key : SessionRouteKey) : Except AppError RouteKeys :=
  if hh : validAffinityHash key.keyHash = true then
    if hk : validRouteKind (trim key.kind) = true then
      match hf : validated.keys.find? fun known ↦ known.keyHash = key.keyHash with
      | some known =>
        if known.kind ≠ trim key.kind then
          .error (.badRequest "one session route hash cannot have multiple kinds")
        else .ok validated
      | none =>
        .ok (validated.push ⟨key.keyHash, trim key.kind⟩ ⟨hh, hk⟩ (notMem_of_find? hf))
    else
      .error (.badRequest
        "session route kinds must be 1-64 ASCII letters, numbers, '_' or '-'")
  else
    .error (.badRequest "session route hashes must be 64 lowercase hexadecimal characters")

end RouteKeys

/-- `validate_session_route_keys`, `src/db.rs:1894–1936`. -/
def validateSessionRouteKeys (keys : List SessionRouteKey) : Except AppError RouteKeys :=
  if 500 < keys.length then
    .error (.badRequest "at most 500 session route keys can be used at once")
  else keys.foldlM RouteKeys.addKey .empty

/-- `resolve_session_route_target`, `src/db.rs:442–496`. -/
def resolveSessionRouteTarget [UuidText] (target : String) (s : Store) :
    Except AppError ResolvedSessionRouteTarget :=
  let target := trim target
  if target.toList.isEmpty then .error (.badRequest "reroute target must not be empty")
  else
    match UuidText.parseStr target with
    | some accountId =>
      match s.accountDisplayLabel accountId with
      | some accountLabel => .ok ⟨accountId, accountLabel⟩
      | none => .error (.notFound "account target not found")
    | none => do
      let normalized ← normalizeLabel target
      match s.accounts.select fun _ account ↦
          toAsciiLowercase (sqlTrim account.label) == normalized with
      | [] => .error (.notFound "account target not found")
      | [(accountId, account)] =>
        .ok ⟨accountId, if account.label = "" then "unlabeled" else account.label⟩
      | _ => .error (.badRequest "account target label is ambiguous")

/-- `INSERT INTO session_roots … ON CONFLICT DO NOTHING`, the first write of a bind without an
epoch and of a route action. -/
def Store.withRoot (s : Store) (rootKeyHash : String) (now : Instant) : Store :=
  { s with sessionRoots := s.sessionRoots.insert rootKeyHash (.default now) }

/-- `SELECT DISTINCT root_key_hash FROM session_route_keys WHERE key_hash IN (keys)`. -/
def mappedRoots (keyHashes : List String) (s : Store) : List String :=
  ((s.sessionRouteKeys.select fun k _ ↦ keyHashes.contains k).map fun row ↦
    row.2.rootKeyHash).dedup

/-- A key with the root it is mapped to; `src/db.rs:1569–1581`. -/
structure RoutedKey where
  keyHash : String
  rootKeyHash : String
  root : SessionRoot
  deriving DecidableEq, Repr

/-- The stored keys among some hashes, joined with their roots. -/
def routedKeys (keyHashes : List String) (s : Store) : List RoutedKey :=
  (s.sessionRouteKeys.select fun k _ ↦ keyHashes.contains k).filterMap fun row ↦
    (s.sessionRoots.find row.2.rootKeyHash).map fun root ↦ ⟨row.1, row.2.rootKeyHash, root⟩

/-- The order of `resolve_session_route_epoch`, `src/db.rs:1582–1586`. -/
def routedKeyBefore (a b : RoutedKey) : Bool :=
  let order :=
    (compareColumn b.root.updatedAt a.root.updatedAt).then <|
    (compareColumn b.root.routeGeneration a.root.routeGeneration).then <|
    (compareColumn a.rootKeyHash b.rootKeyHash).then <|
    compareColumn a.keyHash b.keyHash
  order == .lt

/-- `resolve_session_route_epoch`, `src/db.rs:1560–1602`. -/
def resolveSessionRouteEpoch (keys : List SessionRouteKey) (s : Store) :
    Except AppError (Option SessionRouteEpoch) := do
  let keys ← validateSessionRouteKeys keys
  return (firstBy routedKeyBefore (routedKeys keys.hashes s)).map fun routed ↦
    { rootKeyHash := routed.rootKeyHash
      routeGeneration := routed.root.routeGeneration
      selectionKeyHash := routed.keyHash }

/-- `selection_affinity`, `src/proxy.rs:613–625`. -/
def selectionAffinity (affinities : List SessionRouteKey) (routeEpoch : Option SessionRouteEpoch) :
    Option SessionRouteKey :=
  (routeEpoch.bind fun epoch ↦
    affinities.find? fun affinity ↦ affinity.keyHash = epoch.selectionKeyHash).or
    affinities.head?

/-! ### Validation -/

private theorem hashes_of_addKey {validated out : RouteKeys} {key : SessionRouteKey}
    (h : validated.addKey key = .ok out) :
    ∀ k, k ∈ out.hashes ↔ k ∈ validated.hashes ∨ k = key.keyHash := by
  intro k
  unfold RouteKeys.addKey at h
  split at h
  · split at h
    · split at h
      · next known hf =>
        split at h
        · cases h
        · cases h
          have hm := List.mem_of_find?_eq_some hf
          have he := List.find?_some hf
          have hin : key.keyHash ∈ validated.hashes :=
            List.mem_map.mpr ⟨known, hm, by simpa using he⟩
          constructor
          · exact .inl
          · rintro (hk | rfl)
            · exact hk
            · exact hin
      · cases h
        simp [RouteKeys.hashes, RouteKeys.push]
    · cases h
  · cases h

private theorem hashes_of_foldlM {keys : List SessionRouteKey} {validated out : RouteKeys}
    (h : keys.foldlM RouteKeys.addKey validated = .ok out) :
    ∀ k, k ∈ out.hashes ↔ k ∈ validated.hashes ∨ k ∈ keys.map SessionRouteKey.keyHash := by
  induction keys generalizing validated with
  | nil => cases h; simp
  | cons key keys ih =>
    intro k
    rw [List.foldlM_cons] at h
    obtain ⟨next, ha, h⟩ := bind_eq_ok.mp h
    rw [ih h k, hashes_of_addKey ha k, List.map_cons, List.mem_cons, or_assoc]

/-- Validation keeps the set of hashes. -/
theorem mem_hashes_of_validate {keys : List SessionRouteKey} {out : RouteKeys}
    (h : validateSessionRouteKeys keys = .ok out) (k : String) :
    k ∈ out.hashes ↔ k ∈ keys.map SessionRouteKey.keyHash := by
  unfold validateSessionRouteKeys at h
  split at h
  · cases h
  · rw [hashes_of_foldlM h k]
    simp [RouteKeys.hashes, RouteKeys.empty]

private theorem trim_of_valid {kind : String} (h : validRouteKind kind = true) :
    trim kind = kind := by
  unfold validRouteKind at h
  rw [Bool.and_eq_true] at h
  exact trim_of_word h.2

private theorem foldlM_of_wellFormed {keys : List SessionRouteKey} {validated : RouteKeys}
    (hd : (validated.hashes ++ keys.map SessionRouteKey.keyHash).Nodup)
    (hw : ∀ key ∈ keys, key.WellFormed) :
    ∃ out, keys.foldlM RouteKeys.addKey validated = .ok out ∧
      out.keys = validated.keys ++ keys := by
  induction keys generalizing validated with
  | nil => exact ⟨validated, rfl, by simp⟩
  | cons key keys ih =>
    obtain ⟨hh, hk⟩ := hw key List.mem_cons_self
    have hn : key.keyHash ∉ validated.hashes := by
      intro hm
      exact (List.nodup_append.mp hd).2.2 _ hm _ (by simp) rfl
    have hf : validated.keys.find? (fun known ↦ known.keyHash = key.keyHash) = none := by
      rw [List.find?_eq_none]
      intro known hm he
      exact hn (List.mem_map.mpr ⟨known, hm, by simpa using he⟩)
    have ha : ∃ next, validated.addKey key = .ok next ∧ next.keys = validated.keys ++ [key] := by
      refine ⟨validated.push key ⟨hh, hk⟩ hn, ?_, rfl⟩
      have ht := trim_of_valid hk
      unfold RouteKeys.addKey
      rw [dif_pos hh, dif_pos (by rw [ht]; exact hk)]
      split
      · next known hs => rw [hf] at hs; cases hs
      · simp only [ht]
    obtain ⟨next, hnext, hkeys⟩ := ha
    have hd' : (next.hashes ++ keys.map SessionRouteKey.keyHash).Nodup := by
      rw [RouteKeys.hashes, hkeys, List.map_append, List.append_assoc]
      exact hd
    obtain ⟨out, ho, hout⟩ := ih hd' fun k hk ↦ hw k (List.mem_cons_of_mem _ hk)
    refine ⟨out, ?_, ?_⟩
    · rw [List.foldlM_cons, hnext]
      exact ho
    · rw [hout, hkeys, List.append_assoc]
      rfl

/-- Well-formed keys under distinct hashes pass validation unchanged, up to 500 of them. -/
theorem validateSessionRouteKeys_of_wellFormed {keys : List SessionRouteKey}
    (hn : keys.length ≤ 500) (hd : (keys.map SessionRouteKey.keyHash).Nodup)
    (hw : ∀ key ∈ keys, key.WellFormed) :
    ∃ out, validateSessionRouteKeys keys = .ok out ∧ out.keys = keys := by
  rw [validateSessionRouteKeys, if_neg (by omega)]
  exact foldlM_of_wellFormed hd hw

/-- More than 500 keys are refused. -/
theorem validateSessionRouteKeys_of_length {keys : List SessionRouteKey}
    (hn : 500 < keys.length) : validateSessionRouteKeys keys =
      .error (.badRequest "at most 500 session route keys can be used at once") := if_pos hn

/-- The printed identifier of a stored account resolves to the account. -/
theorem resolveSessionRouteTarget_toText [UuidText] {accountId : Uuid} {s : Store}
    (h : s.accounts.has accountId = true) :
    ∃ label, resolveSessionRouteTarget (UuidText.toText accountId) s = .ok ⟨accountId, label⟩ := by
  have hlabel := s.accountDisplayLabel_isSome accountId
  rw [h] at hlabel
  obtain ⟨label, hl⟩ := Option.isSome_iff_exists.mp hlabel
  have hlength := UuidText.length_toText accountId
  have hne : (UuidText.toText accountId).toList.isEmpty = false := by
    cases he : (UuidText.toText accountId).toList with
    | nil => rw [he] at hlength; cases hlength
    | cons c rest => rfl
  refine ⟨label, ?_⟩
  simp only [resolveSessionRouteTarget, trim_of_word (UuidText.word_toText accountId), hne,
    UuidText.parseStr_toText, hl, Bool.false_eq_true, if_false]

/-! ### Mapped roots and epochs -/

/-- The roots that stored keys among the hashes are mapped to. -/
theorem mem_mappedRoots_iff {keyHashes : List String} {s : Store} {root : String} :
    root ∈ mappedRoots keyHashes s ↔
      ∃ k row, k ∈ keyHashes ∧ s.sessionRouteKeys.find k = some row ∧ row.rootKeyHash = root := by
  rw [mappedRoots, List.mem_dedup, List.mem_map]
  constructor
  · rintro ⟨⟨k, row⟩, hm, rfl⟩
    obtain ⟨hf, hc⟩ := Table.mem_select_iff.mp hm
    exact ⟨k, row, by simpa using hc, hf, rfl⟩
  · rintro ⟨k, row, hk, hf, rfl⟩
    exact ⟨(k, row), Table.mem_select_iff.mpr ⟨hf, by simpa using hk⟩, rfl⟩

/-- A routed key is a stored key among the hashes, with its stored root. -/
theorem mem_routedKeys_iff {keyHashes : List String} {s : Store} {routed : RoutedKey} :
    routed ∈ routedKeys keyHashes s ↔
      routed.keyHash ∈ keyHashes ∧
      (∃ row, s.sessionRouteKeys.find routed.keyHash = some row ∧
        row.rootKeyHash = routed.rootKeyHash) ∧
      s.sessionRoots.find routed.rootKeyHash = some routed.root := by
  rw [routedKeys, List.mem_filterMap]
  constructor
  · rintro ⟨⟨k, row⟩, hm, hroot⟩
    obtain ⟨hf, hc⟩ := Table.mem_select_iff.mp hm
    obtain ⟨root, hr, rfl⟩ := Option.map_eq_some_iff.mp hroot
    exact ⟨by simpa using hc, ⟨row, hf, rfl⟩, hr⟩
  · rintro ⟨hk, ⟨row, hf, he⟩, hr⟩
    refine ⟨(routed.keyHash, row), Table.mem_select_iff.mpr ⟨hf, by simpa using hk⟩, ?_⟩
    rw [he, hr]
    rfl

private theorem resolve_eq {keys : List SessionRouteKey} {validated : RouteKeys} {s : Store}
    (h : validateSessionRouteKeys keys = .ok validated) :
    resolveSessionRouteEpoch keys s =
      .ok ((firstBy routedKeyBefore (routedKeys validated.hashes s)).map fun routed ↦
        ⟨routed.rootKeyHash, routed.root.routeGeneration, routed.keyHash⟩) := by
  rw [resolveSessionRouteEpoch, h]
  rfl

/-- A captured epoch is the root of one of the keys, at its current generation. -/
theorem resolveSessionRouteEpoch_some {keys : List SessionRouteKey} {s : Store}
    {epoch : SessionRouteEpoch} (h : resolveSessionRouteEpoch keys s = .ok (some epoch)) :
    ∃ validated, validateSessionRouteKeys keys = .ok validated ∧
      ∃ routed ∈ routedKeys validated.hashes s,
        epoch = ⟨routed.rootKeyHash, routed.root.routeGeneration, routed.keyHash⟩ := by
  cases hv : validateSessionRouteKeys keys with
  | error e => rw [resolveSessionRouteEpoch, hv] at h; cases h
  | ok validated =>
    rw [resolve_eq hv, Except.ok.injEq] at h
    obtain ⟨routed, hr, rfl⟩ := Option.map_eq_some_iff.mp h
    exact ⟨validated, rfl, routed, firstBy_mem hr, rfl⟩

/-- No epoch is captured exactly when no key is mapped to a stored root. -/
theorem resolveSessionRouteEpoch_none {keys : List SessionRouteKey} {validated : RouteKeys}
    {s : Store} (hv : validateSessionRouteKeys keys = .ok validated) :
    resolveSessionRouteEpoch keys s = .ok none ↔ routedKeys validated.hashes s = [] := by
  rw [resolve_eq hv, Except.ok.injEq, Option.map_eq_none_iff, firstBy_eq_none_iff]

/-! ### Hashes of numbers -/

private theorem hash_digitChar : ∀ d < 16, (Nat.digitChar d).isDigit = true ∨
    'a' ≤ Nat.digitChar d ∧ Nat.digitChar d ≤ 'f' := by decide

/-- A printed digest passes the check on hashes. -/
theorem validAffinityHash_hexHash (n : Nat) : validAffinityHash (hexHash n) = true := by
  rw [validAffinityHash, hexHash, String.toList_ofList, length_hexDigits]
  simp only [beq_self_eq_true, Bool.true_and, List.all_eq_true]
  intro c hc
  obtain ⟨d, hd, rfl⟩ := mem_hexDigits hc
  simpa using hash_digitChar d hd

/-- Different digests print differently. -/
theorem hexHash_injOn {m n : Nat} (hm : m < 16 ^ 64) (hn : n < 16 ^ 64)
    (h : hexHash m = hexHash n) : m = n := by
  have hd : hexDigits 64 m = hexDigits 64 n := String.ofList_injective h
  have he := parseHex_hexDigits hm
  rw [hd, parseHex_hexDigits hn] at he
  exact (Option.some.inj he).symm

end CodexLb
