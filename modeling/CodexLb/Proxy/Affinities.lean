import CodexLb.Db.Bind
import CodexLb.Proxy.Response
import CodexLb.Proxy.Stream

/-!
# The keys of a client

What a client's headers and body name its session by: `request_affinities`,
`src/proxy.rs:552–604`, and `websocket_affinities`, `src/websocket.rs:842–866`.
A place of a request is a kind of key with what is found there. Whatever a
client sends, the store accepts the keys as they are, with the key of the
response too.
-/

namespace CodexLb.Proxy

/-- `AFFINITY_VALUE_LIMIT`, `src/proxy.rs:30`, and the limit of `src/websocket.rs:857`. -/
def affinityValueLimit : Nat := 64 * 1024

/-- A place of a request: a kind of key, and what is found there. -/
abbrev Place := String × Option String

/-- The value at a place: trimmed, not empty and within the limit; `src/proxy.rs:564–569`. -/
def affinityValue (found : Option String) : Option String :=
  (found.map trim).filter fun value ↦
    !value.toList.isEmpty && decide (value.utf8ByteSize ≤ affinityValueLimit)

/-- The headers of `request_affinities`, `src/proxy.rs:553–560`. -/
def requestHeaderKeys : List (String × String) :=
  [("x-codex-turn-state", "turn_state"), ("session_id", "session_id"),
    ("x-session-id", "session_id"), ("x-codex-session-id", "session_id"),
    ("x-codex-conversation-id", "conversation_id"), ("conversation_id", "conversation_id")]

/-- The pointers of `request_affinities`, `src/proxy.rs:581–588`. -/
def requestBodyKeys : List (List String × String) :=
  [(["prompt_cache_key"], "prompt_cache_key"), (["session_id"], "session_id"),
    (["conversation_id"], "conversation_id"), (["previous_response_id"], "response_id"),
    (["metadata", "session_id"], "session_id"),
    (["metadata", "conversation_id"], "conversation_id")]

/-- The headers of `websocket_affinities`, `src/websocket.rs:843–849`. -/
def websocketHeaderKeys : List (String × String) :=
  [("session-id", "session_id"), ("x-session-id", "session_id"),
    ("x-codex-session-id", "session_id"), ("thread-id", "thread_id"),
    ("x-client-request-id", "thread_id")]

/-- The places of some headers. -/
def headerPlaces (keys : List (String × String)) (headers : Headers) : List Place :=
  keys.map fun key ↦ (key.2, headerText headers key.1)

/-- The places of a body that is JSON. -/
def bodyPlaces (value : JsonValue) : List Place :=
  requestBodyKeys.map fun key ↦ (key.2, (value.pointer key.1).bind JsonValue.asStr)

private theorem validRouteKind_header (headers : Headers) : ∀ keys : List (String × String),
    (keys.all fun key ↦ validRouteKind key.2) = true →
      ∀ place ∈ headerPlaces keys headers, validRouteKind place.1 = true := by
  intro keys hkeys place hplace
  obtain ⟨key, hkey, rfl⟩ := List.mem_map.mp hplace
  exact List.all_eq_true.mp hkeys key hkey

private theorem validRouteKind_body (value : JsonValue) :
    ∀ place ∈ bodyPlaces value, validRouteKind place.1 = true := by
  intro place hplace
  obtain ⟨key, hkey, rfl⟩ := List.mem_map.mp hplace
  exact List.all_eq_true.mp (by decide : (requestBodyKeys.all fun key ↦
    validRouteKind key.2) = true) key hkey

section Keys

variable [Sha256]

/-- One pass of the loops, `src/proxy.rs:563–575`. The set of hashes seen so far is that of the
keys so far. -/
def collectAffinity (affinities : List SessionRouteKey) (place : Place) : List SessionRouteKey :=
  match affinityValue place.2 with
  | none => affinities
  | some value =>
    let affinity := sessionRouteKey place.1 value
    if affinity.keyHash ∈ affinities.map SessionRouteKey.keyHash then affinities
    else affinities ++ [affinity]

/-- A loop over some places. -/
def collectAffinities (affinities : List SessionRouteKey) (places : List Place) :
    List SessionRouteKey :=
  places.foldl collectAffinity affinities

/-- `request_affinities`, `src/proxy.rs:552–604`. -/
def requestAffinities [JsonText] (headers : Headers) (body : List UInt8) : List SessionRouteKey :=
  let affinities := collectAffinities [] (headerPlaces requestHeaderKeys headers)
  match (String.fromUTF8? ⟨body.toArray⟩).bind JsonText.fromStr with
  | none => affinities
  | some value => collectAffinities affinities (bodyPlaces value)

/-- `websocket_affinities`, `src/websocket.rs:842–866`. -/
def websocketAffinities (headers : Headers) : List SessionRouteKey :=
  collectAffinities [] (headerPlaces websocketHeaderKeys headers)

/-- The keys of a request with that of its response, `src/proxy.rs:633–641` and
`src/websocket.rs:882–890`. -/
def responseAffinities (affinities : List SessionRouteKey) (responseId : String) :
    List SessionRouteKey :=
  let key := sessionRouteKey "response_id" responseId
  if affinities.any fun affinity ↦ affinity.keyHash == key.keyHash then affinities
  else affinities ++ [key]

/-- The keys of a client: of a request, or of a WebSocket. -/
inductive ClientKeys [JsonText] : List SessionRouteKey → Prop
  | request (headers : Headers) (body : List UInt8) : ClientKeys (requestAffinities headers body)
  | websocket (headers : Headers) : ClientKeys (websocketAffinities headers)

/-! ### Collecting keys -/

/-- Keys under distinct hashes, each of a value that was found at one of the places, and every
such value is among them. -/
structure Collected (places : List Place) (affinities : List SessionRouteKey) : Prop where
  distinct : (affinities.map SessionRouteKey.keyHash).Nodup
  found : ∀ key ∈ affinities, ∃ place ∈ places, ∃ value, affinityValue place.2 = some value ∧
    key = sessionRouteKey place.1 value
  complete : ∀ place ∈ places, ∀ value, affinityValue place.2 = some value →
    affinityHash place.1 value ∈ affinities.map SessionRouteKey.keyHash
  bounded : affinities.length ≤ places.length

namespace Collected

variable {places : List Place} {affinities : List SessionRouteKey}

/-- Nothing was collected from no place. -/
theorem nil : Collected [] [] :=
  ⟨List.nodup_nil, fun _ h ↦ absurd h List.not_mem_nil, fun _ h ↦ absurd h List.not_mem_nil,
    Nat.le_refl 0⟩

/-- One more place. -/
theorem collect (h : Collected places affinities) (place : Place) :
    Collected (places ++ [place]) (collectAffinity affinities place) := by
  have hfound : ∀ key ∈ affinities, ∃ p ∈ places ++ [place], ∃ value,
      affinityValue p.2 = some value ∧ key = sessionRouteKey p.1 value := by
    intro key hkey
    obtain ⟨p, hp, hvalue⟩ := h.found key hkey
    exact ⟨p, List.mem_append_left _ hp, hvalue⟩
  have hbounded : affinities.length ≤ (places ++ [place]).length := by
    have hle := h.bounded
    rw [List.length_append]
    omega
  have hcomplete : ∀ out, affinities <+: out → (∀ value, affinityValue place.2 = some value →
        affinityHash place.1 value ∈ out.map SessionRouteKey.keyHash) →
      ∀ p ∈ places ++ [place], ∀ value, affinityValue p.2 = some value →
        affinityHash p.1 value ∈ out.map SessionRouteKey.keyHash := by
    intro out hprefix hlast p hp value hvalue
    rcases List.mem_append.mp hp with hp | hp
    · exact List.map_subset _ hprefix.subset (h.complete p hp value hvalue)
    · rw [List.mem_singleton.mp hp] at hvalue ⊢
      exact hlast value hvalue
  unfold collectAffinity
  split
  · next hnone =>
    refine ⟨h.distinct, hfound, hcomplete _ List.prefix_rfl fun value hvalue ↦ ?_, hbounded⟩
    rw [hnone] at hvalue
    cases hvalue
  · next value hvalue =>
    dsimp only
    split
    · next hseen =>
      refine ⟨h.distinct, hfound, hcomplete _ List.prefix_rfl fun other hother ↦ ?_, hbounded⟩
      rw [hvalue] at hother
      cases hother
      exact hseen
    · next hnew =>
      refine ⟨?_, fun key hkey ↦ ?_, hcomplete _ (List.prefix_append _ _) fun other hother ↦ ?_,
        ?_⟩
      · rw [List.map_append, List.map_singleton]
        exact h.distinct.append (List.nodup_singleton _) (List.disjoint_singleton.mpr hnew)
      · rcases List.mem_append.mp hkey with hkey | hkey
        · exact hfound key hkey
        · exact ⟨place, List.mem_append_right _ (List.mem_singleton_self _), value, hvalue,
            List.mem_singleton.mp hkey⟩
      · rw [hvalue] at hother
        cases hother
        exact List.mem_map_of_mem (List.mem_append_right _ (List.mem_singleton_self _))
      · have hle := h.bounded
        rw [List.length_append, List.length_append]
        exact Nat.add_le_add_right hle 1

/-- More places, in their order. -/
theorem collects (h : Collected places affinities) (more : List Place) :
    Collected (places ++ more) (collectAffinities affinities more) := by
  induction more generalizing places affinities with
  | nil => rwa [List.append_nil]
  | cons place more ih =>
    have hrest := ih (h.collect place)
    rwa [List.append_assoc] at hrest

end Collected

/-! ### Keys that the store accepts -/

/-- SHA-256 is printed in 64 lowercase hexadecimal digits. -/
def HexDigests : Prop := ∀ text, validAffinityHash (Sha256.hexDigest text) = true

/-- Well-formed keys under distinct hashes, not more than a caller may name. -/
structure Acceptable (affinities : List SessionRouteKey) : Prop where
  distinct : (affinities.map SessionRouteKey.keyHash).Nodup
  wellFormed : ∀ key ∈ affinities, key.WellFormed
  bounded : affinities.length ≤ 500

/-- The digests of a list, and one digest for any other text. -/
@[reducible] def listedDigests (digests : List (String × String)) : Sha256 where
  hexDigest text := (digests.lookup text).getD (hexHash 0)

omit [Sha256] in
/-- Listed digests are printed in hexadecimal digits when each of them is. -/
theorem hexDigests_listedDigests {digests : List (String × String)}
    (h : ∀ entry ∈ digests, validAffinityHash entry.2 = true) :
    @HexDigests (listedDigests digests) := by
  intro text
  show validAffinityHash ((digests.lookup text).getD (hexHash 0)) = true
  cases hlookup : digests.lookup text with
  | none => exact validAffinityHash_hexHash 0
  | some digest =>
    obtain ⟨before, after, rfl, -⟩ := List.lookup_eq_some_iff.mp hlookup
    exact h (text, digest) (by simp)

variable {affinities : List SessionRouteKey}

omit [Sha256] in
/-- Acceptable keys pass validation as they are. -/
theorem Acceptable.validated (h : Acceptable affinities) :
    ∃ validated, validateSessionRouteKeys affinities = .ok validated ∧
      validated.keys = affinities :=
  validateSessionRouteKeys_of_wellFormed h.bounded h.distinct h.wellFormed

private theorem Collected.acceptable {places : List Place} (hdigest : HexDigests)
    (h : Collected places affinities)
    (hkinds : ∀ place ∈ places, validRouteKind place.1 = true) (hcount : places.length ≤ 500) :
    Acceptable affinities := by
  refine ⟨h.distinct, fun key hkey ↦ ?_, h.bounded.trans hcount⟩
  obtain ⟨place, hplace, value, -, rfl⟩ := h.found key hkey
  exact ⟨hdigest _, hkinds place hplace⟩

/-- The keys of a client were collected from places of valid kinds. -/
theorem ClientKeys.collected [JsonText] (h : ClientKeys affinities) :
    ∃ places, Collected places affinities ∧ places.length ≤ 12 ∧
      ∀ place ∈ places, validRouteKind place.1 = true := by
  cases h with
  | request headers body =>
    have hheaders := validRouteKind_header headers requestHeaderKeys (by decide)
    have hcollected := Collected.nil.collects (headerPlaces requestHeaderKeys headers)
    unfold requestAffinities
    split
    · exact ⟨_, hcollected, (by decide : 6 ≤ 12), hheaders⟩
    · next value _ =>
      refine ⟨_, hcollected.collects (bodyPlaces value), (by decide : 12 ≤ 12), ?_⟩
      intro place hplace
      rcases List.mem_append.mp hplace with hplace | hplace
      · exact hheaders place hplace
      · exact validRouteKind_body value place hplace
  | websocket headers =>
    exact ⟨_, Collected.nil.collects (headerPlaces websocketHeaderKeys headers),
      (by decide : 5 ≤ 12), validRouteKind_header headers websocketHeaderKeys (by decide)⟩

/-- The store accepts the keys of any client as they are. -/
theorem ClientKeys.acceptable [JsonText] (hdigest : HexDigests) (h : ClientKeys affinities) :
    Acceptable affinities := by
  obtain ⟨places, hcollected, hcount, hkinds⟩ := h.collected
  exact hcollected.acceptable hdigest hkinds (by omega)

/-- It accepts them with the key of any response, too. -/
theorem ClientKeys.acceptable_response [JsonText] (hdigest : HexDigests)
    (h : ClientKeys affinities) (responseId : String) :
    Acceptable (responseAffinities affinities responseId) := by
  obtain ⟨places, hcollected, hcount, hkinds⟩ := h.collected
  have hacceptable := hcollected.acceptable hdigest hkinds (by omega)
  have hlength := hcollected.bounded
  unfold responseAffinities
  dsimp only
  split
  · exact hacceptable
  · next hnew =>
    refine ⟨?_, fun key hkey ↦ ?_, ?_⟩
    · rw [List.map_append, List.map_singleton]
      refine hacceptable.distinct.append (List.nodup_singleton _)
        (List.disjoint_singleton.mpr fun hin ↦ hnew ?_)
      obtain ⟨key, hkey, hhash⟩ := List.mem_map.mp hin
      exact List.any_eq_true.mpr ⟨key, hkey, beq_iff_eq.mpr hhash⟩
    · rcases List.mem_append.mp hkey with hkey | hkey
      · exact hacceptable.wellFormed key hkey
      · rw [List.mem_singleton.mp hkey]
        exact ⟨hdigest _, (by decide : validRouteKind "response_id" = true)⟩
    · rw [List.length_append, List.length_singleton]
      omega

end Keys

end CodexLb.Proxy
