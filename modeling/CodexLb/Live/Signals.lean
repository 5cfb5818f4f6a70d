import CodexLb.Live.Fencing

/-!
# Signals reach open transports

The registry knows every open transport by its token under all its affinities,
so the signal of a command reaches each one that shares a key with it. From
then on `select!` takes no further message for the transport: what it handles
next ends it and tells Codex to connect again.
-/

namespace CodexLb.Live

open Relational Transition Websocket

/-- The token under which a transport is registered while it is open. -/
def Stage.token : Stage → Option Nat
  | serving _ token _ _ => token
  | _ => none

/-- The token of the transport with a number. -/
def System.tokenOf (live : System) (i : Nat) : Option Nat :=
  (live.transports i).bind fun transport ↦ transport.stage.token

/-- The registry knows a transport by its token, with its generation and under all its
affinities. -/
structure Knows (inner : RegistryInner) (transport : Transport) (token : Nat) : Prop where
  entry : ∃ entry, inner.connections.find token = some entry ∧
    entry.generation = transport.generation
  indexed : ∀ key ∈ transport.affinities, token ∈ inner.tokensOf key.keyHash

/-- The registry knows every open transport, each by a token of its own. -/
structure System.Registers (live : System) : Prop where
  knows : ∀ i transport token, live.transports i = some transport →
    transport.stage.token = some token → Knows live.registry transport token
  distinct : ∀ i other token, live.tokenOf i = some token → live.tokenOf other = some token →
    i = other

/-- What a step does to the registry and to the tokens. -/
inductive System.RegistryChange (live : System) (action : Action) (live' : System) : Prop
  | rest (registry : live'.registry = live.registry)
      (tokens : ∀ i, live'.tokenOf i = live.tokenOf i)
  | connect (i : Nat) (transport : Transport) (accountId : Uuid) (reason : SelectionReason)
      (primary : SessionRouteKey) (connecting : action = .connect i accountId reason)
      (found : live.transports i = some transport)
      (registry : live'.registry = live.registry.register (transport.rootKeyHash primary)
        (transport.affinities.map SessionRouteKey.keyHash) accountId transport.generation)
      (token : live'.tokenOf i = some live.registry.token)
      (others : ∀ other, other ≠ i → live'.tokenOf other = live.tokenOf other)
  | hangUp (i : Nat) (token : Nat) (held : live.tokenOf i = some token)
      (registry : live'.registry = live.registry.unregister token)
      (dropped : live'.tokenOf i = none)
      (others : ∀ other, other ≠ i → live'.tokenOf other = live.tokenOf other)
  | signal (rootKeyHash : String) (aliases : List String) (generation : Int)
      (registry : live'.registry =
        (live.registry.signalReroute rootKeyHash aliases generation).2)
      (tokens : ∀ i, live'.tokenOf i = live.tokenOf i)

section Steps

variable [UuidText] [JsonText] [Sha256] {live live' : System} {action : Action}

omit [UuidText] [JsonText] [Sha256] in
private theorem tokenOf_set (live : System) (i other : Nat) (transport : Transport) :
    (live.setTransport i transport).tokenOf other =
      if other = i then transport.stage.token else live.tokenOf other := by
  unfold System.tokenOf
  by_cases hi : other = i
  · subst hi
    rw [System.setTransport_self, if_pos rfl]
    rfl
  · rw [System.setTransport_ne live hi, if_neg hi]

/-- A step changes the registry and the tokens in one of these ways. -/
theorem System.Step.registryChange (h : System.Step live action live') :
    live.RegistryChange action live' := by
  -- a transport that moves on keeps its token
  have hkeeps : ∀ {i : Nat} {transport : Transport} {stage : Stage},
      live.transports i = some transport → transport.stage.token = stage.token →
      ∀ other, (live.setTransport i (transport.at stage)).tokenOf other = live.tokenOf other := by
    intro i transport stage found hsame other
    rw [tokenOf_set]
    split
    · next hi =>
      subst hi
      rw [System.tokenOf, found]
      exact hsame.symm
    · rfl
  cases h with
  | operate | snapshot | commit => exact .rest rfl fun _ ↦ rfl
  | @accept i affinities routeEpoch free captured =>
    refine .rest rfl fun other ↦ ?_
    rw [tokenOf_set]
    split
    · next hi =>
      subst hi
      rw [System.tokenOf, free]
      rfl
    · rfl
  | @connect i transport accountId reason found opening =>
    have hnone : transport.stage.token = none := by rw [opening]; rfl
    cases hkeys : transport.affinities with
    | nil =>
      refine .rest ?_ fun other ↦ ?_
      · rw [System.registered, hkeys]
      · refine hkeeps found ?_ other
        rw [hnone, System.registered, hkeys]
        rfl
    | cons primary rest =>
      refine .connect i transport accountId reason primary rfl found ?_ ?_ fun other hi ↦ ?_
      · simp only [System.registered, hkeys]
      · change (live.setTransport i _).tokenOf i = _
        rw [tokenOf_set, if_pos rfl]
        simp only [System.registered, hkeys, Stage.token, Transport.at]
      · change (live.setTransport i _).tokenOf other = _
        rw [tokenOf_set, if_neg hi]
  | receive found serving => exact .rest rfl (hkeeps found (by rw [serving]; rfl))
  | check now found serving => exact .rest rfl (hkeeps found (by rw [serving]; rfl))
  | finish found serving => exact .rest rfl (hkeeps found (by rw [serving]; rfl))
  | finishChecked found serving => exact .rest rfl (hkeeps found (by rw [serving]; rfl))
  | @hangUp i transport accountId token bridge found serving returned =>
    cases token with
    | none => exact .rest rfl (hkeeps found (by rw [serving]; rfl))
    | some token =>
      refine .hangUp i token ?_ rfl ?_ fun other hi ↦ ?_
      · rw [System.tokenOf, found]
        change transport.stage.token = some token
        rw [serving]
        rfl
      · change (live.setTransport i _).tokenOf i = _
        rw [tokenOf_set, if_pos rfl]
        rfl
      · change (live.setTransport i _).tokenOf other = _
        rw [tokenOf_set, if_neg hi]
  | @signal j origin request response found =>
    cases hsignals : signals origin response with
    | false => exact .rest rfl fun _ ↦ rfl
    | true =>
      exact .signal response.rootKeyHash (candidateHashes request) response.routeGeneration rfl
        fun _ ↦ rfl

end Steps

/-! ### What the registry knows -/

section Registry

variable {inner : RegistryInner} {transport : Transport} {token : Nat}

/-- What the registry knows of a transport does not depend on its stage. -/
theorem Knows.at (h : Knows inner transport token) (stage : Stage) :
    Knows inner (transport.at stage) token := ⟨h.entry, h.indexed⟩

/-- A registration under a fresh token is known. -/
theorem knows_register (accountId : Uuid) (primary : SessionRouteKey) :
    Knows (inner.register (transport.rootKeyHash primary)
      (transport.affinities.map SessionRouteKey.keyHash) accountId transport.generation) transport
      inner.token := by
  refine ⟨⟨inner.registered (transport.rootKeyHash primary)
    (transport.affinities.map SessionRouteKey.keyHash) accountId transport.generation, ?_, rfl⟩,
      fun key hkey ↦ ?_⟩
  · rw [RegistryInner.find_connections_register, if_pos rfl]
  · refine RegistryInner.mem_tokensOf_register.mpr (.inr ⟨rfl, ?_⟩)
    exact RegistryInner.mem_registeredKeys.mpr (.inr (List.mem_map.mpr ⟨key, hkey, rfl⟩))

/-- A live connection does not have a fresh token. -/
theorem Knows.ne_token (h : Knows inner transport token)
    (hfresh : inner.connections.has inner.token = false) : token ≠ inner.token := by
  rintro rfl
  obtain ⟨entry, hentry, -⟩ := h.entry
  rw [Table.has_eq_false_iff.mp hfresh] at hentry
  cases hentry

/-- A registration under a fresh token leaves what is known. -/
theorem Knows.register (h : Knows inner transport token)
    (hfresh : inner.connections.has inner.token = false) (rootKeyHash : String)
    (aliases : List String) (accountId : Uuid) (generation : Int) :
    Knows (inner.register rootKeyHash aliases accountId generation) transport token := by
  obtain ⟨entry, hentry, hgeneration⟩ := h.entry
  refine ⟨⟨entry, ?_, hgeneration⟩, fun key hkey ↦ ?_⟩
  · rw [RegistryInner.find_connections_register, if_neg (h.ne_token hfresh), hentry]
  · exact RegistryInner.mem_tokensOf_register.mpr (.inl (h.indexed key hkey))

/-- Dropping a connection leaves what is known of the others. -/
theorem Knows.unregister (h : Knows inner transport token) {dropped : Nat} (hne : token ≠ dropped) :
    Knows (inner.unregister dropped) transport token := by
  obtain ⟨entry, hentry, hgeneration⟩ := h.entry
  refine ⟨⟨entry, ?_, hgeneration⟩, fun key hkey ↦ ?_⟩
  · rw [RegistryInner.find_connections_unregister, if_neg hne, hentry]
  · cases hdropped : inner.connections.find dropped with
    | none =>
      rw [RegistryInner.unregister, hdropped]
      exact h.indexed key hkey
    | some gone =>
      exact (RegistryInner.mem_tokensOf_unregister hdropped).mpr
        ⟨h.indexed key hkey, fun hsame ↦ hne hsame.1⟩

/-- A signal leaves what is known. -/
theorem Knows.signalReroute (h : Knows inner transport token) (rootKeyHash : String)
    (aliases : List String) (generation : Int) :
    Knows (inner.signalReroute rootKeyHash aliases generation).2 transport token := by
  obtain ⟨entry, hentry, hgeneration⟩ := h.entry
  refine ⟨?_, fun key hkey ↦ ?_⟩
  · rw [RegistryInner.find_connections_signalReroute, hentry, Option.map_some]
    refine ⟨_, rfl, ?_⟩
    split <;> exact hgeneration
  · exact RegistryInner.mem_tokensOf_signalReroute.mpr (.inl (h.indexed key hkey))

/-- A signal that shares a key with a transport and is newer than it makes it obsolete. -/
theorem Knows.signalled (h : Knows inner transport token) {key : SessionRouteKey}
    (hkey : key ∈ transport.affinities) {rootKeyHash : String} {aliases : List String}
    (hshared : key.keyHash ∈ aliases) {generation : Int}
    (holder : transport.generation < generation) :
    (inner.signalReroute rootKeyHash aliases generation).2.received token = some generation := by
  obtain ⟨entry, hentry, hgeneration⟩ := h.entry
  have hmatching : token ∈ inner.matchingTokens rootKeyHash aliases :=
    RegistryInner.mem_matchingTokens.mpr ⟨key.keyHash,
      RegistryInner.mem_lookupKeys.mpr (.inl (.inr hshared)), h.indexed key hkey⟩
  rw [RegistryInner.received, RegistryInner.find_connections_signalReroute, hentry,
    Option.map_some, Option.bind_some, if_pos hmatching]
  exact if_pos (hgeneration ▸ holder)

/-- The receiver of a transport holds a signal newer than the transport. -/
def Obsolete (inner : RegistryInner) (transport : Transport) (token : Nat) : Prop :=
  ∃ received, inner.received token = some received ∧ transport.generation < received

/-- An obsolete transport stays so when another one is registered. -/
theorem Obsolete.register (h : Obsolete inner transport token) (hk : Knows inner transport token)
    (hfresh : inner.connections.has inner.token = false) (rootKeyHash : String)
    (aliases : List String) (accountId : Uuid) (generation : Int) :
    Obsolete (inner.register rootKeyHash aliases accountId generation) transport token := by
  obtain ⟨received, hreceived, hnewer⟩ := h
  refine ⟨received, ?_, hnewer⟩
  rw [RegistryInner.received, RegistryInner.find_connections_register,
    if_neg (hk.ne_token hfresh)]
  exact hreceived

/-- An obsolete transport stays so when another one is dropped. -/
theorem Obsolete.unregister (h : Obsolete inner transport token) {dropped : Nat}
    (hne : token ≠ dropped) : Obsolete (inner.unregister dropped) transport token := by
  obtain ⟨received, hreceived, hnewer⟩ := h
  refine ⟨received, ?_, hnewer⟩
  rw [RegistryInner.received, RegistryInner.find_connections_unregister, if_neg hne]
  exact hreceived

/-- An obsolete transport stays so under every further signal. -/
theorem Obsolete.signalReroute (h : Obsolete inner transport token)
    (hk : Knows inner transport token) (rootKeyHash : String) (aliases : List String)
    (generation : Int) :
    Obsolete (inner.signalReroute rootKeyHash aliases generation).2 transport token := by
  obtain ⟨entry, hentry, hgeneration⟩ := hk.entry
  obtain ⟨received, hreceived, hnewer⟩ := h
  rw [← hgeneration] at hnewer
  rw [Obsolete, ← hgeneration]
  exact received_signalReroute hentry hreceived hnewer

end Registry

/-! ### Runs -/

section Runs

variable [UuidText] [JsonText] [Sha256] {live live' : System} {action : Action}

omit [UuidText] [JsonText] [Sha256] in
/-- Before the first task the registry knows every open transport. -/
theorem registers_start (store : Store) : (System.start store).Registers where
  knows i transport token found := by cases found
  distinct i other token h := by cases h

/-- A transport with a token was accepted before the step. -/
private theorem System.Step.accepted_before (h : System.Step live action live') {i token : Nat}
    {transport : Transport} (found : live'.transports i = some transport)
    (htoken : transport.stage.token = some token) :
    ∃ before stage, live.transports i = some before ∧ transport = before.at stage := by
  cases hold : live.transports i with
  | none =>
    obtain ⟨-, hopening, -⟩ := h.accepted hold found
    rw [hopening] at htoken
    cases htoken
  | some before =>
    obtain ⟨stage, hafter, -⟩ := h.stageChange hold
    exact ⟨before, stage, rfl, Option.some.inj (found.symm.trans hafter)⟩

/-- Every step under fresh tokens keeps the registry's knowledge of the open transports. -/
theorem System.Registers.step (h : live.Registers) (hfresh : FreshToken live action)
    (hstep : System.Step live action live') : live'.Registers := by
  have hold : ∀ {i token : Nat}, live.tokenOf i = some token → ∀ {before : Transport},
      live.transports i = some before → ∀ stage, Knows live.registry (before.at stage) token := by
    intro i token htoken before found stage
    rw [System.tokenOf, found] at htoken
    exact (h.knows i before token found htoken).at stage
  have hentered : ∀ {i token : Nat}, live.tokenOf i = some token →
      ∃ before, Knows live.registry before token := by
    intro i token htoken
    obtain ⟨before, found, -⟩ := Option.bind_eq_some_iff.mp htoken
    exact ⟨_, hold htoken found before.stage⟩
  have hnow : ∀ {i : Nat} {transport : Transport} {token : Nat},
      live'.transports i = some transport → transport.stage.token = some token →
      live'.tokenOf i = some token := by
    intro i transport token found htoken
    rw [System.tokenOf, found]
    exact htoken
  cases hstep.registryChange with
  | rest registry tokens =>
    refine ⟨fun i transport token found htoken ↦ ?_, fun i other token hi ho ↦ ?_⟩
    · obtain ⟨before, stage, hbefore, rfl⟩ := hstep.accepted_before found htoken
      have hwas := (tokens i).symm.trans (hnow found htoken)
      rw [registry]
      exact hold hwas hbefore stage
    · exact h.distinct i other token ((tokens i).symm.trans hi) ((tokens other).symm.trans ho)
  | connect i₀ transport₀ accountId reason primary connecting found₀ registry token₀ others =>
    subst connecting
    have hnew : ∀ {i token : Nat}, live.tokenOf i = some token → token ≠ live.registry.token := by
      intro i token htoken
      obtain ⟨before, hknows⟩ := hentered htoken
      exact hknows.ne_token hfresh
    refine ⟨fun i transport token found htoken ↦ ?_, fun i other token hi ho ↦ ?_⟩
    · obtain ⟨before, stage, hbefore, rfl⟩ := hstep.accepted_before found htoken
      rw [registry]
      by_cases hi : i = i₀
      · subst hi
        cases hbefore.symm.trans found₀
        cases token₀.symm.trans (hnow found htoken)
        exact (knows_register accountId primary).at stage
      · have hwas := (others i hi).symm.trans (hnow found htoken)
        exact (hold hwas hbefore stage).register hfresh ..
    · by_cases h₁ : i = i₀
      · by_cases h₂ : other = i₀
        · rw [h₁, h₂]
        · subst h₁
          cases token₀.symm.trans hi
          exact absurd rfl (hnew ((others other h₂).symm.trans ho))
      · by_cases h₂ : other = i₀
        · subst h₂
          cases token₀.symm.trans ho
          exact absurd rfl (hnew ((others i h₁).symm.trans hi))
        · exact h.distinct i other token ((others i h₁).symm.trans hi)
            ((others other h₂).symm.trans ho)
  | hangUp i₀ token₀ held registry dropped others =>
    have hopen : ∀ {i token : Nat}, live'.tokenOf i = some token →
        i ≠ i₀ ∧ live.tokenOf i = some token := by
      intro i token htoken
      have hi : i ≠ i₀ := by
        rintro rfl
        cases dropped.symm.trans htoken
      exact ⟨hi, (others i hi).symm.trans htoken⟩
    refine ⟨fun i transport token found htoken ↦ ?_, fun i other token hi ho ↦ ?_⟩
    · obtain ⟨before, stage, hbefore, rfl⟩ := hstep.accepted_before found htoken
      obtain ⟨hi, hwas⟩ := hopen (hnow found htoken)
      have hne : token ≠ token₀ := by
        rintro rfl
        exact hi (h.distinct i i₀ token hwas held)
      rw [registry]
      exact (hold hwas hbefore stage).unregister hne
    · exact h.distinct i other token (hopen hi).2 (hopen ho).2
  | signal rootKeyHash aliases generation registry tokens =>
    refine ⟨fun i transport token found htoken ↦ ?_, fun i other token hi ho ↦ ?_⟩
    · obtain ⟨before, stage, hbefore, rfl⟩ := hstep.accepted_before found htoken
      have hwas := (tokens i).symm.trans (hnow found htoken)
      rw [registry]
      exact (hold hwas hbefore stage).signalReroute ..
    · exact h.distinct i other token ((tokens i).symm.trans hi) ((tokens other).symm.trans ho)

/-- How many messages a transport has written to the upstream. -/
def Transport.messagesSent (transport : Transport) : Nat :=
  (transport.stage.bridge.map fun bridge ↦ (upstreamWrites bridge.trace).length).getD 0

/-- How many messages of Codex a transport has taken and not finished. -/
def Transport.inHand (transport : Transport) : Nat :=
  match transport.stage with
  | .serving _ _ _ (.handling (.client _)) => 1
  | .serving _ _ _ (.checked ..) => 1
  | _ => 0

/-- The events that end a transport with a notice to connect again. -/
def reconnecting : BridgeInput → Prop
  | .shutdownRequested | .rerouteRequested => True
  | _ => False

/-- The event that a transport has in hand. -/
def Phase.input : Phase → Option BridgeInput
  | waiting => none
  | handling input => some input
  | checked message _ => some (.client message)

/-- The last that a bridge told Codex is to connect again. -/
def Notified (b : Bridge) : Prop :=
  ∃ writes sessionReroute outcome,
    clientWrites b.trace = writes ++ [(reconnectNotice sessionReroute, outcome)]

/-- How a bridge has returned that served a transport in some state: it had returned already, or on
the event that the transport had in hand, or else with a notice to Codex. -/
def ReturnedSince (before : Transport) (ended : Bridge) : Prop :=
  before.stage.bridge = some ended ∨
  (∃ accountId token bridge phase input answers,
    before.stage = .serving accountId token bridge phase ∧ phase.input = some input ∧
    ended = bridge.next (before.config accountId) ⟨input, answers⟩) ∨
  Notified ended

/-- A transport that a signal has reached, since some state of it. -/
structure Signalled (i : Nat) (before : Transport) (token : Nat) (live : System) : Prop where
  registers : live.Registers
  ending : ∃ stage, live.transports i = some (before.at stage) ∧
    (before.at stage).messagesSent + (before.at stage).inHand ≤
      before.messagesSent + before.inHand ∧
    (stage.token = some token ∧ Obsolete live.registry before token ∨
      ∃ bridge, stage = .closed bridge) ∧
    (∀ accountId held bridge input, stage = .serving accountId held bridge (.handling input) →
      stage = before.stage ∨ reconnecting input) ∧
    (∀ accountId held bridge message bound,
      stage = .serving accountId held bridge (.checked message bound) →
      ∃ phase, before.stage = .serving accountId held bridge phase ∧
        phase.input = some (.client message)) ∧
    ∀ ended, stage.bridge = some ended → ended.returned = true → ReturnedSince before ended

omit [UuidText] [JsonText] [Sha256] in
/-- `select!` takes no message for a transport whose receiver holds a newer signal. -/
theorem reconnecting_of_ready {transport : Transport} {token : Nat} {input : BridgeInput}
    (h : Obsolete live.registry transport token)
    (hready : live.ready transport.generation (some token) input) : reconnecting input := by
  obtain ⟨received, hreceived, hnewer⟩ := h
  have hobsolete : live.obsolete transport.generation (some token) = true := by
    rw [System.obsolete, Option.bind_some, hreceived, Option.any_some]
    exact decide_eq_true hnewer
  cases input with
  | shutdownRequested | rerouteRequested => trivial
  | _ => exact absurd (hobsolete.symm.trans hready) (by decide)

/-- A step keeps the signal in the receiver of a transport that stays open. -/
theorem Obsolete.step {transport : Transport} {i token : Nat}
    (h : Obsolete live.registry transport token) (hk : Knows live.registry transport token)
    (hregisters : live.Registers) (hheld : live.tokenOf i = some token)
    (hfresh : FreshToken live action) (hstep : System.Step live action live')
    (hstays : live'.tokenOf i = some token) : Obsolete live'.registry transport token := by
  cases hstep.registryChange with
  | rest registry tokens => exact registry ▸ h
  | connect i₀ transport₀ accountId reason primary connecting found₀ registry token₀ others =>
    subst connecting
    rw [registry]
    exact h.register hk hfresh ..
  | hangUp i₀ token₀ held registry dropped others =>
    rw [registry]
    refine h.unregister ?_
    rintro rfl
    cases hregisters.distinct i i₀ token hheld held
    cases dropped.symm.trans hstays
  | signal rootKeyHash aliases generation registry tokens =>
    rw [registry]
    exact h.signalReroute hk ..

omit [UuidText] in
/-- An event that asks for a new connection ends the bridge, writes nothing upstream and tells
Codex to connect again. -/
theorem next_reconnecting (config : BridgeConfig) (answers : BridgeAnswers) (b : Bridge)
    {input : BridgeInput} (h : reconnecting input) :
    (b.next config ⟨input, answers⟩).returned = true ∧
      upstreamWrites (b.next config ⟨input, answers⟩).trace = upstreamWrites b.trace ∧
      ∃ sessionReroute, clientWrites (b.next config ⟨input, answers⟩).trace =
        clientWrites b.trace ++ [(reconnectNotice sessionReroute, answers.notified)] := by
  have hclosed : ∀ (s : BridgeState) (message : String), s.reconnects = true →
      upstreamWrites (b.trace ++ [] ++ closeBridge config answers message s) =
          upstreamWrites b.trace ∧
        clientWrites (b.trace ++ [] ++ closeBridge config answers message s) =
          clientWrites b.trace ++ [(reconnectNotice s.sessionReroute, answers.notified)] := by
    intro s message hreconnects
    rw [List.append_nil, upstreamWrites_append, clientWrites_append, (closeBridge_writes ..).1,
      (closeBridge_writes ..).2, hreconnects, List.append_nil]
    exact ⟨rfl, rfl⟩
  cases input with
  | shutdownRequested =>
    obtain ⟨hup, hclient⟩ := hclosed { b.state with serviceRestart := true }
      "local service restart requested" rfl
    exact ⟨rfl, hup, _, hclient⟩
  | rerouteRequested =>
    obtain ⟨hup, hclient⟩ := hclosed { b.state with sessionReroute := true }
      "targeted session reroute requested" (Bool.or_true _)
    exact ⟨rfl, hup, _, hclient⟩
  | _ => cases h

omit [UuidText] in
/-- A bridge that has handled an event which asks for a new connection has told Codex so. -/
theorem notified_of_reconnecting (config : BridgeConfig) (answers : BridgeAnswers) (b : Bridge)
    {input : BridgeInput} (h : reconnecting input) :
    Notified (b.next config ⟨input, answers⟩) := by
  obtain ⟨-, -, sessionReroute, hclient⟩ := next_reconnecting config answers b h
  exact ⟨_, sessionReroute, _, hclient⟩

/-- A transport that a signal has reached takes no further message, and returns on the event that it
has in hand or with a notice. -/
theorem Signalled.step {i token : Nat} {before : Transport} (h : Signalled i before token live)
    (hfresh : FreshToken live action) (hstep : System.Step live action live') :
    Signalled i before token live' := by
  obtain ⟨stage, hfound, hsent, hopen, hhandled, hchecked, hended⟩ := h.ending
  obtain ⟨next, hnext, hchange⟩ := hstep.stageChange hfound
  have hkept : stage.token = some token → Obsolete live.registry before token →
      next.token = some token → Obsolete live'.registry before token := by
    intro hheld hobsolete hstays
    have hknows := h.registers.knows i _ token hfound hheld
    refine hobsolete.step (i := i) ⟨hknows.entry, hknows.indexed⟩ h.registers ?_ hfresh hstep ?_
    · rw [System.tokenOf, hfound]
      exact hheld
    · rw [System.tokenOf, hnext]
      exact hstays
  refine ⟨h.registers.step hfresh hstep, next, hnext, ?_⟩
  cases hchange with
  | rest =>
    refine ⟨hsent, ?_, hhandled, hchecked, hended⟩
    rcases hopen with ⟨hheld, hobsolete⟩ | hclosed
    · exact .inl ⟨hheld, hkept hheld hobsolete hheld⟩
    · exact .inr hclosed
  | connect accountId reason opening =>
    change stage = _ at opening
    subst opening
    rcases hopen with ⟨hheld, -⟩ | ⟨bridge, hclosed⟩
    · cases hheld
    · cases hclosed
  | @receive accountId held bridge input serving polled =>
    change stage = _ at serving
    subst serving
    rcases hopen with ⟨hheld, hobsolete⟩ | ⟨bridge, hclosed⟩
    · cases hheld
      have hinput : reconnecting input := reconnecting_of_ready hobsolete polled
      refine ⟨?_, .inl ⟨rfl, hkept rfl hobsolete rfl⟩, fun _ _ _ _ he ↦ ?_,
        (fun _ _ _ _ _ he ↦ by cases he), hended⟩
      · cases input with
        | shutdownRequested | rerouteRequested => exact hsent
        | _ => cases hinput
      · cases he
        exact .inr hinput
    · cases hclosed
  | @check accountId held bridge message now serving =>
    change stage = _ at serving
    subst serving
    rcases hopen with ⟨hheld, hobsolete⟩ | ⟨bridge, hclosed⟩
    · refine ⟨hsent, .inl ⟨hheld, hkept hheld hobsolete hheld⟩, (fun _ _ _ _ he ↦ by cases he),
        fun _ _ _ _ _ he ↦ ?_, hended⟩
      cases he
      -- a message is no event that asks for a new connection, so it was in hand
      rcases hhandled _ _ _ _ rfl with hsame | hinput
      · exact ⟨_, hsame.symm, rfl⟩
      · cases hinput
    · cases hclosed
  | @finish accountId held bridge input answers serving unbound =>
    change stage = _ at serving
    subst serving
    rcases hopen with ⟨hheld, hobsolete⟩ | ⟨bridge, hclosed⟩
    · refine ⟨Nat.le_trans ?_ hsent, .inl ⟨hheld, hkept hheld hobsolete hheld⟩,
        (fun _ _ _ _ he ↦ by cases he), (fun _ _ _ _ _ he ↦ by cases he), ?_⟩
      · rcases upstreamWrites_next (before.config accountId) answers bridge input with
          ⟨message, rfl, -, hup⟩ | hup
        · refine Nat.le_of_eq ((congrArg List.length hup).trans ?_)
          rw [List.length_append]
          rfl
        · exact Nat.le_trans (Nat.le_of_eq (congrArg List.length hup)) (Nat.le_add_right _ _)
      · rintro _ ⟨⟩ -
        rcases hhandled _ _ _ _ rfl with hsame | hinput
        · exact .inr (.inl ⟨_, _, _, _, input, answers, hsame.symm, rfl, rfl⟩)
        · exact .inr (.inr (notified_of_reconnecting _ answers bridge hinput))
    · cases hclosed
  | @finishChecked accountId held bridge message bound answers serving answered =>
    change stage = _ at serving
    subst serving
    rcases hopen with ⟨hheld, hobsolete⟩ | ⟨bridge, hclosed⟩
    · refine ⟨Nat.le_trans ?_ hsent, .inl ⟨hheld, hkept hheld hobsolete hheld⟩,
        (fun _ _ _ _ he ↦ by cases he), (fun _ _ _ _ _ he ↦ by cases he), ?_⟩
      · rcases upstreamWrites_next (before.config accountId) answers bridge (.client message) with
          ⟨other, -, -, hup⟩ | hup
        · refine Nat.le_of_eq ((congrArg List.length hup).trans ?_)
          rw [List.length_append]
          rfl
        · exact Nat.le_trans (Nat.le_of_eq (congrArg List.length hup)) (Nat.le_add_right _ _)
      · rintro _ ⟨⟩ -
        obtain ⟨phase, hbefore, hinput⟩ := hchecked _ _ _ _ _ rfl
        exact .inr (.inl ⟨_, _, _, phase, _, answers, hbefore, hinput, rfl⟩)
    · cases hclosed
  | @hangUp accountId held bridge serving =>
    change stage = _ at serving
    subst serving
    exact ⟨hsent, .inr ⟨bridge, rfl⟩, (fun _ _ _ _ he ↦ by cases he),
      (fun _ _ _ _ _ he ↦ by cases he), hended⟩

/-- The registry knows every open transport along every run under fresh tokens. -/
theorem System.registers {store : Store} {actions : List Action}
    (h : Run (guarded System.Step FreshToken) (.start store) actions live) : live.Registers :=
  h.invariant (fun _ _ _ hs hstep ↦ hs.step hstep.1 hstep.2) (registers_start store)

/-- Signals reach open transports: once a command has signalled, every open transport that shares a
key with it and is older sends upstream at most the message that it had in hand, and takes no
further message. What it takes next ends it and tells Codex to connect again; only a transport whose
loop had ended already, or ends on the event that it had in hand, returns without that notice. -/
theorem signalled_transport_reconnects {store : Store} {actions more : List Action}
    {live signalled live' : System}
    (hreach : Run (guarded System.Step FreshToken) (.start store) actions live) {i j : Nat}
    {before : Transport} {accountId : Uuid} {token : Nat} {bridge : Bridge} {phase : Phase}
    {origin : Origin} {request : SessionRouteActionRequest}
    {response : SessionRouteActionResponse} (hfound : live.transports i = some before)
    (hserving : before.stage = .serving accountId (some token) bridge phase)
    (hcommand : live.commands j = some ⟨origin, request, .committed response⟩)
    (hsignals : signals origin response = true)
    (hshared : ∃ key ∈ before.affinities, key.keyHash ∈ candidateHashes request)
    (holder : before.generation < response.routeGeneration)
    (hsignal : System.Step live (.signal j) signalled)
    (hrun : Run (guarded System.Step FreshToken) signalled more live') :
    ∃ stage, live'.transports i = some (before.at stage) ∧
      (before.at stage).messagesSent ≤ before.messagesSent + before.inHand ∧
      (∀ input next, System.Step live' (.receive i input) next → reconnecting input) ∧
      (∀ accountId held bridge input, stage = .serving accountId held bridge (.handling input) →
        stage ≠ before.stage → ∀ answers next, System.Step live' (.finish i answers) next →
          ∃ ended sessionReroute,
            next.transports i = some (before.at (.serving accountId held ended .waiting)) ∧
            ended.returned = true ∧ upstreamWrites ended.trace = upstreamWrites bridge.trace ∧
            clientWrites ended.trace = clientWrites bridge.trace ++
              [(reconnectNotice sessionReroute, answers.notified)]) ∧
      ∀ ended, stage.bridge = some ended → ended.returned = true →
        bridge.returned = true ∨
        (∃ input answers, phase.input = some input ∧
          ended = bridge.next (before.config accountId) ⟨input, answers⟩) ∨
        Notified ended := by
  have hregisters := System.registers hreach
  have hheld : before.stage.token = some token := by rw [hserving]; rfl
  have hknows := hregisters.knows i before token hfound hheld
  obtain ⟨key, hkey, hmatches⟩ := hshared
  have hfirst : Signalled i before token signalled := by
    have hfresh : FreshToken live (.signal j) := trivial
    refine ⟨hregisters.step hfresh hsignal, before.stage, ?_, Nat.le_refl _, .inl ⟨hheld, ?_⟩,
      (fun _ _ _ _ _ ↦ .inl rfl), (fun _ _ _ _ _ he ↦ ⟨_, he, rfl⟩), fun _ he _ ↦ .inl he⟩
    · cases hsignal with
      | signal found => exact hfound
    · cases hsignal with
      | signal found =>
        cases hcommand.symm.trans found
        refine ⟨response.routeGeneration, ?_, holder⟩
        rw [if_pos hsignals]
        exact hknows.signalled hkey hmatches holder
  have hlast : Signalled i before token live' :=
    hrun.invariant (fun _ _ _ hs hstep ↦ hs.step hstep.1 hstep.2) hfirst
  obtain ⟨stage, hafter, hsent, hopen, hhandled, -, hended⟩ := hlast.ending
  refine ⟨stage, hafter, by omega, fun input next hstep ↦ ?_, ?_, fun ended hbridge hreturned ↦ ?_⟩
  · cases hstep with
    | receive found serving running enabled polled =>
      cases hafter.symm.trans found
      change stage = _ at serving
      subst serving
      rcases hopen with ⟨hstill, hobsolete⟩ | ⟨_, hclosed⟩
      · cases hstill
        exact reconnecting_of_ready hobsolete polled
      · cases hclosed
  · rintro accountId held bridge input rfl hsince answers next hstep
    have hinput := (hhandled _ _ _ _ rfl).resolve_left hsince
    cases hstep with
    | finish found serving unbound =>
      cases hafter.symm.trans found
      cases serving
      obtain ⟨hreturned, hup, sessionReroute, hclient⟩ :=
        next_reconnecting (before.config accountId) answers bridge hinput
      exact ⟨_, sessionReroute, System.setTransport_self .., hreturned, hup, hclient⟩
    | finishChecked found serving =>
      cases hafter.symm.trans found
      cases serving
  · rcases hended ended hbridge hreturned with hsame | ⟨_, _, _, _, input, answers, hbefore, hinput,
      hnext⟩ | hnotified
    · rw [hserving] at hsame
      cases hsame
      exact .inl hreturned
    · cases hserving.symm.trans hbefore
      exact .inr (.inl ⟨input, answers, hinput, hnext⟩)
    · exact .inr (.inr hnotified)

end Runs

/-- The command has signalled. -/
def signalledReroute : System :=
  { afterReroute.setCommand 0 ⟨.operator, rerouteSession "two" false, .finished⟩ with
    registry := (afterReroute.registry.signalReroute sessionKey.keyHash
      (candidateHashes (rerouteSession "two" false)) 1).2 }

/-- The bound session's transport is told to connect again once the command has signalled. -/
theorem signalled_transport_reconnects_rerouted : let _ := hyphenatedText
    let _ := overlapReader
    let _ := overlapDigests
    ∃ live ended sessionReroute, Run System.Step afterReroute
        [.signal 0, .receive 0 .rerouteRequested, .finish 0 overlapAnswers] live ∧
      live.transports 0 = some (boundTransport (.serving 1 (some 1) ended .waiting)) ∧
      ended.returned = true ∧ upstreamWrites ended.trace = [] ∧
      clientWrites ended.trace = [(reconnectNotice sessionReroute, .sent)] := by
  intro _ _ _
  have hfresh : FreshToken beforeReroute (.commit 0 .default 300 [1] 2000 ⟨2000, ""⟩) := trivial
  have hreach := beforeReroute_run.append (.single ⟨hfresh, afterReroute_step⟩)
  have hfound : afterReroute.transports 0 =
      some (boundTransport (.serving 1 (some 1) (.start .sticky) .waiting)) := rfl
  have hshared : ∃ key ∈ [sessionKey], key.keyHash ∈
      candidateHashes (rerouteSession "two" false) :=
    ⟨sessionKey, List.mem_singleton_self _, List.mem_cons_self⟩
  have hsignals : signals .operator (reroutePlan.response (rerouteSession "two" false)) = true := by
    decide +kernel
  have hsignal : System.Step afterReroute (.signal 0) signalledReroute := by
    have hstep := @System.Step.signal _ _ _ afterReroute 0 .operator (rerouteSession "two" false)
      (reroutePlan.response (rerouteSession "two" false)) rfl
    rw [if_pos hsignals] at hstep
    exact hstep
  have hobsolete : signalledReroute.obsolete 0 (some 1) = true := by decide +kernel
  have hreceive : System.Step signalledReroute (.receive 0 .rerouteRequested)
      (signalledReroute.setTransport 0 (boundTransport (.serving 1 (some 1) (.start .sticky)
        (.handling .rerouteRequested)))) :=
    @System.Step.receive _ _ _ _ 0 (boundTransport (.serving 1 (some 1) (.start .sticky) .waiting))
      1 (some 1) _ .rerouteRequested rfl rfl rfl (List.cons_ne_nil _ _) hobsolete
  have hunbound : ¬ System.Binds [sessionKey] overlapAnswers .rerouteRequested := by
    rintro ⟨-, -, message, request, hinput, -⟩
    cases hinput
  have hfinish : System.Step (signalledReroute.setTransport 0 (boundTransport (.serving 1 (some 1)
      (.start .sticky) (.handling .rerouteRequested)))) (.finish 0 overlapAnswers) _ :=
    .finish (System.setTransport_self ..) rfl hunbound
  have hplain : FreshToken signalledReroute (.receive 0 .rerouteRequested) := trivial
  obtain ⟨stage, hafter, -, -, hends, -⟩ := signalled_transport_reconnects hreach hfound rfl rfl
    hsignals hshared (by decide) hsignal (.single ⟨hplain, hreceive⟩)
  have hstage := congrArg Transport.stage
    (Option.some.inj (hafter.symm.trans (System.setTransport_self ..)))
  obtain ⟨ended, sessionReroute, hended, hreturned, hup, hclient⟩ := hends _ _ _ _ hstage
    (fun he ↦ by cases hstage.symm.trans he) _ _ hfinish
  exact ⟨_, ended, sessionReroute, .cons hsignal (.cons hreceive (.single hfinish)), hended,
    hreturned, hup, hclient⟩

end CodexLb.Live
