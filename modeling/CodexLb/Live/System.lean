import CodexLb.Db.Operation
import CodexLb.Registry.Delivery
import CodexLb.Websocket.Bridge
import Mathlib.Logic.Function.Basic

/-!
# The live system

The store, the connection registry, the WebSocket transports and the commands
that reroute their sessions. A step is what one task does at once: a statement
or a transaction of the store, a call of the registry under its lock, a poll of
`select!`. Any interleaving of the tasks is a run.
-/

namespace CodexLb.Live

open Websocket

/-! ### Transports -/

/-- Where the task of an open transport stands, `src/websocket.rs:347–509`. -/
inductive Phase where
  | waiting
  | handling (input : BridgeInput)
  /-- `bind_affinities_at_epoch` has answered for a request whose turn was started. -/
  | checked (message : ClientMessage) (bound : Except AppError Bool)

/-- How far a transport has come, `src/websocket.rs:47–75`. -/
inductive Stage where
  | opening
  | serving (accountId : Uuid) (token : Option Nat) (bridge : Bridge) (phase : Phase)
  | closed (bridge : Bridge)

/-- A WebSocket between Codex and the upstream, with the epoch that was captured for it. -/
structure Transport where
  affinities : List SessionRouteKey
  routeEpoch : Option SessionRouteEpoch
  stage : Stage

/-- The generation that a transport was opened at, `src/websocket.rs:321–323`. -/
def Transport.generation (transport : Transport) : Int :=
  match transport.routeEpoch with
  | some epoch => epoch.routeGeneration
  | none => 0

/-- The root that a transport is registered under, `src/websocket.rs:325–328`. -/
def Transport.rootKeyHash (transport : Transport) (primary : SessionRouteKey) : String :=
  match transport.routeEpoch with
  | some epoch => epoch.rootKeyHash
  | none => primary.keyHash

/-- What a transport's bridge is started with, once it has an account. -/
def Transport.config (transport : Transport) (accountId : Uuid) : BridgeConfig :=
  ⟨accountId, transport.affinities, transport.routeEpoch⟩

/-- The transport at another stage. -/
def Transport.at (transport : Transport) (stage : Stage) : Transport :=
  { transport with stage := stage }

/-- The bridge of a transport. -/
def Stage.bridge : Stage → Option Bridge
  | opening => none
  | serving _ _ bridge _ => some bridge
  | closed bridge => some bridge

/-! ### Commands -/

/-- Who gives a command: `src/admin/mod.rs:265–337` or `src/scheduler.rs:67–121`. -/
inductive Origin where
  | operator
  | scheduler
  deriving DecidableEq

/-- How far a command has come. -/
inductive CommandStage where
  | snapshotted (accountIds : Finset Uuid)
  | committed (response : SessionRouteActionResponse)
  | finished

/-- A route action that is being carried out. -/
structure Command where
  origin : Origin
  request : SessionRouteActionRequest
  stage : CommandStage

/-- The checks of the admin handler, `src/admin/mod.rs:269–285` and `339–344`. -/
def admitted (request : SessionRouteActionRequest) : Except AppError Unit :=
  if 500 < request.keys.length then
    .error (.badRequest "at most 500 session route keys can be used at once")
  else if !validAffinityHash request.rootKeyHash ||
      request.keys.any fun key ↦ !validAffinityHash key.keyHash then
    .error (.badRequest "session route hashes must be 64 lowercase hexadecimal characters")
  else .ok ()

/-- The hashes that a command looks connections up by, `src/admin/mod.rs:287–289` and
`src/scheduler.rs:82–84`. -/
def candidateHashes (request : SessionRouteActionRequest) : List String :=
  request.rootKeyHash :: request.keys.map SessionRouteKey.keyHash

/-- Whether a command signals once it has committed, `src/admin/mod.rs:303–309` and
`src/scheduler.rs:104–107`. -/
def signals (origin : Origin) (response : SessionRouteActionResponse) : Bool :=
  (response.status = .applied || response.status = .fallback) &&
    match origin with
    | .operator => !response.dryRun && 0 < response.routeGeneration
    | .scheduler => true

/-! ### The system -/

/-- The store, the registry, and the tasks by number. -/
structure System where
  store : Store
  registry : RegistryInner
  transports : Nat → Option Transport
  commands : Nat → Option Command

/-- What a task does next. -/
inductive Action where
  /-- Any other task writes to the store. -/
  | operate (op : Op) (now : Clock)
  | accept (i : Nat) (affinities : List SessionRouteKey)
  | connect (i : Nat) (accountId : Uuid) (reason : SelectionReason)
  | receive (i : Nat) (input : BridgeInput)
  | check (i : Nat) (now : Clock)
  | finish (i : Nat) (answers : BridgeAnswers)
  | hangUp (i : Nat)
  | snapshot (j : Nat) (origin : Origin) (request : SessionRouteActionRequest)
  | commit (j : Nat) (settings : RuntimeSettings) (usageRefreshInterval : Nat)
      (liveAccountIds : List Uuid) (selectedAt : Instant) (now : Clock)
  | signal (j : Nat)

namespace System

/-- The system before its first task. -/
def start (store : Store) : System := ⟨store, .default, fun _ ↦ none, fun _ ↦ none⟩

/-- A transport takes another state. -/
def setTransport (live : System) (i : Nat) (transport : Transport) : System :=
  { live with transports := Function.update live.transports i (some transport) }

/-- A command takes another state. -/
def setCommand (live : System) (j : Nat) (command : Command) : System :=
  { live with commands := Function.update live.commands j (some command) }

/-- The receiver of a transport holds a signal newer than the transport,
`wait_for_session_reroute`, `src/websocket.rs:562–585`. -/
def obsolete (live : System) (generation : Int) (token : Option Nat) : Bool :=
  (token.bind live.registry.received).any (generation < ·)

/-- A transport with affinities is registered, `src/websocket.rs:324–338`. -/
def registered (live : System) (transport : Transport) (accountId : Uuid) :
    RegistryInner × Option Nat :=
  match transport.affinities with
  | [] => (live.registry, none)
  | primary :: _ =>
    (live.registry.register (transport.rootKeyHash primary)
      (transport.affinities.map SessionRouteKey.keyHash) accountId transport.generation,
      some live.registry.token)

/-- Dropping the registration of a transport, `src/session_registry.rs:211–221`. -/
def unregistered (live : System) (token : Option Nat) : RegistryInner :=
  match token with
  | some token => live.registry.unregister token
  | none => live.registry

/-- The arms of `select!` in the order in which they are polled: the reroute arm is ready when the
receiver holds a newer signal, and the arms after it are only polled when it is not. -/
def ready (live : System) (generation : Int) (token : Option Nat) : BridgeInput → Prop
  | .shutdownRequested => True
  | .rerouteRequested => live.obsolete generation token = true
  | _ => live.obsolete generation token = false

section Steps

variable [UuidText] [JsonText] [Sha256]

/-- Handling an event binds the affinities of the transport when it is a request whose turn could be
started, `src/websocket.rs:395–439`. -/
def Binds (affinities : List SessionRouteKey) (answers : BridgeAnswers) (input : BridgeInput) :
    Prop :=
  affinities ≠ [] ∧ answers.available = .ok true ∧
    ∃ message request, input = .client message ∧ message.request answers.freshId = some request

/-- One step of one task. -/
inductive Step : System → Action → System → Prop
  | operate (live : System) (op : Op) (now : Clock) :
    Step live (.operate op now) { live with store := op.exec now live.store }
  | accept {live : System} {i : Nat} {affinities : List SessionRouteKey}
      {routeEpoch : Option SessionRouteEpoch} (free : live.transports i = none)
      (captured : resolveSessionRouteEpoch affinities live.store = .ok routeEpoch) :
    Step live (.accept i affinities) (live.setTransport i ⟨affinities, routeEpoch, .opening⟩)
  | connect {live : System} {i : Nat} {transport : Transport} (accountId : Uuid)
      (reason : SelectionReason) (found : live.transports i = some transport)
      (opening : transport.stage = .opening) :
    Step live (.connect i accountId reason)
      { live.setTransport i (transport.at (.serving accountId
          (live.registered transport accountId).2 (.start reason) .waiting)) with
        registry := (live.registered transport accountId).1 }
  | receive {live : System} {i : Nat} {transport : Transport} {accountId : Uuid}
      {token : Option Nat} {bridge : Bridge} {input : BridgeInput}
      (found : live.transports i = some transport)
      (serving : transport.stage = .serving accountId token bridge .waiting)
      (running : bridge.returned = false)
      (enabled : input.enabled (transport.config accountId) bridge.state)
      (polled : live.ready transport.generation token input) :
    Step live (.receive i input)
      (live.setTransport i (transport.at (.serving accountId token bridge (.handling input))))
  | check {live : System} {i : Nat} {transport : Transport} {accountId : Uuid}
      {token : Option Nat} {bridge : Bridge} {message : ClientMessage} (now : Clock)
      (found : live.transports i = some transport)
      (serving : transport.stage = .serving accountId token bridge (.handling (.client message)))
      (routed : transport.affinities ≠ [])
      (requested : ∃ freshId request, message.request freshId = some request) :
    Step live (.check i now)
      { live.setTransport i (transport.at (.serving accountId token bridge (.checked message
          (bindAffinitiesAtEpoch transport.affinities accountId transport.routeEpoch now.instant
            live.store).1))) with
        store := (bindAffinitiesAtEpoch transport.affinities accountId transport.routeEpoch
          now.instant live.store).2 }
  | finish {live : System} {i : Nat} {transport : Transport} {accountId : Uuid}
      {token : Option Nat} {bridge : Bridge} {input : BridgeInput} {answers : BridgeAnswers}
      (found : live.transports i = some transport)
      (serving : transport.stage = .serving accountId token bridge (.handling input))
      (unbound : ¬ Binds transport.affinities answers input) :
    Step live (.finish i answers)
      (live.setTransport i (transport.at (.serving accountId token
        (bridge.next (transport.config accountId) ⟨input, answers⟩) .waiting)))
  | finishChecked {live : System} {i : Nat} {transport : Transport} {accountId : Uuid}
      {token : Option Nat} {bridge : Bridge} {message : ClientMessage}
      {bound : Except AppError Bool} {answers : BridgeAnswers}
      (found : live.transports i = some transport)
      (serving : transport.stage = .serving accountId token bridge (.checked message bound))
      (binds : Binds transport.affinities answers (.client message))
      (answered : answers.bound = bound) :
    Step live (.finish i answers)
      (live.setTransport i (transport.at (.serving accountId token
        (bridge.next (transport.config accountId) ⟨.client message, answers⟩) .waiting)))
  | hangUp {live : System} {i : Nat} {transport : Transport} {accountId : Uuid}
      {token : Option Nat} {bridge : Bridge} (found : live.transports i = some transport)
      (serving : transport.stage = .serving accountId token bridge .waiting)
      (returned : bridge.returned = true) :
    Step live (.hangUp i)
      { live.setTransport i (transport.at (.closed bridge)) with
        registry := live.unregistered token }
  | snapshot {live : System} {j : Nat} {origin : Origin} {request : SessionRouteActionRequest}
      (free : live.commands j = none)
      (valid : origin = .operator → admitted request = .ok ()) :
    Step live (.snapshot j origin request)
      (live.setCommand j ⟨origin, request, .snapshotted
        (live.registry.snapshot request.rootKeyHash (candidateHashes request)).accountIds⟩)
  | commit {live : System} {j : Nat} {origin : Origin} {request : SessionRouteActionRequest}
      {settings : RuntimeSettings} {usageRefreshInterval : Nat} {liveAccountIds : List Uuid}
      {selectedAt : Instant} {now : Clock} {response : SessionRouteActionResponse} {store : Store}
      (found : live.commands j = some ⟨origin, request, .snapshotted liveAccountIds.toFinset⟩)
      (applied : applySessionRouteAction settings usageRefreshInterval request liveAccountIds
        selectedAt now.instant live.store = (.ok response, store)) :
    Step live (.commit j settings usageRefreshInterval liveAccountIds selectedAt now)
      { live.setCommand j ⟨origin, request, .committed response⟩ with store := store }
  | signal {live : System} {j : Nat} {origin : Origin} {request : SessionRouteActionRequest}
      {response : SessionRouteActionResponse}
      (found : live.commands j = some ⟨origin, request, .committed response⟩) :
    Step live (.signal j)
      { live.setCommand j ⟨origin, request, .finished⟩ with
        registry := if signals origin response then
          (live.registry.signalReroute response.rootKeyHash (candidateHashes request)
            response.routeGeneration).2
        else live.registry }

/-- What a step does to one transport. -/
inductive StageChange (live : System) (transport : Transport) : Stage → Prop
  | rest : StageChange live transport transport.stage
  | connect (accountId : Uuid) (reason : SelectionReason) (opening : transport.stage = .opening) :
    StageChange live transport (.serving accountId (live.registered transport accountId).2
      (.start reason) .waiting)
  | receive {accountId : Uuid} {token : Option Nat} {bridge : Bridge} {input : BridgeInput}
      (serving : transport.stage = .serving accountId token bridge .waiting)
      (polled : live.ready transport.generation token input) :
    StageChange live transport (.serving accountId token bridge (.handling input))
  | check {accountId : Uuid} {token : Option Nat} {bridge : Bridge} {message : ClientMessage}
      (now : Clock)
      (serving : transport.stage = .serving accountId token bridge
        (.handling (.client message))) :
    StageChange live transport (.serving accountId token bridge (.checked message
      (bindAffinitiesAtEpoch transport.affinities accountId transport.routeEpoch now.instant
        live.store).1))
  | finish {accountId : Uuid} {token : Option Nat} {bridge : Bridge} {input : BridgeInput}
      {answers : BridgeAnswers}
      (serving : transport.stage = .serving accountId token bridge (.handling input))
      (unbound : ¬ Binds transport.affinities answers input) :
    StageChange live transport (.serving accountId token
      (bridge.next (transport.config accountId) ⟨input, answers⟩) .waiting)
  | finishChecked {accountId : Uuid} {token : Option Nat} {bridge : Bridge}
      {message : ClientMessage} {bound : Except AppError Bool} {answers : BridgeAnswers}
      (serving : transport.stage = .serving accountId token bridge (.checked message bound))
      (answered : answers.bound = bound) :
    StageChange live transport (.serving accountId token
      (bridge.next (transport.config accountId) ⟨.client message, answers⟩) .waiting)
  | hangUp {accountId : Uuid} {token : Option Nat} {bridge : Bridge}
      (serving : transport.stage = .serving accountId token bridge .waiting) :
    StageChange live transport (.closed bridge)

omit [UuidText] [JsonText] [Sha256] in
/-- Another transport is left alone. -/
theorem setTransport_ne (live : System) {i other : Nat} (h : other ≠ i) (transport : Transport) :
    (live.setTransport i transport).transports other = live.transports other :=
  Function.update_of_ne h ..

omit [UuidText] [JsonText] [Sha256] in
/-- A transport has the state that it took. -/
@[simp] theorem setTransport_self (live : System) (i : Nat) (transport : Transport) :
    (live.setTransport i transport).transports i = some transport := Function.update_self ..

/-- A transport keeps its capture, and a step changes its stage in one of these ways. -/
theorem Step.stageChange {live live' : System} {action : Action} (h : Step live action live')
    {i : Nat} {transport : Transport} (hfound : live.transports i = some transport) :
    ∃ stage, live'.transports i = some (transport.at stage) ∧
      StageChange live transport stage := by
  -- either the transport is the one that moves, or nothing happens to it
  have hmoves : ∀ {other : Nat} {moved : Transport} {next : Stage},
      live.transports other = some moved → StageChange live moved next →
      ∃ stage, (live.setTransport other (moved.at next)).transports i = some (transport.at stage) ∧
        StageChange live transport stage := by
    intro other moved next found change
    by_cases hi : i = other
    · subst hi
      cases hfound.symm.trans found
      exact ⟨next, setTransport_self .., change⟩
    · exact ⟨transport.stage, (setTransport_ne live hi _).trans hfound, .rest⟩
  cases h with
  | operate | snapshot | commit | signal => exact ⟨_, hfound, .rest⟩
  | accept free captured =>
    refine ⟨_, (setTransport_ne live ?_ _).trans hfound, .rest⟩
    rintro rfl
    rw [hfound] at free
    cases free
  | connect accountId reason found opening =>
    exact hmoves found (.connect accountId reason opening)
  | receive found serving running enabled polled => exact hmoves found (.receive serving polled)
  | check now found serving routed requested => exact hmoves found (.check now serving)
  | finish found serving unbound => exact hmoves found (.finish serving unbound)
  | finishChecked found serving binds answered =>
    exact hmoves found (.finishChecked serving answered)
  | hangUp found serving returned => exact hmoves found (.hangUp serving)

end Steps

end System

/-- A registration gets a token that no live connection has. -/
def FreshToken (live : System) : Action → Prop
  | .connect .. => live.registry.connections.has live.registry.token = false
  | _ => True

end CodexLb.Live
