import CodexLb.Route.Reachable
import CodexLb.Websocket.Connect

/-!
# A WebSocket is opened

The loop of `select_and_connect` as a failover through the pool of accounts.
Whatever the handshakes and the refreshes answer, no account is left reserved,
every account that failed is marked or cooled down when the call returns, and
no session is bound but to the account that connected.
-/

namespace CodexLb.Websocket

open Relational Transition Proxy

/-- The attempt that connected. -/
def connectedAttempt (attempts : List ConnectAttempt) : Option ConnectAttempt :=
  attempts.find? fun a ↦ a.outcome.answer?.isSome

/-- A store after attempts on another one: every attempt kept what it promises, the accounts that
failed are penalised, none is reserved any longer, and the routes are those that the bind of the
connected account makes of the first ones. -/
structure Opened [UuidText] [StatusReason] [WebSocketClient] (config : ProxyConfig)
    (crypto : TokenCrypto) (context : ConnectContext) (answers : Nat → ConnectAnswers) (s : Store)
    (attempts : List ConnectAttempt) (t : Store) : Prop where
  has : ∀ id, t.accounts.has id = s.accounts.has id
  connects : ∀ a ∈ attempts, Connects config crypto context answers a
  penalised : ∀ a ∈ attempts, a.outcome.answer? = none →
    Penalised a.selected.accountId (answers a.round).failedAt t
  returned : ∀ id, 0 ≤ s.inflight id → t.inflight id = s.inflight id
  written : ∃ u, u = { s with
      accounts := u.accounts, accountRuntimeState := u.accountRuntimeState } ∧
    t = match connectedAttempt attempts with
      | none => u
      | some a => bindConnected context a.selected.accountId (answers a.round).boundAt u

section Runs

variable {context : ConnectContext} {answers : Nat → ConnectAnswers} {s t : Store}
  {attempts : List ConnectAttempt}

private theorem bindConnected_rows (context : ConnectContext) (accountId : Uuid)
    (boundAt : Instant) (s : Store) :
    (bindConnected context accountId boundAt s).accounts = s.accounts ∧
      (bindConnected context accountId boundAt s).accountRuntimeState =
        s.accountRuntimeState := by
  unfold bindConnected
  split
  · exact ⟨rfl, rfl⟩
  · rw [bindAffinitiesAtEpoch_writes context.affinities accountId context.routeEpoch boundAt s]
    exact ⟨rfl, rfl⟩

variable [UuidText] [StatusReason] [WebSocketClient] {config : ProxyConfig} {crypto : TokenCrypto}

/-- While every attempt has moved on, nothing was bound. -/
theorem Opened.unbound (h : Opened config crypto context answers s attempts t)
    (hmoved : (attempts.map Attempted.outcome).findSome? Try.answer? = none) :
    connectedAttempt attempts = none ∧ t = { s with
      accounts := t.accounts, accountRuntimeState := t.accountRuntimeState } := by
  have hnone : connectedAttempt attempts = none := by
    rw [connectedAttempt, List.find?_eq_none]
    intro a ha
    have hanswer := List.findSome?_eq_none_iff.mp hmoved a.outcome (List.mem_map_of_mem ha)
    rw [hanswer]
    decide
  obtain ⟨u, hu, ht⟩ := h.written
  rw [hnone] at ht
  rw [ht]
  exact ⟨hnone, hu⟩

/-- One more attempt, on an account that was not tried yet. -/
theorem Opened.tried (h : Opened config crypto context answers s attempts t)
    (hmoved : (attempts.map Attempted.outcome).findSome? Try.answer? = none)
    {a : ConnectAttempt} (hfresh : ∀ b ∈ attempts, b.selected.accountId ≠ a.selected.accountId)
    (hselected : Touches a.selected.accountId 1 t a.before)
    (hconnects : Connects config crypto context answers a) :
    Opened config crypto context answers s (attempts ++ [a]) a.after := by
  obtain ⟨hnone, hframe⟩ := h.unbound hmoved
  obtain ⟨u, ⟨n, htouches, hone⟩, haccounts, hruntime, hpenalised, hwritten⟩ :
      ∃ u, Returns a.selected.accountId a.before u ∧ a.after.accounts = u.accounts ∧
        a.after.accountRuntimeState = u.accountRuntimeState ∧
        (a.outcome.answer? = none →
          Penalised a.selected.accountId (answers a.round).failedAt a.after) ∧
        a.after = match connectedAttempt (attempts ++ [a]) with
          | none => u
          | some a => bindConnected context a.selected.accountId (answers a.round).boundAt u := by
    have hended := hconnects.ended
    have hlast : connectedAttempt (attempts ++ [a]) =
        if a.outcome.answer?.isSome then some a else none := by
      rw [connectedAttempt, List.find?_append, ← connectedAttempt, hnone]
      simp [List.find?_singleton]
    cases houtcome : a.outcome with
    | settled prepared =>
      rw [houtcome] at hended
      obtain ⟨-, u, hreturns, hafter⟩ := hended
      obtain ⟨haccounts, hruntime⟩ := bindConnected_rows context a.selected.accountId
        (answers a.round).boundAt u
      refine ⟨u, hreturns, by rw [hafter, haccounts], by rw [hafter, hruntime],
        (fun hanswer ↦ by cases hanswer), ?_⟩
      rw [hlast, houtcome]
      exact hafter
    | moved fallback error =>
      rw [houtcome] at hended
      refine ⟨a.after, hended.2.1, rfl, rfl, fun _ ↦ hended.2.2, ?_⟩
      rw [hlast, houtcome]
      rfl
  have hboth := hselected.trans htouches
  refine ⟨fun id ↦ ?_, fun b hb ↦ ?_, fun b hb houtcome ↦ ?_, fun id hcount ↦ ?_, u, ?_, hwritten⟩
  · rw [haccounts, hboth.has, h.has]
  · rcases List.mem_append.mp hb with hb | hb
    · exact h.connects b hb
    · rw [List.mem_singleton.mp hb]
      exact hconnects
  · rcases List.mem_append.mp hb with hb | hb
    · have hother := hboth.penalised (hfresh b hb) (h.penalised b hb houtcome)
      unfold Penalised at hother ⊢
      rw [haccounts, hruntime]
      exact hother
    · rw [List.mem_singleton.mp hb] at houtcome ⊢
      exact hpenalised houtcome
  · have hbefore := h.returned id hcount
    rw [Store.inflight, hruntime, ← Store.inflight]
    by_cases he : id = a.selected.accountId
    · subst he
      have hacquired := hselected.inflight
      have hreleased := htouches.inflight
      rw [hone (by omega)] at hreleased
      omega
    · rw [hboth.inflight_ne he, hbefore]
  · rw [hboth.frame, hframe]

end Runs

end CodexLb.Websocket
