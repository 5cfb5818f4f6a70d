import CodexLb.Route.Reachable

/-!
# A reroute stands

What a committed reroute leaves behind holds until something takes it back:
its session stays on one root at one generation, with its affinity rows on one
account, whatever other sessions, requests and commands do. Only a command
that covers the root, or a bind at its own generation to another account, ends
it; a bind of what was captured before cannot.
-/

namespace CodexLb

open Relational Transition

/-- A reroute stands: its root is at the generation of the command, its keys are mapped to the
root, and every affinity row of the session is on the account. -/
structure Stands (rootKeyHash : String) (routeGeneration : Nat) (accountId : Uuid)
    (keys : Set String) (s : Store) : Prop where
  root : ∃ root, s.sessionRoots.find rootKeyHash = some root ∧
    root.routeGeneration = routeGeneration ∧ root.lastAction = some .reroute
  mapped : ∀ k ∈ keys, ∃ row, s.sessionRouteKeys.find k = some row ∧
    row.rootKeyHash = rootKeyHash
  routed : ∀ k row affinity, s.sessionRouteKeys.find k = some row →
    row.rootKeyHash = rootKeyHash → s.affinity.find k = some affinity →
    affinity.accountId = accountId

/-- An operation that takes no reroute of the root back: no command that covers the root, and no
bind at its generation to another account. -/
def Op.Leaves (rootKeyHash : String) (routeGeneration : Nat) (accountId : Uuid) (s : Store)
    (op : Op × Clock) : Prop :=
  match op.1 with
  | .bindAffinitiesAtEpoch _ bound (some epoch) =>
    epoch.rootKeyHash = rootKeyHash → epoch.routeGeneration = routeGeneration → bound = accountId
  | .applySessionRouteAction _ _ request _ _ => request.dryRun = false →
    rootKeyHash ∉ coveredRoots (request.keys.map SessionRouteKey.keyHash) request.rootKeyHash s
  | _ => True

namespace Stands

variable {rootKeyHash : String} {routeGeneration : Nat} {accountId : Uuid} {keys : Set String}
  {s t : Store}

/-- Forgetting takes nothing back. -/
theorem forget (h : Stands rootKeyHash routeGeneration accountId keys s) {keep : Uuid → Bool}
    (hforget : Forgetting keep s t) : Stands rootKeyHash routeGeneration accountId keys t where
  root := by
    obtain ⟨root, hroot, hgeneration, haction⟩ := h.root
    exact ⟨root.keepAccounts keep, by rw [hforget.roots, hroot]; rfl, hgeneration, haction⟩
  mapped k hk := by
    rw [hforget.routeKeys]
    exact h.mapped k hk
  routed k row affinity hrow hroot ha := by
    rw [hforget.routeKeys] at hrow
    exact h.routed k row affinity hrow hroot (hforget.affinity k affinity ha).1

/-- A handover of keys of other sessions to another root takes nothing back. -/
theorem handover_elsewhere (h : Stands rootKeyHash routeGeneration accountId keys s)
    {moved : Set String} {other : String} {row' : SessionRoot}
    (hover : Handover moved other row' s t) (hne : rootKeyHash ≠ other)
    (hfree : ∀ k ∈ moved, ∀ row, s.sessionRouteKeys.find k = some row →
      row.rootKeyHash ≠ rootKeyHash) : Stands rootKeyHash routeGeneration accountId keys t where
  root := by
    obtain ⟨root, hroot, hstands⟩ := h.root
    exact ⟨root, by rw [hover.others rootKeyHash hne hfree, hroot], hstands⟩
  mapped k hk := by
    obtain ⟨row, hrow, hroot⟩ := h.mapped k hk
    have hout : k ∉ moved := fun hin ↦ hfree k hin row hrow hroot
    exact ⟨row, by rw [hover.unmapped k hout, hrow], hroot⟩
  routed k row affinity hrow hroot ha := by
    have hout : k ∉ moved := by
      intro hin
      obtain ⟨kind, hmapped⟩ := hover.mapped k hin
      rw [hmapped] at hrow
      cases hrow
      exact hne hroot.symm
    rw [hover.unmapped k hout] at hrow
    rw [hover.kept k hout] at ha
    exact h.routed k row affinity hrow hroot ha

/-- A bind of the epoch to the same account takes nothing back. -/
theorem bind_same (h : Stands rootKeyHash routeGeneration accountId keys s) (hs : s.RoutesSound)
    {validated : RouteKeys} {epoch : SessionRouteEpoch} {root : SessionRoot} {now : Instant}
    (hbound : BoundAtEpoch validated accountId epoch root now s t)
    (hroot : epoch.rootKeyHash = rootKeyHash) :
    Stands rootKeyHash routeGeneration accountId keys t := by
  subst hroot
  have hover := hbound.handover hs.invariant
  obtain ⟨stored, hstored, hgeneration, haction⟩ := h.root
  rw [hbound.current] at hstored
  cases hstored
  -- the row of the root names the account after the bind, whether or not it did before
  have hafter : (BoundAtEpoch.rootAfter accountId now root).routeGeneration = routeGeneration ∧
      (BoundAtEpoch.rootAfter accountId now root).lastAction = some .reroute ∧
      (BoundAtEpoch.rootAfter accountId now root).effectiveAccountId = some accountId := by
    unfold BoundAtEpoch.rootAfter
    split
    · exact ⟨hgeneration, haction, rfl⟩
    · next hsame => exact ⟨hgeneration, haction, by simpa [replacesEffective, haction] using hsame⟩
  refine ⟨⟨_, hover.installed, hafter.1, hafter.2.1⟩, fun k hk ↦ ?_,
    fun k row affinity hrow hroot ha ↦ ?_⟩
  · obtain ⟨row, hrow, hroot⟩ := h.mapped k hk
    obtain ⟨kind, hmapped⟩ := hover.mapped k (.inr ⟨row, hrow, hroot⟩)
    exact ⟨_, hmapped, rfl⟩
  · by_cases hin : k ∈ joinedKeys validated epoch.rootKeyHash s
    · exact (hover.coherent hs.coherent hafter.2.1 accountId hafter.2.2 k hin affinity ha).1
    · -- a key that was not joined is not on the root
      rw [hover.unmapped k hin] at hrow
      exact absurd (.inr ⟨row, hrow, hroot⟩) hin

/-- A bind takes nothing back, unless it is of the epoch to another account. -/
theorem bind (h : Stands rootKeyHash routeGeneration accountId keys s) (hs : s.RoutesSound)
    {bound : List SessionRouteKey} {account : Uuid} {epoch : Option SessionRouteEpoch}
    {now : Instant} {result : Except AppError Bool}
    (hbind : bindAffinitiesAtEpoch bound account epoch now s = (result, t))
    (hleaves : ∀ captured, epoch = some captured → captured.rootKeyHash = rootKeyHash →
      captured.routeGeneration = routeGeneration → account = accountId) :
    Stands rootKeyHash routeGeneration accountId keys t := by
  cases bindAffinitiesAtEpoch_outcome hs.invariant hbind with
  | refused _ => exact h
  | empty _ _ => exact h
  | @atEpoch validated captured root _ _ he hatEpoch =>
    by_cases hroot : captured.rootKeyHash = rootKeyHash
    · -- the epoch was current, so it is of the generation of the reroute
      have hcurrent : captured.routeGeneration = routeGeneration := by
        obtain ⟨stored, hstored, hgeneration, -⟩ := h.root
        rw [← hroot, hatEpoch.current] at hstored
        cases hstored
        exact hatEpoch.generation.symm.trans hgeneration
      cases hleaves captured he hroot hcurrent
      exact h.bind_same hs hatEpoch hroot
    · refine h.handover_elsewhere (hatEpoch.handover hs.invariant) (Ne.symm hroot)
        fun k hk row hrow hat ↦ hroot ?_
      rcases hk with hk | ⟨other, hother, hsame⟩
      · exact (hatEpoch.free k hk row hrow).symm.trans hat
      · rw [hother] at hrow
        cases hrow
        exact hsame.symm.trans hat
  | @unclaimed validated other root before _ _ _ hunclaimed =>
    -- the root of a bind without an epoch is one that no command has touched
    have hne : rootKeyHash ≠ other := by
      rintro rfl
      obtain ⟨stored, hstored, -, haction⟩ := h.root
      rw [hunclaimed.unchanged stored hstored, hunclaimed.untouched.2] at haction
      cases haction
    refine h.handover_elsewhere (hunclaimed.handover hs.invariant) hne
      fun k hk row hrow hat ↦ hne ?_
    rcases hk with hk | ⟨stored, hstored, hsame⟩
    · exact hat.symm.trans (hunclaimed.free k hk row hrow)
    · rw [hstored] at hrow
      cases hrow
      exact hat.symm.trans hsame

variable [UuidText]

/-- A command that does not cover the root takes nothing back. -/
theorem command (h : Stands rootKeyHash routeGeneration accountId keys s)
    {settings : RuntimeSettings} {usageRefreshInterval : Nat}
    {request : SessionRouteActionRequest} {liveAccountIds : List Uuid} {selectedAt now : Instant}
    {result : Except AppError SessionRouteActionResponse}
    (hcommand : applySessionRouteAction settings usageRefreshInterval request liveAccountIds
      selectedAt now s = (result, t))
    (hleaves : request.dryRun = false →
      rootKeyHash ∉ coveredRoots (request.keys.map SessionRouteKey.keyHash)
        request.rootKeyHash s) : Stands rootKeyHash routeGeneration accountId keys t := by
  rcases applySessionRouteAction_outcome hcommand with ⟨rfl, -⟩ | ⟨_, _, _, -, hcommitted⟩
  · exact h
  · have hout := hleaves hcommitted.dryRun
    refine h.handover_elsewhere hcommitted.handover (fun he ↦ hout ?_)
      fun k hk row hrow hat ↦ hout ?_
    · exact mem_coveredRoots_iff.mpr (.inl he)
    · rw [hcommitted.covered_eq] at hk
      exact hat ▸ mem_coveredRoots_of_mem_coveredKeys hk hrow

/-- No other operation takes a reroute back. -/
theorem step (h : Stands rootKeyHash routeGeneration accountId keys s) (hs : s.RoutesSound)
    {op : Op × Clock} (hleaves : Op.Leaves rootKeyHash routeGeneration accountId s op)
    (hstep : s.Step op t) : Stands rootKeyHash routeGeneration accountId keys t := by
  obtain ⟨op, now⟩ := op
  cases hmaps : op.mapsKeys with
  | false =>
    obtain ⟨keep, hforget⟩ := Op.forgetting hmaps now s
    rw [show op.exec now s = t from hstep] at hforget
    exact h.forget hforget
  | true =>
    cases op with
    | bindAffinitiesAtEpoch bound account epoch =>
      refine h.bind hs (Prod.ext rfl hstep) fun captured he hroot hcurrent ↦ ?_
      subst he
      exact hleaves hroot hcurrent
    | applySessionRouteAction settings interval request live selectedAt =>
      exact h.command (Prod.ext rfl hstep) hleaves
    | _ => cases hmaps

/-- A reroute stands along every run that does not take it back. -/
theorem run (h : Stands rootKeyHash routeGeneration accountId keys s) (hs : s.RoutesSound)
    {events : List (Op × Clock)}
    (hrun : Run (guarded Store.Step (Op.Leaves rootKeyHash routeGeneration accountId)) s events
      t) :
    t.RoutesSound ∧ Stands rootKeyHash routeGeneration accountId keys t := by
  refine hrun.invariant (P := fun s ↦ s.RoutesSound ∧
    Stands rootKeyHash routeGeneration accountId keys s) ?_ ⟨hs, h⟩
  rintro s op t ⟨hs, h⟩ ⟨hleaves, hstep⟩
  exact ⟨hs.step hstep, h.step hs hleaves hstep⟩

end Stands

end CodexLb
