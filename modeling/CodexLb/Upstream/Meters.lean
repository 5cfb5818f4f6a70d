import CodexLb.Db.Selection
import CodexLb.Upstream.Windows

/-!
# The core quota and additional meters

Which windows of a payload `parse_usage_windows` returns under the key of the
core quota, and what `replace_usage_windows` and the routing queries make of
them. The key of an additional meter is free text of the payload, and the
first window of a key and a slot stays.
-/

namespace CodexLb

open Machine
open Relational

/-! ### The first window of each key and slot -/

section Retain

variable {seen seen' : List (String × String)} {windows others : List ParsedUsageWindow}

/-- The windows of some keys are retained as if there were no others. -/
theorem filter_retainUnseen (keys : String → Bool)
    (hseen : ∀ k, keys k.1 = true → (k ∈ seen ↔ k ∈ seen')) :
    (retainUnseen seen windows).filter (fun window ↦ keys window.quotaKey) =
      retainUnseen seen' (windows.filter fun window ↦ keys window.quotaKey) := by
  induction windows generalizing seen seen' with
  | nil => rfl
  | cons window windows ih =>
    rw [retainUnseen]
    by_cases hkey : keys window.quotaKey = true
    · have hkeep : ∀ rest, (window :: rest).filter (fun window ↦ keys window.quotaKey) =
          window :: rest.filter fun window ↦ keys window.quotaKey :=
        fun rest ↦ List.filter_cons_of_pos (p := fun window : ParsedUsageWindow ↦
          keys window.quotaKey) hkey
      have hsame := hseen (window.quotaKey, window.sourceSlot) hkey
      rw [hkeep, retainUnseen]
      by_cases hmem : (window.quotaKey, window.sourceSlot) ∈ seen
      · rw [if_pos hmem, if_pos (hsame.mp hmem)]
        exact ih hseen
      · rw [if_neg hmem, if_neg (mt hsame.mpr hmem), hkeep]
        congr 1
        apply ih
        intro k hk
        rw [List.mem_cons, List.mem_cons, hseen k hk]
    · have hdrop : ∀ rest, (window :: rest).filter (fun window ↦ keys window.quotaKey) =
          rest.filter fun window ↦ keys window.quotaKey :=
        fun rest ↦ List.filter_cons_of_neg (p := fun window : ParsedUsageWindow ↦
          keys window.quotaKey) hkey
      rw [hdrop]
      split
      · exact ih hseen
      · rw [hdrop]
        apply ih
        intro k hk
        have hne : k ≠ (window.quotaKey, window.sourceSlot) := by
          rintro rfl
          exact hkey hk
        rw [List.mem_cons, or_iff_right hne, hseen k hk]

/-- Windows of distinct keys and slots that have not been seen are all retained. -/
theorem retainUnseen_append
    (hnodup : (windows.map fun window ↦ (window.quotaKey, window.sourceSlot)).Nodup)
    (hseen : ∀ window ∈ windows, (window.quotaKey, window.sourceSlot) ∉ seen) :
    retainUnseen seen (windows ++ others) = windows ++ retainUnseen
      ((windows.map fun window ↦ (window.quotaKey, window.sourceSlot)).reverse ++ seen) others := by
  induction windows generalizing seen with
  | nil => rfl
  | cons window windows ih =>
    rw [List.map_cons, List.nodup_cons] at hnodup
    rw [List.cons_append, retainUnseen, if_neg (hseen window List.mem_cons_self), ih hnodup.2]
    · simp
    · intro other hother hmem
      rcases List.mem_cons.mp hmem with heq | hmem
      · exact hnodup.1 (heq ▸ List.mem_map_of_mem hother)
      · exact hseen other (List.mem_cons_of_mem window hother) hmem

/-- Nothing is retained where everything has been seen. -/
theorem retainUnseen_eq_nil_iff : retainUnseen seen windows = [] ↔
    ∀ window ∈ windows, (window.quotaKey, window.sourceSlot) ∈ seen := by
  induction windows generalizing seen with
  | nil => simp [retainUnseen]
  | cons window windows ih =>
    rw [retainUnseen, List.forall_mem_cons]
    by_cases hmem : (window.quotaKey, window.sourceSlot) ∈ seen
    · rw [if_pos hmem, and_iff_right hmem]
      exact ih
    · rw [if_neg hmem]
      simp [hmem]

end Retain

/-! ### The windows of each meter -/

section Meters

variable [ChronoRange] [FloatText] {raw : JsonValue} {now : Instant} {quotaKey quotaName : String}
  {rateLimit : Option JsonValue} {target out : List ParsedUsageWindow}

/-- The windows that a meter adds: one for each of its usable slots, under its key. -/
structure MeterWindows (quotaKey : String) (rateLimit : Option JsonValue)
    (added : List ParsedUsageWindow) : Prop where
  key : ∀ window ∈ added, window.quotaKey = quotaKey
  slots : added.map ParsedUsageWindow.sourceSlot =
    sourceSlots.filter fun kind ↦ (usableWindow rateLimit kind).isSome

omit [ChronoRange] in
/-- A meter has a window under a key and a slot if the key is its own and the slot is usable. -/
theorem MeterWindows.exists_iff (h : MeterWindows quotaKey rateLimit out) {key kind : String} :
    (∃ window ∈ out, window.quotaKey = key ∧ window.sourceSlot = kind) ↔
      quotaKey = key ∧ kind ∈ sourceSlots ∧ (usableWindow rateLimit kind).isSome = true := by
  rw [← List.mem_filter (p := fun kind ↦ (usableWindow rateLimit kind).isSome), ← h.slots,
    List.mem_map]
  constructor
  · rintro ⟨window, hwindow, rfl, hkind⟩
    exact ⟨(h.key window hwindow).symm, window, hwindow, hkind⟩
  · rintro ⟨rfl, window, hwindow, hkind⟩
    exact ⟨window, hwindow, h.key window hwindow, hkind⟩

omit [ChronoRange] in
/-- A meter has one window in each slot. -/
theorem MeterWindows.nodup (h : MeterWindows quotaKey rateLimit out) :
    (out.map fun window ↦ (window.quotaKey, window.sourceSlot)).Nodup := by
  have hslots : (out.map ParsedUsageWindow.sourceSlot).Nodup := by
    rw [h.slots]
    exact List.Nodup.filter _ (by decide)
  exact List.Nodup.of_map Prod.snd (by rwa [List.map_map])

omit [ChronoRange] in
/-- All windows of a meter are under its key. -/
theorem MeterWindows.filter_key (h : MeterWindows quotaKey rateLimit out) (key : String) :
    (out.filter fun window ↦ window.quotaKey == key) = if quotaKey = key then out else [] := by
  split
  · next hkey =>
    rw [List.filter_eq_self]
    intro window hwindow
    rw [h.key window hwindow, beq_iff_eq]
    exact hkey
  · next hkey =>
    rw [List.filter_eq_nil_iff]
    intro window hwindow
    rw [h.key window hwindow, beq_iff_eq]
    exact hkey

private theorem slots_foldlM {value : JsonValue} {kinds : List String}
    (h : kinds.foldlM (appendSlot quotaKey quotaName value now) target = .ok out) :
    ∃ added, out = target ++ added ∧ (∀ window ∈ added, window.quotaKey = quotaKey) ∧
      added.map ParsedUsageWindow.sourceSlot =
        kinds.filter fun kind ↦ (usableWindow (some value) kind).isSome := by
  induction kinds generalizing target with
  | nil =>
    cases h
    exact ⟨[], (List.append_nil _).symm, by simp, rfl⟩
  | cons kind kinds ih =>
    rw [List.foldlM_cons] at h
    obtain ⟨middle, hslot, h⟩ := bind_eq_ok.mp h
    obtain ⟨added, hout, hkey, hslots⟩ := ih h
    rw [appendSlot_eq] at hslot
    cases husable : usableWindow (some value) kind with
    | none =>
      rw [husable] at hslot
      cases hslot
      refine ⟨added, hout, hkey, ?_⟩
      rw [List.filter_cons_of_neg (by simp [husable]), hslots]
    | some window =>
      rw [husable, Option.elim_some] at hslot
      cases hreset : windowResetAt window now with
      | error e =>
        rw [hreset] at hslot
        cases hslot
      | ok resetAt =>
        obtain ⟨first, hmiddle, hfirst, hkind⟩ : ∃ first, middle = target ++ [first] ∧
            first.quotaKey = quotaKey ∧ first.sourceSlot = kind := by
          rw [hreset] at hslot
          cases hslot
          exact ⟨_, rfl, rfl, rfl⟩
        refine ⟨first :: added, ?_, List.forall_mem_cons.mpr ⟨hfirst, hkey⟩, ?_⟩
        · rw [hout, hmiddle, List.append_assoc, List.singleton_append]
        · rw [List.filter_cons_of_pos (by simp [husable]), List.map_cons, hslots, hkind]

/-- A meter adds its windows to those before it. -/
theorem appendRateLimit_ok
    (h : appendRateLimit target quotaKey quotaName rateLimit now = .ok out) :
    ∃ added, out = target ++ added ∧ MeterWindows quotaKey rateLimit added := by
  unfold appendRateLimit at h
  cases hobject : rateLimit.filter fun value ↦ value.asObject.isSome with
  | none =>
    rw [hobject] at h
    cases h
    refine ⟨[], (List.append_nil _).symm, by simp, ?_⟩
    rw [List.map_nil, eq_comm, List.filter_eq_nil_iff]
    intro kind _
    rw [usableWindow_eq_none hobject]
    simp
  | some value =>
    rw [hobject] at h
    obtain rfl : rateLimit = some value := Option.eq_some_of_filter_eq_some hobject
    obtain ⟨added, hout, hkey, hslots⟩ := slots_foldlM h
    exact ⟨added, hout, hkey, hslots⟩

private theorem additional_foldlM {entries : List (JsonValue × Nat)}
    (h : entries.foldlM (fun windows entry ↦ appendRateLimit windows
      (additionalKey entry.1 entry.2) (additionalName entry.1) (entry.1.get "rate_limit") now)
        target = .ok out) :
    ∃ added, out = target ++ added ∧ ∀ key kind,
      (∃ window ∈ added, window.quotaKey = key ∧ window.sourceSlot = kind) ↔
        ∃ entry ∈ entries, additionalKey entry.1 entry.2 = key ∧ kind ∈ sourceSlots ∧
          (usableWindow (entry.1.get "rate_limit") kind).isSome = true := by
  induction entries generalizing target with
  | nil =>
    cases h
    exact ⟨[], (List.append_nil _).symm, by simp⟩
  | cons entry entries ih =>
    rw [List.foldlM_cons] at h
    obtain ⟨middle, hfirst, h⟩ := bind_eq_ok.mp h
    obtain ⟨first, rfl, hmeter⟩ := appendRateLimit_ok hfirst
    obtain ⟨rest, hout, hrest⟩ := ih h
    refine ⟨first ++ rest, by rw [hout, List.append_assoc], fun key kind ↦ ?_⟩
    have hslot : (∃ window ∈ first, window.quotaKey = key ∧ window.sourceSlot = kind) ↔
        additionalKey entry.1 entry.2 = key ∧ kind ∈ sourceSlots ∧
          (usableWindow (entry.1.get "rate_limit") kind).isSome = true := hmeter.exists_iff
    simp only [List.mem_append, List.mem_cons, or_and_right, exists_or, exists_eq_left, hslot,
      hrest key kind]

/-- The windows of a payload: the core ones, those of the code review, and those of the additional
meters, each under its key; of these the first of each key and slot. -/
theorem parseUsageWindows_ok {windows : List ParsedUsageWindow}
    (h : parseUsageWindows raw now = .ok windows) : ∃ core review additional,
      appendRateLimit [] "codex" "Codex" (raw.get "rate_limit") now = .ok core ∧
      windows = retainUnseen [] (core ++ review ++ additional) ∧
      MeterWindows "codex" (raw.get "rate_limit") core ∧
      MeterWindows "code_review" (raw.get "code_review_rate_limit") review ∧
      ∀ key kind, (∃ window ∈ additional, window.quotaKey = key ∧ window.sourceSlot = kind) ↔
        ∃ entry ∈ (additionalRateLimits raw).zipIdx, additionalKey entry.1 entry.2 = key ∧
          kind ∈ sourceSlots ∧
            (usableWindow (entry.1.get "rate_limit") kind).isSome = true := by
  unfold parseUsageWindows at h
  obtain ⟨core, hcore, h⟩ := bind_eq_ok.mp h
  obtain ⟨windows₁, hreview, h⟩ := bind_eq_ok.mp h
  obtain ⟨windows₂, hadditional, h⟩ := bind_eq_ok.mp h
  obtain ⟨core', hcoreEq, hcoreMeter⟩ := appendRateLimit_ok hcore
  rw [List.nil_append] at hcoreEq
  subst hcoreEq
  obtain ⟨review, rfl, hreviewMeter⟩ := appendRateLimit_ok hreview
  obtain ⟨additional, rfl, hentries⟩ := additional_foldlM hadditional
  cases h
  exact ⟨core, review, additional, hcore, rfl, hcoreMeter, hreviewMeter, hentries⟩

/-! ### The windows under the core key -/

/-- Every slot in which an additional meter under the key of the core quota has a usable window is
one in which the core quota has a usable window itself. -/
def CoreSlotsCovered (raw : JsonValue) : Prop :=
  ∀ entry ∈ (additionalRateLimits raw).zipIdx, additionalKey entry.1 entry.2 = "codex" →
    ∀ kind ∈ sourceSlots, (usableWindow (entry.1.get "rate_limit") kind).isSome = true →
      (usableWindow (raw.get "rate_limit") kind).isSome = true

/-- The windows under the core key are those of the core quota and the first windows of additional
meters in slots that it leaves. -/
theorem core_filter {windows : List ParsedUsageWindow}
    (h : parseUsageWindows raw now = .ok windows) : ∃ core extra,
      appendRateLimit [] "codex" "Codex" (raw.get "rate_limit") now = .ok core ∧
      MeterWindows "codex" (raw.get "rate_limit") core ∧
      (windows.filter fun window ↦ window.quotaKey == "codex") = core ++ extra ∧
      (extra = [] ↔ CoreSlotsCovered raw) := by
  obtain ⟨core, review, additional, hcore, rfl, hmeter, hreview, hentries⟩ :=
    parseUsageWindows_ok h
  have hfilter : (retainUnseen [] (core ++ review ++ additional)).filter
      (fun window ↦ window.quotaKey == "codex") =
        core ++ retainUnseen
          ((core.map fun window ↦ (window.quotaKey, window.sourceSlot)).reverse ++ [])
          (additional.filter fun window ↦ window.quotaKey == "codex") := by
    refine (filter_retainUnseen (· == "codex") fun _ _ ↦ Iff.rfl).trans ?_
    rw [List.filter_append, List.filter_append, hmeter.filter_key, hreview.filter_key, if_pos rfl,
      if_neg (by decide), List.append_nil]
    exact retainUnseen_append hmeter.nodup (by simp)
  have hslot : ∀ kind, ("codex", kind) ∈
      (core.map fun window ↦ (window.quotaKey, window.sourceSlot)).reverse ++ [] ↔
        kind ∈ sourceSlots ∧ (usableWindow (raw.get "rate_limit") kind).isSome = true := by
    intro kind
    simp only [List.append_nil, List.mem_reverse, List.mem_map, Prod.mk.injEq, hmeter.exists_iff,
      true_and]
  refine ⟨core, _, hcore, hmeter, hfilter, ?_⟩
  rw [retainUnseen_eq_nil_iff]
  constructor
  · intro hseen entry hentry hkey kind hkind husable
    obtain ⟨window, hwindow, hcodexKey, rfl⟩ :=
      (hentries "codex" kind).mpr ⟨entry, hentry, hkey, hkind, husable⟩
    have hmem := hseen window (List.mem_filter.mpr ⟨hwindow, beq_iff_eq.mpr hcodexKey⟩)
    rw [hcodexKey] at hmem
    exact ((hslot _).mp hmem).2
  · intro hcovered window hwindow
    obtain ⟨hwindow, hcodexKey⟩ := List.mem_filter.mp hwindow
    rw [beq_iff_eq] at hcodexKey
    obtain ⟨entry, hentry, hkey, hkind, husable⟩ :=
      (hentries "codex" window.sourceSlot).mp ⟨window, hwindow, hcodexKey, rfl⟩
    rw [hcodexKey]
    exact (hslot _).mpr ⟨hkind, hcovered entry hentry hkey _ hkind husable⟩

end Meters

/-! ### Exhaustion -/

/-- A window that keeps its account from being chosen at an instant. -/
def ParsedUsageWindow.Exhausted (window : ParsedUsageWindow) (selectedAt : Instant) : Prop :=
  ∃ usedPercent, window.usedPercent = some usedPercent ∧ 100 ≤ usedPercent ∧
    ∀ resetAt, window.resetAt.map julianText = some (some resetAt) → selectedAt < resetAt

/-- The windows of an account in the store were stored before or are of the list. -/
theorem find_insertUsageWindows {accountId : Uuid} {fetchedAt : Instant}
    {windows : List ParsedUsageWindow} {s t : Store}
    (h : windows.foldlM (insertUsageWindow accountId fetchedAt) s = .ok t)
    {key : UsageWindowKey} {row : UsageWindow} (hrow : t.usageWindows.find key = some row) :
    s.usageWindows.find key = some row ∨ ∃ window ∈ windows, ∃ usedPercent,
      window.usedPercent = some usedPercent ∧
      key = ⟨accountId, window.quotaKey, window.sourceSlot⟩ ∧
      row = window.row usedPercent fetchedAt := by
  induction windows generalizing s with
  | nil =>
    cases h
    exact .inl hrow
  | cons window windows ih =>
    rw [List.foldlM_cons] at h
    obtain ⟨u, hfirst, h⟩ := bind_eq_ok.mp h
    rcases ih h with hbefore | ⟨other, hother, hrest⟩
    · unfold insertUsageWindow at hfirst
      cases hused : window.usedPercent with
      | none =>
        rw [hused] at hfirst
        cases hfirst
      | some usedPercent =>
        simp only [hused] at hfirst
        split at hfirst
        · cases hfirst
        · split at hfirst
          · cases hfirst
          · next hnew =>
            cases hfirst
            rw [Bool.not_eq_true, Table.has_eq_false_iff] at hnew
            rw [Table.find_insert] at hbefore
            split at hbefore
            · next hkey =>
              rw [hnew] at hbefore
              cases hbefore
              exact .inr ⟨window, List.mem_cons_self, usedPercent, hused, hkey, rfl⟩
            · exact .inl hbefore
    · exact .inr ⟨other, List.mem_cons_of_mem window hother, hrest⟩

/-- After a refresh the quota of an account is exhausted by a window of the list. -/
theorem exhausted_of_replaceUsageWindows {accountId : Uuid} {planType : Option String}
    {fetchedAt selectedAt : Instant} {windows : List ParsedUsageWindow} {s t : Store}
    (h : replaceUsageWindows accountId planType fetchedAt windows s = (.ok (), t))
    (hexhausted : quotaExhausted accountId selectedAt t = true) :
    ∃ window ∈ windows.filter fun window ↦ window.quotaKey == "codex",
      window.Exhausted selectedAt := by
  unfold replaceUsageWindows at h
  split at h
  · cases h
  · cases hinsert : windows.foldlM (insertUsageWindow accountId fetchedAt) { s with
      usageWindows := s.usageWindows.delete fun k _ ↦ k.accountId = accountId } with
    | error e =>
      simp only [hinsert] at h
      cases h
    | ok u =>
      simp only [hinsert, Prod.mk.injEq, true_and] at h
      subst h
      obtain ⟨⟨key, row⟩, hrow, htest⟩ := List.any_eq_true.mp hexhausted
      simp only [Bool.and_eq_true, beq_iff_eq, decide_eq_true_eq] at htest
      obtain ⟨⟨⟨haccount, hcodex⟩, hused⟩, hreset⟩ := htest
      rcases find_insertUsageWindows hinsert (Table.mem_rows_iff.mp hrow) with hbefore | hnew
      · rw [Table.find_delete] at hbefore
        have hkept := (Option.filter_eq_some_iff.mp hbefore).2
        simp [haccount] at hkept
      · obtain ⟨window, hwindow, usedPercent, husedPercent, rfl, rfl⟩ := hnew
        refine ⟨window, List.mem_filter.mpr ⟨hwindow, beq_iff_eq.mpr hcodex⟩, usedPercent,
          husedPercent, hused, fun resetAt hresetAt ↦ ?_⟩
        simpa [ParsedUsageWindow.row, hresetAt] using hreset

/-! ### Only the core quota counts as the core quota -/

/-- The error for a list without a core window. -/
def noCoreWindow : AppError := .upstream "usage response did not contain a Codex quota window"

/-- The windows under the core key are those of `rate_limit`, at most one in each slot; so only
their exhaustion counts, and without any of them the refresh is rejected. -/
structure CoreQuotaOnly [FloatText] (raw : JsonValue) (windows core : List ParsedUsageWindow) :
    Prop where
  filtered : (windows.filter fun window ↦ window.quotaKey == "codex") = core
  slots : (core.map ParsedUsageWindow.sourceSlot).Nodup
  absent : raw.get "rate_limit" = none → core = []
  exhausted : ∀ accountId planType fetchedAt s t,
    replaceUsageWindows accountId planType fetchedAt windows s = (.ok (), t) → ∀ selectedAt,
      quotaExhausted accountId selectedAt t = true → ∃ window ∈ core, window.Exhausted selectedAt
  rejected : (∀ kind ∈ sourceSlots, usableWindow (raw.get "rate_limit") kind = none) →
    ∀ accountId planType fetchedAt s,
      replaceUsageWindows accountId planType fetchedAt windows s = (.error noCoreWindow, s)

section Core

variable [ChronoRange] [FloatText] {raw : JsonValue} {now : Instant}
  {windows : List ParsedUsageWindow}

/-- **When an additional meter masquerades as the core quota.** The windows of a payload under the
core key are those parsed from its `rate_limit` exactly when every slot in which an additional
meter under the core key has a usable window is one in which the core quota has one. -/
theorem core_quota_only_iff (h : parseUsageWindows raw now = .ok windows) :
    ∃ core, appendRateLimit [] "codex" "Codex" (raw.get "rate_limit") now = .ok core ∧
      (CoreQuotaOnly raw windows core ↔ CoreSlotsCovered raw) := by
  obtain ⟨core, extra, hcore, hmeter, hfilter, hcovered⟩ := core_filter h
  refine ⟨core, hcore, fun honly ↦ ?_, fun hslots ↦ ?_⟩
  · apply hcovered.mp
    have hwindows := honly.filtered
    rw [hfilter] at hwindows
    exact List.append_right_eq_self.mp hwindows
  · rw [hcovered.mpr hslots, List.append_nil] at hfilter
    have hnone : (∀ kind ∈ sourceSlots, usableWindow (raw.get "rate_limit") kind = none) →
        core = [] := by
      intro hunusable
      have hempty := hmeter.slots
      rw [List.filter_eq_nil_iff.mpr fun kind hkind ↦ by simp [hunusable kind hkind]] at hempty
      exact List.map_eq_nil_iff.mp hempty
    refine ⟨hfilter, ?_, fun habsent ↦ ?_, ?_, fun hunusable accountId planType fetchedAt s ↦ ?_⟩
    · rw [hmeter.slots]
      exact List.Nodup.filter _ (by decide)
    · apply hnone
      intro kind _
      rw [habsent]
      rfl
    · intro accountId planType fetchedAt s t hreplace selectedAt hexhausted
      exact hfilter ▸ exhausted_of_replaceUsageWindows hreplace hexhausted
    · have hany : (windows.any fun window ↦ window.quotaKey == "codex") = false := by
        rw [List.any_eq_false]
        intro window hwindow hkey
        have hmem : window ∈ windows.filter fun window ↦ window.quotaKey == "codex" :=
          List.mem_filter.mpr ⟨hwindow, hkey⟩
        rw [hfilter, hnone hunusable] at hmem
        cases hmem
      unfold replaceUsageWindows
      rw [hany]
      rfl

end Core

section Sample

/-- A meter with one window that is used to some percentage. -/
def usedMeter (usedPercent : Nat) : JsonValue :=
  .object [("primary_window", .object [("used_percent", .number (.posInt usedPercent))])]

/-- A payload with an additional meter beside the core one. -/
def sparkPayload : JsonValue :=
  .object [("rate_limit", usedMeter 12),
    ("additional_rate_limits", .array [.object [("limit_name", .string "GPT Spark"),
      ("metered_feature", .string "codex-spark"), ("rate_limit", usedMeter 4)]])]

/-- A payload without a core meter, in which an exhausted additional one is named like it. -/
def masquerade : JsonValue :=
  .object [("additional_rate_limits", .array [.object [
    ("metered_feature", .string " Codex "), ("rate_limit", usedMeter 100)]])]

/-- The additional meter of the payload has a key of its own. -/
theorem core_quota_only_iff_spark : ∃ core,
    @appendRateLimit chronoYears decimalText [] "codex" "Codex" (sparkPayload.get "rate_limit")
      1700000000000 = .ok core ∧
    (@CoreQuotaOnly decimalText sparkPayload
      [⟨"codex", "Codex", "primary", "primary", some 12, none, none⟩,
        ⟨"codex_spark", "GPT Spark", "primary", "primary", some 4, none, none⟩] core ↔
      @CoreSlotsCovered decimalText sparkPayload) :=
  @core_quota_only_iff chronoYears decimalText _ _ _ (by decide +kernel)

/-- The additional meter that is named like the core quota is taken for it. -/
theorem additional_meter_masquerades : ¬∀ raw now windows core,
    @parseUsageWindows chronoYears decimalText raw now = .ok windows →
    @appendRateLimit chronoYears decimalText [] "codex" "Codex" (raw.get "rate_limit") now =
      .ok core →
    @CoreQuotaOnly decimalText raw windows core := by
  intro h
  have honly := h masquerade 1700000000000
    [⟨"codex", "Additional quota", "primary", "primary", some 100, none, none⟩] []
    (by decide +kernel) (by decide +kernel)
  have hfiltered := @CoreQuotaOnly.filtered decimalText _ _ _ honly
  simp at hfiltered

end Sample

end CodexLb
