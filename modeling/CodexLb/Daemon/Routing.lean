import CodexLb.Relational.Order
import CodexLb.Route.Reachable
import Mathlib.Algebra.Order.Field.Basic
import Mathlib.Algebra.Order.Ring.Rat
import Mathlib.Data.Rat.Floor
import Mathlib.Data.String.Basic

/-!
# What the smart routing order prefers

The columns of `push_smart_account_candidate` (`src/db.rs:847–874`) form a
linear order on the candidates. Every pressure of a known window is at most
the pressure of an unknown one, and the telemetry quality decides the tie.
The columns only grow with an account's used percentages and its in-flight
count, so more load moves an account back and leaves every other in place.
-/

namespace CodexLb

open Relational

variable {now freshness : Instant} {s t : Store} {accountId : Uuid}

/-! ### Scores -/

/-- Rounding to six places is monotone. -/
theorem roundMillionths_mono {a b : Rat} (h : a ≤ b) : roundMillionths a ≤ roundMillionths b := by
  unfold roundMillionths
  split
  · next ha =>
    rw [if_pos (ha.trans h)]
    apply Int.floor_le_floor
    linarith
  · next ha =>
    split
    · next hb =>
      have hleft : 0 ≤ ⌊-a * 1000000 + 1 / 2⌋ := by
        apply Int.floor_nonneg.mpr
        linarith
      have hright : 0 ≤ ⌊b * 1000000 + 1 / 2⌋ := by
        apply Int.floor_nonneg.mpr
        linarith
      omega
    · next hb =>
      have hfloor : ⌊-b * 1000000 + 1 / 2⌋ ≤ ⌊-a * 1000000 + 1 / 2⌋ := by
        apply Int.floor_le_floor
        linarith
      omega

/-- A score that is no higher in any column. -/
structure RoutingScore.Below (a b : RoutingScore) : Prop where
  pressure : a.pressure ≤ b.pressure
  telemetryQuality : a.telemetryQuality ≤ b.telemetryQuality
  effectiveUsed : a.effectiveUsed ≤ b.effectiveUsed

/-- A score is below itself. -/
theorem RoutingScore.Below.refl (a : RoutingScore) : a.Below a := ⟨le_refl _, le_refl _, le_refl _⟩

/-- The columnwise maximum is monotone. -/
theorem RoutingScore.Below.max {a b c d : RoutingScore} (hab : a.Below b) (hcd : c.Below d) :
    (a.max c).Below (b.max d) where
  pressure := max_le_max hab.pressure hcd.pressure
  telemetryQuality := max_le_max hab.telemetryQuality hcd.telemetryQuality
  effectiveUsed := max_le_max hab.effectiveUsed hcd.effectiveUsed

/-- The maximum over windows is monotone in each of them. -/
theorem RoutingScore.Below.foldl {scores scores' : List RoutingScore} {a b : RoutingScore}
    (hab : a.Below b) (h : List.Forall₂ RoutingScore.Below scores scores') :
    (scores.foldl RoutingScore.max a).Below (scores'.foldl RoutingScore.max b) := by
  induction h generalizing a b with
  | nil => exact hab
  | cons hcd _ ih => exact ih (hab.max hcd)

/-- The part of a window that is left is a share of it, so time only lowers the pressure. -/
private theorem timed_le (used left seconds : Rat) :
    used - 100 * (1 - min 1 (max 0 (left / seconds))) ≤ used := by
  have hshare : min 1 (max 0 (left / seconds)) ≤ 1 := min_le_left _ _
  linarith

/-- A window that classifies as timed, raw or reset scores at most the unknown pressure, with a
better telemetry quality. -/
theorem windowScore_of_known {window : UsageWindow}
    (h : scoreKind now freshness window ≠ .unknown) :
    (windowScore now freshness window).pressure ≤ routingUnknownPressure ∧
      (windowScore now freshness window).telemetryQuality ≤ 1 := by
  have hused : min 100 (max 0 window.usedPercent) ≤ 100 := min_le_left _ _
  unfold windowScore routingUnknownPressure
  cases hkind : scoreKind now freshness window with
  | timed => exact ⟨(timed_le _ _ _).trans hused, Nat.zero_le _⟩
  | raw => exact ⟨hused, Nat.zero_le _⟩
  | reset => exact ⟨by norm_num, le_refl _⟩
  | unknown => exact absurd hkind h

/-- An unknown window scores the unknown pressure with the worst telemetry quality. -/
theorem windowScore_of_unknown {window : UsageWindow}
    (h : scoreKind now freshness window = .unknown) :
    windowScore now freshness window =
      ⟨routingUnknownPressure, 2, routingUnknownPressure⟩ := by
  unfold windowScore
  rw [h]

/-- The Codex usage windows of an account. -/
def codexWindows (accountId : Uuid) (s : Store) : List (UsageWindowKey × UsageWindow) :=
  s.usageWindows.select fun key _ ↦ key.accountId == accountId && key.quotaKey == "codex"

private theorem foldl_max_le {scores : List RoutingScore} {score : RoutingScore} {p : Rat}
    {q : Nat} (hscore : score.pressure ≤ p ∧ score.telemetryQuality ≤ q)
    (h : ∀ c ∈ scores, c.pressure ≤ p ∧ c.telemetryQuality ≤ q) :
    (scores.foldl RoutingScore.max score).pressure ≤ p ∧
      (scores.foldl RoutingScore.max score).telemetryQuality ≤ q := by
  induction scores generalizing score with
  | nil => exact hscore
  | cons c scores ih =>
    rw [List.forall_mem_cons] at h
    apply ih _ h.2
    exact ⟨max_le hscore.1 h.1.1, max_le hscore.2 h.1.2⟩

private theorem le_foldl_max {scores : List RoutingScore} {score c : RoutingScore}
    (h : c ∈ score :: scores) : c.pressure ≤ (scores.foldl RoutingScore.max score).pressure ∧
      c.telemetryQuality ≤ (scores.foldl RoutingScore.max score).telemetryQuality := by
  induction scores generalizing score c with
  | nil =>
    rw [List.mem_singleton] at h
    rw [h]
    exact ⟨le_refl _, le_refl _⟩
  | cons d scores ih =>
    have hhead : (score.max d).pressure ≤
          (scores.foldl RoutingScore.max (score.max d)).pressure ∧
        (score.max d).telemetryQuality ≤
          (scores.foldl RoutingScore.max (score.max d)).telemetryQuality := ih List.mem_cons_self
    rw [List.mem_cons, List.mem_cons] at h
    rcases h with rfl | rfl | h
    · exact ⟨(le_max_left _ _).trans hhead.1, (le_max_left _ _).trans hhead.2⟩
    · exact ⟨(le_max_right _ _).trans hhead.1, (le_max_right _ _).trans hhead.2⟩
    · exact ih (List.mem_cons_of_mem _ h)

/-- At least one Codex window, and every one classifies as timed, raw or reset. -/
structure KnownTelemetry (now freshness : Instant) (s : Store) (accountId : Uuid) : Prop where
  windows : codexWindows accountId s ≠ []
  known : ∀ window ∈ codexWindows accountId s, scoreKind now freshness window.2 ≠ .unknown

/-- No Codex window, or one that classifies as unknown. -/
def UnknownTelemetry (now freshness : Instant) (s : Store) (accountId : Uuid) : Prop :=
  codexWindows accountId s = [] ∨
    ∃ window ∈ codexWindows accountId s, scoreKind now freshness window.2 = .unknown

/-- The score of an account, with the defaults of its missing row; `src/db.rs:851–862`. -/
def routingScore (now freshness : Instant) (s : Store) (accountId : Uuid) : RoutingScore :=
  (accountScore accountId now freshness s).getD
    ⟨routingUnknownPressure, 2, routingUnknownPressure⟩

/-- The score read through the list of windows. -/
theorem routingScore_eq : routingScore now freshness s accountId =
    match (codexWindows accountId s).map fun window ↦ windowScore now freshness window.2 with
    | [] => ⟨routingUnknownPressure, 2, routingUnknownPressure⟩
    | score :: scores => scores.foldl RoutingScore.max score := by
  unfold routingScore accountScore codexWindows
  dsimp only
  generalize List.map (fun window : UsageWindowKey × UsageWindow ↦
    windowScore now freshness window.2) _ = scores
  cases scores with
  | nil => rfl
  | cons score scores => rfl

/-- Known telemetry scores at most the unknown pressure, with a better quality. -/
theorem routingScore_of_known (h : KnownTelemetry now freshness s accountId) :
    (routingScore now freshness s accountId).pressure ≤ routingUnknownPressure ∧
      (routingScore now freshness s accountId).telemetryQuality ≤ 1 := by
  have hscores : ∀ c ∈ (codexWindows accountId s).map fun window ↦
      windowScore now freshness window.2,
      c.pressure ≤ routingUnknownPressure ∧ c.telemetryQuality ≤ 1 := by
    intro c hc
    obtain ⟨window, hwindow, rfl⟩ := List.mem_map.mp hc
    exact windowScore_of_known (h.known window hwindow)
  rw [routingScore_eq]
  split
  · next hnil => exact absurd (List.map_eq_nil_iff.mp hnil) h.windows
  · next score scores hcons =>
    rw [hcons, List.forall_mem_cons] at hscores
    exact foldl_max_le hscores.1 hscores.2

/-- Unknown telemetry scores at least the unknown pressure, with the worst quality. -/
theorem routingScore_of_unknown (h : UnknownTelemetry now freshness s accountId) :
    routingUnknownPressure ≤ (routingScore now freshness s accountId).pressure ∧
      2 ≤ (routingScore now freshness s accountId).telemetryQuality := by
  rw [routingScore_eq]
  rcases h with hnil | ⟨window, hwindow, hkind⟩
  · rw [hnil]
    exact ⟨le_refl _, le_refl _⟩
  · have hmem : windowScore now freshness window.2 ∈ (codexWindows accountId s).map fun window ↦
        windowScore now freshness window.2 := List.mem_map.mpr ⟨window, hwindow, rfl⟩
    rw [windowScore_of_unknown hkind] at hmem
    split
    · next hno =>
      rw [hno] at hmem
      cases hmem
    · next score scores hcons =>
      rw [hcons] at hmem
      exact le_foldl_max hmem

/-! ### The order of the candidates -/

/-- The `ORDER BY` columns of a usage-weighted candidate, as a key. -/
def SmartCandidate.routingKey (candidate : SmartCandidate) :
    Int ×ₗ Nat ×ₗ Rat ×ₗ Int ×ₗ String ×ₗ Int ×ₗ Nat :=
  toLex (candidate.pressure, toLex (candidate.telemetryQuality,
    toLex (candidate.worstEffectiveUsed, toLex (candidate.inflightCount,
      toLex (candidate.lastSelectedAt, toLex (candidate.createdAt, candidate.accountId.toNat))))))

/-- Candidates are ordered by their key. -/
theorem candidateBefore_iff (a b : SmartCandidate) :
    candidateBefore true a b = true ↔ a.routingKey < b.routingKey := by
  unfold candidateBefore SmartCandidate.routingKey
  rw [beq_iff_eq, compareColumn_then_eq_lt, compareColumn_then_eq_lt, compareColumn_then_eq_lt,
    compareColumn_then_eq_lt, compareColumn_then_eq_lt, compareColumn_then_eq_lt, if_pos rfl]
  simp only [Prod.Lex.toLex_lt_toLex]
  have hid : compareColumn a.accountId b.accountId = .lt ↔
      a.accountId.toNat < b.accountId.toNat := by
    unfold compareColumn
    split
    · next h => simpa using BitVec.lt_def.mp h
    · next h =>
      have hge : ¬ a.accountId.toNat < b.accountId.toNat := fun hlt ↦ h (BitVec.lt_def.mpr hlt)
      split <;> simp [hge]
  rw [hid]

/-- The key holds every column, so it identifies the candidate. -/
theorem routingKey_injective : Function.Injective SmartCandidate.routingKey := by
  intro a b h
  simp only [SmartCandidate.routingKey, toLex_inj, Prod.mk.injEq, BitVec.toNat_inj] at h
  obtain ⟨hp, hq, hu, hi, hs, hc, hid⟩ := h
  cases a
  cases b
  simp_all

/-- The candidates are the eligible accounts that are not excluded, in row order. -/
theorem mem_smartCandidates_iff {usageWeighted : Bool} {excluded : List Uuid}
    {candidate : SmartCandidate} :
    candidate ∈ smartCandidates usageWeighted freshness now excluded s ↔
      ∃ id account runtime, s.accounts.find id = some account ∧
        s.accountRuntimeState.find id = some runtime ∧
        accountIsEligible id now s = true ∧ id ∉ excluded ∧
        candidate = smartCandidate usageWeighted now freshness s id account runtime := by
  simp only [smartCandidates, List.mem_filterMap, Option.bind_eq_some_iff]
  constructor
  · rintro ⟨⟨id, account⟩, hrow, runtime, hruntime, hif⟩
    split at hif
    · next hcond =>
      simp only [Bool.and_eq_true, Bool.not_eq_true', List.contains_eq_mem,
        decide_eq_false_iff_not] at hcond
      cases hif
      exact ⟨id, account, runtime, Table.mem_rows_iff.mp hrow, hruntime, hcond.1, hcond.2, rfl⟩
    · cases hif
  · rintro ⟨id, account, runtime, haccount, hruntime, heligible, hx, rfl⟩
    refine ⟨(id, account), Table.mem_rows_iff.mpr haccount, runtime, hruntime, ?_⟩
    simp [heligible, hx]

/-- **Unknown telemetry never beats known telemetry.** Of two usage-weighted candidates with equal
in-flight counts, the one whose Codex windows are all known comes before the one without windows
or with an unknown window. -/
theorem known_telemetry_before_unknown {excluded : List Uuid} {a b : SmartCandidate}
    {runtimeA runtimeB : AccountRuntimeState}
    (ha : a ∈ smartCandidates true freshness now excluded s)
    (hb : b ∈ smartCandidates true freshness now excluded s)
    (hruntimeA : s.accountRuntimeState.find a.accountId = some runtimeA)
    (hruntimeB : s.accountRuntimeState.find b.accountId = some runtimeB)
    (hinflight : runtimeA.inflightCount = runtimeB.inflightCount)
    (hknown : KnownTelemetry now freshness s a.accountId)
    (hunknown : UnknownTelemetry now freshness s b.accountId) :
    candidateBefore true a b = true := by
  obtain ⟨idA, accountA, rA, -, hrA, -, -, rfl⟩ := mem_smartCandidates_iff.mp ha
  obtain ⟨idB, accountB, rB, -, hrB, -, -, rfl⟩ := mem_smartCandidates_iff.mp hb
  change KnownTelemetry now freshness s idA at hknown
  change UnknownTelemetry now freshness s idB at hunknown
  have hcounts : rA.inflightCount = rB.inflightCount := by
    rw [Option.some.inj (hrA.symm.trans hruntimeA), Option.some.inj (hrB.symm.trans hruntimeB)]
    exact hinflight
  obtain ⟨hpA, hqA⟩ := routingScore_of_known hknown
  obtain ⟨hpB, hqB⟩ := routingScore_of_unknown hunknown
  -- at equal pressures the telemetry quality decides, at most one against two
  have hpressure : roundMillionths ((routingScore now freshness s idA).pressure +
        routingInflightPenalty * (max rA.inflightCount 0 : Int)) ≤
      roundMillionths ((routingScore now freshness s idB).pressure +
        routingInflightPenalty * (max rB.inflightCount 0 : Int)) := by
    apply roundMillionths_mono
    rw [hcounts]
    exact add_le_add_left (hpA.trans hpB) _
  rw [candidateBefore_iff, SmartCandidate.routingKey, SmartCandidate.routingKey,
    Prod.Lex.toLex_lt_toLex]
  rcases hpressure.lt_or_eq with hlt | heq
  · exact .inl hlt
  refine .inr ⟨heq, ?_⟩
  rw [Prod.Lex.toLex_lt_toLex]
  left
  change (routingScore now freshness s idA).telemetryQuality <
    (routingScore now freshness s idB).telemetryQuality
  omega

/-- The two accounts after a usage report for the second one. -/
def secondReported : Store :=
  { twoAccounts with
    usageWindows := Table.empty.insert ⟨2, "codex", "primary"⟩
      ⟨"codex", "weekly", 99, none, none, some 1000⟩ }

/-- An account at 99 percent comes before one that never reported. -/
theorem known_telemetry_before_unknown_reported :
    candidateBefore true
      (smartCandidate true 1000 300000 secondReported 2
        (importedAccount ⟨"access", "refresh", "id"⟩ none
          ⟨none, "two@example.invalid", "plus", none⟩ "two" 0) .default)
      (smartCandidate true 1000 300000 secondReported 1
        (importedAccount ⟨"access", "refresh", "id"⟩ none
          ⟨none, "one@example.invalid", "plus", none⟩ "one" 0) .default) = true := by
  refine known_telemetry_before_unknown
    (?_ : _ ∈ smartCandidates true 300000 1000 [] secondReported) ?_
    (?_ : _ = some AccountRuntimeState.default) (?_ : _ = some AccountRuntimeState.default)
    ?_ ?_ ?_
  · decide +kernel
  · decide +kernel
  · decide +kernel
  · decide +kernel
  · rfl
  · exact ⟨by decide +kernel, by decide +kernel⟩
  · exact .inl (by decide +kernel)

/-! ### More load -/

/-- Write the used percentage of one window. -/
def Store.setUsedPercent (s : Store) (key : UsageWindowKey) (usedPercent : Rat) : Store :=
  { s with usageWindows := s.usageWindows.update (fun k _ ↦ k = key) fun window ↦
      { window with usedPercent := usedPercent } }

/-- Write the in-flight count of one account. -/
def Store.setInflight (s : Store) (accountId : Uuid) (inflightCount : Int) : Store :=
  s.updateRuntime accountId fun runtime ↦ { runtime with inflightCount := inflightCount }

/-- One used percentage of a Codex window of the account is raised, or its in-flight count is;
nothing else differs. -/
inductive LoadRaised (accountId : Uuid) (s : Store) : Store → Prop where
  | usedPercent (sourceSlot : String) (usedPercent : Rat)
      (raised : ∀ window, s.usageWindows.find ⟨accountId, "codex", sourceSlot⟩ = some window →
        window.usedPercent ≤ usedPercent) :
      LoadRaised accountId s (s.setUsedPercent ⟨accountId, "codex", sourceSlot⟩ usedPercent)
  | inflight (inflightCount : Int)
      (raised : ∀ runtime, s.accountRuntimeState.find accountId = some runtime →
        runtime.inflightCount ≤ inflightCount) :
      LoadRaised accountId s (s.setInflight accountId inflightCount)

/-- What more load on one account leaves of the tables that routing reads. -/
structure LoadedMore (accountId : Uuid) (s t : Store) : Prop where
  accounts : t.accounts = s.accounts
  eligible : ∀ now id, accountIsEligible id now t = true → accountIsEligible id now s = true
  eligible_other : ∀ now id, id ≠ accountId →
    accountIsEligible id now t = accountIsEligible id now s
  score : ∀ now freshness,
    (routingScore now freshness s accountId).Below (routingScore now freshness t accountId)
  score_other : ∀ now freshness id, id ≠ accountId →
    routingScore now freshness t id = routingScore now freshness s id
  runtime : ∀ after, t.accountRuntimeState.find accountId = some after →
    ∃ before, s.accountRuntimeState.find accountId = some before ∧
      before.inflightCount ≤ after.inflightCount ∧ after.lastSelectedAt = before.lastSelectedAt
  runtime_other : ∀ id, id ≠ accountId →
    t.accountRuntimeState.find id = s.accountRuntimeState.find id

private theorem scoreKind_setUsed (window : UsageWindow) (usedPercent : Rat) :
    scoreKind now freshness { window with usedPercent := usedPercent } =
      scoreKind now freshness window := rfl

/-- A window's score grows with its used percentage. -/
theorem windowScore_mono {window : UsageWindow} {usedPercent : Rat}
    (h : window.usedPercent ≤ usedPercent) : (windowScore now freshness window).Below
      (windowScore now freshness { window with usedPercent := usedPercent }) := by
  have hused : min 100 (max 0 window.usedPercent) ≤ min 100 (max 0 usedPercent) :=
    min_le_min (le_refl _) (max_le_max (le_refl _) h)
  have hkind : scoreKind now freshness { window with usedPercent := usedPercent } =
      scoreKind now freshness window := scoreKind_setUsed window usedPercent
  unfold windowScore
  rw [hkind]
  cases scoreKind now freshness window with
  | timed => exact ⟨sub_le_sub_right hused _, le_refl _, hused⟩
  | raw => exact ⟨hused, le_refl _, hused⟩
  | reset => exact .refl _
  | unknown => exact .refl _

/-- An account's score grows with the scores of its windows. -/
theorem routingScore_below (h : List.Forall₂ (fun v w ↦
      (windowScore now freshness v.2).Below (windowScore now freshness w.2))
    (codexWindows accountId s) (codexWindows accountId t)) :
    (routingScore now freshness s accountId).Below (routingScore now freshness t accountId) := by
  rw [routingScore_eq, routingScore_eq]
  generalize codexWindows accountId s = before at h
  generalize codexWindows accountId t = after at h
  cases h with
  | nil => exact .refl _
  | cons hhead htail =>
    apply RoutingScore.Below.foldl hhead
    rwa [List.forall₂_map_left_iff, List.forall₂_map_right_iff]

section UsedPercent

variable {key : UsageWindowKey} {usedPercent : Rat}

/-- The row of the rewritten window. -/
private def setUsedRow (key : UsageWindowKey) (usedPercent : Rat)
    (row : UsageWindowKey × UsageWindow) : UsageWindowKey × UsageWindow :=
  (row.1, if decide (row.1 = key) then { row.2 with usedPercent := usedPercent } else row.2)

private theorem rows_setUsedPercent (s : Store) :
    (s.setUsedPercent key usedPercent).usageWindows.rows =
      s.usageWindows.rows.map (setUsedRow key usedPercent) := rfl

private theorem codexWindows_setUsedPercent (id : Uuid) (s : Store) :
    codexWindows id (s.setUsedPercent key usedPercent) =
      (codexWindows id s).map (setUsedRow key usedPercent) := by
  unfold codexWindows Table.select
  rw [rows_setUsedPercent, List.filter_map]
  rfl

private theorem setUsedRow_other {row : UsageWindowKey × UsageWindow} (h : row.1 ≠ key) :
    setUsedRow key usedPercent row = row := by
  unfold setUsedRow
  rw [if_neg (by simpa using h)]

private theorem setUsedRow_raised {row : UsageWindowKey × UsageWindow}
    (hrow : row ∈ s.usageWindows.rows)
    (raised : ∀ window, s.usageWindows.find key = some window →
      window.usedPercent ≤ usedPercent) :
    ∃ raisedPercent, row.2.usedPercent ≤ raisedPercent ∧
      setUsedRow key usedPercent row = (row.1, { row.2 with usedPercent := raisedPercent }) := by
  by_cases hkey : row.1 = key
  · have hfind : s.usageWindows.find key = some row.2 := by
      rw [← hkey]
      exact Table.mem_rows_iff.mp hrow
    refine ⟨usedPercent, raised _ hfind, ?_⟩
    unfold setUsedRow
    rw [if_pos (by simpa using hkey)]
  · exact ⟨row.2.usedPercent, le_refl _, setUsedRow_other hkey⟩

/-- A raised percentage exhausts no quota less. -/
private theorem quotaExhausted_raised {id : Uuid}
    (raised : ∀ window, s.usageWindows.find key = some window → window.usedPercent ≤ usedPercent)
    (h : quotaExhausted id now s = true) :
    quotaExhausted id now (s.setUsedPercent key usedPercent) = true := by
  unfold quotaExhausted at h ⊢
  rw [rows_setUsedPercent, List.any_map]
  rw [List.any_eq_true] at h ⊢
  obtain ⟨row, hrow, htest⟩ := h
  refine ⟨row, hrow, ?_⟩
  obtain ⟨raisedPercent, hle, heq⟩ := setUsedRow_raised hrow raised
  rw [Function.comp_apply, heq]
  simp only [Bool.and_eq_true, decide_eq_true_eq] at htest ⊢
  exact ⟨⟨htest.1.1, htest.1.2.trans hle⟩, htest.2⟩

private theorem quotaExhausted_other {id : Uuid} (h : id ≠ key.accountId) :
    quotaExhausted id now (s.setUsedPercent key usedPercent) = quotaExhausted id now s := by
  unfold quotaExhausted
  rw [rows_setUsedPercent, List.any_map]
  congr 1
  funext row
  by_cases hkey : row.1 = key
  · have hid : (row.1.accountId == id) = false := by
      rw [hkey]
      exact beq_false_of_ne h.symm
    simp [setUsedRow, hid]
  · rw [Function.comp_apply, setUsedRow_other hkey]

private theorem loadedMore_setUsedPercent {sourceSlot : String}
    (raised : ∀ window, s.usageWindows.find ⟨accountId, "codex", sourceSlot⟩ = some window →
      window.usedPercent ≤ usedPercent) :
    LoadedMore accountId s (s.setUsedPercent ⟨accountId, "codex", sourceSlot⟩ usedPercent) where
  accounts := rfl
  eligible now id h := by
    rw [accountIsEligible_iff] at h ⊢
    obtain ⟨account, runtime, ha, hr, hactive, hcool, hquota⟩ := h
    refine ⟨account, runtime, ha, hr, hactive, hcool, ?_⟩
    by_contra hno
    rw [quotaExhausted_raised raised (by simpa using hno)] at hquota
    cases hquota
  eligible_other now id hne := by
    unfold accountIsEligible
    rw [quotaExhausted_other hne]
    rfl
  score now freshness := by
    apply routingScore_below
    rw [codexWindows_setUsedPercent, List.forall₂_map_right_iff, List.forall₂_same]
    intro row hrow
    obtain ⟨raisedPercent, hle, heq⟩ := setUsedRow_raised (List.mem_of_mem_filter hrow) raised
    rw [heq]
    exact windowScore_mono hle
  score_other now freshness id hne := by
    have hsame : codexWindows id
        (s.setUsedPercent ⟨accountId, "codex", sourceSlot⟩ usedPercent) = codexWindows id s := by
      rw [codexWindows_setUsedPercent]
      conv_rhs => rw [← List.map_id (codexWindows id s)]
      apply List.map_congr_left
      intro row hrow
      have hid : row.1.accountId = id := by
        have htest := (List.mem_filter.mp hrow).2
        rw [Bool.and_eq_true, beq_iff_eq] at htest
        exact htest.1
      apply setUsedRow_other
      rintro hkey
      rw [hkey] at hid
      exact hne hid.symm
    rw [routingScore_eq, routingScore_eq, hsame]
  runtime after h := ⟨after, h, le_refl _, rfl⟩
  runtime_other _ _ := rfl

end UsedPercent

/-- Eligibility reads the account, the end of its cooldown and its exhausted windows. -/
theorem accountIsEligible_congr {id : Uuid} (haccount : t.accounts.find id = s.accounts.find id)
    (hcooldown : (t.accountRuntimeState.find id).map AccountRuntimeState.cooldownUntil =
      (s.accountRuntimeState.find id).map AccountRuntimeState.cooldownUntil)
    (hquota : quotaExhausted id now t = quotaExhausted id now s) :
    accountIsEligible id now t = accountIsEligible id now s := by
  unfold accountIsEligible
  rw [haccount, hquota]
  cases hs : s.accountRuntimeState.find id with
  | none =>
    rw [hs, Option.map_none, Option.map_eq_none_iff] at hcooldown
    rw [hcooldown]
  | some before =>
    rw [hs, Option.map_some, Option.map_eq_some_iff] at hcooldown
    obtain ⟨after, hafter, hsame⟩ := hcooldown
    have hended : cooldownEnded after now = cooldownEnded before now := by
      unfold cooldownEnded
      rw [hsame]
    cases s.accounts.find id with
    | none => rfl
    | some account => simp only [hafter, hended]

private theorem loadedMore_setInflight {inflightCount : Int}
    (raised : ∀ runtime, s.accountRuntimeState.find accountId = some runtime →
      runtime.inflightCount ≤ inflightCount) :
    LoadedMore accountId s (s.setInflight accountId inflightCount) := by
  have heligible : ∀ now id, accountIsEligible id now (s.setInflight accountId inflightCount) =
      accountIsEligible id now s := by
    intro now id
    apply accountIsEligible_congr (s := s) (t := s.setInflight accountId inflightCount) rfl _ rfl
    rw [Store.setInflight, find_updateRuntime, Option.map_map]
    congr 1
    funext runtime
    rw [Function.comp_apply]
    split <;> rfl
  exact {
    accounts := rfl
    eligible := fun now id h ↦ by rwa [heligible] at h
    eligible_other := fun now id _ ↦ heligible now id
    score := fun now freshness ↦ .refl _
    score_other := fun now freshness id _ ↦ rfl
    runtime := by
      intro after h
      rw [Store.setInflight, find_updateRuntime, Option.map_eq_some_iff] at h
      obtain ⟨runtime, hruntime, rfl⟩ := h
      rw [if_pos rfl]
      exact ⟨runtime, hruntime, raised runtime hruntime, rfl⟩
    runtime_other := by
      intro id hne
      rw [Store.setInflight, find_updateRuntime]
      simp [hne] }

/-- Raising a load loads the account more and touches nothing else. -/
theorem LoadRaised.loadedMore (h : LoadRaised accountId s t) : LoadedMore accountId s t := by
  cases h with
  | usedPercent sourceSlot usedPercent raised => exact loadedMore_setUsedPercent raised
  | inflight inflightCount raised => exact loadedMore_setInflight raised

/-- A candidate row reads the store through the score only. -/
theorem smartCandidate_congr {id : Uuid} (account : Account) (runtime : AccountRuntimeState)
    (hscore : routingScore now freshness t id = routingScore now freshness s id) :
    smartCandidate true now freshness t id account runtime =
      smartCandidate true now freshness s id account runtime := by
  unfold routingScore at hscore
  unfold smartCandidate
  rw [hscore]

/-- A candidate of the loaded store is behind, or is, a candidate of the store before. -/
theorem LoadedMore.candidate (h : LoadedMore accountId s t) {excluded : List Uuid}
    {c : SmartCandidate} (hc : c ∈ smartCandidates true freshness now excluded t) :
    ∃ d ∈ smartCandidates true freshness now excluded s, d.accountId = c.accountId ∧
      d.routingKey ≤ c.routingKey ∧ (c.accountId ≠ accountId → d = c) := by
  obtain ⟨id, account, after, haccount, hafter, heligible, hx, rfl⟩ :=
    mem_smartCandidates_iff.mp hc
  rw [h.accounts] at haccount
  have hbefore := h.eligible now id heligible
  by_cases hid : id = accountId
  · subst hid
    obtain ⟨before, hfind, hcount, hlast⟩ := h.runtime after hafter
    refine ⟨_, mem_smartCandidates_iff.mpr ⟨id, account, before, haccount, hfind, hbefore, hx,
      rfl⟩, rfl, ?_, fun hne ↦ absurd rfl hne⟩
    have hscore := h.score now freshness
    have hinflight : max before.inflightCount 0 ≤ max after.inflightCount 0 :=
      max_le_max hcount (le_refl 0)
    have hpenalty : routingInflightPenalty * ((max before.inflightCount 0 : Int) : Rat) ≤
        routingInflightPenalty * ((max after.inflightCount 0 : Int) : Rat) := by
      apply mul_le_mul_of_nonneg_left (Int.cast_le.mpr hinflight)
      unfold routingInflightPenalty
      norm_num
    -- every column is at least as high, so the lexicographic key is
    apply Prod.Lex.toLex_mono
    refine ⟨roundMillionths_mono (add_le_add hscore.pressure hpenalty), ?_⟩
    apply Prod.Lex.toLex_mono
    refine ⟨hscore.telemetryQuality, ?_⟩
    apply Prod.Lex.toLex_mono
    refine ⟨hscore.effectiveUsed, ?_⟩
    apply Prod.Lex.toLex_mono
    refine ⟨hinflight, ?_⟩
    show toLex (after.lastSelectedAt.getD _, _) ≥ toLex (before.lastSelectedAt.getD _, _)
    rw [hlast]
    exact le_refl _
  · refine ⟨_, mem_smartCandidates_iff.mpr ⟨id, account, after, haccount, ?_, hbefore, hx, rfl⟩,
      rfl, ?_⟩
    · rw [← h.runtime_other id hid]
      exact hafter
    · rw [smartCandidate_congr account after (h.score_other now freshness id hid)]
      exact ⟨le_refl _, fun _ ↦ rfl⟩

/-- The candidates of the other accounts are the same. -/
theorem LoadedMore.candidate_other (h : LoadedMore accountId s t) {excluded : List Uuid}
    {c : SmartCandidate} (hc : c ∈ smartCandidates true freshness now excluded s)
    (hne : c.accountId ≠ accountId) : c ∈ smartCandidates true freshness now excluded t := by
  obtain ⟨id, account, runtime, haccount, hruntime, heligible, hx, rfl⟩ :=
    mem_smartCandidates_iff.mp hc
  have hid : id ≠ accountId := hne
  rw [← h.accounts] at haccount
  rw [← h.runtime_other id hid] at hruntime
  rw [← h.eligible_other now id hid] at heligible
  rw [← smartCandidate_congr account runtime (h.score_other now freshness id hid)]
  exact mem_smartCandidates_iff.mpr ⟨id, account, runtime, haccount, hruntime, heligible, hx, rfl⟩

/-- The preview in usage-weighted mode. -/
theorem previewSmartAccount_weighted {settings : RuntimeSettings} {usageRefreshInterval : Nat}
    {excluded : List Uuid} (hmode : settings.routingStrategy ≠ "round_robin") :
    previewSmartAccount settings usageRefreshInterval excluded now s =
      (firstBy (candidateBefore true) (smartCandidates true
        (routingFreshness usageRefreshInterval) now excluded s)).map SmartCandidate.accountId := by
  unfold previewSmartAccount
  rw [bne_iff_ne.mpr hmode]

/-- Unless it was the loaded account, the previewed account stays the same. -/
theorem LoadedMore.preview (h : LoadedMore accountId s t) {settings : RuntimeSettings}
    {usageRefreshInterval : Nat} {excluded : List Uuid}
    (hmode : settings.routingStrategy ≠ "round_robin")
    (hother : previewSmartAccount settings usageRefreshInterval excluded now s ≠ some accountId) :
    previewSmartAccount settings usageRefreshInterval excluded now t =
      previewSmartAccount settings usageRefreshInterval excluded now s := by
  rw [previewSmartAccount_weighted hmode] at hother
  rw [previewSmartAccount_weighted hmode, previewSmartAccount_weighted hmode]
  cases hfirst : firstBy (candidateBefore true) (smartCandidates true
      (routingFreshness usageRefreshInterval) now excluded s) with
  | none =>
    have hnone := firstBy_eq_none_iff.mp hfirst
    have hempty : smartCandidates true (routingFreshness usageRefreshInterval) now excluded t =
        [] := by
      rw [List.eq_nil_iff_forall_not_mem]
      intro c hc
      obtain ⟨d, hd, -⟩ := h.candidate hc
      rw [hnone] at hd
      cases hd
    rw [hempty]
    rfl
  | some b =>
    have hb : b.accountId ≠ accountId := by
      intro heq
      rw [hfirst, Option.map_some, heq] at hother
      exact hother rfl
    have hstable : firstBy (candidateBefore true) (smartCandidates true
        (routingFreshness usageRefreshInterval) now excluded t) = some b := by
      apply firstBy_stable candidateBefore_iff routingKey_injective hfirst
        (h.candidate_other (firstBy_mem hfirst) hb)
      intro c hc hcb
      obtain ⟨d, hd, hid, hle, hsame⟩ := h.candidate hc
      refine ⟨d, hd, ?_, hle⟩
      rintro rfl
      rw [hid] at hb
      exact hcb (hsame hb).symm
    rw [hstable]

/-- The smart path reads the order and the accounts only. -/
theorem selectSmartAccount_congr [UuidText] {crypto : TokenCrypto} {excluded : List Uuid}
    {settings : RuntimeSettings} {usageRefreshInterval : Nat} {selectedAt now : Clock}
    (haccounts : t.accounts = s.accounts)
    (hpreview : previewSmartAccount settings usageRefreshInterval excluded selectedAt.instant t =
      previewSmartAccount settings usageRefreshInterval excluded selectedAt.instant s) :
    (selectSmartAccount crypto excluded settings usageRefreshInterval selectedAt now t).1 =
      (selectSmartAccount crypto excluded settings usageRefreshInterval selectedAt now s).1 := by
  unfold selectSmartAccount acquireSmartAccount
  rw [hpreview]
  cases previewSmartAccount settings usageRefreshInterval excluded selectedAt.instant s with
  | none => rfl
  | some id =>
    have hselected : ∀ reason,
        selectedAccount crypto id reason (t.updateRuntime id (selectedRuntime selectedAt)) =
          selectedAccount crypto id reason (s.updateRuntime id (selectedRuntime selectedAt)) := by
      intro reason
      unfold selectedAccount Store.updateRuntime
      rw [haccounts]
    dsimp only
    unfold finishSelection
    rw [hselected]
    split <;> rfl

/-- The smart path returns the previewed account. -/
theorem selectSmartAccount_preview [UuidText] {crypto : TokenCrypto} {excluded : List Uuid}
    {settings : RuntimeSettings} {usageRefreshInterval : Nat} {selectedAt now : Clock}
    {selected : SelectedAccount}
    (h : (selectSmartAccount crypto excluded settings usageRefreshInterval selectedAt now s).1 =
      .ok selected) :
    previewSmartAccount settings usageRefreshInterval excluded selectedAt.instant s =
      some selected.accountId := by
  unfold selectSmartAccount acquireSmartAccount at h
  cases hpreview : previewSmartAccount settings usageRefreshInterval excluded
      selectedAt.instant s with
  | none =>
    rw [hpreview] at h
    cases h
  | some id =>
    rw [hpreview] at h
    rw [finishSelection_accountId h]

/-- **More load never attracts traffic.** Raising a used percentage or the in-flight count of an
account never makes it the selected one, and another account that was selected still is. -/
theorem more_load_never_attracts [UuidText] (crypto : TokenCrypto) {settings : RuntimeSettings}
    (hmode : settings.routingStrategy ≠ "round_robin") (h : LoadRaised accountId s t)
    (excluded : List Uuid) (usageRefreshInterval : Nat) (selectedAt now : Clock)
    (selected : SelectedAccount) :
    let select := selectAccountForRequest crypto none excluded settings usageRefreshInterval
      selectedAt now
    (selected.accountId = accountId → (select t).1 = .ok selected →
      (select s).1 = .ok selected) ∧
    (selected.accountId ≠ accountId → (select s).1 = .ok selected →
      (select t).1 = .ok selected) := by
  have hloaded := h.loadedMore
  constructor
  · intro hid hafter
    change (selectSmartAccount crypto excluded settings usageRefreshInterval selectedAt now t).1 =
      .ok selected at hafter
    have hpreview := selectSmartAccount_preview hafter
    rw [hid] at hpreview
    change (selectSmartAccount crypto excluded settings usageRefreshInterval selectedAt now s).1 =
      .ok selected
    by_cases hbefore : previewSmartAccount settings usageRefreshInterval excluded
        selectedAt.instant s = some accountId
    · rw [← selectSmartAccount_congr hloaded.accounts (hpreview.trans hbefore.symm)]
      exact hafter
    · rw [← selectSmartAccount_congr hloaded.accounts (hloaded.preview hmode hbefore)]
      exact hafter
  · intro hid hbefore
    change (selectSmartAccount crypto excluded settings usageRefreshInterval selectedAt now s).1 =
      .ok selected at hbefore
    have hother : previewSmartAccount settings usageRefreshInterval excluded
        selectedAt.instant s ≠ some accountId := by
      rw [selectSmartAccount_preview hbefore]
      exact fun heq ↦ hid (Option.some.inj heq)
    change (selectSmartAccount crypto excluded settings usageRefreshInterval selectedAt now t).1 =
      .ok selected
    rw [selectSmartAccount_congr hloaded.accounts (hloaded.preview hmode hother)]
    exact hbefore

/-- A request in flight on the first of two accounts without telemetry. -/
theorem more_load_never_attracts_second : let _ := hyphenatedText
    let select := selectAccountForRequest ⟨Except.ok⟩ none [] .default 300 ⟨1000, ""⟩ ⟨1000, ""⟩
    ∀ selected : SelectedAccount,
      (selected.accountId = 1 → (select (twoAccounts.setInflight 1 1)).1 = .ok selected →
        (select twoAccounts).1 = .ok selected) ∧
      (selected.accountId ≠ 1 → (select twoAccounts).1 = .ok selected →
        (select (twoAccounts.setInflight 1 1)).1 = .ok selected) := by
  intro _ _
  have hraised : LoadRaised 1 twoAccounts (twoAccounts.setInflight 1 1) := by
    apply LoadRaised.inflight
    intro runtime hruntime
    have hidle : runtime = .default := by
      have hfind : twoAccounts.accountRuntimeState.find 1 = some .default := by decide +kernel
      exact Option.some.inj (hruntime.symm.trans hfind)
    rw [hidle]
    decide
  have hmode : RuntimeSettings.default.routingStrategy ≠ "round_robin" := by decide
  exact more_load_never_attracts ⟨Except.ok⟩ hmode hraised [] 300 ⟨1000, ""⟩ ⟨1000, ""⟩

end CodexLb
