import CodexLb.Db.Settings
import CodexLb.Machine.Integer
import CodexLb.Machine.Outcome

/-!
# Usage windows from the wire

`parse_usage_windows`, `src/usage.rs:29–146`, with the two operations of
`chrono` that panic. A reset time that `from_timestamp` refuses is dropped, but
one that is relative to now is added up without a check.
-/

namespace CodexLb

open Machine

/-! ### Values of the payload -/

/-- An `f64`; a finite one is given by the rational it denotes. -/
inductive FloatValue where
  | finite (value : Rat)
  | infinite (negative : Bool)
  | nan
  deriving DecidableEq

/-- The standard library's reader of `f64` texts. -/
class FloatText where
  parseF64 : String → Option FloatValue

/-- `Value::as_array`. -/
def JsonValue.asArray : JsonValue → Option (List JsonValue)
  | array items => some items
  | _ => none

/-- `number`, `src/usage.rs:132–138`. A caller clamps the result, so the rounding of integers from
2^53 on makes no difference. -/
def number [FloatText] : Option JsonValue → Option FloatValue
  | some (.number (.posInt value)) => some (.finite value)
  | some (.number (.negInt value)) => some (.finite value)
  | some (.number (.float value)) => some (.finite value)
  | some (.string text) => FloatText.parseF64 text
  | _ => none

/-- `integer`, `src/usage.rs:140–146`. -/
def integer (value : Option JsonValue) : Option Int :=
  value.bind fun value ↦ value.asI64.or (value.asStr.bind parseI64)

/-- `used_percent.clamp(0.0, 100.0)`, which keeps a NaN. -/
def clampPercent : FloatValue → Option Rat
  | .finite value => some (max 0 (min value 100))
  | .infinite true => some 0
  | .infinite false => some 100
  | .nan => none

/-- `window_kind`, `src/usage.rs:107–115`. -/
def windowKind (fallback : String) (seconds : Option Int) : String :=
  match seconds with
  | some value =>
    if value = 18000 then "5h"
    else if value = 604800 then "7d"
    else if 0 < value ∧ value % 86400 = 0 then s!"{value / 86400}d"
    else if 0 < value ∧ value % 3600 = 0 then s!"{value / 3600}h"
    else fallback
  | none => fallback

/-- `normalize_key`, `src/usage.rs:117–130`. -/
def normalizeKey (value : String) : String :=
  String.ofList ((toAsciiLowercase (trim value)).toList.map fun character ↦
    if character.isAlphanum || character == '_' then character else '_')

/-! ### Instants -/

/-- The first and the last instant that a `DateTime<Utc>` represents, in milliseconds. -/
class ChronoRange where
  minUtc : Instant
  maxUtc : Instant

/-- The panics of `chrono`. -/
inductive ChronoPanic where
  /-- `Duration::seconds` of a number whose milliseconds are no `i64`. -/
  | outOfBounds
  /-- A sum outside the representable years. -/
  | overflowed
  deriving DecidableEq

/-- An instant of the representable years. -/
def Representable [ChronoRange] (time : Instant) : Prop :=
  ChronoRange.minUtc ≤ time ∧ time ≤ ChronoRange.maxUtc

instance [ChronoRange] (time : Instant) : Decidable (Representable time) :=
  inferInstanceAs (Decidable (_ ∧ _))

section Time

variable [ChronoRange]

/-- `DateTime::<Utc>::from_timestamp(epoch, 0)`. -/
def fromTimestamp (epoch : Int) : Option Instant :=
  if Representable (1000 * epoch) then some (1000 * epoch) else none

/-- `Duration::seconds`, in milliseconds. -/
def durationSeconds (seconds : Int) : Except ChronoPanic Int :=
  if Fits 64 (1000 * seconds) then .ok (1000 * seconds) else .error .outOfBounds

/-- `DateTime + Duration`. -/
def addDuration (time : Instant) (duration : Int) : Except ChronoPanic Instant :=
  if Representable (time + duration) then .ok (time + duration) else .error .overflowed

/-- The reset time of a window, `src/usage.rs:89–94`. -/
def windowResetAt (window : JsonValue) (now : Instant) : Except ChronoPanic (Option Instant) :=
  match (integer (window.get "reset_at")).bind fromTimestamp with
  | some resetAt => .ok (some resetAt)
  | none =>
    match integer (window.get "reset_after_seconds") with
    | some seconds => do
      let duration ← durationSeconds (max seconds 0)
      let resetAt ← addDuration now duration
      return some resetAt
    | none => .ok none

/-! ### Windows of a meter -/

variable [FloatText]

/-- The slots of a meter. -/
def sourceSlots : List String := ["primary", "secondary"]

/-- One slot in `append_rate_limit`, `src/usage.rs:81–104`. -/
def appendSlot (quotaKey quotaName : String) (rateLimit : JsonValue) (now : Instant)
    (target : List ParsedUsageWindow) (kind : String) :
    Except ChronoPanic (List ParsedUsageWindow) :=
  match rateLimit.get (kind ++ "_window") with
  | none => .ok target
  | some window =>
    match number (window.get "used_percent") with
    | none => .ok target
    | some usedPercent => do
      let windowSeconds := integer (window.get "limit_window_seconds")
      let resetAt ← windowResetAt window now
      return target ++ [
        { quotaKey := quotaKey
          quotaName := quotaName
          sourceSlot := kind
          windowKind := windowKind kind windowSeconds
          usedPercent := clampPercent usedPercent
          windowSeconds := windowSeconds
          resetAt := resetAt }]

/-- `append_rate_limit`, `src/usage.rs:71–105`. -/
def appendRateLimit (target : List ParsedUsageWindow) (quotaKey quotaName : String)
    (rateLimit : Option JsonValue) (now : Instant) : Except ChronoPanic (List ParsedUsageWindow) :=
  match rateLimit.filter fun value ↦ value.asObject.isSome with
  | none => .ok target
  | some rateLimit => sourceSlots.foldlM (appendSlot quotaKey quotaName rateLimit now) target

/-- A text that is not blank. -/
def JsonValue.filledStr (value : JsonValue) : Option String :=
  value.asStr.filter fun text ↦ !(trim text).isEmpty

/-- The name of an additional meter, `src/usage.rs:46–50`. -/
def additionalName (additional : JsonValue) : String :=
  ((additional.get "limit_name").bind JsonValue.filledStr).getD "Additional quota"

/-- The key of an additional meter, `src/usage.rs:51–56`. -/
def additionalKey (additional : JsonValue) (index : Nat) : String :=
  (((additional.get "metered_feature").bind JsonValue.filledStr).map normalizeKey).getD
    s!"additional_{index}"

/-- The additional meters of a payload, `src/usage.rs:39–44`. -/
def additionalRateLimits (raw : JsonValue) : List JsonValue :=
  ((raw.get "additional_rate_limits").bind JsonValue.asArray).getD []

/-- `windows.retain(|window| seen.insert(…))`, `src/usage.rs:66–67`: the first window of each key
and slot stays. -/
def retainUnseen : List (String × String) → List ParsedUsageWindow → List ParsedUsageWindow
  | _, [] => []
  | seen, window :: windows =>
    if (window.quotaKey, window.sourceSlot) ∈ seen then retainUnseen seen windows
    else window :: retainUnseen ((window.quotaKey, window.sourceSlot) :: seen) windows

/-- `parse_usage_windows`, `src/usage.rs:29–69`. -/
def parseUsageWindows (raw : JsonValue) (now : Instant) :
    Except ChronoPanic (List ParsedUsageWindow) := do
  let windows ← appendRateLimit [] "codex" "Codex" (raw.get "rate_limit") now
  let windows ←
    appendRateLimit windows "code_review" "Code review" (raw.get "code_review_rate_limit") now
  let windows ← (additionalRateLimits raw).zipIdx.foldlM (fun windows entry ↦
    appendRateLimit windows (additionalKey entry.1 entry.2) (additionalName entry.1)
      (entry.1.get "rate_limit") now) windows
  return retainUnseen [] windows

end Time

/-! ### When the parser returns -/

section Returns

variable [ChronoRange] {raw window : JsonValue} {now : Instant}

/-- Where no absolute reset time is read, the one relative to now has a duration and an end. -/
def ResetInRange (window : JsonValue) (now : Instant) : Prop :=
  (integer (window.get "reset_at")).bind fromTimestamp = none →
    ∀ seconds, integer (window.get "reset_after_seconds") = some seconds →
      Fits 64 (1000 * max seconds 0) ∧ Representable (now + 1000 * max seconds 0)

/-- The reset time of a window is read without a panic exactly in this range. -/
theorem returns_windowResetAt_iff :
    Returns (windowResetAt window now) ↔ ResetInRange window now := by
  unfold windowResetAt ResetInRange
  cases (integer (window.get "reset_at")).bind fromTimestamp with
  | some resetAt =>
    apply iff_of_true (returns_ok _)
    simp
  | none =>
    cases integer (window.get "reset_after_seconds") with
    | none =>
      apply iff_of_true (returns_ok _)
      simp
    | some seconds =>
      simp only [Option.some.injEq, forall_eq', forall_true_left]
      unfold durationSeconds
      by_cases hfits : Fits 64 (1000 * max seconds 0)
      · rw [if_pos hfits, ok_bind, addDuration]
        by_cases hend : Representable (now + 1000 * max seconds 0)
        · rw [if_pos hend]
          exact iff_of_true (returns_ok _) ⟨hfits, hend⟩
        · rw [if_neg hend]
          exact iff_of_false (not_returns_error _) fun h ↦ hend h.2
      · rw [if_neg hfits]
        exact iff_of_false (not_returns_error _) fun h ↦ hfits h.1

variable [FloatText] {quotaKey quotaName kind : String} {rateLimit : Option JsonValue}
  {target : List ParsedUsageWindow}

/-- The window in a slot of a meter, if it is usable: if it has a percentage. -/
def usableWindow (rateLimit : Option JsonValue) (kind : String) : Option JsonValue :=
  (rateLimit.bind (·.get (kind ++ "_window"))).filter fun window ↦
    (number (window.get "used_percent")).isSome

/-- The usable windows of a meter. -/
def usableWindows (rateLimit : Option JsonValue) : List JsonValue :=
  sourceSlots.filterMap (usableWindow rateLimit)

/-- The usable windows of every meter in a payload. -/
def payloadWindows (raw : JsonValue) : List JsonValue :=
  usableWindows (raw.get "rate_limit") ++ usableWindows (raw.get "code_review_rate_limit") ++
    (additionalRateLimits raw).flatMap fun additional ↦ usableWindows (additional.get "rate_limit")

/-- What a slot adds: the window that is read from it, if it is usable. -/
theorem appendSlot_eq (quotaKey quotaName : String) (rateLimit : JsonValue) (now : Instant)
    (target : List ParsedUsageWindow) (kind : String) :
    appendSlot quotaKey quotaName rateLimit now target kind =
      (usableWindow (some rateLimit) kind).elim (.ok target) fun window ↦
        (windowResetAt window now).map fun resetAt ↦ target ++ [
          { quotaKey := quotaKey
            quotaName := quotaName
            sourceSlot := kind
            windowKind := windowKind kind (integer (window.get "limit_window_seconds"))
            usedPercent := (number (window.get "used_percent")).bind clampPercent
            windowSeconds := integer (window.get "limit_window_seconds")
            resetAt := resetAt }] := by
  unfold appendSlot usableWindow
  rw [Option.bind_some]
  cases rateLimit.get (kind ++ "_window") with
  | none => rfl
  | some window =>
    cases hnumber : number (window.get "used_percent") with
    | none => simp [Option.filter, hnumber]
    | some usedPercent =>
      simp only [Option.filter_some, hnumber, Option.isSome_some, if_true, Option.elim_some,
        Option.bind_some]
      cases windowResetAt window now <;> rfl

omit [ChronoRange] in
/-- A meter that is no object has no usable window. -/
theorem usableWindow_eq_none (h : (rateLimit.filter fun value ↦
    value.asObject.isSome) = none) : usableWindow rateLimit kind = none := by
  unfold usableWindow
  cases rateLimit with
  | none => rfl
  | some value =>
    have hobject : value.asObject = none := by simpa [Option.filter] using h
    rw [Option.bind_some, JsonValue.get, hobject]
    rfl

/-- A meter is read without a panic exactly when each of its usable windows is. -/
theorem returns_appendRateLimit_iff : Returns (appendRateLimit target quotaKey quotaName rateLimit
    now) ↔ ∀ window ∈ usableWindows rateLimit, ResetInRange window now := by
  unfold appendRateLimit
  cases hobject : rateLimit.filter fun value ↦ value.asObject.isSome with
  | none =>
    apply iff_of_true (returns_ok _)
    simp [usableWindows, usableWindow_eq_none hobject]
  | some value =>
    obtain rfl : rateLimit = some value := Option.eq_some_of_filter_eq_some hobject
    have hslots : Returns (sourceSlots.foldlM (appendSlot quotaKey quotaName value now) target) ↔
        ∀ kind ∈ sourceSlots, ∀ window, usableWindow (some value) kind = some window →
          ResetInRange window now := by
      apply returns_foldlM_iff
      intro target kind _
      rw [appendSlot_eq]
      cases usableWindow (some value) kind with
      | none =>
        apply iff_of_true (returns_ok _)
        simp
      | some window =>
        rw [Option.elim_some, returns_map_iff, returns_windowResetAt_iff]
        simp
    rw [hslots]
    simp only [usableWindows, List.mem_filterMap, forall_exists_index, and_imp]
    exact ⟨fun h window kind hkind hwindow ↦ h kind hkind window hwindow,
      fun h kind hkind window hwindow ↦ h window kind hkind hwindow⟩

private theorem returns_additional_iff (raw : JsonValue) (now : Instant)
    (windows : List ParsedUsageWindow) : Returns ((additionalRateLimits raw).zipIdx.foldlM
      (fun windows entry ↦ appendRateLimit windows (additionalKey entry.1 entry.2)
        (additionalName entry.1) (entry.1.get "rate_limit") now) windows) ↔
      ∀ additional ∈ additionalRateLimits raw,
        ∀ window ∈ usableWindows (additional.get "rate_limit"), ResetInRange window now := by
  have hround : ∀ windows, ∀ entry ∈ (additionalRateLimits raw).zipIdx,
      Returns (appendRateLimit windows (additionalKey entry.1 entry.2) (additionalName entry.1)
        (entry.1.get "rate_limit") now) ↔
      ∀ window ∈ usableWindows (entry.1.get "rate_limit"), ResetInRange window now :=
    fun windows entry _ ↦ returns_appendRateLimit_iff
  rw [returns_foldlM_iff hround]
  have hentries := List.forall_mem_map (l := (additionalRateLimits raw).zipIdx) (f := Prod.fst)
    (P := fun additional ↦ ∀ window ∈ usableWindows (additional.get "rate_limit"),
      ResetInRange window now)
  rw [← hentries, List.zipIdx_map_fst]

/-- **When a usage payload crashes the refresher.** The parser returns exactly when every usable
window of every meter has a reset time in range; otherwise it panics. -/
theorem parseUsageWindows_returns_iff (raw : JsonValue) (now : Instant) :
    (∃ windows, parseUsageWindows raw now = .ok windows) ↔
      ∀ window ∈ payloadWindows raw, ResetInRange window now := by
  have hparse : Returns (parseUsageWindows raw now) ↔
      (∀ window ∈ usableWindows (raw.get "rate_limit"), ResetInRange window now) ∧
      (∀ window ∈ usableWindows (raw.get "code_review_rate_limit"), ResetInRange window now) ∧
      ∀ additional ∈ additionalRateLimits raw,
        ∀ window ∈ usableWindows (additional.get "rate_limit"), ResetInRange window now := by
    unfold parseUsageWindows
    rw [← returns_appendRateLimit_iff]
    apply returns_bind_iff
    intro core _
    rw [← returns_appendRateLimit_iff]
    apply returns_bind_iff
    intro windows _
    rw [← returns_additional_iff raw now windows]
    refine (returns_bind_iff (p := True) fun windows _ ↦ ?_).trans (iff_of_eq (and_true _))
    exact iff_of_true (returns_ok _) trivial
  change Returns _ ↔ _
  rw [hparse]
  simp only [payloadWindows, List.mem_append, List.mem_flatMap]
  constructor
  · rintro ⟨hcore, hreview, hadditional⟩ window ((hwindow | hwindow) | ⟨additional, hmem, hwindow⟩)
    · exact hcore window hwindow
    · exact hreview window hwindow
    · exact hadditional additional hmem window hwindow
  · intro h
    refine ⟨fun window hwindow ↦ h window (.inl (.inl hwindow)),
      fun window hwindow ↦ h window (.inl (.inr hwindow)), fun additional hmem window hwindow ↦ ?_⟩
    exact h window (.inr ⟨additional, hmem, hwindow⟩)

end Returns

section Panic

/-- The years −262143 to 262142. -/
@[reducible] def chronoYears : ChronoRange := ⟨-8334601228800000, 8210266876799999⟩

/-- A reader that knows unsigned decimal integers. -/
@[reducible] def decimalText : FloatText := ⟨fun text ↦ (parseU64 text).map fun n ↦ .finite n⟩

/-- A payload whose only window is reset after the greatest `i64` of seconds. -/
def farReset : JsonValue :=
  .object [("rate_limit", .object [("primary_window", .object [
    ("used_percent", .number (.posInt 12)),
    ("reset_after_seconds", .number (.posInt 9223372036854775807))])])]

/-- The parser panics on a window whose reset is too far away. -/
theorem parseUsageWindows_panics : ¬∀ raw now,
    ∃ windows, @parseUsageWindows chronoYears decimalText raw now = .ok windows := by
  intro h
  obtain ⟨windows, hwindows⟩ := h farReset 1700000000000
  have hpanic : @parseUsageWindows chronoYears decimalText farReset 1700000000000 =
      .error .outOfBounds := by decide +kernel
  rw [hpanic] at hwindows
  cases hwindows

end Panic

end CodexLb
