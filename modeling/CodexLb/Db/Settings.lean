import CodexLb.Base.Json
import CodexLb.Db.Accounts
import Mathlib.Data.List.Sort

/-!
# Runtime settings

`upsert_settings` and its checks, the rows of `settings`, and the settings
that the daemon reads back from them: `src/db.rs:2422–2507` and
`src/models.rs:277–343`.
-/

namespace CodexLb

open Relational

/-- `settings`, keyed by `key`; `migrations/202605050001_initial.sql:70`. -/
abbrev SettingRows := Table String JsonValue

/-- `str::parse::<i64>`: decimal digits after an optional sign. -/
def parseI64 (text : String) : Option Int :=
  let sign : Int := if text.toList.head? = some '-' then -1 else 1
  let digits : List Char := match text.toList with
    | '+' :: rest => rest
    | '-' :: rest => rest
    | digits => digits
  let magnitude : Nat := digits.foldl (fun value c ↦ 10 * value + (c.toNat - 48)) 0
  let value : Int := sign * (magnitude : Int)
  if digits ≠ [] ∧ digits.all Char.isDigit ∧ -(2 ^ 63 : Int) ≤ value ∧ value ≤ (i64Max : Int) then
    some value
  else none

/-- `validate_integer_setting`, `src/db.rs:2498–2509`. -/
def validateIntegerSetting (key : String) (value : JsonValue) (min max : Int) :
    Except AppError Unit :=
  match value.asI64.or (value.asStr.bind parseI64) with
  | some parsed =>
    if min ≤ parsed ∧ parsed ≤ max then .ok ()
    else .error (.badRequest s!"{key} must be an integer from {min} through {max}")
  | none => .error (.badRequest s!"{key} must be an integer from {min} through {max}")

/-- `validate_setting`, `src/db.rs:2477–2496`. -/
def validateSetting (key : String) (value : JsonValue) : Except AppError Unit :=
  match key with
  | "routing_strategy" =>
    match value.asStr with
    | some "round_robin" => .ok ()
    | some "usage_weighted" => .ok ()
    | _ => .error (.badRequest "routing_strategy must be round_robin or usage_weighted")
  | "proxy_max_attempts" => validateIntegerSetting key value 1 10
  | "rate_limit_cooldown_seconds" => validateIntegerSetting key value 1 3600
  | "sticky_session_ttl_seconds" => validateIntegerSetting key value 300 (30 * 24 * 60 * 60)
  | "usage_sample_retention_days" => validateIntegerSetting key value 1 365
  | _ => .error (.badRequest s!"unsupported runtime setting '{key}'")

/-- `upsert_settings`, `src/db.rs:2450–2475`: every entry is checked before the first write. -/
def upsertSettings (settings : List (String × JsonValue)) (rows : SettingRows) :
    Except AppError Unit × SettingRows :=
  match settings.forM fun entry ↦ validateSetting entry.1 entry.2 with
  | .error e => (.error e, rows)
  | .ok () => (.ok (), rows.upsertAll settings Prod.fst Prod.snd fun entry _ ↦ entry.2)

/-- `json_i64`, `src/models.rs:337–343`. -/
def jsonI64 (value : JsonValue) : Option Int :=
  value.asI64.or (value.asStr.bind fun text ↦ parseI64 (trim text))

/-- `RuntimeSettings::apply`, `src/models.rs:301–334`. -/
def RuntimeSettings.apply (settings : RuntimeSettings) (key : String) (value : JsonValue) :
    RuntimeSettings :=
  match key with
  | "routing_strategy" =>
    match value.asStr.filter fun strategy ↦ trim strategy ≠ "" with
    | some strategy => { settings with routingStrategy := trim strategy }
    | none => settings
  | "proxy_max_attempts" =>
    match jsonI64 value with
    | some value => { settings with proxyMaxAttempts := (clamp value 1 10).toNat }
    | none => settings
  | "rate_limit_cooldown_seconds" =>
    match jsonI64 value with
    | some value => { settings with rateLimitCooldownSeconds := clamp value 1 (60 * 60) }
    | none => settings
  | "sticky_session_ttl_seconds" =>
    match jsonI64 value with
    | some value =>
      { settings with stickySessionTtlSeconds := clamp value 300 (30 * 24 * 60 * 60) }
    | none => settings
  | "usage_sample_retention_days" =>
    match jsonI64 value with
    | some value => { settings with usageSampleRetentionDays := clamp value 1 365 }
    | none => settings
  | _ => settings

/-- The keys that `runtime_settings` selects, `src/db.rs:2433–2436`. -/
def runtimeSettingKeys : List String :=
  ["routing_strategy", "proxy_max_attempts", "rate_limit_cooldown_seconds",
    "sticky_session_ttl_seconds", "usage_sample_retention_days"]

/-- `runtime_settings`, `src/db.rs:2429–2448`. -/
def runtimeSettings (rows : SettingRows) : RuntimeSettings :=
  let selected := rows.select fun key _ ↦ runtimeSettingKeys.contains key
  (selected.insertionSort fun a b ↦ a.1 ≤ b.1).foldl
    (fun settings row ↦ settings.apply row.1 row.2) .default

/-- The rows that the migrations insert; `migrations/202605050001_initial.sql:76` and
`202607210001_local_pool_metrics.sql:58–64`. -/
def migratedSettings : SettingRows where
  rows := [
    ("routing_strategy", .string "usage_weighted"),
    ("proxy_max_attempts", .number (.posInt 2)),
    ("rate_limit_cooldown_seconds", .number (.posInt 60)),
    ("sticky_session_ttl_seconds", .number (.posInt 604800)),
    ("usage_sample_retention_days", .number (.posInt 30))]
  distinct := by decide

/-- The rows that accepted updates of the migrated ones reach. -/
inductive AcceptedSettings : SettingRows → Prop where
  | migrated : AcceptedSettings migratedSettings
  | upsert {rows rows' : SettingRows} (settings : List (String × JsonValue))
      (before : AcceptedSettings rows) (accepted : upsertSettings settings rows = (.ok (), rows')) :
      AcceptedSettings rows'

/-- The ranges that the checks promise. -/
structure RuntimeSettings.InRange (settings : RuntimeSettings) : Prop where
  proxyMaxAttempts : 1 ≤ settings.proxyMaxAttempts ∧ settings.proxyMaxAttempts ≤ 10
  rateLimitCooldown : 1 ≤ settings.rateLimitCooldownSeconds ∧
    settings.rateLimitCooldownSeconds ≤ 3600
  stickySessionTtl : 300 ≤ settings.stickySessionTtlSeconds ∧
    settings.stickySessionTtlSeconds ≤ 2592000
  retention : 1 ≤ settings.usageSampleRetentionDays ∧ settings.usageSampleRetentionDays ≤ 365

/-- Applying any value keeps every setting in its range. -/
theorem RuntimeSettings.InRange.apply {settings : RuntimeSettings} (h : settings.InRange)
    (key : String) (value : JsonValue) : (settings.apply key value).InRange := by
  unfold RuntimeSettings.apply
  split
  · split
    · exact { h with }
    · exact h
  · split
    · next value _ =>
      have hvalue : 1 ≤ (clamp value 1 10).toNat ∧ (clamp value 1 10).toNat ≤ 10 := by
        unfold clamp
        omega
      exact { h with proxyMaxAttempts := hvalue }
    · exact h
  · split
    · next value _ =>
      have hvalue : 1 ≤ clamp value 1 3600 ∧ clamp value 1 3600 ≤ 3600 := by
        unfold clamp
        omega
      exact { h with rateLimitCooldown := hvalue }
    · exact h
  · split
    · next value _ =>
      have hvalue : 300 ≤ clamp value 300 2592000 ∧ clamp value 300 2592000 ≤ 2592000 := by
        unfold clamp
        omega
      exact { h with stickySessionTtl := hvalue }
    · exact h
  · split
    · next value _ =>
      have hvalue : 1 ≤ clamp value 1 365 ∧ clamp value 1 365 ≤ 365 := by
        unfold clamp
        omega
      exact { h with retention := hvalue }
    · exact h
  · exact h

/-- The settings read back are in range, whatever the rows hold. -/
theorem runtimeSettings_inRange (rows : SettingRows) : (runtimeSettings rows).InRange := by
  have hfold : ∀ (entries : List (String × JsonValue)) (settings : RuntimeSettings),
      settings.InRange →
        (entries.foldl (fun settings row ↦ settings.apply row.1 row.2) settings).InRange := by
    intro entries
    induction entries with
    | nil => exact fun _ h ↦ h
    | cons entry entries ih => exact fun settings h ↦ ih _ (h.apply entry.1 entry.2)
  apply hfold
  exact ⟨by decide, by decide, by decide, by decide⟩

end CodexLb
