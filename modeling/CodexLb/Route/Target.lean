import CodexLb.Route.Reachable

/-!
# Accounts as the targets of their labels

`resolve_session_route_target` and `normalize_label`, `src/db.rs:442–496` and
`2550–2563`. A target is read as an identifier first. The accepted labels are
not disjoint from the identifiers: 32 hexadecimal digits are both.
-/

namespace CodexLb

open Relational Transition

/-! ### Accepted labels -/

/-- A label that `normalize_label` returns. -/
def AcceptedLabel (label : String) : Prop := ∃ text, normalizeLabel text = .ok label

/-- The texts that are normalized to a label. -/
theorem normalizeLabel_eq_ok_iff {text label : String} : normalizeLabel text = .ok label ↔
    toAsciiLowercase (trim text) = label ∧ label.toList ≠ [] ∧ label.toList.length ≤ 32 ∧
      label.toList.all isWordChar = true := by
  unfold normalizeLabel
  generalize toAsciiLowercase (trim text) = value
  dsimp only
  split
  · next hrefused =>
    apply iff_of_false
    · intro h
      cases h
    · rintro ⟨rfl, hne, hlength, hword⟩
      simp [hne, hword] at hrefused
      omega
  · next hvalid =>
    rw [Except.ok.injEq]
    constructor
    · rintro rfl
      simpa [and_assoc] using hvalid
    · rintro ⟨rfl, -⟩
      rfl

/-- The accepted labels: 1 to 32 word characters in lower case. -/
theorem acceptedLabel_iff {label : String} : AcceptedLabel label ↔
    label.toList ≠ [] ∧ label.toList.length ≤ 32 ∧ label.toList.all isWordChar = true ∧
      toAsciiLowercase label = label := by
  constructor
  · rintro ⟨text, h⟩
    obtain ⟨rfl, hne, hlength, hword⟩ := normalizeLabel_eq_ok_iff.mp h
    exact ⟨hne, hlength, hword, toAsciiLowercase_idem _⟩
  · rintro ⟨hne, hlength, hword, hlower⟩
    refine ⟨label, normalizeLabel_eq_ok_iff.mpr ⟨?_, hne, hlength, hword⟩⟩
    rw [trim_of_word hword, hlower]

/-- Every stored label is empty or accepted. -/
def Store.LabelsAccepted (s : Store) : Prop :=
  ∀ id account, s.accounts.find id = some account →
    account.label = "" ∨ AcceptedLabel account.label

section Accepted

variable {s t : Store}

private theorem labels_of_accounts_eq (h : s.LabelsAccepted) (ht : t.accounts = s.accounts) :
    t.LabelsAccepted := by
  intro id account hfind
  rw [ht] at hfind
  exact h id account hfind

/-- An update that writes accepted labels only keeps the labels accepted. -/
private theorem labels_of_update (h : s.LabelsAccepted) {p : Uuid → Account → Bool}
    {f : Account → Account}
    (hf : ∀ account, (f account).label = account.label ∨ (f account).label = "" ∨
      AcceptedLabel (f account).label) :
    Store.LabelsAccepted { t with accounts := s.accounts.update p f } := by
  intro id account hfind
  rw [Table.find_update] at hfind
  obtain ⟨before, hbefore, heq⟩ := Option.map_eq_some_iff.mp hfind
  have hold := h id before hbefore
  split at heq
  · rw [← heq]
    rcases hf before with hkept | hnew
    · rw [hkept]
      exact hold
    · exact hnew
  · rw [← heq]
    exact hold

/-- An optional label is accepted when it is present. -/
private theorem accepted_of_normalizeLabelOpt {label out : Option String}
    (h : normalizeLabelOpt label = .ok out) : ∀ value, out = some value → AcceptedLabel value := by
  intro value hvalue
  cases label with
  | none =>
    cases h
    cases hvalue
  | some text =>
    rw [normalizeLabelOpt] at h
    cases hnormal : normalizeLabel text with
    | error e =>
      rw [hnormal] at h
      cases h
    | ok normal =>
      rw [hnormal] at h
      cases h
      cases hvalue
      exact ⟨text, hnormal⟩

private theorem labels_writeAccount (h : s.LabelsAccepted) {label : String}
    (hlabel : label = "" ∨ AcceptedLabel label) (newId : Uuid) (encrypted : AccountTokens)
    (lastRefreshAt : Option Instant) (claims : AuthClaims) (now : Instant) :
    (writeAccount newId encrypted lastRefreshAt claims label now s).2.LabelsAccepted := by
  unfold writeAccount
  split
  · apply labels_of_update h
    intro account
    by_cases hempty : label = ""
    · exact .inl (if_pos hempty)
    · dsimp only
      rw [if_neg hempty]
      exact .inr hlabel
  · split
    · exact h
    · intro id account hfind
      change (s.accounts.insert _ _).find id = some account at hfind
      rw [Table.find_insert] at hfind
      split at hfind
      · cases hstored : s.accounts.find newId with
        | none =>
          rw [hstored] at hfind
          cases hfind
          exact hlabel
        | some row =>
          rw [hstored] at hfind
          cases hfind
          exact h newId row hstored
      · exact h id account hfind

/-- No operation stores a label that is not accepted. -/
theorem Op.labelsAccepted [UuidText] (op : Op) (now : Clock) (h : s.LabelsAccepted) :
    (op.exec now s).LabelsAccepted := by
  cases hwrites : op.writesAccounts with
  | false => exact labels_of_accounts_eq h (Op.accounts_frame hwrites now s)
  | true =>
    cases op with
    | upsertAccount newId encrypted lastRefreshAt claims label =>
      apply upsertAccount_keeps Store.LabelsAccepted h
      · intro out hout
        apply labels_writeAccount h
        cases out with
        | none => exact .inl rfl
        | some value => exact .inr (accepted_of_normalizeLabelOpt hout value rfl)
      · intro id u hu
        apply labels_of_accounts_eq hu
        rw [ensureRuntimeRow_frame]
    | updateAccount id status label email planType =>
      apply updateAccount_keeps Store.LabelsAccepted h
      intro out hlabel
      apply labels_of_update h
      intro account
      cases out with
      | none => exact .inl rfl
      | some value => exact .inr (.inr (accepted_of_normalizeLabelOpt hlabel value rfl))
    | deleteAccount id =>
      intro id' account hfind
      exact h id' account (find_of_deleteAccount hfind)
    | updateAccountTokens id encrypted claims =>
      exact updateAccountTokens_keeps Store.LabelsAccepted h
        (labels_of_update h fun _ ↦ .inl rfl)
    | markAuthFailed id reason => exact labels_of_update h fun _ ↦ .inl rfl
    | markUsageError id message => exact labels_of_update h fun _ ↦ .inl rfl
    | replaceUsageWindows id planType fetchedAt windows =>
      apply replaceUsageWindows_keeps Store.LabelsAccepted h
      intro windows samples
      exact labels_of_update (t := { s with usageWindows := windows, usageSamples := samples }) h
        fun _ ↦ .inl rfl
    | _ => cases hwrites

/-- Where the first labels are accepted, every label that is stored later is. -/
theorem labelsAccepted_of_reachable [UuidText]
    (h : Reachable Store.LabelsAccepted Store.Step s) : s.LabelsAccepted := by
  apply h.invariant (P := Store.LabelsAccepted) fun _ hlabels ↦ hlabels
  intro s op t hlabels hstep
  rw [← show op.1.exec op.2 s = t from hstep]
  exact op.1.labelsAccepted op.2 hlabels

end Accepted

/-! ### Labels that are read as identifiers -/

/-- The identifier that 32 hexadecimal digits spell. -/
def plainUuid (text : String) : Option Uuid :=
  if text.toList.length = 32 then (parseHex text.toList).map (BitVec.ofNat 128) else none

/-- The letter case makes no difference. -/
theorem plainUuid_toAsciiLowercase (text : String) :
    plainUuid (toAsciiLowercase text) = plainUuid text := by
  simp [plainUuid, toAsciiLowercase, parseHex_map_toLower]

/-- Among the texts of a label's length and characters, the `uuid` crate reads the plain form
only. -/
def ReadsPlain [UuidText] : Prop :=
  ∀ text : String, text.toList.all isWordChar = true → text.toList.length ≤ 32 →
    UuidText.parseStr text = plainUuid text

private theorem readGroups_length {widths : List Nat} {text digits : List Char}
    (h : readGroups widths text = some digits) :
    digits.length + widths.length = text.length ∧ (widths ≠ [] → '-' ∈ text) := by
  induction widths generalizing text digits with
  | nil =>
    cases h
    exact ⟨rfl, fun hne ↦ absurd rfl hne⟩
  | cons width widths ih =>
    rw [readGroups] at h
    split at h
    · next rest hdrop =>
      obtain ⟨digits, hdigits, rfl⟩ := Option.map_eq_some_iff.mp h
      have hlength : text.length = (text.take width).length + (rest.length + 1) := by
        rw [← List.length_cons (a := '-'), ← hdrop, ← List.length_append,
          List.take_append_drop]
      constructor
      · rw [List.length_append, List.length_cons]
        have := (ih hdigits).1
        omega
      · intro _
        apply List.mem_of_mem_drop (i := width)
        rw [hdrop]
        exact List.mem_cons_self
    · cases h

private theorem parseHex_of_hyphen {digits : List Char} (h : '-' ∈ digits) :
    parseHex digits = none := by
  obtain ⟨before, after, rfl⟩ := List.append_of_mem h
  rw [parseHex, List.foldlM_append]
  cases List.foldlM (fun n c ↦ (hexValue c).map fun d ↦ 16 * n + d) 0 before with
  | none => rfl
  | some n => rfl

/-- Hyphenated and bare identifiers are told apart by their lengths. -/
theorem hyphenatedText_readsPlain : @ReadsPlain hyphenatedText := by
  intro text _ hlength
  change parseUuid text = plainUuid text
  unfold parseUuid plainUuid
  cases hgroups : readGroups [8, 4, 4, 4] text.toList with
  | none => rfl
  | some digits =>
    obtain ⟨hsum, hhyphen⟩ := readGroups_length hgroups
    have hshort : digits.length ≠ 32 := by
      simp only [List.length_cons, List.length_nil] at hsum
      omega
    rw [parseHex_of_hyphen (hhyphen (by simp))]
    dsimp only [Option.getD_some]
    rw [if_neg hshort]
    split <;> rfl

/-! ### Resolving a label -/

section Resolve

variable [UuidText] {s : Store} {accountId : Uuid} {account : Account}

omit [UuidText] in
/-- A label that one account carries selects its row. -/
private theorem select_label (hlabels : s.LabelsAccepted)
    (hfind : s.accounts.find accountId = some account) (haccepted : AcceptedLabel account.label)
    (hunique : ∀ other row, other ≠ accountId → s.accounts.find other = some row →
      row.label ≠ account.label) :
    (s.accounts.select fun _ row ↦ toAsciiLowercase (sqlTrim row.label) == account.label) =
      [(accountId, account)] := by
  have hself : ∀ label, AcceptedLabel label → toAsciiLowercase (sqlTrim label) = label := by
    intro label h
    obtain ⟨-, -, hword, hlower⟩ := acceptedLabel_iff.mp h
    rw [sqlTrim_of_word hword, hlower]
  apply Table.select_eq_singleton hfind
  · rw [hself _ haccepted, beq_self_eq_true]
  · intro other row hother hmatch
    rw [beq_iff_eq] at hmatch
    by_contra hne
    rcases hlabels other row hother with hempty | hrow
    · rw [hempty] at hmatch
      exact (acceptedLabel_iff.mp haccepted).1 (by rw [← hmatch]; rfl)
    · rw [hself _ hrow] at hmatch
      exact hunique other row hne hother hmatch

omit [UuidText] in
/-- A target that spells an accepted label in any letter case is normalized to it. -/
private theorem normalizeLabel_of_accepted {label target : String} (haccepted : AcceptedLabel label)
    (htarget : toAsciiLowercase (trim target) = label) :
    (trim target).toList.all isWordChar = true ∧
      normalizeLabel (trim target) = .ok label := by
  obtain ⟨hne, hlength, hlabel, -⟩ := acceptedLabel_iff.mp haccepted
  have hword := hlabel
  rw [← htarget, all_isWordChar_toAsciiLowercase] at hword
  rw [normalizeLabel_eq_ok_iff, trim_of_word hword]
  exact ⟨hword, htarget, hne, hlength, hlabel⟩

/-- **When a label names its account.** A label that no other account carries, in any letter case
and with surrounding white space, resolves to its account exactly when it is not the plain
identifier of something else. -/
theorem resolve_own_label_iff (hreads : ReadsPlain) (s : Store) (hlabels : s.LabelsAccepted)
    (accountId : Uuid) (account : Account)
    (hfind : s.accounts.find accountId = some account) (haccepted : AcceptedLabel account.label)
    (hunique : ∀ other row, other ≠ accountId → s.accounts.find other = some row →
      row.label ≠ account.label)
    (target : String) (htarget : toAsciiLowercase (trim target) = account.label) :
    (resolveSessionRouteTarget target s).map (·.accountId) = .ok accountId ↔
      ∀ id, plainUuid account.label = some id → id = accountId := by
  obtain ⟨hne, hlength, -⟩ := acceptedLabel_iff.mp haccepted
  obtain ⟨hword, hnormal⟩ := normalizeLabel_of_accepted haccepted htarget
  have hselect := select_label hlabels hfind haccepted hunique
  have hdisplay : account.label ≠ "" := fun hempty ↦ hne (by rw [hempty]; rfl)
  -- the target is a text of the label's length
  have hsize : (trim target).toList.length = account.label.toList.length := by
    rw [← htarget, toAsciiLowercase, String.toList_ofList, List.length_map]
  have hfilled : (trim target).toList.isEmpty = false := by
    rw [List.isEmpty_eq_false_iff, ← List.length_pos_iff, hsize, List.length_pos_iff]
    exact hne
  have hread : UuidText.parseStr (trim target) = plainUuid account.label := by
    rw [hreads _ hword (by omega), ← plainUuid_toAsciiLowercase, htarget]
  unfold resolveSessionRouteTarget
  simp only [hfilled, Bool.false_eq_true, if_false, hread]
  cases hplain : plainUuid account.label with
  | none =>
    simp only [hnormal, Except.bind, bind, hselect, if_neg hdisplay]
    apply iff_of_true rfl
    intro id hid
    cases hid
  | some id =>
    rw [show (∀ other, some id = some other → other = accountId) ↔ id = accountId by simp]
    dsimp only
    constructor
    · intro h
      cases hlabel : s.accountDisplayLabel id with
      | none =>
        rw [hlabel] at h
        cases h
      | some shown =>
        rw [hlabel] at h
        cases h
        rfl
    · rintro rfl
      have hlabel : s.accountDisplayLabel id = some account.label := by
        rw [Store.accountDisplayLabel, hfind, Option.map_some, if_neg hdisplay]
      rw [hlabel]
      rfl

omit [UuidText] in
/-- The only account of a store, under a label. -/
def labelledAccount (label : String) : Account :=
  importedAccount ⟨"access", "refresh", "id"⟩ none ⟨none, "one@example.invalid", "plus", none⟩
    label 0

omit [UuidText] in
/-- A store with one account. -/
def labelledAlone (label : String) : Store := .initial ⟨[(1, labelledAccount label)], by simp⟩

omit [UuidText] in
private theorem find_labelledAlone {label : String} {id : Uuid}
    (h : (labelledAlone label).accounts.find id = some account) :
    id = 1 ∧ account.label = label := by
  have hrow := List.mem_singleton.mp (Table.mem_rows_iff.mpr h)
  rw [Prod.mk.injEq] at hrow
  exact ⟨hrow.1, by rw [hrow.2]; rfl⟩

omit [UuidText] in
private theorem labelsAccepted_alone {label : String} (h : AcceptedLabel label) :
    (labelledAlone label).LabelsAccepted := by
  intro id account hfind
  rw [(find_labelledAlone hfind).2]
  exact .inr h

omit [UuidText] in
/-- A name in capitals and between spaces resolves to its account. -/
theorem resolve_own_label_iff_capitals : let _ := hyphenatedText
    (resolveSessionRouteTarget " Main-1\n" (labelledAlone "main-1")).map (·.accountId) = .ok 1 := by
  intro _
  have haccepted : AcceptedLabel "main-1" := ⟨"main-1", by decide +kernel⟩
  have hplain : plainUuid "main-1" = none := by decide +kernel
  apply (resolve_own_label_iff hyphenatedText_readsPlain _ (labelsAccepted_alone haccepted) 1
    (labelledAccount "main-1") rfl haccepted
    (fun other row hne hfind ↦ absurd (find_labelledAlone hfind).1 hne) " Main-1\n"
    (by decide +kernel)).mpr
  intro id hid
  rw [show (labelledAccount "main-1").label = "main-1" from rfl, hplain] at hid
  cases hid

omit [UuidText] in
/-- An accepted label of 32 hexadecimal digits is taken for an identifier, and its account is not
found. -/
theorem hexadecimal_label_not_found : let _ := hyphenatedText
    ¬∀ (s : Store), s.LabelsAccepted → ∀ (accountId : Uuid) (account : Account),
      s.accounts.find accountId = some account → AcceptedLabel account.label →
      (∀ other row, other ≠ accountId → s.accounts.find other = some row →
        row.label ≠ account.label) →
      ∀ target, toAsciiLowercase (trim target) = account.label →
        (resolveSessionRouteTarget target s).map (·.accountId) = .ok accountId := by
  intro _ h
  have haccepted : AcceptedLabel "0123456789abcdef0123456789abcdef" :=
    ⟨"0123456789abcdef0123456789abcdef", by decide +kernel⟩
  have hfound := h _ (labelsAccepted_alone haccepted) 1 _ rfl haccepted
    (fun other row hne hfind ↦ absurd (find_labelledAlone hfind).1 hne)
    "0123456789abcdef0123456789abcdef" (by decide +kernel)
  have hmissing : resolveSessionRouteTarget "0123456789abcdef0123456789abcdef"
      (labelledAlone "0123456789abcdef0123456789abcdef") =
        .error (.notFound "account target not found") := by decide +kernel
  rw [hmissing] at hfound
  cases hfound

end Resolve

end CodexLb
