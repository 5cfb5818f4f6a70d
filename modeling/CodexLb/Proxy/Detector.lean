import CodexLb.Proxy.Capture
import CodexLb.Streaming.Occurrence
import Mathlib.Data.Nat.Find

/-!
# Terminal detection in pieces

`SseTerminalDetector::observe` keeps 64 bytes while it looks for a marker and 3
bytes while it waits for a blank line, `src/proxy.rs:743–813`. Both are enough:
however the stream is cut, the detector reports what a fresh one reports that
is given everything at once.
-/

namespace CodexLb.Proxy

open Streaming

/-! ### Where a pattern is found -/

/-- The first position of a pattern, or none when it does not occur. -/
theorem positionOf_eq_some {pattern bytes : List UInt8} {i : Nat} (hp : pattern ≠ []) :
    positionOf pattern bytes = some i ↔
      OccursAt pattern bytes i ∧ ∀ j, OccursAt pattern bytes j → i ≤ j := by
  induction bytes generalizing i with
  | nil =>
    have hnone : ∀ j, ¬OccursAt pattern [] j := by
      intro j hj
      exact hp (List.prefix_nil.mp (by simpa [OccursAt] using hj))
    constructor
    · intro h
      cases h
    · intro h
      exact absurd h.1 (hnone i)
  | cons b bytes ih =>
    have hsucc : ∀ j, OccursAt pattern (b :: bytes) (j + 1) ↔ OccursAt pattern bytes j :=
      fun j ↦ Iff.rfl
    have hzero : pattern.isPrefixOf (b :: bytes) = true ↔ OccursAt pattern (b :: bytes) 0 :=
      List.isPrefixOf_iff_prefix
    rw [positionOf]
    by_cases hnow : pattern.isPrefixOf (b :: bytes) = true
    · rw [if_pos hnow, Option.some_inj]
      constructor
      · rintro rfl
        exact ⟨hzero.mp hnow, fun j _ ↦ Nat.zero_le j⟩
      · rintro ⟨-, hfirst⟩
        exact (Nat.le_zero.mp (hfirst 0 (hzero.mp hnow))).symm
    · rw [if_neg hnow]
      rw [hzero] at hnow
      cases i with
      | zero =>
        constructor
        · intro h
          obtain ⟨j, -, hj⟩ := Option.map_eq_some_iff.mp h
          cases hj
        · rintro ⟨hoccurs, -⟩
          exact absurd hoccurs hnow
      | succ i =>
        have hmap : (positionOf pattern bytes).map (· + 1) = some (i + 1) ↔
            positionOf pattern bytes = some i := by simp
        rw [hmap, ih, hsucc]
        apply and_congr_right
        intro _
        constructor
        · intro hfirst j hj
          cases j with
          | zero => exact absurd hj hnow
          | succ j => exact Nat.succ_le_succ (hfirst j hj)
        · intro hfirst j hj
          exact Nat.le_of_succ_le_succ (hfirst (j + 1) hj)

/-- A pattern that occurs is found. -/
theorem positionOf_eq_none {pattern bytes : List UInt8} (hp : pattern ≠ []) :
    positionOf pattern bytes = none ↔ ∀ i, ¬OccursAt pattern bytes i := by
  constructor
  · intro hnone i hi
    classical
    have hex : ∃ i, OccursAt pattern bytes i := ⟨i, hi⟩
    have hfound : positionOf pattern bytes = some (Nat.find hex) :=
      (positionOf_eq_some hp).mpr ⟨Nat.find_spec hex, fun j hj ↦ Nat.find_min' hex hj⟩
    rw [hnone] at hfound
    cases hfound
  · intro h
    cases hfound : positionOf pattern bytes with
    | none => rfl
    | some i => exact absurd ((positionOf_eq_some hp).mp hfound).1 (h i)

/-! ### Markers -/

/-- The patterns of `find_sse_terminal` as bytes. -/
def markers : List (List UInt8 × SseTerminal) :=
  terminalPatterns.map fun pattern ↦ (bytesOf pattern.1, pattern.2)

/-- Every marker starts with a quote, stays on its line and fits the carry. -/
theorem markers_shape : ∀ marker ∈ markers,
    (∃ rest, marker.1 = 34 :: rest) ∧ (10 ∉ marker.1 ∧ 13 ∉ marker.1) ∧ marker.1.length ≤ 29 := by
  have hshape : markers.all (fun marker ↦ marker.1.head? == some 34 && !marker.1.contains 10 &&
      !marker.1.contains 13 && decide (marker.1.length ≤ 29)) = true := by decide +kernel
  intro marker hmem
  have hmarker := List.all_eq_true.mp hshape marker hmem
  simp only [Bool.and_eq_true, beq_iff_eq, decide_eq_true_eq, Bool.not_eq_true',
    List.contains_eq_mem, decide_eq_false_iff_not] at hmarker
  obtain ⟨⟨⟨hhead, hfeed⟩, hreturn⟩, hlength⟩ := hmarker
  obtain ⟨rest, hrest⟩ := List.head?_eq_some_iff.mp hhead
  exact ⟨⟨rest, hrest⟩, ⟨hfeed, hreturn⟩, hlength⟩

/-- No marker is empty. -/
theorem marker_ne_nil {marker : List UInt8 × SseTerminal} (hmem : marker ∈ markers) :
    marker.1 ≠ [] := by
  obtain ⟨⟨rest, hrest⟩, -⟩ := markers_shape marker hmem
  rw [hrest]
  exact List.cons_ne_nil 34 rest

/-- No marker lies within another one. -/
theorem markers_apart {outer inner : List UInt8 × SseTerminal} (houter : outer ∈ markers)
    (hinner : inner ∈ markers) {n : Nat} (h : OccursAt inner.1 outer.1 n) :
    n = 0 ∧ inner = outer := by
  have hapart : ∀ outer ∈ markers, ∀ inner ∈ markers, ∀ n < 29,
      OccursAt inner.1 outer.1 n → n = 0 ∧ inner = outer := by decide +kernel
  have hlength := (markers_shape outer houter).2.2
  have hfits := h.length_le (marker_ne_nil hinner)
  have hpos := List.length_pos_of_ne_nil (marker_ne_nil hinner)
  exact hapart outer houter inner hinner n (by omega) h

/-- The first marker of a text: where it is and what it says. -/
structure FirstMarker (bytes : List UInt8) (position : Nat) (terminal : SseTerminal) : Prop where
  occurs : ∃ pattern, (pattern, terminal) ∈ markers ∧ OccursAt pattern bytes position
  first : ∀ marker ∈ markers, ∀ i, OccursAt marker.1 bytes i → position ≤ i

/-- A text has one first marker. -/
theorem FirstMarker.unique {bytes : List UInt8} {i j : Nat} {t u : SseTerminal}
    (h : FirstMarker bytes i t) (h' : FirstMarker bytes j u) : i = j ∧ t = u := by
  obtain ⟨pattern, hmem, hoccurs⟩ := h.occurs
  obtain ⟨pattern', hmem', hoccurs'⟩ := h'.occurs
  have hij : i = j :=
    Nat.le_antisymm (h.first _ hmem' j hoccurs') (h'.first _ hmem i hoccurs)
  refine ⟨hij, ?_⟩
  rw [hij] at hoccurs
  rcases Nat.le_total pattern.length pattern'.length with hle | hle
  · have hwithin : OccursAt pattern pattern' 0 := OccursAt.within hoccurs hoccurs' (by omega)
    exact congrArg Prod.snd (markers_apart hmem' hmem hwithin).2
  · have hwithin : OccursAt pattern' pattern 0 := OccursAt.within hoccurs' hoccurs (by omega)
    exact (congrArg Prod.snd (markers_apart hmem hmem' hwithin).2).symm

/-- The candidate with the lesser position; the earlier one of a tie. -/
private def nearer (best : Option (Nat × SseTerminal)) (candidate : Nat × SseTerminal) :
    Option (Nat × SseTerminal) :=
  best.elim (some candidate) fun least ↦
    if candidate.1 < least.1 then some candidate else some least

private theorem nearer_spec (best : Option (Nat × SseTerminal)) (candidate : Nat × SseTerminal) :
    ∃ least, nearer best candidate = some least ∧ (least = candidate ∨ best = some least) ∧
      least.1 ≤ candidate.1 ∧ ∀ before, best = some before → least.1 ≤ before.1 := by
  cases best with
  | none => exact ⟨candidate, rfl, .inl rfl, Nat.le_refl _, by simp⟩
  | some least =>
    by_cases hlt : candidate.1 < least.1
    · refine ⟨candidate, if_pos hlt, .inl rfl, Nat.le_refl _, ?_⟩
      rintro before ⟨⟩
      omega
    · refine ⟨least, if_neg hlt, .inr rfl, by omega, ?_⟩
      rintro before ⟨⟩
      exact Nat.le_refl _

/-- The fold of `findSseTerminal` keeps a candidate at the least position. -/
private theorem foldl_nearer {found : List (Nat × SseTerminal)}
    {best : Option (Nat × SseTerminal)} :
    (found.foldl nearer best = none ↔ best = none ∧ found = []) ∧
      ∀ least, found.foldl nearer best = some least → (least ∈ found ∨ best = some least) ∧
        (∀ candidate ∈ found, least.1 ≤ candidate.1) ∧
        ∀ before, best = some before → least.1 ≤ before.1 := by
  induction found generalizing best with
  | nil =>
    rw [List.foldl_nil]
    refine ⟨by simp, ?_⟩
    rintro least rfl
    refine ⟨.inr rfl, by simp, ?_⟩
    rintro before ⟨⟩
    exact Nat.le_refl _
  | cons candidate found ih =>
    rw [List.foldl_cons]
    obtain ⟨kept, hkept, hfrom, hle, hbefore⟩ := nearer_spec best candidate
    obtain ⟨hnone, hsome⟩ := @ih (nearer best candidate)
    constructor
    · rw [hnone, hkept]
      simp
    · intro least hleast
      obtain ⟨hmem, hfound, hbest⟩ := hsome least hleast
      have hkeptLe := hbest kept hkept
      refine ⟨?_, ?_, ?_⟩
      · rcases hmem with hmem | heq
        · exact .inl (List.mem_cons_of_mem _ hmem)
        · rw [hkept, Option.some_inj] at heq
          rw [← heq]
          rcases hfrom with rfl | hold
          · exact .inl List.mem_cons_self
          · exact .inr hold
      · rw [List.forall_mem_cons]
        exact ⟨Nat.le_trans hkeptLe hle, hfound⟩
      · intro before hold
        exact Nat.le_trans hkeptLe (hbefore before hold)

/-- The positions that `find_sse_terminal` compares. -/
private theorem mem_found {bytes : List UInt8} {i : Nat} {t : SseTerminal} :
    (i, t) ∈ terminalPatterns.filterMap (fun pattern ↦
      (positionOf (bytesOf pattern.1) bytes).map fun position ↦ (position, pattern.2)) ↔
      ∃ pattern, (pattern, t) ∈ markers ∧ positionOf pattern bytes = some i := by
  rw [List.mem_filterMap]
  constructor
  · rintro ⟨⟨text, u⟩, hmem, hfound⟩
    obtain ⟨j, hposition, heq⟩ := Option.map_eq_some_iff.mp hfound
    cases heq
    exact ⟨bytesOf text, List.mem_map.mpr ⟨(text, u), hmem, rfl⟩, hposition⟩
  · rintro ⟨pattern, hmem, hposition⟩
    obtain ⟨⟨text, u⟩, htext, heq⟩ := List.mem_map.mp hmem
    cases heq
    exact ⟨(text, u), htext, Option.map_eq_some_iff.mpr ⟨i, hposition, rfl⟩⟩

private theorem findSseTerminal_fold (bytes : List UInt8) :
    let found := terminalPatterns.filterMap fun pattern ↦
      (positionOf (bytesOf pattern.1) bytes).map fun position ↦ (position, pattern.2)
    (findSseTerminal bytes = none ↔ found = []) ∧
      ∀ least, findSseTerminal bytes = some least →
        least ∈ found ∧ ∀ candidate ∈ found, least.1 ≤ candidate.1 := by
  intro found
  have hfold : findSseTerminal bytes = found.foldl nearer none := by
    apply congrArg fun keep ↦ found.foldl keep none
    funext best candidate
    cases best with
    | none => rfl
    | some least => rfl
  obtain ⟨hnone, hsome⟩ := @foldl_nearer found none
  rw [← hfold] at hnone hsome
  constructor
  · exact hnone.trans (and_iff_right rfl)
  · intro least hleast
    obtain ⟨hmem, hle, -⟩ := hsome least hleast
    rcases hmem with hmem | hbest
    · exact ⟨hmem, hle⟩
    · cases hbest

/-- `find_sse_terminal` finds nothing exactly where no marker occurs. -/
theorem findSseTerminal_eq_none {bytes : List UInt8} :
    findSseTerminal bytes = none ↔ ∀ marker ∈ markers, ∀ i, ¬OccursAt marker.1 bytes i := by
  rw [(findSseTerminal_fold bytes).1, List.eq_nil_iff_forall_not_mem]
  constructor
  · rintro hnone ⟨pattern, t⟩ hmem
    apply (positionOf_eq_none (marker_ne_nil hmem)).mp
    cases hposition : positionOf pattern bytes with
    | none => rfl
    | some i => exact absurd (mem_found.mpr ⟨pattern, hmem, hposition⟩) (hnone (i, t))
  · rintro hnone ⟨i, t⟩ hmem
    obtain ⟨pattern, hmarker, hposition⟩ := mem_found.mp hmem
    have hoccurs := ((positionOf_eq_some (marker_ne_nil hmarker)).mp hposition).1
    exact hnone _ hmarker i hoccurs

/-- `find_sse_terminal` finds the first marker. -/
theorem findSseTerminal_eq_some {bytes : List UInt8} {i : Nat} {t : SseTerminal} :
    findSseTerminal bytes = some (i, t) ↔ FirstMarker bytes i t := by
  have hfirst : ∀ j u, findSseTerminal bytes = some (j, u) → FirstMarker bytes j u := by
    intro j u hfound
    obtain ⟨hmem, hle⟩ := (findSseTerminal_fold bytes).2 (j, u) hfound
    obtain ⟨pattern, hmarker, hposition⟩ := mem_found.mp hmem
    refine ⟨⟨pattern, hmarker, ((positionOf_eq_some (marker_ne_nil hmarker)).mp hposition).1⟩, ?_⟩
    intro marker hmem' k hk
    cases hposition' : positionOf marker.1 bytes with
    | none => exact absurd hk ((positionOf_eq_none (marker_ne_nil hmem')).mp hposition' k)
    | some l =>
      have hlk := ((positionOf_eq_some (marker_ne_nil hmem')).mp hposition').2 k hk
      have hjl := hle (l, marker.2) (mem_found.mpr ⟨marker.1, hmem', hposition'⟩)
      exact Nat.le_trans hjl hlk
  refine ⟨hfirst i t, ?_⟩
  intro h
  cases hfound : findSseTerminal bytes with
  | none =>
    obtain ⟨pattern, hmarker, hoccurs⟩ := h.occurs
    exact absurd hoccurs (findSseTerminal_eq_none.mp hfound _ hmarker i)
  | some least =>
    obtain ⟨hi, ht⟩ := (hfirst least.1 least.2 hfound).unique h
    rw [← hi, ← ht]

/-- More bytes leave the first marker where it is: no marker ends within another one. -/
theorem FirstMarker.append {bytes more : List UInt8} {i : Nat} {t : SseTerminal}
    (h : FirstMarker bytes i t) : FirstMarker (bytes ++ more) i t := by
  obtain ⟨pattern, hmarker, hoccurs⟩ := h.occurs
  refine ⟨⟨pattern, hmarker, hoccurs.append⟩, ?_⟩
  intro marker hmem j hj
  by_contra hlt
  have hend := hoccurs.length_le (marker_ne_nil hmarker)
  by_cases hbefore : j + marker.1.length ≤ bytes.length
  · exact hlt (h.first marker hmem j (hj.of_append hbefore))
  · -- The earlier marker ends behind the first one, which therefore lies within it.
    have hsplit : j + (i - j) = i := by omega
    have hpattern : OccursAt pattern (bytes ++ more) (j + (i - j)) := by
      rw [hsplit]
      exact hoccurs.append
    have hwithin : OccursAt pattern marker.1 (i - j) := hpattern.within hj (by omega)
    have hzero := (markers_apart hmem hmarker hwithin).1
    omega

/-- The first marker lies within the text. -/
theorem FirstMarker.le_length {bytes : List UInt8} {i : Nat} {t : SseTerminal}
    (h : FirstMarker bytes i t) : i ≤ bytes.length := by
  obtain ⟨pattern, hmarker, hoccurs⟩ := h.occurs
  have hend := hoccurs.length_le (marker_ne_nil hmarker)
  omega

/-- Where every marker stands moved by the same distance, so does the first. -/
theorem findSseTerminal_moved {bytes whole : List UInt8} {distance : Nat}
    (hmoved : ∀ marker ∈ markers, ∀ i, OccursAt marker.1 whole i ↔
      ∃ j, i = distance + j ∧ OccursAt marker.1 bytes j) :
    findSseTerminal whole =
      (findSseTerminal bytes).map fun found ↦ (distance + found.1, found.2) := by
  cases hfound : findSseTerminal bytes with
  | none =>
    rw [findSseTerminal_eq_none] at hfound
    rw [Option.map_none, findSseTerminal_eq_none]
    intro marker hmem i hi
    obtain ⟨j, -, hj⟩ := (hmoved marker hmem i).mp hi
    exact hfound marker hmem j hj
  | some found =>
    obtain ⟨⟨pattern, hmarker, hoccurs⟩, hfirst⟩ := findSseTerminal_eq_some.mp hfound
    rw [Option.map_some, findSseTerminal_eq_some]
    refine ⟨⟨pattern, hmarker, (hmoved _ hmarker _).mpr ⟨found.1, rfl, hoccurs⟩⟩, ?_⟩
    intro marker hmem i hi
    obtain ⟨j, rfl, hj⟩ := (hmoved marker hmem i).mp hi
    have hle := hfirst marker hmem j hj
    omega

/-- A marker behind a text without markers is found behind the carry. -/
theorem findSseTerminal_carry {bytes more : List UInt8} (h : findSseTerminal bytes = none) :
    findSseTerminal (bytes ++ more) =
      (findSseTerminal (lastItems 64 bytes ++ more)).map fun found ↦
        (bytes.length - 64 + found.1, found.2) := by
  rw [findSseTerminal_eq_none] at h
  apply findSseTerminal_moved
  intro marker hmem i
  have hlength := (markers_shape marker hmem).2.2
  exact occursAt_lastItems_append (by omega) (h marker hmem)

/-! ### Blank lines -/

/-- The two boundaries of `contains_sse_boundary`. -/
def boundaries : List (List UInt8) := [bytesOf "\n\n", bytesOf "\r\n\r\n"]

/-- Every boundary has two line feeds and fits the carry. -/
theorem boundaries_shape : ∀ boundary ∈ boundaries,
    boundary ≠ [] ∧ 2 ≤ boundary.count 10 ∧ boundary.length ≤ 4 := by
  decide +kernel

/-- `contains_sse_boundary` looks for a boundary. -/
theorem containsSseBoundary_iff {bytes : List UInt8} :
    containsSseBoundary bytes = true ↔ ∃ boundary ∈ boundaries, ∃ i, OccursAt boundary bytes i := by
  have hfound : ∀ boundary ∈ boundaries, (positionOf boundary bytes).isSome = true ↔
      ∃ i, OccursAt boundary bytes i := by
    intro boundary hmem
    have hne := (boundaries_shape boundary hmem).1
    constructor
    · intro h
      obtain ⟨i, hi⟩ := Option.isSome_iff_exists.mp h
      exact ⟨i, ((positionOf_eq_some hne).mp hi).1⟩
    · rintro ⟨i, hi⟩
      rw [Option.isSome_iff_ne_none]
      intro hnone
      exact (positionOf_eq_none hne).mp hnone i hi
  have hfeeds := hfound (bytesOf "\n\n") List.mem_cons_self
  have hreturns := hfound (bytesOf "\r\n\r\n") (List.mem_cons_of_mem _ List.mem_cons_self)
  unfold containsSseBoundary boundaries
  rw [Bool.or_eq_true, hfeeds, hreturns]
  simp

/-- A boundary behind a text without boundaries is found behind the carry. -/
theorem containsSseBoundary_carry {bytes more : List UInt8}
    (h : containsSseBoundary bytes = false) :
    containsSseBoundary (lastItems 3 bytes ++ more) = containsSseBoundary (bytes ++ more) := by
  have hnone : ∀ boundary ∈ boundaries, ∀ i, ¬OccursAt boundary bytes i := by
    intro boundary hmem i hi
    rw [containsSseBoundary_iff.mpr ⟨boundary, hmem, i, hi⟩] at h
    cases h
  rw [Bool.eq_iff_iff, containsSseBoundary_iff, containsSseBoundary_iff]
  apply exists_congr
  intro boundary
  apply and_congr_right
  intro hmem
  have hlength := (boundaries_shape boundary hmem).2.2
  have hmoved : ∀ i, _ := fun i ↦
    occursAt_lastItems_append (b := more) (i := i) (show boundary.length ≤ 3 + 1 by omega)
      (hnone boundary hmem)
  constructor
  · rintro ⟨j, hj⟩
    exact ⟨_, (hmoved _).mpr ⟨j, rfl, hj⟩⟩
  · rintro ⟨i, hi⟩
    obtain ⟨j, -, hj⟩ := (hmoved i).mp hi
    exact ⟨j, hj⟩

/-! ### Reports -/

namespace SseTerminalDetector

/-- What a fresh detector reports that is given the bytes at once. -/
def atOnce (bytes : List UInt8) : Option SseTerminal := (fresh.observe bytes).2

/-- The first report over the chunks, with the index of the chunk. -/
def firstReport (detector : SseTerminalDetector) : List (List UInt8) → Option (Nat × SseTerminal)
  | [] => none
  | chunk :: chunks =>
    match detector.observe chunk with
    | (_, some terminal) => some (0, terminal)
    | (next, none) => (next.firstReport chunks).map fun report ↦ (report.1 + 1, report.2)

/-- What is reported at once: the first marker, when a blank line follows. -/
theorem atOnce_eq (bytes : List UInt8) :
    atOnce bytes = (findSseTerminal bytes).bind fun found ↦
      if containsSseBoundary (bytes.drop found.1) then some found.2 else none := by
  unfold atOnce observe
  dsimp only [fresh]
  rw [List.nil_append]
  cases findSseTerminal bytes with
  | none => rfl
  | some found =>
    dsimp only [Option.bind_some]
    split <;> rfl

/-- The detector stands where the bytes leave a fresh one, without a report: it looks for a marker
behind the last 64 of them, or for a blank line behind the last 3 since the first marker. -/
def Tracks (detector : SseTerminalDetector) (bytes : List UInt8) : Prop :=
  match detector.pending with
  | none => findSseTerminal bytes = none ∧ detector.carry = lastItems 64 bytes
  | some terminal => ∃ i, findSseTerminal bytes = some (i, terminal) ∧
    containsSseBoundary (bytes.drop i) = false ∧ detector.carry = lastItems 3 (bytes.drop i)

/-- A fresh detector has seen nothing. -/
theorem tracks_fresh : fresh.Tracks [] := by
  refine ⟨findSseTerminal_eq_none.mpr ?_, rfl⟩
  intro marker hmem i hi
  exact marker_ne_nil hmem (List.prefix_nil.mp (by simpa [OccursAt] using hi))

/-- The next chunk gives the report of everything at once, or none and the detector stands where
everything leaves it. -/
theorem observe_tracks {detector : SseTerminalDetector} {bytes chunk : List UInt8}
    (h : detector.Tracks bytes) :
    (detector.observe chunk).2 = atOnce (bytes ++ chunk) ∧
      ((detector.observe chunk).2 = none → (detector.observe chunk).1.Tracks (bytes ++ chunk)) := by
  obtain ⟨carry, pending⟩ := detector
  rw [atOnce_eq]
  unfold observe
  cases pending with
  | some terminal =>
    obtain ⟨i, hfound, hopen, hcarry⟩ := h
    change carry = _ at hcarry
    have hmarker := findSseTerminal_eq_some.mp hfound
    have hlater : findSseTerminal (bytes ++ chunk) = some (i, terminal) :=
      findSseTerminal_eq_some.mpr hmarker.append
    have hdrop : (bytes ++ chunk).drop i = bytes.drop i ++ chunk :=
      List.drop_append_of_le_length hmarker.le_length
    dsimp only
    rw [hcarry, containsSseBoundary_carry hopen, hlater, Option.bind_some, hdrop]
    by_cases hends : containsSseBoundary (bytes.drop i ++ chunk) = true
    · rw [if_pos hends, if_pos hends]
      exact ⟨rfl, fun hnone ↦ by cases hnone⟩
    · rw [if_neg hends, if_neg hends]
      refine ⟨rfl, fun _ ↦ ⟨i, hlater, ?_, ?_⟩⟩
      · rw [hdrop]
        exact Bool.eq_false_iff.mpr hends
      · rw [hdrop]
        exact lastItems_append
  | none =>
    obtain ⟨hnone, hcarry⟩ := h
    change carry = _ at hcarry
    dsimp only
    rw [hcarry, findSseTerminal_carry hnone]
    cases hfound : findSseTerminal (lastItems 64 bytes ++ chunk) with
    | none =>
      have hlater : findSseTerminal (bytes ++ chunk) = none := by
        rw [findSseTerminal_carry hnone, hfound]
        rfl
      have htail : tailBytes (lastItems 64 bytes ++ chunk) 64 = lastItems 64 (bytes ++ chunk) :=
        lastItems_append
      dsimp only [Option.map_none, Option.bind_none]
      rw [htail]
      exact ⟨rfl, fun _ ↦ ⟨hlater, rfl⟩⟩
    | some found =>
      obtain ⟨i, terminal⟩ := found
      have hdrop : (bytes ++ chunk).drop (bytes.length - 64 + i) =
          (lastItems 64 bytes ++ chunk).drop i := by
        have hkept : (bytes ++ chunk).drop (bytes.length - 64) = lastItems 64 bytes ++ chunk :=
          List.drop_append_of_le_length (by omega)
        rw [← List.drop_drop, hkept]
      dsimp only [Option.map_some, Option.bind_some]
      rw [hdrop]
      by_cases hends : containsSseBoundary ((lastItems 64 bytes ++ chunk).drop i) = true
      · rw [if_pos hends, if_pos hends]
        exact ⟨rfl, fun hnone ↦ by cases hnone⟩
      · rw [if_neg hends, if_neg hends]
        refine ⟨rfl, fun _ ↦ ⟨bytes.length - 64 + i, ?_, ?_, ?_⟩⟩
        · rw [findSseTerminal_carry hnone, hfound]
          rfl
        · rw [hdrop]
          exact Bool.eq_false_iff.mpr hends
        · rw [hdrop]
          rfl

/-- The first report over the chunks is made where all chunks so far report at once, and none of
the shorter lists of chunks does. -/
theorem firstReport_iff {detector : SseTerminalDetector} {bytes : List UInt8}
    (h : detector.Tracks bytes) {chunks : List (List UInt8)} {k : Nat} {terminal : SseTerminal} :
    detector.firstReport chunks = some (k, terminal) ↔
      k < chunks.length ∧ atOnce (bytes ++ (chunks.take (k + 1)).flatten) = some terminal ∧
        ∀ j < k, atOnce (bytes ++ (chunks.take (j + 1)).flatten) = none := by
  induction chunks generalizing detector bytes k with
  | nil => simp [firstReport]
  | cons chunk chunks ih =>
    obtain ⟨hreport, hnext⟩ := @observe_tracks _ _ chunk h
    have hfirst : atOnce (bytes ++ ((chunk :: chunks).take (0 + 1)).flatten) =
        (detector.observe chunk).2 := by
      rw [hreport]
      simp
    have hrest : ∀ j, bytes ++ ((chunk :: chunks).take (j + 1)).flatten =
        (bytes ++ chunk) ++ (chunks.take j).flatten := by
      intro j
      simp
    rw [firstReport]
    cases hobserve : detector.observe chunk with
    | mk next result =>
      rw [hobserve] at hfirst hnext
      cases result with
      | some reported =>
        dsimp only at hfirst ⊢
        constructor
        · intro heq
          cases heq
          exact ⟨Nat.zero_lt_succ _, hfirst, fun j hj ↦ by omega⟩
        · rintro ⟨-, hat, hbefore⟩
          cases k with
          | zero =>
            rw [hfirst] at hat
            cases hat
            rfl
          | succ k =>
            rw [hbefore 0 (Nat.zero_lt_succ k)] at hfirst
            cases hfirst
      | none =>
        dsimp only at hfirst hnext ⊢
        cases k with
        | zero =>
          rw [hfirst]
          constructor
          · intro heq
            obtain ⟨report, -, hzero⟩ := Option.map_eq_some_iff.mp heq
            cases hzero
          · rintro ⟨-, hat, -⟩
            cases hat
        | succ k =>
          have hmap : (next.firstReport chunks).map (fun report ↦ (report.1 + 1, report.2)) =
              some (k + 1, terminal) ↔ next.firstReport chunks = some (k, terminal) := by
            simp [Option.map_eq_some_iff, Prod.ext_iff]
          rw [hmap, ih (hnext rfl), List.length_cons, Nat.add_lt_add_iff_right, hrest]
          apply and_congr_right
          intro _
          apply and_congr_right
          intro _
          constructor
          · intro hbefore j hj
            cases j with
            | zero => exact hfirst
            | succ j =>
              rw [hrest]
              exact hbefore j (by omega)
          · intro hbefore j hj
            rw [← hrest]
            exact hbefore (j + 1) (by omega)

end SseTerminalDetector

/-- **Terminal detection does not depend on chunking.** The first report is made at the first chunk
whose end completes a part of the stream that a fresh detector reports at once, with its class; and
where no such part is reported, no chunk is. -/
theorem detection_ignores_chunks (chunks : List (List UInt8)) :
    (∀ k terminal, SseTerminalDetector.fresh.firstReport chunks = some (k, terminal) ↔
      k < chunks.length ∧
      SseTerminalDetector.atOnce (chunks.take (k + 1)).flatten = some terminal ∧
      ∀ j < k, SseTerminalDetector.atOnce (chunks.take (j + 1)).flatten = none) ∧
    ((∀ part, part <+: chunks.flatten → SseTerminalDetector.atOnce part = none) →
      SseTerminalDetector.fresh.firstReport chunks = none) := by
  have hfirst := fun k terminal ↦
    @SseTerminalDetector.firstReport_iff _ [] SseTerminalDetector.tracks_fresh chunks k terminal
  refine ⟨hfirst, ?_⟩
  intro hnone
  cases hreport : SseTerminalDetector.fresh.firstReport chunks with
  | none => rfl
  | some report =>
    obtain ⟨k, terminal⟩ := report
    obtain ⟨-, hat, -⟩ := (hfirst k terminal).mp hreport
    have hpart : (chunks.take (k + 1)).flatten <+: chunks.flatten :=
      ⟨(chunks.drop (k + 1)).flatten, by rw [← List.flatten_append, List.take_append_drop]⟩
    rw [List.nil_append, hnone _ hpart] at hat
    cases hat

end CodexLb.Proxy
