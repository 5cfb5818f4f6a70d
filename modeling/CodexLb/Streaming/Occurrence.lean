import Mathlib.Data.List.Basic

/-!
# Occurrences in a stream

Where a pattern occurs in a list that arrives piece by piece. What has
arrived keeps its occurrences; a new one ends in the new piece, so that the
last items of the old pieces, as many as the pattern has less one, are enough
to find it. A pattern without a separator does not cross one.
-/

namespace Streaming

variable {α : Type} {p q a b l : List α} {i j n : Nat} {x : α}

/-- The pattern is what the list has from an index on. -/
def OccursAt (p l : List α) (i : Nat) : Prop := p <+: l.drop i

instance [DecidableEq α] : Decidable (OccursAt p l i) :=
  inferInstanceAs (Decidable (p <+: l.drop i))

/-- An occurrence item by item. -/
theorem occursAt_iff : OccursAt p l i ↔ ∀ k, k < p.length → l[i + k]? = p[k]? := by
  unfold OccursAt
  rw [List.prefix_iff_getElem?]
  constructor
  · intro h k hk
    rw [← List.getElem?_drop, h k hk, List.getElem?_eq_getElem hk]
  · intro h k hk
    rw [List.getElem?_drop, h k hk, List.getElem?_eq_getElem hk]

/-- Nothing but the empty pattern occurs beyond the end. -/
theorem OccursAt.length_le (h : OccursAt p l i) (hp : p ≠ []) : i + p.length ≤ l.length := by
  have hpos := List.length_pos_of_ne_nil hp
  have hle := List.IsPrefix.length_le h
  rw [List.length_drop] at hle
  omega

/-- A pattern occurs in a list that is no longer than it only if it is the list. -/
theorem OccursAt.eq_of_length_le (h : OccursAt p l i) (hp : p ≠ [])
    (hle : l.length ≤ p.length) : p = l := by
  have hend := h.length_le hp
  obtain rfl : i = 0 := by omega
  exact List.IsPrefix.eq_of_length_le h hle

/-- What has arrived keeps its occurrences. -/
theorem OccursAt.append (h : OccursAt p a i) : OccursAt p (a ++ b) i := by
  rw [occursAt_iff] at h ⊢
  intro k hk
  have hitem := h k hk
  rw [List.getElem?_eq_getElem hk] at hitem ⊢
  rw [List.getElem?_append_left (List.getElem?_eq_some_iff.mp hitem).1, hitem]

/-- An occurrence that ends in what has arrived was there before. -/
theorem OccursAt.of_append (h : OccursAt p (a ++ b) i) (hle : i + p.length ≤ a.length) :
    OccursAt p a i := by
  rw [occursAt_iff] at h ⊢
  intro k hk
  rw [← h k hk, List.getElem?_append_left (by omega)]

/-- An occurrence in the rest of a list. -/
theorem occursAt_drop : OccursAt p (l.drop n) i ↔ OccursAt p l (n + i) := by
  unfold OccursAt
  rw [List.drop_drop]

/-- An occurrence behind the first piece. -/
theorem occursAt_append_right : OccursAt p (a ++ b) (a.length + i) ↔ OccursAt p b i := by
  rw [← occursAt_drop, List.drop_left]

/-- One pattern occurs within another that occurs around it. -/
theorem OccursAt.within (hp : OccursAt p l (i + n)) (hq : OccursAt q l i)
    (hle : n + p.length ≤ q.length) : OccursAt p q n := by
  rw [occursAt_iff] at hp hq ⊢
  intro k hk
  rw [← hp k hk, ← hq (n + k) (by omega), Nat.add_assoc]

/-- No pattern occurs where its first item does not. -/
theorem OccursAt.head_mem (h : OccursAt (x :: p) (a ++ b) i) (hi : i < a.length) : x ∈ a := by
  have hitem := occursAt_iff.mp h 0 (Nat.zero_lt_succ _)
  rw [Nat.add_zero, List.getElem?_append_left hi] at hitem
  exact List.mem_of_getElem? hitem

/-- A pattern without the separator lies on one side of it. -/
theorem occursAt_append_cons (hx : x ∉ p) :
    OccursAt p (a ++ x :: b) i ↔
      OccursAt p a i ∨ ∃ j, i = a.length + 1 + j ∧ OccursAt p b j := by
  have hlength : (a ++ [x]).length = a.length + 1 := by simp
  have hsplit : a ++ x :: b = (a ++ [x]) ++ b := by simp
  constructor
  · intro h
    by_cases hbehind : a.length + 1 ≤ i
    · obtain ⟨j, rfl⟩ := Nat.exists_eq_add_of_le hbehind
      rw [hsplit, ← hlength, occursAt_append_right] at h
      exact .inr ⟨j, rfl, h⟩
    · by_cases hbefore : i + p.length ≤ a.length
      · exact .inl (h.of_append hbefore)
      · -- The separator is one of the items of the occurrence.
        have hitem := occursAt_iff.mp h (a.length - i) (by omega)
        rw [show i + (a.length - i) = a.length by omega, List.getElem?_append_right (Nat.le_refl _),
          Nat.sub_self] at hitem
        exact absurd (List.mem_of_getElem? hitem.symm) hx
  · rintro (h | ⟨j, rfl, h⟩)
    · exact h.append
    · rw [hsplit, ← hlength, occursAt_append_right]
      exact h

/-- A pattern without the separator occurs if it does on one of its sides. -/
theorem exists_occursAt_append_cons (hx : x ∉ p) :
    (∃ i, OccursAt p (a ++ x :: b) i) ↔ (∃ i, OccursAt p a i) ∨ ∃ i, OccursAt p b i := by
  constructor
  · rintro ⟨i, h⟩
    rcases (occursAt_append_cons hx).mp h with h | ⟨j, -, h⟩
    · exact .inl ⟨i, h⟩
    · exact .inr ⟨j, h⟩
  · rintro (⟨i, h⟩ | ⟨j, h⟩)
    · exact ⟨i, h.append⟩
    · exact ⟨a.length + 1 + j, (occursAt_append_cons hx).mpr (.inr ⟨j, rfl, h⟩)⟩

/-- A pattern occurs only in lists that have its first item. -/
theorem OccursAt.mem (h : OccursAt (x :: p) l i) : x ∈ l := by
  have hlt : i < l.length := by
    have hle := h.length_le (List.cons_ne_nil x p)
    simp only [List.length_cons] at hle
    omega
  have hitem := occursAt_iff.mp h 0 (Nat.zero_lt_succ _)
  exact List.mem_of_getElem? hitem

/-- A pattern that occurs is a part of the list. -/
theorem OccursAt.isInfix (h : OccursAt p l i) : p <:+: l :=
  List.IsInfix.trans (List.IsPrefix.isInfix h) (List.drop_suffix i l).isInfix

/-- A pattern has no item more often than a list in which it occurs. -/
theorem OccursAt.count_le [DecidableEq α] (h : OccursAt p l i) : p.count x ≤ l.count x :=
  (h.sublist.trans (List.drop_sublist i l)).count_le x

/-! ### The last items -/

/-- The last items of a list, at most as many as given. -/
def lastItems (n : Nat) (l : List α) : List α := l.drop (l.length - n)

/-- The last items of two pieces are those of the last items of the first and the second. -/
theorem lastItems_append : lastItems n (lastItems n a ++ b) = lastItems n (a ++ b) := by
  unfold lastItems
  rw [← List.drop_append_of_le_length (by omega), List.drop_drop]
  congr 1
  simp only [List.length_drop, List.length_append]
  omega

/-- Where a pattern that no old piece has occurs, found behind the last items. -/
theorem occursAt_lastItems_append (hn : p.length ≤ n + 1) (hnew : ∀ i, ¬OccursAt p a i) :
    OccursAt p (a ++ b) i ↔
      ∃ j, i = a.length - n + j ∧ OccursAt p (lastItems n a ++ b) j := by
  have hsplit : lastItems n a ++ b = (a ++ b).drop (a.length - n) :=
    (List.drop_append_of_le_length (by omega)).symm
  simp only [hsplit, occursAt_drop]
  constructor
  · intro h
    have hend : a.length < i + p.length := by
      by_contra hle
      exact hnew i (h.of_append (by omega))
    refine ⟨i - (a.length - n), by omega, ?_⟩
    rw [show a.length - n + (i - (a.length - n)) = i by omega]
    exact h
  · rintro ⟨j, rfl, h⟩
    exact h

end Streaming
