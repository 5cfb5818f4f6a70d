import CodexLb.Streaming.Occurrence
import Mathlib.Data.List.Rotate

/-!
# Rings

A ring is a list that is read from some index on and round to it. New items
that are written from that index on, and round again from the start, take the
places of the oldest ones.
-/

namespace Streaming

variable {α : Type} {ring items first rest : List α} {n start : Nat}

/-- A ring that is rotated by more than its length is rotated by the rest. -/
theorem rotate_mod_of_length (h : ring.length = n) (k : Nat) :
    ring.rotate (k % n) = ring.rotate k := by
  rw [← h, List.rotate_mod]

/-- Items written up to the end of a ring take the places of the oldest. -/
theorem rotate_written (h : start + items.length ≤ ring.length) :
    (ring.take start ++ items ++ ring.drop (start + items.length)).rotate
        (start + items.length) =
      (ring.rotate start).drop items.length ++ items := by
  have hstart : (ring.take start ++ items).length = start + items.length := by
    rw [List.length_append, List.length_take]
    omega
  have hold : items.length ≤ (ring.drop start).length := by
    rw [List.length_drop]
    omega
  rw [← hstart, List.rotate_append_length_eq, hstart,
    List.rotate_eq_drop_append_take (by omega), List.drop_append_of_le_length hold, List.drop_drop,
    List.append_assoc]

/-- Items written to the end of a ring and on from its start take the places of the oldest. -/
theorem rotate_wrapped (hfirst : start + first.length = ring.length) (hrest : rest.length ≤ start) :
    (rest ++ (ring.take start ++ first).drop rest.length).rotate rest.length =
      (ring.rotate start).drop (first.length + rest.length) ++ (first ++ rest) := by
  have htake : (ring.take start).length = start := by
    rw [List.length_take]
    omega
  have hdrop : (ring.drop start).length = first.length := by
    rw [List.length_drop]
    omega
  rw [List.rotate_append_length_eq, List.rotate_eq_drop_append_take (by omega),
    List.drop_append_of_le_length (by omega), ← List.drop_drop, ← hdrop, List.drop_left,
    List.append_assoc]

/-! ### The last items -/

/-- The last items of a list, in number. -/
theorem length_lastItems (n : Nat) (l : List α) : (lastItems n l).length = min n l.length := by
  rw [lastItems, List.length_drop]
  omega

/-- The last items are an end of the list. -/
theorem lastItems_suffix (n : Nat) (l : List α) : lastItems n l <:+ l := List.drop_suffix _ _

/-- A list that is no longer than asked for is its last items. -/
theorem lastItems_of_length_le {l : List α} (h : l.length ≤ n) : lastItems n l = l := by
  rw [lastItems, Nat.sub_eq_zero_of_le h, List.drop_zero]

/-- The last items of two pieces are those of a long second one. -/
theorem lastItems_append_of_le {a b : List α} (h : n ≤ b.length) :
    lastItems n (a ++ b) = lastItems n b := by
  have hlength : (a ++ b).length - n = a.length + (b.length - n) := by
    rw [List.length_append]
    omega
  rw [lastItems, hlength, ← List.drop_drop, List.drop_left]
  rfl

/-- As many new items as are written take the places of the oldest of the last items. -/
theorem lastItems_append_of_length_eq {a b : List α} (ha : (lastItems n a).length = n)
    (hb : b.length ≤ n) : lastItems n (a ++ b) = (lastItems n a).drop b.length ++ b := by
  rw [← lastItems_append, lastItems, List.length_append, ha, Nat.add_sub_cancel_left,
    List.drop_append_of_le_length (by omega)]

end Streaming
