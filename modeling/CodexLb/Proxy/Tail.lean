import CodexLb.Machine.Integer
import CodexLb.Machine.Slice
import CodexLb.Proxy.Capture
import CodexLb.Streaming.Ring

/-!
# The ring buffer of a capture

`TailCapture` with its slices, which panic beyond their bounds,
`src/proxy.rs:685–733`. No push does, and what the buffer holds, read from its
start and round, are the last bytes that were pushed.
-/

namespace CodexLb.Proxy

open Machine Streaming

/-! ### The code with its panics -/

namespace Executed

/-- The end of a push into a full buffer, `src/proxy.rs:715–721`. -/
def wrap (capture : TailCapture) (bytes : List UInt8) : Except SlicePanic TailCapture := do
  let room ← difference capture.capacity capture.start
  let first := min bytes.length room
  let head ← slice bytes 0 first
  let buffer ← copyFromSlice capture.buffer capture.start (capture.start + first) head
  let remaining ← difference bytes.length first
  let buffer ←
    if 0 < remaining then do
      let rest ← slice bytes first bytes.length
      copyFromSlice buffer 0 remaining rest
    else .ok buffer
  return { capture with
    buffer := buffer
    start := (capture.start + bytes.length) % capture.capacity }

/-- `TailCapture::push`, `src/proxy.rs:694–722`. -/
def push (capture : TailCapture) (bytes : List UInt8) : Except SlicePanic TailCapture :=
  if capture.capacity = 0 then .ok capture
  else if capture.capacity ≤ bytes.length then do
    let skipped ← difference bytes.length capture.capacity
    let tail ← slice bytes skipped bytes.length
    return { capture with buffer := tail, start := 0 }
  else if capture.buffer.length < capture.capacity then do
    let room ← difference capture.capacity capture.buffer.length
    let append := min bytes.length room
    let head ← slice bytes 0 append
    let rest ← slice bytes append bytes.length
    let grown := { capture with buffer := capture.buffer ++ head }
    if rest = [] then return grown else wrap grown rest
  else wrap capture bytes

/-- `TailCapture::to_vec`, `src/proxy.rs:724–732`. -/
def toVec (capture : TailCapture) : Except SlicePanic (List UInt8) :=
  if capture.buffer.length < capture.capacity ∨ capture.start = 0 then .ok capture.buffer
  else do
    let newer ← slice capture.buffer capture.start capture.buffer.length
    let older ← slice capture.buffer 0 capture.start
    return newer ++ older

end Executed

/-- Reading panics nowhere while the buffer starts within its bounds. -/
theorem executed_toVec {capture : TailCapture} (h : capture.start ≤ capture.buffer.length) :
    Executed.toVec capture = .ok capture.toVec := by
  unfold Executed.toVec TailCapture.toVec
  split
  · rfl
  · rw [slice_length h, slice_zero h]
    rfl

/-! ### What the buffer holds -/

variable {capture : TailCapture} {pushed bytes : List UInt8}

/-- The buffer, read from its start and round, holds the last bytes that were pushed; it starts at
zero until it is full. -/
structure HoldsTail (capture : TailCapture) (pushed : List UInt8) : Prop where
  content : capture.buffer.rotate capture.start = lastItems capture.capacity pushed
  start : capture.start = 0 ∨
    capture.start < capture.capacity ∧ capture.buffer.length = capture.capacity

namespace HoldsTail

/-- A fresh buffer holds nothing. -/
theorem new (capacity : Nat) : HoldsTail (.new capacity) [] := by
  constructor
  · simp [TailCapture.new, lastItems]
  · exact .inl rfl

/-- The number of bytes in the buffer. -/
theorem length (h : HoldsTail capture pushed) :
    capture.buffer.length = min capture.capacity pushed.length := by
  rw [← length_lastItems, ← h.content, List.length_rotate]

/-- The start is within the buffer. -/
theorem start_le (h : HoldsTail capture pushed) : capture.start ≤ capture.buffer.length := by
  rcases h.start with hzero | ⟨hlt, hfull⟩
  · omega
  · omega

/-- While it is not full, the buffer starts at zero. -/
theorem start_eq_zero (h : HoldsTail capture pushed)
    (hroom : capture.buffer.length < capture.capacity) : capture.start = 0 := by
  rcases h.start with hzero | ⟨-, hfull⟩
  · exact hzero
  · omega

/-- What is read from the buffer are the last bytes. -/
theorem toVec_eq (h : HoldsTail capture pushed) :
    capture.toVec = lastItems capture.capacity pushed := by
  have hcontent := h.content
  rw [List.rotate_eq_drop_append_take h.start_le] at hcontent
  unfold TailCapture.toVec
  split
  · next hplain =>
    have hzero : capture.start = 0 := hplain.elim h.start_eq_zero id
    rw [hzero, List.drop_zero, List.take_zero, List.append_nil] at hcontent
    exact hcontent
  · exact hcontent

end HoldsTail

/-! ### Pushes -/

/-- A copy into a buffer that has room for it does not panic. -/
theorem copyFromSlice_overwrite {buffer : List UInt8} {start stop : Nat}
    (hlength : start + bytes.length = stop) (h : stop ≤ buffer.length) :
    copyFromSlice buffer start stop bytes = .ok (TailCapture.overwrite buffer start bytes) := by
  rw [copyFromSlice_of_length hlength h, TailCapture.overwrite, hlength]

/-- A copy into a buffer keeps its length. -/
theorem length_overwrite (buffer bytes : List UInt8) (start : Nat)
    (h : start + bytes.length ≤ buffer.length) :
    (TailCapture.overwrite buffer start bytes).length = buffer.length := by
  simp only [TailCapture.overwrite, List.length_append, List.length_take, List.length_drop]
  omega

/-- The end of a push panics nowhere while the buffer is full. -/
theorem executed_wrap (hfull : capture.buffer.length = capture.capacity)
    (hstart : capture.start ≤ capture.capacity) (hlt : bytes.length < capture.capacity) :
    Executed.wrap capture bytes = .ok (capture.wrap bytes) := by
  unfold Executed.wrap TailCapture.wrap
  rw [difference_of_le hstart, ok_bind]
  dsimp only
  generalize hfirst : min bytes.length (capture.capacity - capture.start) = first
  have hle : first ≤ bytes.length := by omega
  have hhead : (bytes.take first).length = first := List.length_take_of_le hle
  have hrest : (bytes.drop first).length = bytes.length - first := List.length_drop
  have hbuffer := length_overwrite capture.buffer (bytes.take first) capture.start (by omega)
  rw [slice_zero hle, ok_bind, copyFromSlice_overwrite (by omega) (by omega), ok_bind,
    difference_of_le hle, ok_bind]
  split
  · rw [slice_length hle, ok_bind, copyFromSlice_overwrite (by omega) (by omega)]
    rfl
  · have hnone : bytes.drop first = [] := List.length_eq_zero_iff.mp (by omega)
    rw [hnone]
    simp [TailCapture.overwrite]

/-- A full buffer after the end of a push. -/
theorem length_wrap (hfull : capture.buffer.length = capture.capacity)
    (hstart : capture.start ≤ capture.capacity) (hlt : bytes.length < capture.capacity) :
    (capture.wrap bytes).buffer.length = capture.capacity := by
  unfold TailCapture.wrap
  dsimp only
  generalize hfirst : min bytes.length (capture.capacity - capture.start) = first
  have hhead : (bytes.take first).length = first := List.length_take_of_le (by omega)
  have hrest : (bytes.drop first).length = bytes.length - first := List.length_drop
  have hbuffer := length_overwrite capture.buffer (bytes.take first) capture.start (by omega)
  rw [length_overwrite _ _ 0 (by omega), hbuffer, hfull]

/-- Read from behind the new bytes and round, a full buffer has lost as many of the oldest. -/
theorem rotate_wrap (hfull : capture.buffer.length = capture.capacity)
    (hstart : capture.start ≤ capture.capacity) (hlt : bytes.length < capture.capacity) :
    (capture.wrap bytes).buffer.rotate (capture.start + bytes.length) =
      (capture.buffer.rotate capture.start).drop bytes.length ++ bytes := by
  have hlength := length_wrap hfull hstart hlt
  by_cases hend : bytes.length ≤ capture.capacity - capture.start
  · -- the new bytes end before the end of the buffer
    rw [← rotate_written (by omega)]
    simp [TailCapture.wrap, TailCapture.overwrite, Nat.min_eq_left hend]
  · -- they go on at its start
    have hfirst : (bytes.take (capture.capacity - capture.start)).length =
        capture.capacity - capture.start :=
      List.length_take_of_le (by omega)
    have hrest : (bytes.drop (capture.capacity - capture.start)).length =
        bytes.length - (capture.capacity - capture.start) := List.length_drop
    have hbuffer : (capture.wrap bytes).buffer =
        bytes.drop (capture.capacity - capture.start) ++ (capture.buffer.take capture.start ++
          bytes.take (capture.capacity - capture.start)).drop
            (bytes.drop (capture.capacity - capture.start)).length := by
      have hnone : capture.buffer.drop (capture.start + (capture.capacity - capture.start)) = [] :=
        List.drop_of_length_le (by omega)
      unfold TailCapture.wrap
      dsimp only
      rw [Nat.min_eq_right (by omega)]
      simp only [TailCapture.overwrite, hfirst, hnone, List.take_zero, List.nil_append,
        Nat.zero_add, List.append_nil]
    have hround : capture.start + bytes.length = (capture.wrap bytes).buffer.length +
        (bytes.drop (capture.capacity - capture.start)).length := by
      omega
    have hbytes : (bytes.take (capture.capacity - capture.start)).length +
        (bytes.drop (capture.capacity - capture.start)).length = bytes.length := by
      omega
    rw [hround, ← List.rotate_rotate, List.rotate_length, hbuffer,
      rotate_wrapped (by omega) (by omega), hbytes, List.take_append_drop]

/-- Bytes that are pushed into a full buffer take the places of the oldest. -/
theorem HoldsTail.wrap (h : HoldsTail capture pushed)
    (hfull : capture.buffer.length = capture.capacity) (hlt : bytes.length < capture.capacity) :
    HoldsTail (capture.wrap bytes) (pushed ++ bytes) := by
  have hstart : capture.start ≤ capture.capacity := hfull ▸ h.start_le
  have hlength := length_wrap hfull hstart hlt
  have hlast : (lastItems capture.capacity pushed).length = capture.capacity := by
    rw [← h.content, List.length_rotate, hfull]
  constructor
  · calc (capture.wrap bytes).buffer.rotate ((capture.start + bytes.length) % capture.capacity)
        = (capture.wrap bytes).buffer.rotate (capture.start + bytes.length) :=
          rotate_mod_of_length hlength _
      _ = (lastItems capture.capacity pushed).drop bytes.length ++ bytes := by
          rw [rotate_wrap hfull hstart hlt, h.content]
      _ = lastItems capture.capacity (pushed ++ bytes) :=
          (lastItems_append_of_length_eq hlast (by omega)).symm
  · right
    exact ⟨Nat.mod_lt _ (by omega), hlength⟩

/-- While it is not full, the buffer is what was pushed. -/
theorem HoldsTail.buffer_eq (h : HoldsTail capture pushed)
    (hroom : capture.buffer.length < capture.capacity) :
    capture.start = 0 ∧ capture.buffer = pushed := by
  have hzero := h.start_eq_zero hroom
  have hlength := h.length
  have hcontent := h.content
  rw [hzero, List.rotate_zero, lastItems_of_length_le (by omega)] at hcontent
  exact ⟨hzero, hcontent⟩

/-- Bytes for which there is room are put behind the others. -/
theorem HoldsTail.grow (h : HoldsTail capture pushed)
    (hroom : capture.buffer.length < capture.capacity)
    (hbytes : capture.buffer.length + bytes.length ≤ capture.capacity) :
    HoldsTail { capture with buffer := capture.buffer ++ bytes } (pushed ++ bytes) := by
  obtain ⟨hzero, hbuffer⟩ := h.buffer_eq hroom
  constructor
  · dsimp only
    rw [hzero, List.rotate_zero, hbuffer, lastItems_of_length_le]
    rw [← hbuffer, List.length_append]
    exact hbytes
  · exact .inl hzero

/-- A push panics nowhere, and the buffer then holds the last bytes with the new ones. -/
theorem HoldsTail.push (h : HoldsTail capture pushed) (bytes : List UInt8) :
    Executed.push capture bytes = .ok (capture.push bytes) ∧
      (capture.push bytes).capacity = capture.capacity ∧
        HoldsTail (capture.push bytes) (pushed ++ bytes) := by
  unfold Executed.push TailCapture.push
  by_cases hzero : capture.capacity = 0
  · rw [if_pos hzero, if_pos hzero]
    refine ⟨rfl, rfl, ?_, h.start⟩
    have hnone : ∀ l : List UInt8, lastItems capture.capacity l = [] := by
      intro l
      rw [hzero, lastItems, Nat.sub_zero, List.drop_length]
    rw [h.content, hnone, hnone]
  rw [if_neg hzero, if_neg hzero]
  by_cases hlong : capture.capacity ≤ bytes.length
  · rw [if_pos hlong, if_pos hlong, difference_of_le hlong, ok_bind, slice_length (by omega)]
    refine ⟨rfl, rfl, ?_, .inl rfl⟩
    rw [List.rotate_zero, lastItems_append_of_le hlong]
    rfl
  rw [if_neg hlong, if_neg hlong]
  have hcontent := h.content
  have hlength := h.length
  by_cases hroom : capture.buffer.length < capture.capacity
  · rw [if_pos hroom, if_pos hroom, difference_of_le (Nat.le_of_lt hroom), ok_bind]
    dsimp only
    generalize happend : min bytes.length (capture.capacity - capture.buffer.length) = append
    have hhead : (bytes.take append).length = append := List.length_take_of_le (by omega)
    have hgrown : HoldsTail _ (pushed ++ bytes.take append) := h.grow hroom (by omega)
    rw [slice_zero (by omega), ok_bind, slice_length (by omega), ok_bind]
    split
    · next hall =>
      have hbytes := List.take_append_drop append bytes
      rw [hall, List.append_nil] at hbytes
      rw [hbytes] at hgrown ⊢
      exact ⟨rfl, rfl, hgrown⟩
    · next hrest =>
      -- the buffer is full now, and the rest wraps around
      have hmore : append < bytes.length := by
        by_contra hall
        exact hrest (List.drop_of_length_le (by omega))
      have hfull : (capture.buffer ++ bytes.take append).length = capture.capacity := by
        rw [List.length_append]
        omega
      have hshort : (bytes.drop append).length < capture.capacity := by
        rw [List.length_drop]
        omega
      have hwrapped := hgrown.wrap hfull hshort
      rw [List.append_assoc, List.take_append_drop] at hwrapped
      exact ⟨executed_wrap hfull (hfull ▸ hgrown.start_le) hshort, rfl, hwrapped⟩
  · rw [if_neg hroom, if_neg hroom]
    have hfull : capture.buffer.length = capture.capacity := by omega
    exact ⟨executed_wrap hfull (hfull ▸ h.start_le) (by omega), rfl, h.wrap hfull (by omega)⟩

/-- Pushes panic nowhere, and the buffer then holds the last bytes of all slices. -/
theorem HoldsTail.pushAll (h : HoldsTail capture pushed) (pushes : List (List UInt8)) :
    pushes.foldlM Executed.push capture = .ok (pushes.foldl TailCapture.push capture) ∧
      (pushes.foldl TailCapture.push capture).capacity = capture.capacity ∧
        HoldsTail (pushes.foldl TailCapture.push capture) (pushed ++ pushes.flatten) := by
  induction pushes generalizing capture pushed with
  | nil => exact ⟨rfl, rfl, by simpa using h⟩
  | cons bytes pushes ih =>
    obtain ⟨hpush, hcapacity, hholds⟩ := h.push bytes
    obtain ⟨hpushes, hcapacity', hholds'⟩ := ih hholds
    rw [List.foldlM_cons, hpush, ok_bind, List.foldl_cons, List.flatten_cons, ← List.append_assoc]
    exact ⟨hpushes, hcapacity'.trans hcapacity, hholds'⟩

/-- **The capture is the tail of the stream.** Whatever slices are pushed into a fresh capture, no
push and no read panics, and what is read are the last bytes of the stream, as many as fit. -/
theorem capture_is_tail (capacity : Nat) (pushes : List (List UInt8)) :
    ∃ capture tail, pushes.foldlM Executed.push (.new capacity) = .ok capture ∧
      Executed.toVec capture = .ok tail ∧ tail <:+ pushes.flatten ∧
        tail.length = min capacity pushes.flatten.length := by
  obtain ⟨hpushes, hcapacity, hholds⟩ := (HoldsTail.new capacity).pushAll pushes
  have hread := hholds.toVec_eq
  rw [hcapacity, List.nil_append] at hread
  refine ⟨_, _, hpushes, executed_toVec hholds.start_le, ?_⟩
  rw [hread]
  exact ⟨lastItems_suffix _ _, length_lastItems _ _⟩

/-- A capture of four bytes after three slices, the last of which wraps around. -/
example : ((Executed.push (.new 4) [1, 2, 3]).bind fun capture ↦
    (Executed.push capture [4, 5]).bind fun capture ↦
      (Executed.push capture [6, 7, 8]).bind Executed.toVec) = .ok [5, 6, 7, 8] := by
  rfl

end CodexLb.Proxy
