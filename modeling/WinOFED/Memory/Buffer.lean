import Mathlib

/-! Bounds-checked copies in and out of flat buffers.

A buffer is the list of its cells. A copy whose range leaves the buffer has no
result: `none` is the memory fault, so "every copy stays inside its buffer" is
the statement that an operation built from these copies returns `some`. -/
namespace WinOFED.Memory
open List
variable {α : Type*}

/-- The `length` cells of `buffer` from `offset` on. -/
def read (buffer : List α) (offset length : Nat) : Option (List α) :=
  if offset + length ≤ buffer.length then some ((buffer.drop offset).take length) else none

/-- `buffer` with `cells` copied over the range that starts at `offset`. -/
def write (buffer : List α) (offset : Nat) (cells : List α) : Option (List α) :=
  if offset + cells.length ≤ buffer.length then
    some (buffer.take offset ++ cells ++ buffer.drop (offset + cells.length))
  else none

variable {offset : Nat} {buffer cells : List α}

theorem read_eq_some {length : Nat} (bounded : offset + length ≤ buffer.length) :
    read buffer offset length = some ((buffer.drop offset).take length) := by
  simp [read, bounded]

theorem write_eq_some (bounded : offset + cells.length ≤ buffer.length) :
    write buffer offset cells =
      some (buffer.take offset ++ cells ++ buffer.drop (offset + cells.length)) := by
  simp [write, bounded]

theorem length_of_read {length : Nat} (copied : read buffer offset length = some cells) :
    cells.length = length := by
  obtain ⟨bounded, ⟨⟩⟩ := Option.ite_none_right_eq_some.mp copied
  simp only [length_take, length_drop]
  omega

/-- A copy never changes the size of the buffer it writes. -/
theorem length_of_write {result : List α} (written : write buffer offset cells = some result) :
    result.length = buffer.length := by
  obtain ⟨bounded, ⟨⟩⟩ := Option.ite_none_right_eq_some.mp written
  simp only [length_append, length_take, length_drop]
  omega

/-- After a copy the buffer up to the end of the copied range is what preceded
the range followed by the copied cells. -/
theorem take_of_write {result : List α} (written : write buffer offset cells = some result) :
    result.take (offset + cells.length) = buffer.take offset ++ cells := by
  obtain ⟨bounded, ⟨⟩⟩ := Option.ite_none_right_eq_some.mp written
  have ends : (buffer.take offset ++ cells).length = offset + cells.length := by
    simp only [length_append, length_take]
    omega
  rw [← ends, take_left]

/-- A range of a buffer that is cut at `size` and padded: the part inside the cut,
then padding. -/
theorem take_drop_padded (buffer : List α) (size offset length : Nat) (pad : α)
    (cut : size ≤ buffer.length) (start : offset ≤ size) :
    ((buffer.take size ++ List.replicate length pad).drop offset).take length =
      (buffer.drop offset).take (min (size - offset) length) ++
        List.replicate (length - min (size - offset) length) pad := by
  have cutLength : (buffer.take size).length = size := by simp [cut]
  rw [drop_append_of_le_length (by omega), take_append, take_replicate, drop_take, take_take]
  congr 2
  · omega
  · simp only [length_take, length_drop]
    omega

end WinOFED.Memory
