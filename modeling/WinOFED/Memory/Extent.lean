import Mathlib

/-! Sizes and extents of memory blocks.

Sizes are computed in 64-bit words: every sum or product is taken modulo `2 ^ 64`, and what a
computation means in unbounded numbers is recovered where it stays below that. -/
namespace WinOFED.Memory

/-- The value of an unsigned 64-bit computation. -/
def wrap (value : Nat) : Nat := value % 2 ^ 64

theorem wrap_of_lt {value : Nat} (fits : value < 2 ^ 64) : wrap value = value := Nat.mod_eq_of_lt fits

/-- The least multiple of `grain` that is not below `value`. -/
def roundUp (value grain : Nat) : Nat :=
  if value % grain = 0 then value else value + (grain - value % grain)

theorem le_roundUp (value grain : Nat) : value ≤ roundUp value grain := by
  unfold roundUp
  split
  · exact Nat.le_refl _
  · exact Nat.le_add_right ..

/-- A block of consecutive bytes. -/
structure Extent where
  base : Nat
  length : Nat
  deriving DecidableEq, Repr

namespace Extent

/-- The address is one of the block's bytes. -/
def Has (extent : Extent) (address : Nat) : Prop :=
  extent.base ≤ address ∧ address < extent.base + extent.length

instance (extent : Extent) (address : Nat) : Decidable (extent.Has address) := by
  unfold Has
  infer_instance

/-- No byte belongs to both blocks. -/
def Apart (first second : Extent) : Prop := ∀ address, first.Has address → ¬ second.Has address

/-- Every byte of the inner block belongs to the outer one. -/
def Inside (inner outer : Extent) : Prop := ∀ address, inner.Has address → outer.Has address

variable {first second outer inner : Extent}

theorem Apart.symm (apart : first.Apart second) : second.Apart first :=
  fun address inSecond inFirst => apart address inFirst inSecond

theorem Apart.inside (apart : first.Apart second) (left : inner.Inside first)
    (right : outer.Inside second) : inner.Apart outer :=
  fun address inInner inOuter => apart address (left address inInner) (right address inOuter)

theorem inside_of_le (low : outer.base ≤ inner.base)
    (high : inner.base + inner.length ≤ outer.base + outer.length) : inner.Inside outer := by
  intro address has
  simp only [Has] at has ⊢
  omega

theorem apart_of_le (before : first.base + first.length ≤ second.base) : first.Apart second := by
  intro address has
  simp only [Has] at has ⊢
  omega

/-- A block of positive length that lies in another one ends no later. -/
theorem Inside.end_le (inside : inner.Inside outer) (nonempty : 0 < inner.length) :
    inner.base + inner.length ≤ outer.base + outer.length := by
  have last := inside (inner.base + inner.length - 1) (by simp only [Has]; omega)
  simp only [Has] at last
  omega

theorem apart_iff :
    first.Apart second ↔
    first.length = 0 ∨ second.length = 0 ∨ first.base + first.length ≤ second.base ∨
      second.base + second.length ≤ first.base := by
  constructor
  · intro apart
    have low := apart first.base
    have high := apart second.base
    simp only [Has] at low high
    omega
  · intro cases address inFirst inSecond
    simp only [Has] at inFirst inSecond
    omega

instance (first second : Extent) : Decidable (first.Apart second) := decidable_of_iff _ apart_iff.symm

/-- Blocks of positive length that share no byte start at different addresses. -/
theorem Apart.base_ne (apart : first.Apart second) (left : 0 < first.length)
    (right : 0 < second.length) : first.base ≠ second.base := by
  have := apart_iff.mp apart
  omega

/-- The block of the element with number `index` in a row of elements of one length. -/
def slot (base length index : Nat) : Extent := ⟨base + index * length, length⟩

theorem slot_apart {base length first second : Nat} (different : first ≠ second) :
    (slot base length first).Apart (slot base length second) := by
  rcases Nat.lt_or_gt_of_ne different with before | after
  · apply apart_of_le
    simp only [slot]
    have := Nat.mul_le_mul_right length (Nat.succ_le_of_lt before)
    rw [Nat.succ_mul] at this
    omega
  · apply Apart.symm
    apply apart_of_le
    simp only [slot]
    have := Nat.mul_le_mul_right length (Nat.succ_le_of_lt after)
    rw [Nat.succ_mul] at this
    omega

theorem slot_inside {base length index count : Nat} (within : index < count)
    (low : outer.base ≤ base) (high : base + count * length ≤ outer.base + outer.length) :
    (slot base length index).Inside outer := by
  apply inside_of_le
  · exact Nat.le_trans low (Nat.le_add_right ..)
  · simp only [slot]
    have := Nat.mul_le_mul_right length (Nat.succ_le_of_lt within)
    rw [Nat.succ_mul] at this
    omega

end Extent
end WinOFED.Memory
