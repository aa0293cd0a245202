import Mathlib

/-! Tables of bits kept in words of 32 bits. -/
namespace WinOFED.Memory

variable (table : List (BitVec 32))

/-- The bit with a number: a bit of the word with the number divided by 32. -/
def testBit (bit : Nat) : Bool :=
  (table.getD (bit / 32) 0#32).getLsbD (bit % 32)

/-- The word with the bit's own mask or-ed into it. -/
def setBit (bit : Nat) : List (BitVec 32) :=
  table.set (bit / 32) (table.getD (bit / 32) 0#32 ||| BitVec.twoPow 32 (bit % 32))

/-- The word with the bit's own mask taken out of it. -/
def clearBit (bit : Nat) : List (BitVec 32) :=
  table.set (bit / 32) (table.getD (bit / 32) 0#32 &&& ~~~ BitVec.twoPow 32 (bit % 32))

@[simp] theorem length_setBit (bit : Nat) :
    (setBit table bit).length = table.length := List.length_set

@[simp] theorem length_clearBit (bit : Nat) :
    (clearBit table bit).length = table.length := List.length_set

@[simp] theorem testBit_replicate_zero (words bit : Nat) :
    testBit (List.replicate words 0#32) bit = false := by
  unfold testBit
  rw [List.getD_eq_getElem?_getD, List.getElem?_replicate]
  split <;> simp

variable {table : List (BitVec 32)} {bit : Nat}

/-- Replacing a word changes its own bits alone. -/
theorem testBit_set_word {place : Nat} (inside : place < table.length) (word : BitVec 32)
    (bit : Nat) :
    testBit (table.set place word) bit =
      if bit / 32 = place then word.getLsbD (bit % 32) else testBit table bit := by
  unfold testBit
  rw [List.getD_eq_getElem?_getD, List.getElem?_set]
  split_ifs <;> first | rfl | omega

theorem testBit_setBit (inside : bit < 32 * table.length) (other : Nat) :
    testBit (setBit table bit) other = (decide (other = bit) || testBit table other) := by
  unfold setBit
  rw [testBit_set_word (by omega)]
  by_cases same : other / 32 = bit / 32
  · rw [if_pos same, BitVec.getLsbD_or, BitVec.getLsbD_twoPow, ← same]
    by_cases equal : other = bit
    · subst equal
      simp [Nat.mod_lt]
    · have apart : bit % 32 ≠ other % 32 := by omega
      simp [testBit, equal, apart]
  · have apart : other ≠ bit := fun equal => same (by rw [equal])
    rw [if_neg same]
    simp [apart]

theorem testBit_clearBit (inside : bit < 32 * table.length) (other : Nat) :
    testBit (clearBit table bit) other = (decide (other ≠ bit) && testBit table other) := by
  unfold clearBit
  rw [testBit_set_word (by omega)]
  by_cases same : other / 32 = bit / 32
  · rw [if_pos same, BitVec.getLsbD_and, BitVec.getLsbD_not, BitVec.getLsbD_twoPow, ← same]
    by_cases equal : other = bit
    · subst equal
      simp [Nat.mod_lt]
    · have apart : bit % 32 ≠ other % 32 := by omega
      have small : other % 32 < 32 := Nat.mod_lt _ (by decide)
      simp [testBit, equal, apart, small]
  · have apart : other ≠ bit := fun equal => same (by rw [equal])
    rw [if_neg same]
    simp [apart]

/-- A run of bits set one after the other. -/
def setBits (table : List (BitVec 32)) (start : Nat) : Nat → List (BitVec 32)
  | 0 => table
  | count + 1 => setBit (setBits table start count) (start + count)

/-- A run of bits cleared one after the other. -/
def clearBits (table : List (BitVec 32)) (start : Nat) : Nat → List (BitVec 32)
  | 0 => table
  | count + 1 => clearBit (clearBits table start count) (start + count)

@[simp] theorem length_setBits (table : List (BitVec 32)) (start count : Nat) :
    (setBits table start count).length = table.length := by
  induction count with
  | zero => rfl
  | succ count ih => rw [setBits, length_setBit, ih]

@[simp] theorem length_clearBits (table : List (BitVec 32)) (start count : Nat) :
    (clearBits table start count).length = table.length := by
  induction count with
  | zero => rfl
  | succ count ih => rw [clearBits, length_clearBit, ih]

theorem testBit_setBits {start count : Nat}
    (inside : start + count ≤ 32 * table.length) (bit : Nat) :
    testBit (setBits table start count) bit =
      (decide (start ≤ bit ∧ bit < start + count) || testBit table bit) := by
  induction count with
  | zero =>
    have outside : ¬ (start ≤ bit ∧ bit < start + 0) := by omega
    rw [setBits, decide_eq_false outside, Bool.false_or]
  | succ count ih =>
    rw [setBits, testBit_setBit (by rw [length_setBits]; omega), ih (by omega), ← Bool.or_assoc,
      ← Bool.decide_or]
    congr 2
    rw [eq_iff_iff]
    omega

theorem testBit_clearBits {start count : Nat}
    (inside : start + count ≤ 32 * table.length) (bit : Nat) :
    testBit (clearBits table start count) bit =
      (decide (¬ (start ≤ bit ∧ bit < start + count)) && testBit table bit) := by
  induction count with
  | zero =>
    have outside : ¬ (start ≤ bit ∧ bit < start + 0) := by omega
    rw [clearBits, decide_eq_true outside, Bool.true_and]
  | succ count ih =>
    rw [clearBits, testBit_clearBit (by rw [length_clearBits]; omega), ih (by omega),
      ← Bool.and_assoc, ← Bool.decide_and]
    congr 2
    rw [eq_iff_iff]
    omega

end WinOFED.Memory
