import WinOFED.Mlx4.BitOps

/-! The index allocator of `alloc.c`: a bitmap with a tag or-ed into the numbers it hands out.

The position of a number is its remainder modulo `max`; the tag `top` is a multiple of `max` and
rolls with the releases, so that a number is not reused at once. -/
namespace WinOFED.Mlx4
open WinOFED.Memory Nat

/-- `ULONG_MAX`, which is also `(u32)-1`: no number. -/
def ulongMax : Nat := 2 ^ 32 - 1

/-- `ALIGN(x, a)` in `u32`, for a power of two. -/
def alignUp (value align : Nat) : Nat := u32 (value + align - 1) &&& (2 ^ 32 - align)

/-- `fls`: the number of the highest bit, counted from one. -/
def fls (value : BitVec 32) : Nat :=
  if value = 0#32 then 0
  else
    let narrow (part : BitVec 32 × Nat) (mask : BitVec 32) (shift : Nat) : BitVec 32 × Nat :=
      if part.1 &&& mask = 0#32 then (part.1 <<< shift, part.2 - shift) else part
    (narrow (narrow (narrow (narrow (narrow (value, 32) 0xffff0000 16) 0xff000000 8) 0xf0000000 4)
      0xc0000000 2) 0x80000000 1).2

/-- `roundup_pow_of_two`. The shift takes its count modulo 32. -/
def roundupPowOfTwo (value : Nat) : Nat := 2 ^ (fls (BitVec.ofNat 32 (value + 2 ^ 32 - 1)) % 32)

/-- The `while` loop of `find_next_zero_string_aligned`: the first aligned position that is clear
or out of range. -/
def skipSet (table : List (BitVec 32)) (nbits align : Nat) : Nat → Nat → Nat
  | 0, start => start
  | fuel + 1, start =>
      if start < nbits ∧ testBit table start then skipSet table nbits align fuel (u32 (start + align))
      else start

/-- The rounds of `find_next_zero_string_aligned`. A set bit inside the run starts another one
behind that bit. -/
def zeroStringRounds (table : List (BitVec 32)) (nbits len align : Nat) : Nat → Nat → Nat
  | 0, _ => ulongMax
  | fuel + 1, start =>
      let start := skipSet table nbits align nbits (alignUp start align)
      if nbits ≤ start then ulongMax
      else
        let stop := u32 (start + len)
        if nbits < stop then ulongMax
        else
          match (List.range' (start + 1) (stop - (start + 1))).find? (testBit table) with
          | some bit => zeroStringRounds table nbits len align fuel (bit + 1)
          | none => start

/-- `find_next_zero_string_aligned`. Every round starts behind the one before, so `nbits` rounds and
one more are enough. -/
def findNextZeroStringAligned (table : List (BitVec 32)) (start nbits len align : Nat) : Nat :=
  zeroStringRounds table nbits len align (nbits + 1) start

/-- `struct mlx4_bitmap`. -/
structure Bitmap where
  last : Nat
  top : Nat
  max : Nat
  mask : Nat
  effectiveMax : Nat
  avail : Nat
  table : List (BitVec 32)
  deriving DecidableEq, Repr

inductive InitError
  | einval
  | enomem
  deriving DecidableEq, Repr

namespace Bitmap

/-- `mlx4_bitmap_init_with_effective_max`; `memory` says whether `kzalloc` has the table. The loop
over the reserved bits counts in `int`. -/
def initWithEffectiveMax (memory : Bool) (num mask reserved effectiveMax : Nat) :
    Except InitError Bitmap :=
  if num ≠ roundupPowOfTwo num then .error .einval
  else if memory then
    .ok
      { last := 0, top := 0, max := num, mask, effectiveMax
        avail := u32 (effectiveMax + 2 ^ 32 - reserved)
        table := setBits (List.replicate (bitsToLongs num) 0#32) 0
          (if reserved < 2 ^ 31 then reserved else 0) }
  else .error .enomem

/-- `mlx4_bitmap_init`. -/
def init (memory : Bool) (num mask reserved : Nat) : Except InitError Bitmap :=
  initWithEffectiveMax memory num mask reserved num

variable (bitmap : Bitmap)

/-- The next tag. -/
def rolled : Nat := u32 (bitmap.top + bitmap.max) &&& bitmap.mask

/-- The search of `mlx4_bitmap_alloc`: the position, and the tag, which rolls when the search starts
over. -/
def search : Nat × Nat :=
  let obj := findNextZeroBit bitmap.table bitmap.effectiveMax bitmap.last
  if bitmap.effectiveMax ≤ obj then
    (findFirstZeroBit bitmap.table bitmap.effectiveMax, bitmap.rolled)
  else (obj, bitmap.top)

/-- What the allocations do with the run that they have found. The number with the tag is compared
with the one that stands for a failure. -/
def taken (obj cnt last : Nat) : Nat × Bitmap :=
  let tagged := obj ||| bitmap.top
  (tagged,
    { bitmap with
      table := setBits bitmap.table obj cnt
      last
      avail := if tagged ≠ ulongMax then u32 (bitmap.avail + 2 ^ 32 - cnt) else bitmap.avail })

/-- `mlx4_bitmap_alloc`. -/
def alloc : Nat × Bitmap :=
  let obj := bitmap.search.1
  let bitmap := { bitmap with top := bitmap.search.2 }
  if obj < bitmap.effectiveMax then
    bitmap.taken obj 1 (if u32 (obj + 1) = bitmap.effectiveMax then 0 else u32 (obj + 1))
  else (ulongMax, bitmap)

/-- The search of `mlx4_bitmap_alloc_range`; the tag does not roll. -/
def searchRange (cnt align : Nat) : Nat :=
  let obj := findNextZeroStringAligned bitmap.table bitmap.last bitmap.effectiveMax cnt align
  if bitmap.effectiveMax ≤ obj then
    findNextZeroStringAligned bitmap.table 0 bitmap.effectiveMax cnt align
  else obj

/-- `mlx4_bitmap_alloc_range`. -/
def allocRange (cnt align : Nat) : Nat × Bitmap :=
  if cnt = 1 ∧ align = 1 then bitmap.alloc
  else
    let obj := bitmap.searchRange cnt align
    if obj < bitmap.effectiveMax then
      bitmap.taken obj cnt
        (if obj = bitmap.last then
          if bitmap.effectiveMax ≤ u32 (obj + cnt) then 0 else u32 (obj + cnt)
        else bitmap.last)
    else (ulongMax, bitmap)

/-- `mlx4_bitmap_free`. -/
def free (obj : Nat) : Bitmap :=
  let obj := obj &&& (bitmap.max - 1)
  { bitmap with
    table := clearBit bitmap.table obj
    last := min bitmap.last obj
    top := bitmap.rolled
    avail := u32 (bitmap.avail + 1) }

/-- `mlx4_bitmap_free_range`. -/
def freeRange (obj cnt : Nat) : Bitmap :=
  let obj := obj &&& (bitmap.max - 1)
  { bitmap with
    table := clearBits bitmap.table obj cnt
    last := min bitmap.last obj
    avail := u32 (bitmap.avail + cnt) }

end Bitmap

/-! ## Alignment -/

/-- A mask of the high bits takes off the rest modulo the power of two. -/
theorem and_high_bits {value order : Nat} (fits : value < 2 ^ 32) (small : order ≤ 32) :
    value &&& (2 ^ 32 - 2 ^ order) = 2 ^ order * (value / 2 ^ order) := by
  have mask : 2 ^ 32 - 2 ^ order = 2 ^ order * (2 ^ (32 - order) - 1) := by
    rw [Nat.mul_sub, ← pow_add, mul_one, Nat.add_sub_cancel' small]
  apply eq_of_testBit_eq
  intro bit
  rw [mask, testBit_and, testBit_two_pow_mul, testBit_two_pow_mul,
    testBit_two_pow_sub_one, testBit_div_two_pow]
  by_cases low : order ≤ bit
  · rw [Nat.sub_add_cancel low]
    by_cases high : bit < 32
    · simp [low, show bit - order < 32 - order by omega]
    · have none : value.testBit bit = false :=
        testBit_lt_two_pow (lt_of_lt_of_le fits (Nat.pow_le_pow_right (by decide) (by omega)))
      simp [none]
  · simp [low]

/-- `ALIGN` is the least multiple from the value on. -/
theorem alignUp_spec {value order : Nat} (fits : value ≤ 2 ^ 31) (small : order < 31) :
    2 ^ order ∣ alignUp value (2 ^ order) ∧ value ≤ alignUp value (2 ^ order) ∧
      (∀ multiple, 2 ^ order ∣ multiple → value ≤ multiple → alignUp value (2 ^ order) ≤ multiple) := by
  have positive : 0 < 2 ^ order := Nat.two_pow_pos order
  have bound : 2 ^ order ≤ 2 ^ 30 := Nat.pow_le_pow_right (by decide) (by omega)
  have room : value + 2 ^ order - 1 < 2 ^ 32 := by omega
  have rounded : alignUp value (2 ^ order) = 2 ^ order * ((value + 2 ^ order - 1) / 2 ^ order) := by
    unfold alignUp
    rw [u32_of_lt room, and_high_bits room (by omega)]
  have division := div_add_mod (value + 2 ^ order - 1) (2 ^ order)
  have rest := mod_lt (value + 2 ^ order - 1) positive
  rw [rounded]
  refine ⟨dvd_mul_right _ _, by omega, ?_⟩
  rintro _ ⟨times, rfl⟩ low
  apply Nat.mul_le_mul_left
  have under : (value + 2 ^ order - 1) / 2 ^ order < times + 1 := by
    rw [div_lt_iff_lt_mul positive, add_mul, one_mul, mul_comm]
    omega
  omega

theorem roundupPowOfTwo_two_pow {order : Nat} (small : order < 32) :
    roundupPowOfTwo (2 ^ order) = 2 ^ order := by
  have all : ∀ order < 32, roundupPowOfTwo (2 ^ order) = 2 ^ order := by decide +kernel
  exact all order small

/-! ## The search for a run -/

/-- An aligned run of clear bits among the first `nbits`. -/
structure FreeRun (table : List (BitVec 32)) (nbits len align pos : Nat) : Prop where
  aligned : align ∣ pos
  inside : pos + len ≤ nbits
  clear : ∀ bit, pos ≤ bit → bit < pos + len → testBit table bit = false

variable {table : List (BitVec 32)} {nbits len order start fuel : Nat}

theorem skipSet_spec (small : nbits ≤ 2 ^ 31) (aligns : order < 31) (enough : nbits ≤ start + fuel)
    (aligned : 2 ^ order ∣ start) :
    let place := skipSet table nbits (2 ^ order) fuel start
    2 ^ order ∣ place ∧ start ≤ place ∧ (place < nbits → testBit table place = false) ∧
      ∀ pos, 2 ^ order ∣ pos → start ≤ pos → pos < place → pos < nbits → testBit table pos = true := by
  induction fuel generalizing start with
  | zero =>
    refine ⟨aligned, le_refl _, fun inside => ?_, fun pos _ low high => ?_⟩
    · exact absurd inside (not_lt.mpr enough)
    · exact absurd high (not_lt.mpr low)
  | succ fuel ih =>
    have bound : 2 ^ order ≤ 2 ^ 30 := Nat.pow_le_pow_right (by decide) (by omega)
    rw [skipSet]
    split
    · next set =>
      rw [u32_of_lt (by omega)]
      have positive : 0 < 2 ^ order := Nat.two_pow_pos order
      obtain ⟨multiple, above, clear, skipped⟩ :=
        @ih (start + 2 ^ order) (by omega) (dvd_add aligned (dvd_refl _))
      refine ⟨multiple, by omega, clear, fun pos divides low high inside => ?_⟩
      by_cases first : pos = start
      · rw [first]
        exact set.2
      · have step : 2 ^ order ≤ pos - start := le_of_dvd (by omega) (dvd_sub divides aligned)
        exact skipped pos divides (by omega) high inside
    · next stops =>
      refine ⟨aligned, le_refl _, fun inside => ?_, fun pos _ low high => ?_⟩
      · exact Bool.eq_false_iff.mpr fun set => stops ⟨inside, set⟩
      · exact absurd high (not_lt.mpr low)

/-- A search finds a run, and finds none only if there is none from its start on: a run that begins
before the next start has an aligned bit that was skipped, or the set bit that the round met. -/
theorem zeroStringRounds_spec (small : nbits ≤ 2 ^ 31) (aligns : order < 31) (some : 0 < len)
    (short : len < 2 ^ 31) (inside : start ≤ nbits) (enough : nbits < start + fuel) :
    let place := zeroStringRounds table nbits len (2 ^ order) fuel start
    (place < nbits → FreeRun table nbits len (2 ^ order) place) ∧
      (nbits ≤ place → place = ulongMax ∧
        ∀ pos, start ≤ pos → ¬ FreeRun table nbits len (2 ^ order) pos) := by
  induction fuel generalizing start with
  | zero => omega
  | succ fuel ih =>
    have full : nbits ≤ ulongMax := le_trans small (by decide)
    obtain ⟨multiple, least, rounded⟩ := alignUp_spec (le_trans inside small) aligns
    rw [zeroStringRounds]
    have skip := @skipSet_spec table nbits order (alignUp start (2 ^ order)) nbits small aligns
      (by omega) multiple
    generalize skipSet table nbits (2 ^ order) nbits (alignUp start (2 ^ order)) = here at skip ⊢
    obtain ⟨aligned, above, clear, skipped⟩ := skip
    -- A run that begins before the place reached has a set bit at its begin.
    have behind : ∀ pos, start ≤ pos → FreeRun table nbits len (2 ^ order) pos → here ≤ pos := by
      intro pos low run
      apply Nat.le_of_not_lt
      intro before
      have within := run.inside
      have set := skipped pos run.aligned (rounded pos run.aligned low) before (by omega)
      exact absurd (run.clear pos (le_refl _) (by omega)) (by rw [set]; exact Bool.noConfusion)
    dsimp only
    by_cases beyond : nbits ≤ here
    · rw [if_pos beyond]
      refine ⟨fun less => absurd less (not_lt.mpr full), fun _ => ⟨rfl, fun pos low run => ?_⟩⟩
      have := behind pos low run
      have := run.inside
      omega
    rw [if_neg beyond, u32_of_lt (by omega)]
    by_cases long : nbits < here + len
    · rw [if_pos long]
      refine ⟨fun less => absurd less (not_lt.mpr full), fun _ => ⟨rfl, fun pos low run => ?_⟩⟩
      have := behind pos low run
      have := run.inside
      omega
    rw [if_neg long]
    cases found : (List.range' (here + 1) (here + len - (here + 1))).find? (testBit table) with
    | none =>
      dsimp only
      refine ⟨fun _ => ⟨aligned, by omega, fun bit low high => ?_⟩, fun less => absurd less beyond⟩
      by_cases first : bit = here
      · rw [first]
        exact clear (by omega)
      · have member : bit ∈ List.range' (here + 1) (here + len - (here + 1)) := by
          rw [List.mem_range'_1]
          omega
        exact Bool.eq_false_iff.mpr (List.find?_eq_none.mp found bit member)
    | some bit =>
      have set : testBit table bit = true := List.find?_some found
      have member := List.mem_of_find?_eq_some found
      rw [List.mem_range'_1] at member
      obtain ⟨hit, miss⟩ := @ih (bit + 1) (by omega) (by omega)
      refine ⟨hit, fun none => ⟨(miss none).1, fun pos low run => ?_⟩⟩
      have reached := behind pos low run
      by_cases later : bit < pos
      · exact (miss none).2 pos later run
      · rw [run.clear bit (by omega) (by omega)] at set
        exact Bool.noConfusion set

end WinOFED.Mlx4
