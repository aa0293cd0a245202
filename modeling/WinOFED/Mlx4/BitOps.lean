import WinOFED.Memory.BitTable

/-! The bit searches of `l2w_bit.h` over tables of 32-bit words.

Each search exists for a set and for a clear bit; the two differ in the value they look for. -/
namespace WinOFED.Mlx4
open WinOFED.Memory List

/-- The value of a computation in `u32`. -/
def u32 (value : Nat) : Nat := value % 2 ^ 32

theorem u32_of_lt {value : Nat} (fits : value < 2 ^ 32) : u32 value = value := Nat.mod_eq_of_lt fits

/-- The word without a bit of the value looked for. -/
def blank (want : Bool) {width : Nat} : BitVec width := if want then 0 else BitVec.allOnes width

/-- What `_ffs_raw` and `_ffz_raw` share: one more than the first bit from `offset` on that has the
value looked for, or zero. -/
def ffRaw (want : Bool) (word : BitVec 32) (offset : Nat) : Nat :=
  if word = blank want then 0
  else
    match (List.range' offset (32 - offset)).find? fun bit => word.getLsbD bit == want with
    | some bit => bit + 1
    | none => 0

/-- `_ffs_raw`. -/
def ffsRaw := ffRaw true

/-- `_ffz_raw`. -/
def ffzRaw := ffRaw false

/-- The entries that `fill_bit_tbls` makes for `g_set_bit_tbl` and `g_clr_bit_tbl`. -/
def bitTbl (want : Bool) (byte : BitVec 8) : Nat :=
  if byte = blank want then 8 else ffRaw want (byte.setWidth 32) 0 - 1

/-- The first bit looked for in a word that has one: the half of the word, its byte, then the
table. -/
def wordFirst (want : Bool) (word : BitVec 32) : Nat :=
  let half := if word.extractLsb' 0 16 = blank want then 16 else 0
  let byte := if word.extractLsb' half 8 = blank want then half + 8 else half
  byte + bitTbl want (word.extractLsb' byte 8)

/-- The loop over the words of a bitmap; `base` is the number of the first bit. -/
def scanWords (want : Bool) : List (BitVec 32) → Nat → Option Nat
  | [], _ => none
  | word :: rest, base =>
      if word = blank want then scanWords want rest (base + 32)
      else some (base + wordFirst want word)

/-- `BITS_TO_LONGS` in `unsigned`. -/
def bitsToLongs (bits : Nat) : Nat := u32 (bits + 31) / 32

/-- What `find_first_bit` and `find_first_zero_bit` share. -/
def findFirst (want : Bool) (table : List (BitVec 32)) (bitsSize : Nat) : Nat :=
  (scanWords want (table.take (bitsToLongs bitsSize)) 0).getD bitsSize

/-- `find_first_bit`. -/
def findFirstBit := findFirst true

/-- `find_first_zero_bit`. -/
def findFirstZeroBit := findFirst false

/-- `find_next_zero_bit`. The size of the rest of the bitmap is computed in `unsigned`. -/
def findNextZeroBit (table : List (BitVec 32)) (bitsSize offset : Nat) : Nat :=
  let start := offset / 32
  if offset % 32 ≠ 0 then
    let res := ffzRaw (table.getD start 0#32) (offset % 32)
    if res ≠ 0 then 32 * start + res - 1
    else
      u32 (findFirstZeroBit (table.drop (start + 1)) (u32 (bitsSize + 2 ^ 32 - 32 * (start + 1))) +
        32 * (start + 1))
  else
    u32 (findFirstZeroBit (table.drop start) (u32 (bitsSize + 2 ^ 32 - 32 * start)) + 32 * start)

/-- The result of a search from `low` on in the first `bits` bits of a table: a bit with the value
looked for, or, from `bits` on, that there is none. -/
structure Found (want : Bool) (table : List (BitVec 32)) (low bits result : Nat) : Prop where
  hit : result < bits → low ≤ result ∧ testBit table result = want
  miss : bits ≤ result → ∀ bit, low ≤ bit → bit < bits → testBit table bit = !want

/-- The first bit with a value in a word or byte. -/
structure First (want : Bool) {width : Nat} (word : BitVec width) (bit : Nat) : Prop where
  inside : bit < width
  hit : word.getLsbD bit = want
  before : ∀ earlier < bit, word.getLsbD earlier = !want

variable {want : Bool} {bit bits : Nat} {table : List (BitVec 32)}

theorem getLsbD_blank {width : Nat} (inside : bit < width) :
    (blank want : BitVec width).getLsbD bit = !want := by
  cases want <;> simp [blank, inside]

theorem first_bitTbl (want : Bool) (byte : BitVec 8) (some : byte ≠ blank want) :
    First want byte (bitTbl want byte) := by
  have table : ∀ (want : Bool) (byte : BitVec 8), byte ≠ blank want →
      bitTbl want byte < 8 ∧ byte.getLsbD (bitTbl want byte) = want ∧
      ∀ earlier < bitTbl want byte, byte.getLsbD earlier = !want := by decide +kernel
  obtain ⟨inside, hit, before⟩ := table want byte some
  exact ⟨inside, hit, before⟩

/-- A part of a word that is blank has none of the bits looked for. -/
theorem getLsbD_of_extract_blank {word : BitVec 32} {start length bit : Nat}
    (none : word.extractLsb' start length = blank want) (low : start ≤ bit)
    (high : bit < start + length) : word.getLsbD bit = !want := by
  have here := congrArg (fun part => part.getLsbD (bit - start)) none
  rw [getLsbD_blank (by omega), BitVec.getLsbD_extractLsb', show start + (bit - start) = bit by omega]
    at here
  simpa [show bit - start < length by omega] using here

theorem eq_blank {width : Nat} {word : BitVec width}
    (none : ∀ bit < width, word.getLsbD bit = !want) : word = blank want := by
  apply BitVec.eq_of_getLsbD_eq
  intro bit inside
  rw [none bit inside, getLsbD_blank inside]

theorem extract_eq_blank {word : BitVec 32} {start length : Nat}
    (none : ∀ bit, start ≤ bit → bit < start + length → word.getLsbD bit = !want) :
    word.extractLsb' start length = blank want := by
  apply eq_blank
  intro bit inside
  rw [BitVec.getLsbD_extractLsb', none (start + bit) (by omega) (by omega)]
  simp [inside]

/-- Of a part that is not blank the first half that is not blank either, with nothing below it. -/
theorem narrow {word : BitVec 32} {start length : Nat} (below : ∀ bit < start, word.getLsbD bit = !want)
    (some : word.extractLsb' start (length + length) ≠ blank want) :
    let place := if word.extractLsb' start length = blank want then start + length else start
    (∀ bit < place, word.getLsbD bit = !want) ∧ word.extractLsb' place length ≠ blank want := by
  by_cases none : word.extractLsb' start length = blank want
  · simp only [none, if_true]
    have lower := fun bit => @getLsbD_of_extract_blank want word start length bit none
    refine ⟨fun bit under => ?_, fun rest => some (extract_eq_blank fun bit low high => ?_)⟩
    · by_cases early : bit < start
      · exact below bit early
      · exact lower bit (by omega) under
    · by_cases early : bit < start + length
      · exact lower bit low early
      · exact getLsbD_of_extract_blank rest (by omega) (by omega)
  · simp only [none, if_false]
    exact ⟨below, none⟩

/-- The table looks up the first bit of a byte with nothing below it. -/
theorem first_of_byte {word : BitVec 32} {byte : Nat} (inside : byte + 8 ≤ 32)
    (below : ∀ bit < byte, word.getLsbD bit = !want) (here : word.extractLsb' byte 8 ≠ blank want) :
    First want word (byte + bitTbl want (word.extractLsb' byte 8)) := by
  have first := first_bitTbl want _ here
  constructor
  · have := first.inside
    omega
  · have hit := first.hit
    rw [BitVec.getLsbD_extractLsb'] at hit
    simpa [first.inside] using hit
  · intro bit earlier
    by_cases under : bit < byte
    · exact below bit under
    · have before := first.before (bit - byte) (by omega)
      rw [BitVec.getLsbD_extractLsb', show byte + (bit - byte) = bit by omega] at before
      have := first.inside
      simpa [show bit - byte < 8 by omega] using before

/-- Narrowing to the half, the byte and the table finds the first bit of the word. -/
theorem first_wordFirst {word : BitVec 32} (some : word ≠ blank want) :
    First want word (wordFirst want word) := by
  obtain ⟨lower, half⟩ := @narrow want word 0 16 nofun (by simpa using some)
  obtain ⟨below, here⟩ := @narrow want word _ 8 lower half
  refine first_of_byte ?_ below here
  split_ifs <;> omega

theorem testBit_cons_of_lt (word : BitVec 32) (rest : List (BitVec 32)) (inside : bit < 32) :
    testBit (word :: rest) bit = word.getLsbD bit := by
  unfold testBit
  rw [Nat.div_eq_of_lt inside, Nat.mod_eq_of_lt inside]
  rfl

theorem testBit_cons_add (word : BitVec 32) (rest : List (BitVec 32)) (bit : Nat) :
    testBit (word :: rest) (bit + 32) = testBit rest bit := by
  unfold testBit
  rw [Nat.add_div_right _ (by decide), Nat.add_mod_right]
  rfl

/-- The scan finds the first bit looked for, or the words have none. -/
theorem scanWords_spec (want : Bool) (words : List (BitVec 32)) (base : Nat) :
    match scanWords want words base with
    | some result => ∃ bit, result = base + bit ∧ bit < 32 * words.length ∧
        testBit words bit = want ∧ ∀ earlier < bit, testBit words earlier = !want
    | none => ∀ bit < 32 * words.length, testBit words bit = !want := by
  induction words generalizing base with
  | nil => exact fun bit inside => absurd inside (Nat.not_lt_zero _)
  | cons word rest ih =>
    unfold scanWords
    by_cases none : word = blank want
    · have first : ∀ bit < 32, testBit (word :: rest) bit = !want := by
        intro bit inside
        rw [testBit_cons_of_lt word rest inside, none, getLsbD_blank inside]
      rw [if_pos none]
      have later := ih (base + 32)
      cases found : scanWords want rest (base + 32) with
      | none =>
        rw [found] at later
        intro bit inside
        by_cases low : bit < 32
        · exact first bit low
        · rw [show bit = bit - 32 + 32 by omega, testBit_cons_add]
          exact later (bit - 32) (by simp only [length_cons] at inside; omega)
      | some result =>
        rw [found] at later
        obtain ⟨bit, rfl, inside, hit, before⟩ := later
        refine ⟨bit + 32, by omega, by simp only [length_cons]; omega, ?_, ?_⟩
        · rw [testBit_cons_add]
          exact hit
        · intro earlier under
          by_cases low : earlier < 32
          · exact first earlier low
          · rw [show earlier = earlier - 32 + 32 by omega, testBit_cons_add]
            exact before (earlier - 32) (by omega)
    · rw [if_neg none]
      have here := first_wordFirst none
      refine ⟨wordFirst want word, rfl, ?_, ?_, ?_⟩
      · have := here.inside
        simp only [length_cons]
        omega
      · rw [testBit_cons_of_lt word rest here.inside]
        exact here.hit
      · intro earlier under
        rw [testBit_cons_of_lt word rest (Nat.lt_trans under here.inside)]
        exact here.before earlier under

theorem testBit_take {words : Nat} (inside : bit < 32 * words) :
    testBit (table.take words) bit = testBit table bit := by
  unfold testBit
  rw [getD_eq_getElem?_getD, getD_eq_getElem?_getD, getElem?_take_of_lt (by omega)]

theorem testBit_drop (table : List (BitVec 32)) (words bit : Nat) :
    testBit (table.drop words) bit = testBit table (32 * words + bit) := by
  unfold testBit
  rw [getD_eq_getElem?_getD, getD_eq_getElem?_getD, getElem?_drop,
    Nat.mul_add_div (by decide), Nat.mul_add_mod]

theorem bitsToLongs_eq (small : bits + 31 < 2 ^ 32) : bitsToLongs bits = (bits + 31) / 32 := by
  rw [bitsToLongs, u32_of_lt small]

/-- A search from the first bit on. -/
theorem found_findFirst (small : bits + 31 < 2 ^ 32) (held : (bits + 31) / 32 ≤ table.length) :
    Found want table 0 bits (findFirst want table bits) := by
  have words := bitsToLongs_eq small
  have length : (table.take ((bits + 31) / 32)).length = (bits + 31) / 32 := by
    rw [length_take]
    omega
  have spec := scanWords_spec want (table.take ((bits + 31) / 32)) 0
  unfold findFirst
  rw [words]
  rw [length] at spec
  cases found : scanWords want (table.take ((bits + 31) / 32)) 0 with
  | none =>
    rw [found] at spec
    constructor
    · exact fun less => absurd less (Nat.lt_irrefl _)
    · intro _ bit _ inside
      have none := spec bit (by omega)
      rwa [testBit_take (by omega)] at none
  | some result =>
    rw [found] at spec
    obtain ⟨bit, rfl, inside, hit, before⟩ := spec
    simp only [Nat.zero_add, Option.getD_some]
    constructor
    · intro _
      rw [testBit_take inside] at hit
      exact ⟨Nat.zero_le _, hit⟩
    · intro beyond earlier _ under
      have none := before earlier (by omega)
      rwa [testBit_take (by omega)] at none

/-- A search stops at the end of the last word at the latest. -/
theorem findFirst_lt (want : Bool) (table : List (BitVec 32)) (small : bits + 31 < 2 ^ 32) :
    findFirst want table bits < bits + 32 := by
  have spec := scanWords_spec want (table.take ((bits + 31) / 32)) 0
  unfold findFirst
  rw [bitsToLongs_eq small]
  cases found : scanWords want (table.take ((bits + 31) / 32)) 0 with
  | none => exact Nat.lt_add_of_pos_right (by decide)
  | some result =>
    rw [found] at spec
    obtain ⟨bit, rfl, inside, _⟩ := spec
    rw [length_take] at inside
    simp only [Option.getD_some]
    omega

/-- A search in the rest of a table, as part of a search from further in front. -/
theorem found_drop {start low : Nat} (before : low ≤ 32 * start) (small : bits + 31 < 2 ^ 32)
    (held : (bits + 31) / 32 ≤ table.length) (reach : 32 * start < bits + 32)
    (skipped : ∀ bit, low ≤ bit → bit < 32 * start → bit < bits → testBit table bit = true) :
    Found false table low bits
      (u32 (findFirstZeroBit (table.drop start) (u32 (bits + 2 ^ 32 - 32 * start)) + 32 * start)) := by
  by_cases exceeds : bits < 32 * start
  · -- The rest of the bitmap has a negative size, which is no word in `unsigned`.
    have size : u32 (bits + 2 ^ 32 - 32 * start) = bits + 2 ^ 32 - 32 * start := u32_of_lt (by omega)
    have none : bitsToLongs (bits + 2 ^ 32 - 32 * start) = 0 := by
      unfold bitsToLongs u32
      omega
    have result : findFirstZeroBit (table.drop start) (bits + 2 ^ 32 - 32 * start) =
        bits + 2 ^ 32 - 32 * start := by
      unfold findFirstZeroBit findFirst
      rw [none]
      rfl
    have value : u32 (bits + 2 ^ 32 - 32 * start + 32 * start) = bits := by
      unfold u32
      omega
    rw [size, result, value]
    exact ⟨fun less => absurd less (Nat.lt_irrefl _), fun _ bit low high => skipped bit low (by omega) high⟩
  · have size : u32 (bits + 2 ^ 32 - 32 * start) = bits - 32 * start := by
      unfold u32
      omega
    rw [size]
    have rest : Found false (table.drop start) 0 (bits - 32 * start)
        (findFirstZeroBit (table.drop start) (bits - 32 * start)) :=
      found_findFirst (by omega) (by rw [length_drop]; omega)
    have bounded : findFirstZeroBit (table.drop start) (bits - 32 * start) < bits - 32 * start + 32 :=
      findFirst_lt false _ (by omega)
    have value : u32 (findFirstZeroBit (table.drop start) (bits - 32 * start) + 32 * start) =
        findFirstZeroBit (table.drop start) (bits - 32 * start) + 32 * start := u32_of_lt (by omega)
    rw [value]
    constructor
    · intro less
      obtain ⟨_, hit⟩ := rest.hit (by omega)
      rw [testBit_drop, Nat.add_comm] at hit
      exact ⟨by omega, hit⟩
    · intro beyond bit least inside
      by_cases early : bit < 32 * start
      · exact skipped bit least early inside
      · have none := rest.miss (by omega) (bit - 32 * start) (Nat.zero_le _) (by omega)
        rwa [testBit_drop, show 32 * start + (bit - 32 * start) = bit by omega] at none

/-- The search within one word. -/
theorem ffRaw_spec (want : Bool) (word : BitVec 32) (offset : Nat) :
    (ffRaw want word offset ≠ 0 → offset < ffRaw want word offset ∧ ffRaw want word offset ≤ 32 ∧
      word.getLsbD (ffRaw want word offset - 1) = want ∧
      ∀ bit, offset ≤ bit → bit < ffRaw want word offset - 1 → word.getLsbD bit = !want) ∧
    (ffRaw want word offset = 0 → ∀ bit, offset ≤ bit → bit < 32 → word.getLsbD bit = !want) := by
  unfold ffRaw
  by_cases none : word = blank want
  · rw [if_pos none]
    refine ⟨fun some => absurd rfl some, fun _ bit _ inside => ?_⟩
    rw [none, getLsbD_blank inside]
  rw [if_neg none]
  cases found : (range' offset (32 - offset)).find? fun bit => word.getLsbD bit == want with
  | none =>
    refine ⟨fun some => absurd rfl some, fun _ bit low inside => ?_⟩
    have other := find?_eq_none.mp found bit (by rw [mem_range'_1]; omega)
    exact Bool.eq_not.mpr (by simpa using other)
  | some bit =>
    obtain ⟨hit, inside, before⟩ := find?_range'_eq_some.mp found
    rw [mem_range'_1] at inside
    simp only [Nat.add_sub_cancel]
    refine ⟨fun _ => ⟨by omega, by omega, by simpa using hit, fun earlier low under => ?_⟩,
      fun zero => by omega⟩
    exact Bool.eq_not.mpr (by simpa using before earlier low under)

/-- The search from a bit on: the rest of its word, then the words behind it. -/
theorem found_findNextZeroBit {offset : Nat} (small : bits + 31 < 2 ^ 32)
    (held : (bits + 31) / 32 ≤ table.length) (inside : offset < bits) :
    Found false table offset bits (findNextZeroBit table bits offset) := by
  unfold findNextZeroBit
  by_cases aligned : offset % 32 = 0
  · simp only [aligned, ne_eq, not_true, if_false]
    apply found_drop (by omega) small held (by omega)
    intro bit low high
    omega
  · simp only [aligned, ne_eq, not_false_eq_true, if_true]
    have spec := ffRaw_spec false (table.getD (offset / 32) 0#32) (offset % 32)
    -- The bits of the first word are those of the table.
    have word : ∀ bit, 32 * (offset / 32) ≤ bit → bit < 32 * (offset / 32) + 32 →
        testBit table bit = (table.getD (offset / 32) 0#32).getLsbD (bit - 32 * (offset / 32)) := by
      intro bit low high
      unfold testBit
      rw [show bit / 32 = offset / 32 by omega, show bit % 32 = bit - 32 * (offset / 32) by omega]
    by_cases zero : ffzRaw (table.getD (offset / 32) 0#32) (offset % 32) = 0
    · rw [if_neg (not_not.mpr zero)]
      apply found_drop (by omega) small held (by omega)
      intro bit low high _
      rw [word bit (by omega) (by omega)]
      exact spec.2 zero _ (by omega) (by omega)
    · rw [if_pos zero]
      obtain ⟨least, most, hit, before⟩ := spec.1 zero
      change offset % 32 < ffzRaw _ _ at least
      change ffzRaw _ _ ≤ 32 at most
      change BitVec.getLsbD _ (ffzRaw _ _ - 1) = false at hit
      constructor
      · intro _
        refine ⟨by omega, ?_⟩
        rw [word _ (by omega) (by omega)]
        rw [show 32 * (offset / 32) + ffzRaw (table.getD (offset / 32) 0#32) (offset % 32) - 1 -
          32 * (offset / 32) = ffzRaw (table.getD (offset / 32) 0#32) (offset % 32) - 1 by omega]
        exact hit
      · intro beyond bit low high
        rw [word bit (by omega) (by omega)]
        apply before
        · omega
        · change _ < ffzRaw _ _ - 1
          omega

end WinOFED.Mlx4
