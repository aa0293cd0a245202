import WinOFED.Mlx4.Bitmap
import WinOFED.Transition.Machine

/-! The buddy allocator of `mr.c` for segments of the translation table.

Bit `index` of `bits order` is set when the block of `2 ^ order` segments from `index * 2 ^ order` on
is free. -/
namespace WinOFED.Mlx4
open WinOFED.Memory WinOFED.Transition List

/-- `struct mlx4_buddy`. -/
structure Buddy where
  maxOrder : Nat
  bits : Nat → List (BitVec 32)
  numFree : Nat → Nat

/-- A block handed out, by its first segment. -/
structure Block where
  seg : Nat
  order : Nat
  deriving DecidableEq, Repr

namespace Buddy

/-- `mlx4_buddy_init`; `memory` says whether the memory is there. The number of words of a bitmap is
computed in `int`: for `2 ^ 31` bits it is negative, and there is no memory of that size. -/
def init (memory : Bool) (maxOrder : Nat) : Except InitError Buddy :=
  if memory ∧ maxOrder < 31 then
    .ok
      { maxOrder
        bits := fun order =>
          if order = maxOrder then setBit (List.replicate (bitsToLongs 1) 0#32) 0
          else List.replicate (bitsToLongs (2 ^ (maxOrder - order))) 0#32
        numFree := fun order => if order = maxOrder then 1 else 0 }
  else .error .enomem

variable (buddy : Buddy)

/-- A block becomes free. -/
def setFree (order index : Nat) : Buddy :=
  { buddy with
    bits := Function.update buddy.bits order (setBit (buddy.bits order) index)
    numFree := Function.update buddy.numFree order (u32 (buddy.numFree order + 1)) }

/-- A block is no longer free. -/
def clearFree (order index : Nat) : Buddy :=
  { buddy with
    bits := Function.update buddy.bits order (clearBit (buddy.bits order) index)
    numFree := Function.update buddy.numFree order (u32 (buddy.numFree order + 2 ^ 32 - 1)) }

/-- The search of `mlx4_buddy_alloc` at one order. -/
def freeAt (order : Nat) : Option (Nat × Nat) :=
  let seg := findFirstBit (buddy.bits order) (2 ^ (buddy.maxOrder - order))
  if buddy.numFree order ≠ 0 ∧ seg < 2 ^ (buddy.maxOrder - order) then some (order, seg) else none

/-- The `while` loop of `mlx4_buddy_alloc`: one half of a block is kept, the other becomes free. -/
def splitDown (buddy : Buddy) (order : Nat) : Nat → Nat → Nat × Buddy
  | 0, seg => (seg, buddy)
  | rounds + 1, seg =>
      splitDown (buddy.setFree (order + rounds) ((2 * seg) ^^^ 1)) order rounds (2 * seg)

/-- `mlx4_buddy_alloc`. -/
def alloc (order : Nat) : Nat × Buddy :=
  match (List.range' order (buddy.maxOrder + 1 - order)).findSome? buddy.freeAt with
  | none => (ulongMax, buddy)
  | some (found, seg) =>
      let result := (buddy.clearFree found seg).splitDown order (found - order) seg
      (result.1 * 2 ^ order, result.2)

/-- The loop of `mlx4_buddy_free`; `rounds` is the number of orders left in the table, and there is no
result past its end. -/
def mergeUp (buddy : Buddy) : Nat → Nat → Nat → Option Buddy
  | 0, _, _ => none
  | rounds + 1, seg, order =>
      if testBit (buddy.bits order) (seg ^^^ 1) then
        (buddy.clearFree order (seg ^^^ 1)).mergeUp rounds (seg / 2) (order + 1)
      else some (buddy.setFree order seg)

/-- `mlx4_buddy_free`. -/
def free (seg order : Nat) : Option Buddy :=
  buddy.mergeUp (buddy.maxOrder + 1 - order) (seg / 2 ^ order) order

end Buddy

/-- An allocator with the blocks that were handed out. -/
structure BuddySys where
  buddy : Buddy
  blocks : List Block

/-- The calls. A block is returned by its place in the list. -/
inductive BuddyCall
  | alloc (order : Nat)
  | free (place : Nat)

/-- The segment lies in the block. -/
def Block.Covers (block : Block) (seg : Nat) : Prop :=
  block.seg ≤ seg ∧ seg < block.seg + 2 ^ block.order

instance (block : Block) (seg : Nat) : Decidable (block.Covers seg) := by
  unfold Block.Covers
  infer_instance

namespace BuddySys

/-- A block is returned with its order. -/
def next (sys : BuddySys) : BuddyCall → Option BuddySys
  | .alloc order =>
      let result := sys.buddy.alloc order
      some ⟨result.2, if result.1 = ulongMax then sys.blocks else ⟨result.1, order⟩ :: sys.blocks⟩
  | .free place => do
      let block ← sys.blocks[place]?
      let buddy ← sys.buddy.free block.seg block.order
      some ⟨buddy, sys.blocks.eraseIdx place⟩

/-- An allocator that nothing was handed out of. -/
def machine (buddy : Buddy) : Machine BuddySys BuddyCall := Machine.ofNext (· = ⟨buddy, []⟩) next

/-- The number of free blocks, one for each order, that a segment lies in. -/
def freeAround (buddy : Buddy) (seg : Nat) : Nat :=
  ((Finset.range (buddy.maxOrder + 1)).filter fun order =>
    testBit (buddy.bits order) (seg / 2 ^ order) = true).card

/-- The number of free blocks of an order. -/
def freeOf (buddy : Buddy) (order : Nat) : Nat :=
  ((Finset.range (2 ^ (buddy.maxOrder - order))).filter fun index =>
    testBit (buddy.bits order) index = true).card

/-- What the allocator promises: the blocks stand at multiples of their size, every segment lies in
exactly one block, allocated or free, no two buddies below the largest order are both free, and the
counts are those of the set bits. -/
structure Sound (sys : BuddySys) : Prop where
  aligned : ∀ block ∈ sys.blocks, 2 ^ block.order ∣ block.seg
  inside : ∀ block ∈ sys.blocks, block.order ≤ sys.buddy.maxOrder ∧
    block.seg + 2 ^ block.order ≤ 2 ^ sys.buddy.maxOrder
  range : ∀ order ≤ sys.buddy.maxOrder, ∀ index, testBit (sys.buddy.bits order) index = true →
    index < 2 ^ (sys.buddy.maxOrder - order)
  once : ∀ seg < 2 ^ sys.buddy.maxOrder,
    sys.blocks.countP (fun block => decide (block.Covers seg)) + freeAround sys.buddy seg = 1
  lone : ∀ order < sys.buddy.maxOrder, ∀ index,
    ¬ (testBit (sys.buddy.bits order) index = true ∧
      testBit (sys.buddy.bits order) (index ^^^ 1) = true)
  counts : ∀ order ≤ sys.buddy.maxOrder, sys.buddy.numFree order = freeOf sys.buddy order

/-- The promise, with the sizes of the bitmaps. -/
structure Kept (sys : BuddySys) : Prop extends Sound sys where
  small : sys.buddy.maxOrder ≤ 30
  words : ∀ order ≤ sys.buddy.maxOrder,
    2 ^ (sys.buddy.maxOrder - order) ≤ 32 * (sys.buddy.bits order).length

/-- A predicate that becomes true at one place of a set has one element more there. -/
theorem card_filter_flip {places : Finset Nat} {before after : Nat → Prop} [DecidablePred before]
    [DecidablePred after] {place : Nat} (member : place ∈ places) (was : ¬ before place)
    (is : after place) (same : ∀ other, other ≠ place → (after other ↔ before other)) :
    (places.filter after).card = (places.filter before).card + 1 := by
  have inserted : places.filter after = insert place (places.filter before) := by
    ext other
    simp only [Finset.mem_filter, Finset.mem_insert]
    by_cases here : other = place
    · subst here
      simp [member, is]
    · simp [here, same other here]
  rw [inserted, Finset.card_insert_of_notMem]
  simp [was]

theorem xor_one (index : Nat) : index ^^^ 1 = if index % 2 = 0 then index + 1 else index - 1 := by
  have half : (index ^^^ 1) / 2 = index / 2 := by rw [Nat.xor_div_two, Nat.xor_zero]
  have rest := @Nat.xor_mod_two_eq index 1
  split <;> omega

/-- One bit is set in `after` and clear in `before`; the other bits agree. -/
structure Flipped (before after : Buddy) (order index : Nat) : Prop where
  maxOrder : after.maxOrder = before.maxOrder
  was : testBit (before.bits order) index = false
  bits : ∀ other place, testBit (after.bits other) place =
    (decide (other = order ∧ place = index) || testBit (before.bits other) place)

namespace Flipped
variable {before after : Buddy} {order index : Nat}

theorem around (flip : Flipped before after order index) (inside : order ≤ before.maxOrder) (seg : Nat) :
    freeAround after seg = freeAround before seg + if seg / 2 ^ order = index then 1 else 0 := by
  unfold freeAround
  rw [flip.maxOrder]
  split
  · next here =>
    apply card_filter_flip (Finset.mem_range_succ_iff.mpr inside)
    · rw [here, flip.was]
      exact Bool.noConfusion
    · simp [flip.bits, here]
    · intro other different
      simp [flip.bits, different]
  · next elsewhere =>
    refine congrArg Finset.card (Finset.filter_congr fun other _ => ?_)
    have apart : ¬ (other = order ∧ seg / 2 ^ other = index) := by
      rintro ⟨rfl, here⟩
      exact elsewhere here
    simp [flip.bits, apart]

theorem counts (flip : Flipped before after order index)
    (inside : index < 2 ^ (before.maxOrder - order)) (other : Nat) :
    freeOf after other = freeOf before other + if other = order then 1 else 0 := by
  unfold freeOf
  rw [flip.maxOrder]
  split
  · next here =>
    subst here
    apply card_filter_flip (Finset.mem_range.mpr inside)
    · rw [flip.was]
      exact Bool.noConfusion
    · simp [flip.bits]
    · intro place different
      simp [flip.bits, different]
  · next elsewhere => simp [flip.bits, elsewhere]

end Flipped

theorem flipped_setFree {buddy : Buddy} {order index : Nat}
    (inside : index < 32 * (buddy.bits order).length) (clear : testBit (buddy.bits order) index = false) :
    Flipped buddy (buddy.setFree order index) order index := by
  refine ⟨rfl, clear, fun other place => ?_⟩
  unfold Buddy.setFree
  by_cases here : other = order
  · subst here
    simp [testBit_setBit inside]
  · simp [here]

theorem flipped_clearFree {buddy : Buddy} {order index : Nat}
    (inside : index < 32 * (buddy.bits order).length) (set : testBit (buddy.bits order) index = true) :
    Flipped (buddy.clearFree order index) buddy order index := by
  unfold Buddy.clearFree
  refine ⟨rfl, ?_, fun other place => ?_⟩
  · simp [testBit_clearBit inside]
  · by_cases here : other = order
    · subst here
      by_cases same : place = index
      · simp [same, set]
      · simp [testBit_clearBit inside, same]
    · simp [here]

section
variable (buddy : Buddy) (order index other : Nat)
include buddy order index other

theorem numFree_setFree : (buddy.setFree order index).numFree other =
      if other = order then u32 (buddy.numFree order + 1) else buddy.numFree other :=
  Function.update_apply ..

theorem numFree_clearFree : (buddy.clearFree order index).numFree other =
      if other = order then u32 (buddy.numFree order + 2 ^ 32 - 1) else buddy.numFree other :=
  Function.update_apply ..

theorem length_setFree : ((buddy.setFree order index).bits other).length = (buddy.bits other).length := by
  unfold Buddy.setFree
  by_cases here : other = order
  · simp [here]
  · simp [here]

theorem length_clearFree :
    ((buddy.clearFree order index).bits other).length = (buddy.bits other).length := by
  unfold Buddy.clearFree
  by_cases here : other = order
  · simp [here]
  · simp [here]

end

theorem covers_iff (index order seg : Nat) :
    (Block.mk (index * 2 ^ order) order).Covers seg ↔ seg / 2 ^ order = index := by
  have positive := Nat.two_pow_pos order
  rw [Nat.div_eq_iff positive]
  unfold Block.Covers
  simp only
  omega

theorem countP_cons (index order seg : Nat) (blocks : List Block) :
    (Block.mk (index * 2 ^ order) order :: blocks).countP (fun block => decide (block.Covers seg)) =
      blocks.countP (fun block => decide (block.Covers seg)) + if seg / 2 ^ order = index then 1 else 0 := by
  rw [List.countP_cons]
  simp [covers_iff]

/-- The block with a number lies in the table. -/
theorem room_iff {order maxOrder : Nat} (low : order ≤ maxOrder) (index : Nat) :
    index * 2 ^ order + 2 ^ order ≤ 2 ^ maxOrder ↔ index < 2 ^ (maxOrder - order) := by
  rw [← Nat.add_one_mul, ← Nat.pow_sub_mul_pow 2 low]
  exact Nat.mul_le_mul_right_iff (Nat.two_pow_pos order)

namespace Kept
variable {buddy : Buddy} {blocks : List Block} {order index : Nat}

section
variable (kept : Kept ⟨buddy, blocks⟩)
include kept

theorem index_lt (member : ⟨index * 2 ^ order, order⟩ ∈ blocks) :
    order ≤ buddy.maxOrder ∧ index < 2 ^ (buddy.maxOrder - order) := by
  obtain ⟨low, high⟩ := kept.inside _ member
  exact ⟨low, (room_iff low index).mp high⟩

theorem index_lt_words (low : order ≤ buddy.maxOrder)
    (below : index < 2 ^ (buddy.maxOrder - order)) : index < 32 * (buddy.bits order).length :=
  Nat.lt_of_lt_of_le below (kept.words order low)

/-- A block handed out is not free. -/
theorem clear_of_mem (member : ⟨index * 2 ^ order, order⟩ ∈ blocks) :
    testBit (buddy.bits order) index = false := by
  obtain ⟨low, high⟩ := kept.inside _ member
  simp only at low high
  have positive := Nat.two_pow_pos order
  have once := kept.once (index * 2 ^ order) (by simp only; omega)
  have covered : 0 < blocks.countP fun block => decide (block.Covers (index * 2 ^ order)) :=
    countP_pos_iff.mpr ⟨_, member, by simp [Block.Covers, positive]⟩
  apply Bool.eq_false_iff.mpr
  intro set
  have around : 0 < freeAround buddy (index * 2 ^ order) := by
    apply Finset.card_pos.mpr
    refine ⟨order, Finset.mem_filter.mpr ⟨Finset.mem_range_succ_iff.mpr low, ?_⟩⟩
    rwa [Nat.mul_div_cancel _ positive]
  simp only at once
  omega

/-- The counts are small enough for `unsigned`. -/
theorem freeOf_le (order : Nat) : freeOf buddy order ≤ 2 ^ 30 := by
  calc freeOf buddy order ≤ (Finset.range (2 ^ (buddy.maxOrder - order))).card := Finset.card_filter_le _ _
    _ = 2 ^ (buddy.maxOrder - order) := Finset.card_range _
    _ ≤ 2 ^ 30 := Nat.pow_le_pow_right (by decide) (Nat.le_trans (Nat.sub_le _ _) kept.small)

/-- A free block is taken. -/
theorem take (low : order ≤ buddy.maxOrder) (set : testBit (buddy.bits order) index = true) :
    Kept ⟨buddy.clearFree order index, ⟨index * 2 ^ order, order⟩ :: blocks⟩ := by
  have below := kept.range order low index set
  have flip := flipped_clearFree (kept.index_lt_words low below) set
  have was : ∀ other place, testBit ((buddy.clearFree order index).bits other) place = true →
      testBit (buddy.bits other) place = true := by
    intro other place held
    rw [flip.bits, held, Bool.or_true]
  constructor
  · constructor
    · exact forall_mem_cons.mpr ⟨Nat.dvd_mul_left _ _, kept.aligned⟩
    · exact forall_mem_cons.mpr ⟨⟨low, (room_iff low index).mpr below⟩, kept.inside⟩
    · exact fun other inside place held => kept.range other inside place (was other place held)
    · intro seg inside
      have once := kept.once seg inside
      have around := flip.around low seg
      rw [countP_cons]
      simp only at once ⊢
      omega
    · exact fun other inside place both =>
        kept.lone other inside place ⟨was _ _ both.1, was _ _ both.2⟩
    · intro other inside
      have counts := kept.counts other inside
      have flips := flip.counts below other
      have bound := kept.freeOf_le other
      simp only [numFree_clearFree] at counts ⊢
      split_ifs at flips ⊢ with here
      · subst here
        rw [counts, flips, u32]
        omega
      · rw [counts, flips, Nat.add_zero]
  · exact kept.small
  · intro other inside
    simp only [length_clearFree]
    exact kept.words other inside

end

/-- A block is given back whose buddy is not free. -/
theorem give (kept : Kept ⟨buddy, ⟨index * 2 ^ order, order⟩ :: blocks⟩)
    (alone : order < buddy.maxOrder → testBit (buddy.bits order) (index ^^^ 1) = false) :
    Kept ⟨buddy.setFree order index, blocks⟩ := by
  have mine : Block.mk (index * 2 ^ order) order ∈ Block.mk (index * 2 ^ order) order :: blocks :=
    mem_cons_self ..
  obtain ⟨low, below⟩ := kept.index_lt mine
  have flip := flipped_setFree (kept.index_lt_words low below) (kept.clear_of_mem mine)
  constructor
  · constructor
    · exact (forall_mem_cons.mp kept.aligned).2
    · exact (forall_mem_cons.mp kept.inside).2
    · intro other inside place held
      rw [flip.bits, Bool.or_eq_true, decide_eq_true_iff] at held
      rcases held with ⟨rfl, rfl⟩ | held
      · exact below
      · exact kept.range other inside place held
    · intro seg inside
      have once := kept.once seg inside
      have around := flip.around low seg
      rw [countP_cons] at once
      simp only at once ⊢
      omega
    · rintro other inside place ⟨first, second⟩
      rw [flip.bits, Bool.or_eq_true, decide_eq_true_iff] at first second
      rcases first with ⟨rfl, rfl⟩ | first <;> rcases second with ⟨here, same⟩ | second
      · rw [xor_one] at same
        split at same <;> omega
      · rw [alone inside] at second
        exact Bool.noConfusion second
      · rw [← same, ← here, Nat.xor_assoc, Nat.xor_self, Nat.xor_zero, first] at alone
        exact Bool.noConfusion (alone inside)
      · exact kept.lone other inside place ⟨first, second⟩
    · intro other inside
      have counts := kept.counts other inside
      have flips := flip.counts below other
      have bound := kept.freeOf_le other
      simp only [numFree_setFree] at counts ⊢
      split_ifs at flips ⊢ with here
      · subst here
        rw [counts, flips, u32]
        omega
      · rw [counts, flips, Nat.add_zero]
  · exact kept.small
  · intro other inside
    simp only [length_setFree]
    exact kept.words other inside

/-- Two lists of blocks that cover the same segments. -/
theorem regroup (kept : Kept ⟨buddy, blocks⟩) {others : List Block}
    (aligned : ∀ block ∈ others, 2 ^ block.order ∣ block.seg)
    (inside : ∀ block ∈ others, block.order ≤ buddy.maxOrder ∧
      block.seg + 2 ^ block.order ≤ 2 ^ buddy.maxOrder)
    (same : ∀ seg, others.countP (fun block => decide (block.Covers seg)) =
      blocks.countP (fun block => decide (block.Covers seg))) : Kept ⟨buddy, others⟩ where
  aligned := aligned
  inside := inside
  range := kept.range
  once seg below := by
    rw [same]
    exact kept.once seg below
  lone := kept.lone
  counts := kept.counts
  small := kept.small
  words := kept.words

theorem perm (kept : Kept ⟨buddy, blocks⟩) {others : List Block} (same : others.Perm blocks) :
    Kept ⟨buddy, others⟩ :=
  kept.regroup (fun block member => kept.aligned block (same.subset member))
    (fun block member => kept.inside block (same.subset member)) fun _ => same.countP_eq _

/-- A block is its two halves. -/
theorem halves (index order seg : Nat) :
    (if seg / 2 ^ (order + 1) = index then 1 else 0) =
      (if seg / 2 ^ order = 2 * index then 1 else 0) + if seg / 2 ^ order = 2 * index + 1 then 1 else 0 := by
  rw [Nat.pow_succ, ← Nat.div_div_eq_div_mul]
  split <;> split <;> split <;> omega

/-- One half of a block becomes free. -/
theorem split (kept : Kept ⟨buddy, ⟨index * 2 ^ (order + 1), order + 1⟩ :: blocks⟩) :
    Kept ⟨buddy.setFree order ((2 * index) ^^^ 1), ⟨2 * index * 2 ^ order, order⟩ :: blocks⟩ := by
  obtain ⟨low, below⟩ := kept.index_lt (mem_cons_self ..)
  have sibling : (2 * index) ^^^ 1 = 2 * index + 1 := by rw [xor_one, if_pos (by omega)]
  have wide := mul_pow_sub_one (show buddy.maxOrder - order ≠ 0 by omega) 2
  rw [Nat.sub_sub] at wide
  have both : Kept ⟨buddy, ⟨(2 * index + 1) * 2 ^ order, order⟩ :: ⟨2 * index * 2 ^ order, order⟩ ::
      blocks⟩ := by
    apply kept.regroup
    · simp only [forall_mem_cons]
      exact ⟨Nat.dvd_mul_left _ _, Nat.dvd_mul_left _ _, (forall_mem_cons.mp kept.aligned).2⟩
    · simp only [forall_mem_cons]
      have inside : order ≤ buddy.maxOrder := by omega
      exact ⟨⟨inside, (room_iff inside _).mpr (by omega)⟩, ⟨inside, (room_iff inside _).mpr (by omega)⟩,
        (forall_mem_cons.mp kept.inside).2⟩
    · intro seg
      rw [countP_cons, countP_cons, countP_cons, halves]
      omega
  rw [sibling]
  apply both.give
  intro _
  rw [← sibling, Nat.xor_assoc, Nat.xor_self, Nat.xor_zero]
  exact both.clear_of_mem (mem_cons_of_mem _ (mem_cons_self ..))

/-- A block and its free buddy become one block. -/
theorem merge (kept : Kept ⟨buddy, ⟨index * 2 ^ order, order⟩ :: blocks⟩)
    (set : testBit (buddy.bits order) (index ^^^ 1) = true) :
    Kept ⟨buddy.clearFree order (index ^^^ 1), ⟨index / 2 * 2 ^ (order + 1), order + 1⟩ :: blocks⟩ := by
  obtain ⟨low, below⟩ := kept.index_lt (mem_cons_self ..)
  have sibling := kept.range order low _ set
  simp only at sibling
  have higher : order < buddy.maxOrder := by
    by_contra last
    rw [show buddy.maxOrder - order = 0 by omega, xor_one] at *
    split at sibling <;> omega
  have wide := mul_pow_sub_one (show buddy.maxOrder - order ≠ 0 by omega) 2
  rw [Nat.sub_sub] at wide
  apply (kept.take low set).regroup
  · simp only [forall_mem_cons]
    exact ⟨Nat.dvd_mul_left _ _, (forall_mem_cons.mp kept.aligned).2⟩
  · simp only [forall_mem_cons]
    have next : order + 1 ≤ buddy.maxOrder := higher
    exact ⟨⟨next, (room_iff next _).mpr (by omega)⟩, (forall_mem_cons.mp kept.inside).2⟩
  · intro seg
    rw [countP_cons, countP_cons, countP_cons, halves, xor_one]
    split <;> split <;> split <;> split <;> split <;> omega

/-! ## The calls -/

theorem splitDown {seg rounds : Nat}
    (kept : Kept ⟨buddy, ⟨seg * 2 ^ (order + rounds), order + rounds⟩ :: blocks⟩) :
    Kept ⟨(buddy.splitDown order rounds seg).2,
      ⟨(buddy.splitDown order rounds seg).1 * 2 ^ order, order⟩ :: blocks⟩ := by
  induction rounds generalizing buddy seg with
  | zero => exact kept
  | succ rounds ih => exact ih kept.split

theorem mergeUp {seg rounds : Nat} (kept : Kept ⟨buddy, ⟨seg * 2 ^ order, order⟩ :: blocks⟩)
    (left : rounds + order = buddy.maxOrder + 1) :
    ∃ after, buddy.mergeUp rounds seg order = some after ∧ Kept ⟨after, blocks⟩ := by
  induction rounds generalizing buddy seg order with
  | zero =>
    have := (kept.index_lt (mem_cons_self ..)).1
    omega
  | succ rounds ih =>
    rw [Buddy.mergeUp]
    cases set : testBit (buddy.bits order) (seg ^^^ 1) with
    | true => exact ih (kept.merge set) (by rw [← Nat.add_assoc, Nat.add_right_comm]; exact left)
    | false => exact ⟨_, rfl, kept.give fun _ => set⟩

section
variable (kept : Kept ⟨buddy, blocks⟩)
include kept

/-- The search at an order finds a free block if there is one. -/
theorem freeAt (low : order ≤ buddy.maxOrder) : (∀ found, buddy.freeAt order = some found →
      found.1 = order ∧ testBit (buddy.bits order) found.2 = true) ∧
    (buddy.freeAt order = none → ∀ index, testBit (buddy.bits order) index = false) := by
  have small : 2 ^ (buddy.maxOrder - order) ≤ 2 ^ 30 :=
    Nat.pow_le_pow_right (by decide) (Nat.le_trans (Nat.sub_le _ _) kept.small)
  have words := kept.words order low
  simp only at words
  have search := @found_findFirst true (2 ^ (buddy.maxOrder - order)) (buddy.bits order) (by omega)
    (by omega)
  unfold Buddy.freeAt
  dsimp only
  split
  · next found =>
    refine ⟨fun place is => ?_, fun none => nomatch none⟩
    cases is
    exact ⟨rfl, (search.hit found.2).2⟩
  · next missing =>
    refine ⟨fun _ is => (nomatch is), fun _ index => Bool.eq_false_iff.mpr fun set => ?_⟩
    have below := kept.range order low index set
    have counted : buddy.numFree order ≠ 0 := by
      rw [kept.counts order low]
      exact Finset.card_ne_zero_of_mem (Finset.mem_filter.mpr ⟨Finset.mem_range.mpr below, set⟩)
    have nowhere := search.miss (Nat.le_of_not_lt fun less => missing ⟨counted, less⟩) index
      (Nat.zero_le _) below
    rw [set] at nowhere
    exact Bool.noConfusion nowhere

/-- An allocation fails exactly if no block of its order or a larger one is free. -/
theorem alloc (order : Nat) : ((buddy.alloc order).1 = ulongMax ∧ (buddy.alloc order).2 = buddy ∧
      ∀ larger, order ≤ larger → larger ≤ buddy.maxOrder → ∀ index,
        testBit (buddy.bits larger) index = false) ∨
    ((buddy.alloc order).1 ≠ ulongMax ∧
      Kept ⟨(buddy.alloc order).2, ⟨(buddy.alloc order).1, order⟩ :: blocks⟩ ∧
      ∃ larger index, order ≤ larger ∧ larger ≤ buddy.maxOrder ∧
        testBit (buddy.bits larger) index = true) := by
  unfold Buddy.alloc
  cases found : (range' order (buddy.maxOrder + 1 - order)).findSome? buddy.freeAt with
  | none =>
    refine .inl ⟨rfl, rfl, fun larger low high => ?_⟩
    have member : larger ∈ range' order (buddy.maxOrder + 1 - order) := by
      rw [mem_range'_1]
      omega
    exact (kept.freeAt high).2 (findSome?_eq_none_iff.mp found larger member)
  | some place =>
    obtain ⟨larger, member, at_⟩ := exists_of_findSome?_eq_some found
    rw [mem_range'_1] at member
    have high : larger ≤ buddy.maxOrder := by omega
    obtain ⟨same, set⟩ := (kept.freeAt high).1 place at_
    obtain ⟨_, seg⟩ := place
    subst same
    have taken := kept.take high set
    rw [← Nat.add_sub_cancel' member.1] at taken
    have done := taken.splitDown
    rw [Nat.add_sub_cancel' member.1] at done
    refine .inr ⟨?_, done, _, seg, member.1, high, set⟩
    have inside := (done.inside _ (mem_cons_self ..)).2
    have small := Nat.pow_le_pow_right Nat.two_pos done.small
    have positive := Nat.two_pow_pos order
    simp only at inside small ⊢
    unfold ulongMax
    omega

theorem free {place : Nat} {block : Block} (here : blocks[place]? = some block) :
    ∃ after, buddy.free block.seg block.order = some after ∧ Kept ⟨after, blocks.eraseIdx place⟩ := by
  obtain ⟨inRange, get⟩ := List.getElem?_eq_some_iff.mp here
  have same : (block :: blocks.eraseIdx place).Perm blocks := by
    rw [← get]
    exact getElem_cons_eraseIdx_perm inRange
  have mine := same.subset (mem_cons_self ..)
  obtain ⟨index, is⟩ := kept.aligned block mine
  have first : block = ⟨index * 2 ^ block.order, block.order⟩ := by
    rw [Nat.mul_comm, ← is]
  have low := (kept.inside block mine).1
  simp only at low
  have front := kept.perm same
  rw [first] at front
  unfold Buddy.free
  rw [is, Nat.mul_div_cancel_left _ (Nat.two_pow_pos _)]
  exact front.mergeUp (by omega)

end

theorem next {sys after : BuddySys} {call : BuddyCall} (kept : Kept sys)
    (taken : sys.next call = some after) : Kept after := by
  cases call with
  | alloc order =>
    cases taken
    rcases kept.alloc order with ⟨failed, same, _⟩ | ⟨worked, held, _⟩
    · rw [if_pos failed, same]
      exact kept
    · rw [if_neg worked]
      exact held
  | free place =>
    obtain ⟨block, here, freed⟩ := Option.bind_eq_some_iff.mp taken
    obtain ⟨buddy, merged, done⟩ := Option.bind_eq_some_iff.mp freed
    cases done
    obtain ⟨_, is, held⟩ := kept.free here
    cases is.symm.trans merged
    exact held

/-- The table without a free block, all of which is handed out. -/
theorem whole {maxOrder : Nat} (small : maxOrder ≤ 30) :
    Kept ⟨⟨maxOrder, fun order => List.replicate (bitsToLongs (2 ^ (maxOrder - order))) 0#32, fun _ => 0⟩,
      [⟨0 * 2 ^ maxOrder, maxOrder⟩]⟩ where
  aligned := by simp
  inside := by simp
  range := by simp
  once seg below := by
    rw [countP_cons]
    simp [freeAround, Nat.div_eq_of_lt below]
  lone := by simp
  counts := by simp [freeOf]
  small := small
  words order _ := by
    have bound : 2 ^ (maxOrder - order) ≤ 2 ^ 30 := Nat.pow_le_pow_right (by decide) (by omega)
    simp only [length_replicate]
    rw [bitsToLongs_eq (by omega)]
    omega

theorem init {memory : Bool} {maxOrder : Nat}
    (made : Buddy.init memory maxOrder = .ok buddy) : Kept ⟨buddy, []⟩ := by
  unfold Buddy.init at made
  split at made
  · next admitted =>
    cases made
    have given := (whole (Nat.le_of_lt_succ admitted.2)).give fun less => absurd less (Nat.lt_irrefl _)
    refine cast (congrArg (fun buddy => Kept ⟨buddy, []⟩) ?_) given
    unfold Buddy.setFree
    congr 1
    · funext order
      simp only [Function.update_apply, Nat.sub_self, Nat.pow_zero]
    · funext order
      exact Function.update_apply ..
  · cases made

end Kept

/-- In every state that any sequence of allocations and releases leads to, the blocks are as promised,
every block can be returned, and an allocation fails exactly if no block of its order or a larger one is
free. -/
theorem blocks_of_reachable {memory : Bool} {maxOrder : Nat} {buddy : Buddy} {sys : BuddySys}
    (made : Buddy.init memory maxOrder = .ok buddy)
    (reached : (machine buddy).Reachable (fun _ _ => True) sys) :
    sys.Sound ∧ (∀ place < sys.blocks.length, (sys.next (.free place)).isSome) ∧
    ∀ order, (sys.buddy.alloc order).1 = ulongMax ↔
      ¬ ∃ larger index, order ≤ larger ∧ larger ≤ sys.buddy.maxOrder ∧
        testBit (sys.buddy.bits larger) index = true := by
  have kept : Kept sys := by
    apply reached.invariant
    · rintro _ rfl
      exact Kept.init made
    · exact fun _ _ _ kept _ taken => kept.next taken
  refine ⟨kept.toSound, fun place inside => ?_, fun order => ?_⟩
  · have here := List.getElem?_eq_getElem inside
    obtain ⟨after, freed, _⟩ := kept.free here
    simp [next, here, freed]
  · rcases kept.alloc order with ⟨failed, _, none⟩ | ⟨worked, _, some⟩
    · refine iff_of_true failed ?_
      rintro ⟨larger, index, low, high, set⟩
      rw [none larger low high index] at set
      exact Bool.noConfusion set
    · exact iff_of_false worked (not_not.mpr some)

/-- A table of four segments, of which two are taken and given back. -/
theorem four_blocks : ∃ buddy, Buddy.init true 2 = .ok buddy ∧
    ∃ sys, Machine.run next ⟨buddy, []⟩ [.alloc 0, .alloc 1, .free 1] = some sys ∧
      sys.blocks = [⟨2, 1⟩] ∧ sys.Sound := by
  obtain ⟨buddy, made⟩ : ∃ buddy, Buddy.init true 2 = .ok buddy := ⟨_, rfl⟩
  have run : ∀ buddy, Buddy.init true 2 = .ok buddy → ∃ sys, Machine.run next ⟨buddy, []⟩
      [.alloc 0, .alloc 1, .free 1] = some sys ∧ sys.blocks = [⟨2, 1⟩] := by
    rintro _ ⟨⟩
    exact Machine.run_of_any (by decide +kernel)
  obtain ⟨sys, ended, blocks⟩ := run buddy made
  have fresh : (machine buddy).Reachable (fun _ _ => True) ⟨buddy, []⟩ := .initial rfl
  have reached := fresh.run (Machine.guarded_of_forall (fun _ _ => trivial) _ _) ended
  exact ⟨buddy, made, sys, ended, blocks, (blocks_of_reachable made reached).1⟩

end BuddySys
end WinOFED.Mlx4
