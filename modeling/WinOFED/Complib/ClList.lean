import WinOFED.Complib.ClMap

/-! The object list `cl_list_t`: arrays of objects inserted at one of its ends.

A list is the sequence of the objects it holds, each the address of an array element. `grants` tells
whether `cl_qpool_get` has an item, by the number of objects left to be inserted after this one. -/
namespace WinOFED.Complib.ClList
open List

/-- The loop of both functions. Its test has taken a refused object off the count of objects that
bounds the removals. -/
def insertArray (insert : Int → List Int → List Int) (remove : List Int → List Int) (step : Int)
    (grants : Nat → Bool) : Nat → Int → List Int → ClStatus × List Int
  | 0, _, list => (.success, list)
  | itemCount + 1, object, list =>
    if grants itemCount then
      insertArray insert remove step grants itemCount (object + step) (insert object list)
    else (.insufficientMemory, remove^[itemCount] list)

/-- `cl_list_insert_array_head`. The offset of the last element is a product of 32 bits. -/
def insertArrayHead (grants : Nat → Bool) (list : List Int) (array : Int)
    (itemCount itemSize : Nat) : ClStatus × List Int :=
  insertArray cons tail (-itemSize) grants itemCount
    (array + (itemSize * (itemCount - 1) % 2 ^ 32 : Nat)) list

/-- `cl_list_insert_array_tail`. -/
def insertArrayTail (grants : Nat → Bool) (list : List Int) (array : Int)
    (itemCount itemSize : Nat) : ClStatus × List Int :=
  insertArray (fun object list => list ++ [object]) dropLast itemSize grants itemCount array list

/-- The addresses of `count` objects. -/
def objects (step object : Int) (count : Nat) : List Int :=
  (range count).map fun index : Nat => object + step * index

/-- The call inserts the whole array, or fails and leaves the list as it was. -/
def Atomic (old whole : List Int) (result : ClStatus × List Int) : Prop :=
  result = (.success, whole) ∨ result.1 ≠ .success ∧ result.2 = old

/-- How many objects are inserted before the pool has no item. -/
def inserted (grants : Nat → Bool) : Nat → Nat
  | 0 => 0
  | itemCount + 1 => if grants itemCount then inserted grants itemCount + 1 else 0

/-- As many objects were inserted before a refusal as are left untried, or the list was empty and no
more objects were inserted. -/
def Undone (old : List Int) (inserted itemCount : Nat) : Prop :=
  2 * inserted + 1 = itemCount ∨ old = [] ∧ 2 * inserted + 1 ≤ itemCount

theorem inserted_le (grants : Nat → Bool) (itemCount : Nat) : inserted grants itemCount ≤ itemCount := by
  induction itemCount with
  | zero => exact le_rfl
  | succ itemCount ih =>
    rw [inserted]
    split <;> omega

theorem iterate_tail (rounds : Nat) (list : List Int) : tail^[rounds] list = list.drop rounds := by
  induction rounds with
  | zero => rfl
  | succ rounds ih => rw [Function.iterate_succ_apply', ih, tail_drop]

theorem objects_succ (step object : Int) (count : Nat) :
    objects step object (count + 1) = object :: objects step (object + step) count := by
  simp [objects, range_succ_eq_map, mul_add, add_assoc, add_comm, add_left_comm]

section
variable (step : Int) (grants : Nat → Bool) (itemCount : Nat) (object : Int) (list : List Int)

/-- Insertion at the tail is insertion at the head of the reversed list. -/
theorem insertArray_tail :
    insertArray (fun object list => list ++ [object]) dropLast step grants itemCount object list =
      Prod.map id reverse (insertArray cons tail step grants itemCount object list.reverse) := by
  induction itemCount generalizing object list with
  | zero => simp [insertArray]
  | succ itemCount ih =>
    rw [insertArray, insertArray]
    split
    · rw [ih, reverse_concat]
    · have reversed : Function.Semiconj reverse tail (dropLast (α := Int)) := fun list => by simp
      simp [(reversed.iterate_right itemCount).eq]

/-- After a refusal the loop removes one object for each object it has not tried. -/
theorem insertArray_eq : insertArray cons tail step grants itemCount object list =
    if inserted grants itemCount = itemCount then
      (.success, (objects step object itemCount).reverse ++ list)
    else (.insufficientMemory, ((objects step object (inserted grants itemCount)).reverse ++ list).drop
      (itemCount - 1 - inserted grants itemCount)) := by
  induction itemCount generalizing object list with
  | zero => rfl
  | succ itemCount ih =>
    rw [insertArray, inserted]
    split
    · rw [ih]
      simp [objects_succ, Nat.sub_sub, Nat.add_comm 1]
    · simp [objects, iterate_tail]

theorem atomic_insertArray {whole : List Int} :
    Atomic list whole (insertArray cons tail step grants itemCount object list) ↔
      inserted grants itemCount = itemCount ∧
          (objects step object itemCount).reverse ++ list = whole ∨
        Undone list (inserted grants itemCount) itemCount := by
  have few := inserted_le grants itemCount
  have length : ∀ count, (objects step object count).reverse.length = count := by simp [objects]
  rw [insertArray_eq, Atomic, Undone]
  split
  next all =>
    simp only [all, Prod.mk.injEq, true_and, ne_eq, not_true_eq_false, false_and, or_false]
    exact (or_iff_left (by omega)).symm
  next refused =>
    simp only [refused, false_and, false_or, Prod.mk.injEq, reduceCtorEq, ne_eq, not_false_eq_true,
      true_and]
    constructor
    · intro same
      have kept := congrArg List.length same
      rw [length_drop, length_append, length] at kept
      rcases list with - | ⟨first, rest⟩
      · exact .inr ⟨rfl, by simp at kept; omega⟩
      · exact .inl (by simp at kept; omega)
    · rintro (right | ⟨rfl, enough⟩)
      · exact drop_left' (by rw [length]; omega)
      · exact drop_eq_nil_of_le (by rw [append_nil, length]; omega)

end

/-- The array's objects, from the last one to the first. -/
theorem reverse_objects (step object : Int) (count : Nat) :
    (objects (-step) object count).reverse = objects step (object - step * (count - 1)) count := by
  rw [objects, ← map_reverse, range_eq_range', reverse_range', map_map]
  apply map_congr_left
  intro index inside
  obtain ⟨rest, rfl⟩ := Nat.exists_eq_add_of_lt (mem_range.mp inside)
  rw [Function.comp_apply, show 0 + (index + rest + 1) - 1 - index = rest by omega]
  push_cast
  ring

/-- Both functions are atomic up to the removals after a refusal, and the one for the head up to the
offset of the last element. -/
theorem insertArrays_atomic_iff (grants : Nat → Bool) (old : List Int) (array : Int)
    (itemCount itemSize : Nat) :
    (Atomic old (objects itemSize array itemCount ++ old)
        (insertArrayHead grants old array itemCount itemSize) ↔
      inserted grants itemCount = itemCount ∧
          (itemCount = 0 ∨ itemSize * (itemCount - 1) < 2 ^ 32) ∨
        Undone old (inserted grants itemCount) itemCount) ∧
    (Atomic old (old ++ objects itemSize array itemCount)
        (insertArrayTail grants old array itemCount itemSize) ↔
      inserted grants itemCount = itemCount ∨ Undone old (inserted grants itemCount) itemCount) := by
  constructor
  · rw [insertArrayHead, atomic_insertArray, reverse_objects, append_cancel_right_eq]
    refine or_congr_left (and_congr_right fun _ => ?_)
    cases itemCount with
    | zero => simp [objects]
    | succ count =>
      have base : array + (itemSize * count % 2 ^ 32 : Nat) - itemSize * count = array ↔
          itemSize * count < 2 ^ 32 := by
        rw [← Nat.cast_mul]
        omega
      rw [Nat.add_sub_cancel, Nat.cast_add_one, add_sub_cancel_right, ← base,
        or_iff_right (Nat.succ_ne_zero count)]
      refine ⟨fun same => ?_, fun same => by rw [same]⟩
      rw [objects_succ, objects_succ] at same
      exact (cons.inj same).1
  · have reversed : Atomic old (old ++ objects itemSize array itemCount)
        (insertArrayTail grants old array itemCount itemSize) ↔
        Atomic old.reverse (old ++ objects itemSize array itemCount).reverse
          (insertArray cons tail itemSize grants itemCount array old.reverse) := by
      simp [insertArrayTail, insertArray_tail, Atomic, Prod.ext_iff, reverse_eq_iff]
    rw [reversed, atomic_insertArray]
    simp [Undone]

/-- A list of one object, two objects for it and no item in the pool: the object is lost. -/
theorem emptyPool_lost :
    insertArrayHead (fun _ => false) [7] 100 2 8 = (.insufficientMemory, []) ∧
      insertArrayTail (fun _ => false) [7] 100 2 8 = (.insufficientMemory, []) := by decide

end WinOFED.Complib.ClList
