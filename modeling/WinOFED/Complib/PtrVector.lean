import WinOFED.Memory.Extent
import WinOFED.Transition.Machine

/-! The pointer vector `cl_ptr_vector_t`.

A vector keeps its pointers in one array that is replaced by a larger one when the vector grows.
The array is modelled by the cells of its allocation, so that a capacity that does not match the
allocation, or an access past it, can be told. -/
namespace WinOFED.Complib
open WinOFED.Memory WinOFED.Transition List

/-- The results the vector functions return; an element initialiser has results of its own. -/
inductive VectorStatus
  | success | insufficientMemory | initializerFailed
  deriving DecidableEq, Repr

/-- `sizeof(void*)`. -/
def ptrBytes : Nat := 8

theorem cells_eq {count : Nat} (fits : count * ptrBytes < 2 ^ 64) :
    wrap (count * ptrBytes) / ptrBytes = count := by
  rw [wrap_of_lt fits, Nat.mul_div_cancel _ (by decide)]

/-- The capacity asked for when a vector grows to `size`: `size` rounded up to the grow size,
in `size_t` arithmetic. -/
def newCapacity (size growSize : Nat) : Nat :=
  if size % growSize = 0 then size else wrap (size + (growSize - size % growSize))

theorem newCapacity_eq_roundUp {size growSize : Nat} (fits : roundUp size growSize < 2 ^ 64) :
    newCapacity size growSize = roundUp size growSize := by
  unfold newCapacity roundUp at *
  split
  · rfl
  · rename_i partly
    rw [if_neg partly] at fits
    exact wrap_of_lt fits

/-- A stored `void*`; `0` is `NULL`. -/
abbrev Ptr := Nat

/-- `cl_memcpy` of the first `count` cells of one array over the start of another one. -/
def copyCells (source target : List Ptr) (count : Nat) : List Ptr :=
  (source.take count ++ target.drop count).take target.length

theorem copyCells_replicate {source : List Ptr} {count length : Nat} (held : count ≤ source.length)
    (shorter : count ≤ length) :
    copyCells source (List.replicate length 0) count =
      source.take count ++ List.replicate (length - count) 0 := by
  unfold copyCells
  rw [drop_replicate, take_of_length_le]
  simp only [length_append, length_take, length_replicate]
  omega

/-- `cl_ptr_vector_t`. -/
structure PtrVector where
  size : Nat := 0
  capacity : Nat := 0
  growSize : Nat
  /-- The cells of the allocation behind `p_ptr_array`; none while that is `NULL`. -/
  ptrArray : List Ptr := []
  /-- Whether an access has gone outside `ptrArray`. The source keeps no such field. -/
  strayed : Bool := false
  deriving DecidableEq, Repr

namespace PtrVector

/-- `cl_ptr_vector_set_capacity`; `memory` says whether the allocation succeeds. -/
def setCapacity (memory : Bool) (vector : PtrVector) (capacity : Nat) :
    VectorStatus × PtrVector :=
  if capacity ≤ vector.capacity then (.success, vector)
  else if !memory then (.insufficientMemory, vector)
  else
    let newArray := List.replicate (wrap (capacity * ptrBytes) / ptrBytes) 0
    let copied := wrap (vector.capacity * ptrBytes) / ptrBytes
    (.success, { vector with
      ptrArray := copyCells vector.ptrArray newArray copied
      strayed := vector.strayed || decide (vector.ptrArray.length < copied) ||
        decide (newArray.length < copied)
      capacity })

/-- `cl_ptr_vector_set_size`. -/
def setSize (memory : Bool) (vector : PtrVector) (size : Nat) : VectorStatus × PtrVector :=
  if size = vector.size then (.success, vector)
  else if vector.capacity < size then
    if vector.growSize = 0 then (.insufficientMemory, vector)
    else
      match vector.setCapacity memory (newCapacity size vector.growSize) with
      | (.success, grown) => (.success, { grown with size })
      | (status, same) => (status, same)
  else (.success, { vector with size })

/-- `cl_ptr_vector_set_min_size`. -/
def setMinSize (memory : Bool) (vector : PtrVector) (minSize : Nat) : VectorStatus × PtrVector :=
  if vector.size < minSize then vector.setSize memory minSize else (.success, vector)

variable (vector : PtrVector)

/-- The store `p_ptr_array[index] = element`. -/
def store (index : Nat) (element : Ptr) : PtrVector :=
  { vector with
    ptrArray := vector.ptrArray.set index element
    strayed := vector.strayed || decide (vector.ptrArray.length ≤ index) }

/-- `cl_ptr_vector_set`. The failure of the growth is reported only if the size is below the
index; at an index equal to the size the store is made all the same. -/
def set (memory : Bool) (vector : PtrVector) (index : Nat) (element : Ptr) :
    VectorStatus × PtrVector :=
  if vector.size ≤ index then
    let (status, grown) := vector.setSize memory (wrap (index + 1))
    if status ≠ .success ∧ grown.size < index then (status, grown)
    else (.success, grown.store index element)
  else (.success, vector.store index element)

/-- `cl_ptr_vector_insert`, with the index it stores through `p_index` on success. -/
def insert (memory : Bool) (vector : PtrVector) (element : Ptr) :
    VectorStatus × Option Nat × PtrVector :=
  match vector.set memory vector.size element with
  | (.success, stored) => (.success, some (wrap (stored.size + 2 ^ 64 - 1)), stored)
  | (status, same) => (status, none, same)

/-- The loop of `cl_ptr_vector_remove`: each cell from `src` on takes the value of the next one,
`count` times. -/
def shiftDown (cells : List Ptr) (src : Nat) : Nat → List Ptr
  | 0 => cells
  | count + 1 => shiftDown (cells.set src (cells.getD (src + 1) 0)) (src + 1) count

/-- `cl_ptr_vector_remove`, for an index below the size as the source asserts. -/
def remove (index : Nat) : Ptr × PtrVector :=
  let size := vector.size - 1
  (vector.ptrArray.getD index 0, { vector with
    size
    ptrArray := (shiftDown vector.ptrArray index (size - index)).set size 0
    strayed := vector.strayed || decide (vector.ptrArray.length ≤ size) })

/-- `cl_ptr_vector_get`. -/
def get (index : Nat) : Ptr := vector.ptrArray.getD index 0

/-- `cl_ptr_vector_init` on a fresh structure. -/
def init (memory : Bool) (minCap growSize : Nat) : VectorStatus × PtrVector :=
  if minCap = 0 then (.success, { growSize }) else setCapacity memory { growSize } minCap

/-- The entries a client can get. -/
def entries : List Ptr := (List.range vector.size).map vector.get

/-- Calls of the vector's functions with the outcome of the allocation each may make. -/
inductive Call
  | setCapacity (memory : Bool) (capacity : Nat)
  | setSize (memory : Bool) (size : Nat)
  | setMinSize (memory : Bool) (minSize : Nat)
  | set (memory : Bool) (index : Nat) (element : Ptr)
  | insert (memory : Bool) (element : Ptr)
  | remove (index : Nat)
  deriving DecidableEq, Repr

/-- What a call returns: its status, and the index or the element it hands out. -/
structure Answer where
  status : VectorStatus := .success
  index : Option Nat := none
  element : Option Ptr := none
  deriving DecidableEq, Repr

/-- The result of a call. -/
def call : Call → Answer × PtrVector
  | .setCapacity memory capacity =>
      let (status, after) := vector.setCapacity memory capacity
      ({ status }, after)
  | .setSize memory size =>
      let (status, after) := vector.setSize memory size
      ({ status }, after)
  | .setMinSize memory minSize =>
      let (status, after) := vector.setMinSize memory minSize
      ({ status }, after)
  | .set memory index element =>
      let (status, after) := vector.set memory index element
      ({ status }, after)
  | .insert memory element =>
      let (status, index, after) := vector.insert memory element
      ({ status, index }, after)
  | .remove index =>
      let (element, after) := vector.remove index
      ({ element := some element }, after)

/-- The arguments are values of `size_t`, and what the source asserts about them holds. -/
def Call.Admitted : Call → Prop
  | .setCapacity _ value | .setSize _ value | .setMinSize _ value | .set _ value _ => value < 2 ^ 64
  | .insert .. => True
  | .remove index => index < vector.size

instance (vector : PtrVector) (call : Call) : Decidable (call.Admitted vector) := by
  cases call <;> unfold Call.Admitted <;> infer_instance

/-- The vector after an admitted call. -/
def next (call : Call) : Option PtrVector :=
  if call.Admitted vector then some (vector.call call).2 else none

/-- The calls made on a vector from its construction with some grow size on; the first of them
may be the one that `cl_ptr_vector_init` makes. -/
def machine : Machine PtrVector Call :=
  .ofNext (fun vector => ∃ growSize < 2 ^ 64, vector = { growSize }) next

variable {vector : PtrVector} {memory : Bool} {more size index : Nat} {element : Ptr}

/-- What `cl_ptr_vector_init` leaves is reached by the calls of the machine. -/
theorem init_reachable {guard : PtrVector → Call → Prop} {minCap growSize : Nat}
    (admitted : minCap < 2 ^ 64 ∧ growSize < 2 ^ 64)
    (guarded : guard { growSize } (.setCapacity memory minCap))
    (made : init memory minCap growSize = (.success, vector)) : machine.Reachable guard vector := by
  have fresh : machine.Reachable guard { growSize } := .initial ⟨growSize, admitted.2, rfl⟩
  unfold init at made
  split at made
  · cases made
    exact fresh
  · apply Machine.Reachable.step fresh guarded
    simpa [machine, Machine.ofNext, next, Call.Admitted, call, made] using admitted.1

/-- The size of every array and count in a growth to `size` is a `size_t`. -/
def SizeFits (vector : PtrVector) (size : Nat) : Prop :=
  size ≤ vector.capacity ∨ vector.growSize = 0 ∨
    roundUp size vector.growSize * ptrBytes < 2 ^ 64

instance (vector : PtrVector) (size : Nat) : Decidable (vector.SizeFits size) := by
  unfold SizeFits
  infer_instance

/-- None of the sizes computed in the call overflows. -/
def Call.Fits (vector : PtrVector) : Call → Prop
  | .setCapacity _ capacity => capacity ≤ vector.capacity ∨ capacity * ptrBytes < 2 ^ 64
  | .setSize _ size | .setMinSize _ size => vector.SizeFits size
  | .set _ index _ => index + 1 < 2 ^ 64 ∧ vector.SizeFits (index + 1)
  | .insert .. => vector.SizeFits (vector.size + 1)
  | .remove _ => True

instance (vector : PtrVector) (call : Call) : Decidable (call.Fits vector) := by
  cases call <;> unfold Call.Fits <;> infer_instance

/-- There is room for one more entry, or there is memory to make room. -/
def HasRoom (vector : PtrVector) (memory : Bool) : Prop :=
  vector.size < vector.capacity ∨ memory = true ∧ vector.growSize ≠ 0

instance (vector : PtrVector) (memory : Bool) : Decidable (vector.HasRoom memory) := by
  unfold HasRoom
  infer_instance

/-- A call that stores right after the last entry finds room there. -/
def Call.Roomy (vector : PtrVector) : Call → Prop
  | .set memory index _ => index = vector.size → vector.HasRoom memory
  | .insert memory _ => vector.HasRoom memory
  | _ => True

instance (vector : PtrVector) (call : Call) : Decidable (call.Roomy vector) := by
  cases call <;> unfold Call.Roomy <;> infer_instance

/-- The array has a cell for each entry the capacity promises, and nothing else was touched. -/
structure Sound (vector : PtrVector) : Prop where
  within : vector.size ≤ vector.capacity
  covered : vector.ptrArray.length = vector.capacity
  addressable : vector.capacity * ptrBytes < 2 ^ 64
  straight : vector.strayed = false

/-- The vector with `more` zeroed cells behind its array and another size. -/
def widened (vector : PtrVector) (size more : Nat) : PtrVector :=
  { vector with
    size
    capacity := vector.capacity + more
    ptrArray := vector.ptrArray ++ List.replicate more 0 }

section
variable (sound : vector.Sound)
include sound

/-- A growth that stays within `size_t` replaces the array by one with the old cells and zeroed
ones behind them. -/
theorem setCapacity_eq {capacity : Nat}
    (fits : capacity ≤ vector.capacity ∨ capacity * ptrBytes < 2 ^ 64) :
    vector.setCapacity memory capacity =
      if capacity ≤ vector.capacity then (.success, vector)
      else if memory then (.success, vector.widened vector.size (capacity - vector.capacity))
      else (.insufficientMemory, vector) := by
  unfold setCapacity
  split
  · rfl
  · rename_i larger
    have asked : capacity * ptrBytes < 2 ^ 64 := fits.resolve_left larger
    cases memory with
    | false => rfl
    | true =>
      have array : copyCells vector.ptrArray (replicate capacity 0) vector.capacity =
          vector.ptrArray ++ replicate (capacity - vector.capacity) 0 := by
        rw [copyCells_replicate (Nat.le_of_eq sound.covered.symm) (by omega),
          take_of_length_le (Nat.le_of_eq sound.covered)]
      have reached : vector.capacity + (capacity - vector.capacity) = capacity := by omega
      simp only [cells_eq asked, cells_eq sound.addressable, array, widened, reached, sound.straight,
        sound.covered, length_replicate]
      simp
      omega

/-- A change of size succeeds with enough cells, or fails for lack of memory and changes nothing. -/
theorem setSize_spec (fits : vector.SizeFits size) :
    (∃ more, vector.setSize memory size = (.success, vector.widened size more) ∧
      size ≤ vector.capacity + more ∧ (vector.capacity + more) * ptrBytes < 2 ^ 64) ∨
    vector.setSize memory size = (.insufficientMemory, vector) ∧ vector.capacity < size ∧
      ¬ (memory = true ∧ vector.growSize ≠ 0) := by
  have unchanged : vector.widened size 0 = { vector with size } := by simp [widened]
  by_cases same : size = vector.size
  · left
    refine ⟨0, ?_, same ▸ sound.within, sound.addressable⟩
    rw [unchanged]
    simp [setSize, same]
  by_cases room : size ≤ vector.capacity
  · left
    refine ⟨0, ?_, room, sound.addressable⟩
    rw [unchanged, setSize, if_neg same, if_neg (by omega)]
  have tooSmall : vector.capacity < size := by omega
  by_cases fixed : vector.growSize = 0
  · right
    refine ⟨?_, tooSmall, fun ⟨_, grows⟩ => grows fixed⟩
    rw [setSize, if_neg same, if_pos tooSmall, if_pos fixed]
  have rounded : roundUp size vector.growSize * ptrBytes < 2 ^ 64 := by
    rcases fits with low | never | high
    · exact absurd low room
    · exact absurd never fixed
    · exact high
  have asked : newCapacity size vector.growSize = roundUp size vector.growSize :=
    newCapacity_eq_roundUp (by simp only [ptrBytes] at rounded; omega)
  have enough := le_roundUp size vector.growSize
  rw [setSize, if_neg same, if_pos tooSmall, if_neg fixed, asked,
    setCapacity_eq sound (Or.inr rounded), if_neg (by omega)]
  have reached : vector.capacity + (roundUp size vector.growSize - vector.capacity) =
      roundUp size vector.growSize := by omega
  cases memory with
  | true =>
    left
    refine ⟨roundUp size vector.growSize - vector.capacity, rfl, ?_, ?_⟩
    · rw [reached]
      exact enough
    · rw [reached]
      exact rounded
  | false => exact Or.inr ⟨rfl, tooSmall, by simp⟩

theorem Sound.widened (enough : size ≤ vector.capacity + more)
    (addressable : (vector.capacity + more) * ptrBytes < 2 ^ 64) :
    (vector.widened size more).Sound where
  within := enough
  covered := by simp [PtrVector.widened, sound.covered]
  addressable := addressable
  straight := sound.straight

theorem Sound.store (inside : index < vector.size) :
    (vector.store index element).Sound where
  within := sound.within
  covered := by simp [PtrVector.store, sound.covered]
  addressable := sound.addressable
  straight := by
    have := sound.within
    simp [PtrVector.store, sound.straight, sound.covered]
    omega

/-- A store that finds room behind the last entry grows the vector to hold the index, or reports
the lack of memory and changes nothing. -/
theorem set_spec (fits : (Call.set memory index element).Fits vector)
    (roomy : (Call.set memory index element).Roomy vector) :
    (∃ more, vector.set memory index element =
        (.success, (vector.widened (max vector.size (index + 1)) more).store index element) ∧
      (vector.widened (max vector.size (index + 1)) more).Sound) ∨
    vector.set memory index element = (.insufficientMemory, vector) := by
  by_cases below : index < vector.size
  · left
    have size : max vector.size (index + 1) = vector.size := by omega
    have unchanged : vector.widened vector.size 0 = vector := by simp [PtrVector.widened]
    refine ⟨0, ?_, ?_⟩
    · rw [size, unchanged, PtrVector.set, if_neg (by omega)]
    · rw [size, unchanged]
      exact sound
  have size : max vector.size (index + 1) = index + 1 := by omega
  rw [size, PtrVector.set, if_pos (by omega), wrap_of_lt fits.1]
  rcases @setSize_spec _ memory _ sound fits.2 with
    ⟨more, grown, enough, small⟩ | ⟨failed, full, refused⟩
  · left
    refine ⟨more, ?_, sound.widened enough small⟩
    rw [grown]
    simp
  · right
    rw [failed]
    have apart : index ≠ vector.size := by
      intro equal
      rcases roomy equal with room | room
      · omega
      · exact refused room
    have := sound.within
    simp
    omega

end

theorem length_shiftDown (cells : List Ptr) (src count : Nat) :
    (shiftDown cells src count).length = cells.length := by
  induction count generalizing cells src with
  | zero => rfl
  | succ count ih => rw [shiftDown, ih, length_set]

/-- After the loop a cell it passed holds what the next one held, and the others are as before. -/
theorem getElem?_shiftDown {cells : List Ptr} {src count : Nat} (inside : src + count < cells.length)
    (index : Nat) :
    (shiftDown cells src count)[index]? =
      if src ≤ index ∧ index < src + count then cells[index + 1]? else cells[index]? := by
  induction count generalizing cells src with
  | zero => rw [shiftDown, if_neg (by omega)]
  | succ count ih =>
    rw [shiftDown, ih (by rw [length_set]; omega)]
    have ahead : (cells.set src (cells.getD (src + 1) 0))[index + 1]? =
        if src = index + 1 then some (cells.getD (src + 1) 0) else cells[index + 1]? := by
      rw [getElem?_set]
      split
      · rw [if_pos (by omega)]
      · rfl
    rw [ahead, getElem?_set]
    have next : src < cells.length → cells.getD (src + 1) 0 = cells[src + 1]?.getD 0 := fun _ => by
      simp
    grind

theorem Sound.remove (sound : vector.Sound) (inside : index < vector.size) :
    (vector.remove index).2.Sound where
  within := by
    have := sound.within
    simp only [PtrVector.remove]
    omega
  covered := by simp [PtrVector.remove, length_shiftDown, sound.covered]
  addressable := sound.addressable
  straight := by
    have := sound.within
    simp only [PtrVector.remove, sound.straight, sound.covered, Bool.false_or, decide_eq_false_iff_not]
    omega

@[simp] theorem length_entries (vector : PtrVector) : vector.entries.length = vector.size := by
  simp [entries]

theorem getElem?_entries (vector : PtrVector) (place : Nat) :
    vector.entries[place]? = if place < vector.size then some (vector.get place) else none := by
  by_cases inside : place < vector.size <;> simp [entries, inside]

section
variable (sound : vector.Sound)
include sound

theorem get_widened {place : Nat} (inside : place < vector.size) :
    (vector.widened size more).get place = vector.get place := by
  have := sound.within
  have := sound.covered
  simp only [get, widened, getD_eq_getElem?_getD]
  rw [getElem?_append_left (by omega)]

theorem get_store (inside : index < vector.size) (place : Nat) :
    (vector.store index element).get place = if place = index then element else vector.get place := by
  have := sound.within
  have := sound.covered
  simp only [get, store, getD_eq_getElem?_getD, getElem?_set]
  grind

/-- Removing an entry closes the gap it leaves. -/
theorem entries_remove (inside : index < vector.size) :
    (vector.remove index).2.entries = vector.entries.eraseIdx index := by
  have room := sound.within
  have covered := sound.covered
  apply ext_getElem?
  intro place
  simp only [getElem?_entries, getElem?_eraseIdx, get, PtrVector.remove, getD_eq_getElem?_getD]
  rw [getElem?_set, getElem?_shiftDown (by omega)]
  grind

/-- What a growable array of pointers does on a call that is answered as given. -/
def Call.Meets (before after : List Ptr) (answer : Answer) : Call → Prop
  | .setCapacity .. => after = before
  | .setSize _ size => answer.status = .success → after.length = size ∧
      ∀ place, place < before.length → place < size → after[place]? = before[place]?
  | .setMinSize _ minSize => answer.status = .success → minSize ≤ after.length ∧
      ∀ place, place < before.length → after[place]? = before[place]?
  | .set _ index element => answer.status = .success → index < after.length ∧
      after[index]? = some element ∧
      ∀ place, place < before.length → place ≠ index → after[place]? = before[place]?
  | .insert _ element => answer.status = .success → ∃ index, answer.index = some index ∧
      index < after.length ∧ after[index]? = some element ∧ before.length < after.length ∧
      ∀ place, place < before.length → after[place]? = before[place]?
  | .remove index => answer.element = before[index]? ∧ after = before.eraseIdx index

/-- A call as a growable array would do it: its effect, that a failure changes nothing, and that
the array still covers the capacity. -/
structure Meets (vector : PtrVector) (call : Call) : Prop where
  effect : call.Meets vector.entries (vector.call call).2.entries (vector.call call).1
  failed : (vector.call call).1.status ≠ .success → (vector.call call).2 = vector
  sound : (vector.call call).2.Sound

theorem entries_widened_getElem? {place : Nat} (inside : place < vector.size)
    (kept : place < size) :
    (vector.widened size more).entries[place]? = vector.entries[place]? := by
  rw [getElem?_entries, getElem?_entries, if_pos inside, get_widened sound inside]
  exact if_pos kept

theorem meets_setCapacity {capacity : Nat}
    (fits : (Call.setCapacity memory capacity).Fits vector) :
    vector.Meets (.setCapacity memory capacity) := by
  have result := @setCapacity_eq _ memory sound _ fits
  by_cases enough : capacity ≤ vector.capacity
  · rw [if_pos enough] at result
    constructor
    · simp [call, Call.Meets, result]
    · simp [call, result]
    · simpa [call, result] using sound
  · rw [if_neg enough] at result
    cases memory with
    | false =>
      constructor
      · simp [call, Call.Meets, result]
      · simp [call, result]
      · simpa [call, result] using sound
    | true =>
      have reached : vector.capacity + (capacity - vector.capacity) = capacity := by omega
      have wider : (vector.widened vector.size (capacity - vector.capacity)).Sound :=
        sound.widened (Nat.le_add_right_of_le sound.within)
          (by rw [reached]; exact fits.resolve_left enough)
      constructor
      · have same : (vector.widened vector.size (capacity - vector.capacity)).entries = vector.entries := by
          apply ext_getElem?
          intro place
          by_cases inside : place < vector.size
          · exact entries_widened_getElem? sound inside inside
          · rw [getElem?_entries, getElem?_entries, if_neg inside]
            exact if_neg inside
        simpa [call, Call.Meets, result] using same
      · simp [call, result]
      · simpa [call, result] using wider

theorem meets_setSize (fits : (Call.setSize memory size).Fits vector) :
    vector.Meets (.setSize memory size) := by
  rcases @setSize_spec _ memory _ sound fits with ⟨more, grown, enough, small⟩ | ⟨failed, _, _⟩
  · constructor
    · simp only [call, Call.Meets, grown]
      intro _
      refine ⟨length_entries _, ?_⟩
      intro place inside kept
      rw [length_entries] at inside
      exact entries_widened_getElem? sound inside kept
    · simp [call, grown]
    · simpa [call, grown] using sound.widened enough small
  · constructor
    · simp [call, Call.Meets, failed]
    · simp [call, failed]
    · simpa [call, failed] using sound

theorem meets_setMinSize {minSize : Nat}
    (fits : (Call.setMinSize memory minSize).Fits vector) :
    vector.Meets (.setMinSize memory minSize) := by
  by_cases larger : vector.size < minSize
  · have asSize := @meets_setSize _ memory _ sound fits
    have same : vector.call (.setMinSize memory minSize) = vector.call (.setSize memory minSize) := by
      simp [call, setMinSize, larger]
    constructor
    · rw [same]
      intro success
      obtain ⟨length, kept⟩ := asSize.effect success
      refine ⟨Nat.le_of_eq length.symm, ?_⟩
      intro place inside
      rw [length_entries] at inside
      exact kept place (by simpa using inside) (by omega)
    · rw [same]
      exact asSize.failed
    · rw [same]
      exact asSize.sound
  · constructor
    · simp [call, setMinSize, larger, Call.Meets]
      omega
    · simp [call, setMinSize, larger]
    · simpa [call, setMinSize, larger] using sound

/-- A successful store, as `cl_ptr_vector_set` and `cl_ptr_vector_insert` make it. -/
theorem entries_stored (wider : (vector.widened (max vector.size (index + 1)) more).Sound) :
    index < (vector.widened (max vector.size (index + 1)) more).size ∧
      ((vector.widened (max vector.size (index + 1)) more).store index element).entries[index]? =
        some element ∧
      ∀ place, place < vector.size → place ≠ index →
        ((vector.widened (max vector.size (index + 1)) more).store index element).entries[place]? =
          vector.entries[place]? := by
  have inside : index < (vector.widened (max vector.size (index + 1)) more).size := by
    simp only [PtrVector.widened]
    omega
  refine ⟨inside, ?_, ?_⟩
  · rw [getElem?_entries, get_store wider inside, if_pos rfl]
    exact if_pos inside
  · intro place below other
    rw [getElem?_entries, getElem?_entries, get_store wider inside, if_neg other, if_pos below,
      get_widened sound below]
    exact if_pos (Nat.lt_of_lt_of_le below (Nat.le_max_left ..))

theorem meets_set (fits : (Call.set memory index element).Fits vector)
    (roomy : (Call.set memory index element).Roomy vector) :
    vector.Meets (.set memory index element) := by
  rcases set_spec sound fits roomy with ⟨more, stored, wider⟩ | failed
  · have effect := @entries_stored _ _ _ element sound wider
    constructor
    · simp only [call, Call.Meets, stored, length_entries]
      exact fun _ => effect
    · simp [call, stored]
    · simpa [call, stored] using wider.store effect.1
  · constructor
    · simp [call, Call.Meets, failed]
    · simp [call, failed]
    · simpa [call, failed] using sound

theorem meets_insert (fits : (Call.insert memory element).Fits vector)
    (roomy : (Call.insert memory element).Roomy vector) :
    vector.Meets (.insert memory element) := by
  have bounded : vector.size * ptrBytes < 2 ^ 64 :=
    Nat.lt_of_le_of_lt (Nat.mul_le_mul_right _ sound.within) sound.addressable
  have small : vector.size + 1 < 2 ^ 64 := by
    simp only [ptrBytes] at bounded
    omega
  have asSet : (Call.set memory vector.size element).Fits vector := ⟨small, fits⟩
  rcases set_spec sound asSet (fun _ => roomy) with ⟨more, stored, wider⟩ | failed
  · obtain ⟨inside, placed, kept⟩ := @entries_stored _ _ _ element sound wider
    have index : wrap (((vector.widened (max vector.size (vector.size + 1)) more).store vector.size
        element).size + 2 ^ 64 - 1) = vector.size := by
      simp only [PtrVector.widened, store, wrap]
      omega
    have result : vector.insert memory element = (.success, some vector.size,
        (vector.widened (max vector.size (vector.size + 1)) more).store vector.size element) := by
      simp only [PtrVector.insert, stored, index]
    constructor
    · simp only [call, Call.Meets, result, length_entries]
      exact fun _ => ⟨vector.size, rfl, inside, placed, inside,
        fun place below => kept place below (by omega)⟩
    · simp [call, result]
    · simpa [call, result] using wider.store inside
  · have result : vector.insert memory element = (.insufficientMemory, none, vector) := by
      simp [PtrVector.insert, failed]
    constructor
    · simp [call, Call.Meets, result]
    · simp [call, result]
    · simpa [call, result] using sound

theorem meets_remove (admitted : (Call.remove index).Admitted vector) : vector.Meets (.remove index) := by
  constructor
  · refine ⟨?_, entries_remove sound admitted⟩
    rw [getElem?_entries]
    exact (if_pos admitted).symm
  · simp [call]
  · exact sound.remove admitted

/-- Every call that computes within `size_t` and finds room behind the last entry does what a
growable array does. -/
theorem Sound.meets {call : Call} (admitted : call.Admitted vector)
    (fits : call.Fits vector) (roomy : call.Roomy vector) : vector.Meets call := by
  cases call with
  | setCapacity memory capacity => exact meets_setCapacity sound fits
  | setSize memory size => exact meets_setSize sound fits
  | setMinSize memory minSize => exact meets_setMinSize sound fits
  | set memory index element => exact meets_set sound fits roomy
  | insert memory element => exact meets_insert sound fits roomy
  | remove index => exact meets_remove sound admitted

end

theorem sound_fresh (growSize : Nat) : ({ growSize } : PtrVector).Sound where
  within := Nat.le_refl _
  covered := rfl
  addressable := by simp [ptrBytes]
  straight := rfl

theorem sound_of_reached {vector : PtrVector}
    (reached : machine.Reachable (fun vector call => call.Fits vector ∧ call.Roomy vector) vector) :
    vector.Sound := by
  refine Machine.Reachable.invariant ?_ ?_ reached
  · rintro _ ⟨growSize, _, rfl⟩
    exact sound_fresh growSize
  · intro before call after sound careful step
    obtain ⟨admitted, ⟨⟩⟩ := Option.ite_none_right_eq_some.mp step
    exact (sound.meets admitted careful.1 careful.2).sound

/-- In every run whose calls compute within `size_t` and never need memory they are refused for
the place right behind the last entry, a pointer vector is a growable array. -/
theorem call_meets_of_reachable {vector : PtrVector}
    (reached : machine.Reachable (fun vector call => call.Fits vector ∧ call.Roomy vector) vector)
    {call : Call} (admitted : call.Admitted vector) (fits : call.Fits vector)
    (roomy : call.Roomy vector) :
    call.Meets vector.entries (vector.call call).2.entries (vector.call call).1 ∧
      ((vector.call call).1.status ≠ .success → (vector.call call).2 = vector) ∧
      (vector.call call).2.strayed = false := by
  have meets := (sound_of_reached reached).meets admitted fits roomy
  exact ⟨meets.effect, meets.failed, meets.sound.straight⟩

/-- A vector that grows by two, with two entries. -/
def twoEntries : PtrVector :=
  (((init true 2 2).2.call (.insert true 5)).2.call (.insert true 6)).2

theorem twoEntries_reachable :
    machine.Reachable (fun vector call => call.Fits vector ∧ call.Roomy vector) twoEntries := by
  have made : init true 2 2 = (.success, (init true 2 2).2) := by decide
  have careful : Machine.Guarded next (fun vector call => call.Fits vector ∧ call.Roomy vector)
      (init true 2 2).2 [.insert true 5, .insert true 6] := by decide
  exact (init_reachable (by decide) (by decide) made).run careful (by decide)

/-- A store behind the end keeps them and clears the places in between. -/
theorem call_meets_twoEntries_set :
    (Call.set true 4 7).Meets twoEntries.entries (twoEntries.call (.set true 4 7)).2.entries { } ∧
    (twoEntries.call (.set true 4 7)).2.entries = [5, 6, 0, 0, 7] := by
  have meets := @call_meets_of_reachable _ twoEntries_reachable (.set true 4 7) (by decide)
    (by decide) (by decide)
  exact ⟨meets.1, by decide⟩

/-- A vector of one place that may not grow, with its place taken. -/
def fullVector : PtrVector :=
  ((({ growSize := 0 } : PtrVector).call (.setCapacity true 1)).2.call (.insert true 5)).2

/-- An insertion into a full vector that cannot grow stores behind the array, and still reports
success and the index of the entry that was last before. -/
theorem fullVector_insert_strays :
    machine.Reachable (fun vector call => call.Fits vector) fullVector ∧
    (fullVector.call (.insert true 9)).1 = { status := .success, index := some 0 } ∧
    (fullVector.call (.insert true 9)).2.entries = [5] ∧
    (fullVector.call (.insert true 9)).2.strayed = true ∧
    ¬ (Call.insert true 9).Meets fullVector.entries
      (fullVector.call (.insert true 9)).2.entries (fullVector.call (.insert true 9)).1 := by
  refine ⟨?_, by decide, by decide, by decide, ?_⟩
  · have fresh : machine.Reachable (fun vector call => call.Fits vector) { growSize := 0 } :=
      .initial ⟨0, by decide, rfl⟩
    have careful : Machine.Guarded next (fun vector call => call.Fits vector) { growSize := 0 }
        [.setCapacity true 1, .insert true 5] := by decide
    exact fresh.run careful (by decide)
  · intro meets
    obtain ⟨index, answered, _, placed, _⟩ := meets (by decide)
    have known : (fullVector.call (.insert true 9)).1.index = some 0 := by decide
    obtain rfl : 0 = index := Option.some.inj (known.symm.trans answered)
    revert placed
    decide

section Search
variable (callback : Nat → Ptr → Bool) (vector : PtrVector)

/-- The loop of `cl_ptr_vector_find_from_start` from index `i` on. The result comes with the
indices that `pfn_callback` was called with; `callback` tells where it returns `CL_SUCCESS`. -/
def seekUp (i : Nat) : Nat → Nat × List Nat
  | 0 => (i, [])
  | rounds + 1 =>
    if callback i (vector.get i) then (i, [i])
    else
      let (found, asked) := seekUp (i + 1) rounds
      (found, i :: asked)

/-- `cl_ptr_vector_find_from_start`. -/
def findFromStart : Nat × List Nat := seekUp callback vector 0 vector.size

/-- The loop of `cl_ptr_vector_find_from_end` from index `i` down. -/
def seekDown : Nat → Nat × List Nat
  | 0 => (vector.size, [])
  | i + 1 =>
    if callback (i + 1) (vector.get (i + 1)) then (i + 1, [i + 1])
    else
      let (found, asked) := seekDown i
      (found, (i + 1) :: asked)

/-- `cl_ptr_vector_find_from_end`. -/
def findFromEnd : Nat × List Nat := seekDown callback vector vector.size

/-- A search from index `low` on looked at elements of the vector alone and found one that the
callback accepts, with none accepted that is `before` it, or the size if none is accepted. -/
def Finds (low : Nat) (before : Nat → Nat → Prop) (result : Nat × List Nat) : Prop :=
  (∀ index ∈ result.2, index < vector.size) ∧ result.1 ≤ vector.size ∧
    (result.1 < vector.size → callback result.1 (vector.get result.1) = true) ∧
    ∀ index, low ≤ index → index < vector.size → result.1 = vector.size ∨ before index result.1 →
      callback index (vector.get index) = false

theorem finds_seekUp {i rounds : Nat} (left : i + rounds = vector.size) :
    Finds callback vector i (· < ·) (seekUp callback vector i rounds) := by
  induction rounds generalizing i with
  | zero =>
    obtain rfl : i = vector.size := left
    refine ⟨by simp [seekUp], Nat.le_refl _, fun below => absurd below (Nat.lt_irrefl _), ?_⟩
    intro index least below
    omega
  | succ rounds ih =>
    rw [seekUp]
    split
    case isTrue accepted =>
      refine ⟨forall_mem_singleton.mpr (by omega), by omega, fun _ => accepted, ?_⟩
      intro index least below before
      omega
    case isFalse rejected =>
      obtain ⟨asked, within, accepts, passed⟩ := @ih (i + 1) (by omega)
      refine ⟨forall_mem_cons.mpr ⟨by omega, asked⟩, within, accepts, ?_⟩
      intro index least below before
      by_cases first : index = i
      · rw [first]
        simpa using rejected
      · exact passed index (by omega) below before

/-- The search from the start is right on every vector, the one from the end on empty ones only. -/
theorem searches_find_iff : Finds callback vector 0 (· < ·) (findFromStart callback vector) ∧
    (Finds callback vector 0 (· > ·) (findFromEnd callback vector) ↔ vector.size = 0) := by
  refine ⟨finds_seekUp callback vector (Nat.zero_add _), ?_⟩
  rw [findFromEnd]
  cases size : vector.size with
  | zero => simp [Finds, seekDown, size]
  | succ last =>
    -- the callback is called with the size first
    have asked : last + 1 ∈ (seekDown callback vector (last + 1)).2 := by
      rw [seekDown]
      split <;> simp
    simp only [Nat.succ_ne_zero, iff_false]
    intro finds
    exact absurd (finds.1 _ asked) (by omega)

end Search

/-- The only element is not found, and the callback is called with an index behind it. -/
theorem fullVector_findFromEnd : fullVector.entries = [5] ∧
    findFromStart (fun _ element => element == 5) fullVector = (0, [0]) ∧
    findFromEnd (fun _ element => element == 5) fullVector = (1, [1]) := by
  decide

end PtrVector
end WinOFED.Complib
