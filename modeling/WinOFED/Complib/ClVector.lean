import WinOFED.Complib.PtrVector

/-! The vector `cl_vector_t`.

The elements stand in separately allocated chunks and are found through a table of pointers that is
replaced when the vector grows. The calls of the element initialiser and destructor are kept in a
log, each with the address of its element. -/
namespace WinOFED.Complib
open WinOFED.Memory WinOFED.Transition

/-- `sizeof(cl_list_item_t)`: the item that links a chunk stands in front of its elements. -/
def listItemBytes : Nat := 16

/-- A call of an element callback. -/
inductive ElementCall
  | init (element : Ptr) (accepted : Bool)
  | dtor (element : Ptr)
  deriving DecidableEq, Repr

/-- The element a callback is called for. -/
def ElementCall.element : ElementCall → Ptr
  | .init element _ | .dtor element => element

/-- `cl_vector_t`, for elements with contents in `α`. -/
structure ClVector (α : Type) where
  size : Nat := 0
  capacity : Nat := 0
  growSize : Nat
  elementSize : Nat
  /-- Whether `pfn_init` was given. -/
  hasInit : Bool
  /-- Whether `pfn_dtor` was given. -/
  hasDtor : Bool
  /-- The cells of the allocation behind `p_ptr_array`. -/
  ptrArray : List Ptr := []
  /-- The chunks that `alloc_list` links. -/
  allocList : List Extent := []
  /-- What stands in the element that starts at an address. -/
  contents : Ptr → α
  /-- The callbacks made so far, the oldest first. -/
  log : List ElementCall := []
  /-- `state == CL_INITIALIZED`. -/
  initialized : Bool := true
  /-- Whether an access has gone outside `ptrArray`. The source keeps no such field. -/
  strayed : Bool := false

/-- The two allocations of a growth: whether the pointer table is granted, and the address of the
chunk if that is. -/
structure Grant where
  table : Bool
  chunk : Option Ptr
  deriving DecidableEq, Repr

namespace ClVector
variable {α : Type}

variable (vector : ClVector α)

/-- `cl_vector_get_ptr`. -/
def ptr (index : Nat) : Ptr := vector.ptrArray.getD index 0

/-- `cl_vector_get`. -/
def get (index : Nat) : α := vector.contents (vector.ptr index)

/-- The loop that points `count` cells from `index` on at consecutive elements. -/
def fillPtrs (elementSize : Nat) (cells : List Ptr) (index : Nat) (address : Ptr) : Nat → List Ptr
  | 0 => cells
  | count + 1 =>
      fillPtrs elementSize (cells.set index address) (index + 1) (address + elementSize) count

/-- The size of the chunk for the elements between the vector's capacity and a larger one. -/
def chunkBytes (capacity : Nat) : Nat :=
  wrap (wrap ((capacity - vector.capacity) * vector.elementSize) + listItemBytes)

/-- The vector once its pointer table is replaced by one for `capacity` elements. -/
def withTable (capacity : Nat) : ClVector α :=
  let newArray := List.replicate (wrap (capacity * ptrBytes) / ptrBytes) 0
  let copied := wrap (vector.capacity * ptrBytes) / ptrBytes
  { vector with
    ptrArray := copyCells vector.ptrArray newArray copied
    strayed := vector.strayed || decide (vector.ptrArray.length < copied) ||
      decide (newArray.length < copied) }

/-- The vector once a zeroed chunk at `base` holds its elements up to `capacity`. -/
def withChunk [Inhabited α] (vector : ClVector α) (base : Ptr) (capacity : Nat) : ClVector α :=
  let chunk : Extent := ⟨base, vector.chunkBytes capacity⟩
  { vector with
    allocList := vector.allocList ++ [chunk]
    ptrArray := fillPtrs vector.elementSize vector.ptrArray vector.capacity (base + listItemBytes)
      (capacity - vector.capacity)
    contents := fun address => if chunk.Has address then default else vector.contents address
    strayed := vector.strayed || decide (vector.ptrArray.length < capacity)
    capacity }

/-- `cl_vector_set_capacity`. -/
def setCapacity [Inhabited α] (grant : Grant) (vector : ClVector α) (capacity : Nat) :
    VectorStatus × ClVector α :=
  if capacity ≤ vector.capacity then (.success, vector)
  else if !grant.table then (.insufficientMemory, vector)
  else
    -- The new table is in place whether or not the chunk is granted.
    match grant.chunk with
    | none => (.insufficientMemory, vector.withTable capacity)
    | some base => (.success, (vector.withTable capacity).withChunk base capacity)

/-- A callback for the element at `index` enters the log. -/
def logged (index : Nat) (calls : List ElementCall) : ClVector α :=
  { vector with
    log := vector.log ++ calls
    strayed := vector.strayed || decide (vector.ptrArray.length ≤ index) }

/-- The destructor calls for the elements from `index` up to the size, if there is a destructor. -/
def dtorCalls (index : Nat) : List ElementCall :=
  if vector.hasDtor then
    (List.range' index (vector.size - index)).map fun place => .dtor (vector.ptr place)
  else []

/-- The loop of `cl_vector_set_size` that initialises `count` elements behind the last one;
`inits` are the contents the initialiser leaves in the element with an index, or its failure. -/
def initElements (inits : Nat → Option α) (vector : ClVector α) : Nat → VectorStatus × ClVector α
  | 0 => (.success, vector)
  | count + 1 =>
      let element := vector.ptr vector.size
      match inits vector.size with
      | some value =>
          let called := vector.logged vector.size [.init element true]
          initElements inits { called with
            contents := Function.update vector.contents element value
            size := vector.size + 1 } count
      | none =>
          (.initializerFailed, vector.logged vector.size
            (.init element false :: if vector.hasDtor then [.dtor element] else []))

/-- What `cl_vector_set_size` does to the elements once the capacity is there. -/
def resize (inits : Nat → Option α) (vector : ClVector α) (size : Nat) :
    VectorStatus × ClVector α :=
  if vector.size < size ∧ vector.hasInit then
    match initElements inits vector (size - vector.size) with
    | (.success, grown) => (.success, { grown with size })
    | (status, partly) => (status, partly)
  else
    (.success, { vector with
      log := vector.log ++ vector.dtorCalls size
      strayed := vector.strayed ||
        (vector.hasDtor && decide (size < vector.size) &&
          decide (vector.ptrArray.length < vector.size))
      size })

/-- `cl_vector_set_size`. -/
def setSize [Inhabited α] (grant : Grant) (inits : Nat → Option α) (vector : ClVector α)
    (size : Nat) : VectorStatus × ClVector α :=
  if size = vector.size then (.success, vector)
  else if vector.capacity < size then
    if vector.growSize = 0 then (.insufficientMemory, vector)
    else
      match vector.setCapacity grant (newCapacity size vector.growSize) with
      | (.success, grown) => grown.resize inits size
      | (status, same) => (status, same)
  else vector.resize inits size

/-- `cl_vector_set_min_size`. -/
def setMinSize [Inhabited α] (grant : Grant) (inits : Nat → Option α) (vector : ClVector α)
    (minSize : Nat) : VectorStatus × ClVector α :=
  if vector.size < minSize then vector.setSize grant inits minSize else (.success, vector)

/-- The copy of an element to its place. -/
def store (index : Nat) (element : α) : ClVector α :=
  { vector with
    contents := Function.update vector.contents (vector.ptr index) element
    strayed := vector.strayed || decide (vector.ptrArray.length ≤ index) }

/-- `cl_vector_set`. -/
def set [Inhabited α] (grant : Grant) (inits : Nat → Option α) (vector : ClVector α) (index : Nat)
    (element : α) : VectorStatus × ClVector α :=
  if vector.size ≤ index then
    let (status, grown) := vector.setSize grant inits (wrap (index + 1))
    if status ≠ .success ∧ grown.size ≤ index then (status, grown)
    else (.success, grown.store index element)
  else (.success, vector.store index element)

/-- `cl_vector_destroy`: the destructor for every element, then the chunks and the table. -/
def destroy : ClVector α :=
  if vector.initialized then
    { vector with
      log := vector.log ++ vector.dtorCalls 0
      allocList := []
      ptrArray := []
      strayed := vector.strayed || (vector.hasDtor && decide (vector.ptrArray.length < vector.size))
      initialized := false }
  else vector

/-- `cl_vector_init` on a fresh structure. -/
def init [Inhabited α] (grant : Grant) (inits : Nat → Option α) (minSize growSize elementSize : Nat)
    (hasInit hasDtor : Bool) (contents : Ptr → α) : VectorStatus × ClVector α :=
  let fresh : ClVector α := { growSize, elementSize, hasInit, hasDtor, contents }
  if minSize = 0 then (.success, fresh)
  else
    match fresh.setSize grant inits minSize with
    | (.success, sized) => (.success, sized)
    | (status, partly) => (status, partly.destroy)

/-- Calls of the vector's functions with the outcomes of the allocations and initialisers. -/
inductive Call (α : Type)
  | setCapacity (grant : Grant) (capacity : Nat)
  | setSize (grant : Grant) (inits : Nat → Option α) (size : Nat)
  | setMinSize (grant : Grant) (inits : Nat → Option α) (minSize : Nat)
  | set (grant : Grant) (inits : Nat → Option α) (index : Nat) (element : α)
  | destroy

variable [Inhabited α]

/-- The status and the vector after a call. -/
def call (vector : ClVector α) : Call α → VectorStatus × ClVector α
  | .setCapacity grant capacity => vector.setCapacity grant capacity
  | .setSize grant inits size => vector.setSize grant inits size
  | .setMinSize grant inits minSize => vector.setMinSize grant inits minSize
  | .set grant inits index element => vector.set grant inits index element
  | .destroy => (.success, vector.destroy)

/-- A chunk granted for a growth to `capacity` is a block of its own. -/
def FreshChunk (grant : Grant) (capacity : Nat) : Prop :=
  ∀ base ∈ grant.chunk, ∀ held ∈ vector.allocList,
    held.Apart ⟨base, vector.chunkBytes capacity⟩

instance (vector : ClVector α) (grant : Grant) (capacity : Nat) :
    Decidable (vector.FreshChunk grant capacity) := by
  unfold FreshChunk
  infer_instance

/-- The vector lives, the arguments are values of `size_t`, and a chunk that is granted overlaps
none that the vector holds. -/
def Call.Admitted (call : Call α) : Prop :=
  vector.initialized = true ∧
    match call with
    | .setCapacity grant capacity => capacity < 2 ^ 64 ∧ vector.FreshChunk grant capacity
    | .setSize grant _ size | .setMinSize grant _ size =>
        size < 2 ^ 64 ∧ vector.FreshChunk grant (newCapacity size vector.growSize)
    | .set grant _ index _ =>
        index < 2 ^ 64 ∧ vector.FreshChunk grant (newCapacity (wrap (index + 1)) vector.growSize)
    | .destroy => True

instance (vector : ClVector α) (call : Call α) : Decidable (call.Admitted vector) := by
  cases call <;> unfold Call.Admitted <;> infer_instance

/-- The vector after an admitted call. -/
def next (vector : ClVector α) (call : Call α) : Option (ClVector α) :=
  if call.Admitted vector then some (vector.call call).2 else none

/-- The calls made on a vector from its construction on; the first of them may be the one that
`cl_vector_init` makes. -/
def machine : Machine (ClVector α) (Call α) :=
  .ofNext (fun vector => ∃ growSize elementSize hasInit hasDtor contents, growSize < 2 ^ 64 ∧
    0 < elementSize ∧ elementSize < 2 ^ 64 ∧
    vector = { growSize, elementSize, hasInit, hasDtor, contents }) next

/-- What `cl_vector_init` leaves is reached by the calls of the machine. -/
theorem init_reachable {guard : ClVector α → Call α → Prop} {grant : Grant}
    {inits : Nat → Option α} {minSize growSize elementSize : Nat} {hasInit hasDtor : Bool}
    {contents : Ptr → α} {vector : ClVector α}
    (sizes : minSize < 2 ^ 64 ∧ growSize < 2 ^ 64 ∧ 0 < elementSize ∧ elementSize < 2 ^ 64)
    (guarded : guard { growSize, elementSize, hasInit, hasDtor, contents }
      (.setSize grant inits minSize))
    (made : init grant inits minSize growSize elementSize hasInit hasDtor contents =
      (.success, vector)) : machine.Reachable guard vector := by
  have fresh : machine.Reachable guard { growSize, elementSize, hasInit, hasDtor, contents } :=
    .initial ⟨growSize, elementSize, hasInit, hasDtor, contents, sizes.2.1, sizes.2.2.1,
      sizes.2.2.2, rfl⟩
  simp only [init] at made
  split at made
  · cases made
    exact fresh
  · split at made
    next sized done =>
      cases made
      refine .step fresh guarded ?_
      have admitted : Call.Admitted { growSize, elementSize, hasInit, hasDtor, contents }
          (.setSize grant inits minSize) := ⟨rfl, sizes.1, fun _ _ _ held => nomatch held⟩
      exact (if_pos admitted).trans (congrArg (fun result => some result.2) done)
    next failed _ =>
      cases made
      exact absurd rfl failed

/-- The sizes of the table and of the chunk for a growth to `capacity` are values of `size_t`. -/
def CapacityFits (capacity : Nat) : Prop :=
  capacity ≤ vector.capacity ∨ capacity * ptrBytes < 2 ^ 64 ∧
    (capacity - vector.capacity) * vector.elementSize + listItemBytes < 2 ^ 64

instance (vector : ClVector α) (capacity : Nat) : Decidable (vector.CapacityFits capacity) := by
  unfold CapacityFits
  infer_instance

/-- None of the sizes computed in a change of size overflows. -/
def SizeFits (size : Nat) : Prop :=
  size ≤ vector.capacity ∨ vector.growSize = 0 ∨
    vector.CapacityFits (roundUp size vector.growSize)

instance (vector : ClVector α) (size : Nat) : Decidable (vector.SizeFits size) := by
  unfold SizeFits
  infer_instance

/-- None of the sizes computed in the call overflows. -/
def Call.Fits : Call α → Prop
  | .setCapacity _ capacity => vector.CapacityFits capacity
  | .setSize _ _ size | .setMinSize _ _ size => vector.SizeFits size
  | .set _ _ index _ => index + 1 < 2 ^ 64 ∧ vector.SizeFits (index + 1)
  | .destroy => True

instance (vector : ClVector α) (call : Call α) : Decidable (call.Fits vector) := by
  cases call <;> unfold Call.Fits <;> infer_instance

end ClVector
end WinOFED.Complib
