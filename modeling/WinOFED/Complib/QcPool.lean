import WinOFED.Complib.ClVector

/-! The quick composite pool `cl_qcpool_t`.

A pool makes its objects in batches, each in one allocation, and hands them out through the pool item
that the user's initialiser names for each object. What clients hold and which callbacks were made is
kept beside the source's own fields. -/
namespace WinOFED.Complib
open WinOFED.Memory WinOFED.Transition

/-- The results the pool functions return; a user initialiser has results of its own. -/
inductive PoolStatus
  | success | insufficientMemory | invalidSetting | initializerFailed
  deriving DecidableEq, Repr

/-- What the user's initialiser makes of the components of a new object: the pool item that stands
for the object, or a failure with the item it may have set before. -/
inductive Built
  | made (item : Ptr)
  | failed (item : Option Ptr)
  deriving DecidableEq, Repr

/-- A call of a user callback. -/
inductive PoolCall
  | init (components : List Ptr) (built : Built)
  | dtor (item : Option Ptr)
  deriving DecidableEq, Repr

/-- `cl_qcpool_t`. -/
structure QcPool where
  /-- `component_sizes`, of which there are `num_components`. -/
  componentSizes : List Nat
  numObjects : Nat := 0
  maxObjects : Nat
  growSize : Nat
  /-- Whether `pfn_init` was given. -/
  hasInit : Bool
  /-- Whether `pfn_dtor` was given. -/
  hasDtor : Bool
  freeList : List Ptr := []
  /-- The allocations that `alloc_list` links. -/
  allocList : List Extent := []
  /-- `state == CL_INITIALIZED`. -/
  initialized : Bool := true
  /-- The items of the objects made so far. The source keeps no such list. -/
  made : List Ptr := []
  /-- The items clients hold. The source keeps no such list. -/
  handed : List Ptr := []
  /-- The callbacks made so far, the oldest first. -/
  calls : List PoolCall := []
  deriving DecidableEq, Repr

/-- The bytes of the size with number `index` that the copy of `count` sizes takes: it copies
`sizeof(uint32_t)` bytes for each size. -/
def copiedBytes (count index : Nat) : Nat := min 8 (4 * count - 8 * index)

/-- The caller's sizes as the pool has them after the copy, in an array that was zero. -/
def copySizes (sizes : List Nat) : List Nat :=
  sizes.mapIdx fun index size => size % 256 ^ copiedBytes sizes.length index

/-- `ROUNDUP( val, align )`. -/
def roundupMacro (val align : Nat) : Nat :=
  wrap (val / align * align + if val % align ≠ 0 then align else 0)

/-- The sizes of the components as `cl_qcpool_init` stores them. -/
def storedSizes (sizes : List Nat) : List Nat :=
  (copySizes sizes).map fun size => roundupMacro size ptrBytes

/-- `p_components` for an object at `start`: each component stands behind the one before. -/
def componentPtrs (start : Ptr) : List Nat → List Ptr
  | [] => []
  | size :: rest => start :: componentPtrs (start + size) rest

namespace QcPool

variable (pool : QcPool)

/-- The size of an object, summed in `size_t`. -/
def objSize : Nat :=
  pool.componentSizes.foldl (fun total size => wrap (total + size)) 0

/-- The pool with one more object, at the head of the free list. -/
def added (item : Ptr) (calls : List PoolCall) : QcPool :=
  { pool with
    freeList := item :: pool.freeList
    numObjects := pool.numObjects + 1
    made := pool.made ++ [item]
    calls := pool.calls ++ calls }

/-- The loop of `cl_qcpool_grow` over the objects of a new allocation. -/
def growObjects (initializer : List Ptr → Built) (pool : QcPool) (start : Ptr) :
    Nat → PoolStatus × QcPool
  | 0 => (.success, pool)
  | count + 1 =>
      let components := componentPtrs start pool.componentSizes
      if pool.hasInit then
        match initializer components with
        | .made item =>
            growObjects initializer (pool.added item [.init components (.made item)])
              (start + pool.objSize) count
        | .failed item =>
            (.initializerFailed, { pool with
              calls := pool.calls ++
                .init components (.failed item) :: if pool.hasDtor then [.dtor item] else [] })
      else
        growObjects initializer (pool.added (components.headD 0) []) (start + pool.objSize) count

/-- The objects a growth by `objCount` makes at most. -/
def growth (objCount : Nat) : Nat :=
  if pool.maxObjects - pool.numObjects < objCount then pool.maxObjects - pool.numObjects
  else objCount

/-- The allocation for `count` new objects. -/
def batch (base : Ptr) (count : Nat) : Extent :=
  ⟨base, wrap (listItemBytes + wrap (pool.objSize * count))⟩

/-- `cl_qcpool_grow`; `grant` is the allocation if there is memory for it. -/
def grow (grant : Option Ptr) (initializer : List Ptr → Built) (pool : QcPool) (objCount : Nat) :
    PoolStatus × QcPool :=
  if pool.numObjects = pool.maxObjects then (.insufficientMemory, pool)
  else
    match grant with
    | none => (.insufficientMemory, pool)
    | some base =>
        growObjects initializer
          { pool with allocList := pool.allocList ++ [pool.batch base (pool.growth objCount)] }
          (base + listItemBytes) (pool.growth objCount)

/-- The item at the head of the free list goes to the caller. -/
def takeHead : Option Ptr × QcPool :=
  match pool.freeList with
  | [] => (none, pool)
  | item :: rest => (some item, { pool with freeList := rest, handed := item :: pool.handed })

/-- The item at the tail of the free list goes to the caller. -/
def takeTail : Option Ptr × QcPool :=
  match pool.freeList.getLast? with
  | none => (none, pool)
  | some item =>
      (some item, { pool with
        freeList := pool.freeList.dropLast
        handed := item :: pool.handed })

/-- What `cl_qcpool_get` and `cl_qcpool_get_tail` share; they differ in the end of the free list they
take the item from. -/
def getFrom (take : QcPool → Option Ptr × QcPool) (grant : Option Ptr)
    (initializer : List Ptr → Built) (pool : QcPool) : Option Ptr × QcPool :=
  if pool.freeList = [] then
    if pool.growSize = 0 then (none, pool)
    else take (pool.grow grant initializer pool.growSize).2
  else take pool

/-- `cl_qcpool_get`. -/
def get := getFrom takeHead

/-- `cl_qcpool_get_tail`. -/
def getTail := getFrom takeTail

/-- `cl_qcpool_put`. -/
def put (item : Ptr) : QcPool :=
  { pool with freeList := item :: pool.freeList, handed := pool.handed.erase item }

/-- `cl_qcpool_put_list`. -/
def putList (items : List Ptr) : QcPool :=
  { pool with freeList := items ++ pool.freeList, handed := pool.handed.diff items }

/-- `cl_qcpool_destroy`: the destructor for the objects on the free list, then the memory. -/
def destroy : QcPool :=
  if pool.initialized then
    { pool with
      calls := pool.calls ++
        if pool.hasDtor then pool.freeList.map fun item => .dtor (some item) else []
      freeList := []
      allocList := []
      componentSizes := []
      initialized := false }
  else pool

/-- The pool as `cl_qcpool_init` has set it up before it makes the first objects. -/
def fresh (maxSize growSize : Nat) (sizes : List Nat) (hasInit hasDtor : Bool) : QcPool :=
  { componentSizes := storedSizes sizes
    maxObjects := if maxSize = 0 then 2 ^ 64 - 1 else maxSize
    growSize
    hasInit
    hasDtor }

/-- `cl_qcpool_init`; `memory` says whether the array of sizes can be allocated. -/
def init (memory : Bool) (grant : Option Ptr) (initializer : List Ptr → Built)
    (minSize maxSize growSize : Nat) (sizes : List Nat) (hasInit hasDtor : Bool) :
    PoolStatus × Option QcPool :=
  if 1 < sizes.length ∧ hasInit = false then (.invalidSetting, none)
  else if maxSize ≠ 0 ∧ maxSize < minSize then (.invalidSetting, none)
  else if !memory then (.insufficientMemory, none)
  else if minSize = 0 then (.success, some (fresh maxSize growSize sizes hasInit hasDtor))
  else
    match (fresh maxSize growSize sizes hasInit hasDtor).grow grant initializer minSize with
    | (.success, grown) => (.success, some grown)
    | (status, partly) => (status, some partly.destroy)

/-- Calls of the pool's functions, with what the allocator and the initialiser do in them. -/
inductive Call
  | grow (grant : Option Ptr) (initializer : List Ptr → Built) (objCount : Nat)
  | get (grant : Option Ptr) (initializer : List Ptr → Built)
  | getTail (grant : Option Ptr) (initializer : List Ptr → Built)
  | put (item : Ptr)
  | putList (items : List Ptr)
  | destroy

/-- The items of the objects that a growth makes are new to the pool and to one another. -/
def NewItems (grant : Option Ptr) (initializer : List Ptr → Built) (objCount : Nat) : Prop :=
  (pool.grow grant initializer objCount).2.made.Nodup

instance (pool : QcPool) (grant : Option Ptr) (initializer : List Ptr → Built) (objCount : Nat) :
    Decidable (pool.NewItems grant initializer objCount) := by
  unfold NewItems
  infer_instance

/-- The pool is in use, what is put back was handed out, and each object has an item of its own. -/
def Call.Admitted (call : Call) : Prop :=
  pool.initialized = true ∧
    match call with
    | .grow grant initializer objCount =>
        0 < objCount ∧ objCount < 2 ^ 64 ∧ pool.NewItems grant initializer objCount
    | .get grant initializer | .getTail grant initializer =>
        pool.NewItems grant initializer pool.growSize
    | .put item => item ∈ pool.handed
    | .putList items => items.Nodup ∧ ∀ item ∈ items, item ∈ pool.handed
    | .destroy => True

instance (pool : QcPool) (call : Call) : Decidable (call.Admitted pool) := by
  cases call <;> unfold Call.Admitted <;> infer_instance

/-- The pool after a call. -/
def call : Call → QcPool
  | .grow grant initializer objCount => (pool.grow grant initializer objCount).2
  | .get grant initializer => (pool.get grant initializer).2
  | .getTail grant initializer => (pool.getTail grant initializer).2
  | .put item => pool.put item
  | .putList items => pool.putList items
  | .destroy => pool.destroy

/-- The pool after a call that is admitted. -/
def next (call : Call) : Option QcPool :=
  if call.Admitted pool then some (pool.call call) else none

/-- The calls made on a pool once `cl_qcpool_init` has set it up; the first of them may be the growth
to the minimum size that this function makes. -/
def machine : Machine QcPool Call :=
  .ofNext (fun pool => ∃ maxSize growSize sizes hasInit hasDtor,
    maxSize < 2 ^ 64 ∧ growSize < 2 ^ 64 ∧ sizes ≠ [] ∧ (1 < sizes.length → hasInit = true) ∧
    pool = fresh maxSize growSize sizes hasInit hasDtor) next

/-- What `cl_qcpool_init` leaves is reached by the calls of the machine. -/
theorem init_reachable {guard : QcPool → Call → Prop} {memory : Bool} {grant : Option Ptr}
    {initializer : List Ptr → Built} {minSize maxSize growSize : Nat} {sizes : List Nat}
    {hasInit hasDtor : Bool} {pool : QcPool}
    (ranges : minSize < 2 ^ 64 ∧ maxSize < 2 ^ 64 ∧ growSize < 2 ^ 64 ∧ sizes ≠ [])
    (items : (fresh maxSize growSize sizes hasInit hasDtor).NewItems grant initializer minSize)
    (guarded : guard (fresh maxSize growSize sizes hasInit hasDtor)
      (.grow grant initializer minSize))
    (made : init memory grant initializer minSize maxSize growSize sizes hasInit hasDtor =
      (.success, some pool)) : machine.Reachable guard pool := by
  unfold init at made
  split at made
  · cases made
  next single =>
  have start : machine.Reachable guard (fresh maxSize growSize sizes hasInit hasDtor) := by
    refine .initial ⟨maxSize, growSize, sizes, hasInit, hasDtor, ranges.2.1, ranges.2.2.1,
      ranges.2.2.2, fun several => ?_, rfl⟩
    exact Bool.eq_true_of_not_eq_false fun none => single ⟨several, none⟩
  split at made
  · cases made
  split at made
  · cases made
  split at made
  · cases made
    exact start
  next some =>
  split at made
  next grown done =>
    cases made
    refine .step start guarded ?_
    have admitted : (Call.grow grant initializer minSize).Admitted
        (fresh maxSize growSize sizes hasInit hasDtor) :=
      ⟨rfl, Nat.pos_of_ne_zero some, ranges.1, items⟩
    exact (if_pos admitted).trans (congrArg (fun result => Option.some result.2) done)
  next failed _ =>
    cases made
    exact absurd rfl failed

end QcPool
end WinOFED.Complib
