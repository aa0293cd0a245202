import WinOFED.Complib.ClVector

/-! The life of the elements of a `cl_vector_t`: where they stand, and which callbacks they see. -/
namespace WinOFED.Complib
open WinOFED.Memory WinOFED.Transition List Nat

/-- The callbacks an element has seen, with whether it is in the vector now. An element enters
through the initialiser and leaves through the destructor, where the vector has them. An element
whose initialiser fails does not enter, but its destructor is called. -/
inductive Lifecycle (hasInit hasDtor : Bool) (element : Ptr) : List ElementCall → Bool → Prop
  | raw : Lifecycle hasInit hasDtor element [] false
  | enter {calls : List ElementCall} : Lifecycle hasInit hasDtor element calls false →
      Lifecycle hasInit hasDtor element
        (calls ++ if hasInit then [.init element true] else []) true
  | leave {calls : List ElementCall} : Lifecycle hasInit hasDtor element calls true →
      Lifecycle hasInit hasDtor element (calls ++ if hasDtor then [.dtor element] else []) false
  | refused {calls : List ElementCall} : hasInit = true →
      Lifecycle hasInit hasDtor element calls false →
      Lifecycle hasInit hasDtor element
        (calls ++ (.init element false :: if hasDtor then [.dtor element] else [])) false

namespace ClVector
variable {α : Type}

/-- The bytes of the element at an index. -/
def extent (vector : ClVector α) (index : Nat) : Extent := ⟨vector.ptr index, vector.elementSize⟩

/-- The callbacks made for the element at an address. -/
def history (vector : ClVector α) (element : Ptr) : List ElementCall :=
  vector.log.filter fun call => call.element = element

/-- The address is that of an element below the size of a living vector. -/
def live (vector : ClVector α) (element : Ptr) : Bool :=
  vector.initialized && decide (∃ index < vector.size, vector.ptr index = element)

/-- A living vector: its elements stand apart in its chunks, and the callbacks made are those of
the elements' lives. -/
structure Sound (vector : ClVector α) : Prop where
  alive : vector.initialized = true
  positive : 0 < vector.elementSize
  within : vector.size ≤ vector.capacity
  covered : vector.capacity ≤ vector.ptrArray.length
  addressable : vector.capacity * ptrBytes < 2 ^ 64
  straight : vector.strayed = false
  placed : ∀ index < vector.capacity, ∃ chunk ∈ vector.allocList,
    (vector.extent index).Inside chunk
  apart : ∀ first < vector.capacity, ∀ second < vector.capacity, first ≠ second →
    (vector.extent first).Apart (vector.extent second)
  known : ∀ call ∈ vector.log, ∃ index < vector.capacity, vector.ptr index = call.element
  lives : ∀ element, Lifecycle vector.hasInit vector.hasDtor element (vector.history element)
    (vector.live element)

variable {vector second after before : ClVector α} {capacity index size : Nat}

theorem Sound.ptr_inj (sound : vector.Sound) {first second : Nat} (left : first < vector.capacity)
    (right : second < vector.capacity) (same : vector.ptr first = vector.ptr second) :
    first = second := by
  by_contra different
  exact (sound.apart first left second right different).base_ne sound.positive sound.positive same

/-- The element at an index is among the first ones exactly if the index is. -/
theorem Sound.exists_ptr (sound : vector.Sound) {bound : Nat} (within : bound ≤ vector.capacity)
    (inside : index < vector.capacity) :
    (∃ place < bound, vector.ptr place = vector.ptr index) ↔ index < bound :=
  ⟨fun ⟨_, below, same⟩ =>
    sound.ptr_inj (Nat.lt_of_lt_of_le below within) inside same ▸ below,
    fun below => ⟨index, below, rfl⟩⟩

/-- The configuration of a vector never changes. -/
structure SameConfig (before after : ClVector α) : Prop where
  growSize : after.growSize = before.growSize
  elementSize : after.elementSize = before.elementSize
  hasInit : after.hasInit = before.hasInit
  hasDtor : after.hasDtor = before.hasDtor

/-- The vector may have grown, with every element it has had room for at its old address. -/
structure Extends (before after : ClVector α) : Prop extends SameConfig before after where
  grown : before.capacity ≤ after.capacity
  ptr : ∀ index < before.capacity, after.ptr index = before.ptr index

/-- A change of the capacity alone: more room behind the old one. -/
structure Enlarged (before after : ClVector α) : Prop extends Extends before after where
  size : after.size = before.size
  log : after.log = before.log
  initialized : after.initialized = before.initialized
  contents : ∀ index < before.capacity,
    after.contents (before.ptr index) = before.contents (before.ptr index)

theorem Extends.refl (vector : ClVector α) : vector.Extends vector :=
  ⟨⟨rfl, rfl, rfl, rfl⟩, Nat.le_refl _, fun _ _ => rfl⟩

theorem Extends.trans {first third : ClVector α} (left : first.Extends second)
    (right : second.Extends third) : first.Extends third where
  growSize := right.growSize.trans left.growSize
  elementSize := right.elementSize.trans left.elementSize
  hasInit := right.hasInit.trans left.hasInit
  hasDtor := right.hasDtor.trans left.hasDtor
  grown := Nat.le_trans left.grown right.grown
  ptr index inside := (right.ptr index (Nat.lt_of_lt_of_le inside left.grown)).trans (left.ptr index inside)

theorem Enlarged.extent (frame : before.Enlarged after) (inside : index < before.capacity) :
    after.extent index = before.extent index := by
  simp only [ClVector.extent, frame.ptr index inside, frame.elementSize]

/-- More room keeps a vector sound if the new places stand apart in its chunks. -/
theorem Sound.enlarge (sound : before.Sound) (frame : before.Enlarged after)
    (covered : after.capacity ≤ after.ptrArray.length)
    (addressable : after.capacity * ptrBytes < 2 ^ 64) (straight : after.strayed = false)
    (chunks : before.allocList ⊆ after.allocList)
    (placed : ∀ new < after.capacity, before.capacity ≤ new → ∃ chunk ∈ after.allocList,
      (after.extent new).Inside chunk)
    (apart : ∀ new < after.capacity, before.capacity ≤ new → ∀ other < new,
      (after.extent other).Apart (after.extent new)) : after.Sound where
  alive := frame.initialized.trans sound.alive
  positive := frame.elementSize ▸ sound.positive
  within := by
    rw [frame.size]
    exact le_trans sound.within frame.grown
  covered := covered
  addressable := addressable
  straight := straight
  placed := by
    intro index inside
    by_cases old : index < before.capacity
    · obtain ⟨chunk, held, within⟩ := sound.placed index old
      exact ⟨chunk, chunks held, (frame.extent old).symm ▸ within⟩
    · exact placed index inside (Nat.le_of_not_lt old)
  apart := by
    have ordered : ∀ second < after.capacity, ∀ first < second,
        (after.extent first).Apart (after.extent second) := by
      intro second right first below
      by_cases old : second < before.capacity
      · rw [frame.extent old, frame.extent (lt_trans below old)]
        exact sound.apart first (lt_trans below old) second old (Nat.ne_of_lt below)
      · exact apart second right (Nat.le_of_not_lt old) first below
    intro first left second right different
    rcases Nat.lt_or_gt_of_ne different with below | above
    · exact ordered second right first below
    · exact (ordered first left second above).symm
  known := by
    intro call made
    rw [frame.log] at made
    obtain ⟨index, inside, same⟩ := sound.known call made
    exact ⟨index, lt_of_lt_of_le inside frame.grown, (frame.ptr index inside).trans same⟩
  lives := by
    intro element
    have live : after.live element = before.live element := by
      have same : (∃ index < before.size, after.ptr index = element) ↔
          ∃ index < before.size, before.ptr index = element := by
        refine exists_congr fun index => and_congr_right fun below => ?_
        rw [frame.ptr index (lt_of_lt_of_le below sound.within)]
      simp only [live, frame.initialized, frame.size, same]
    have history : after.history element = before.history element := by
      simp only [history, frame.log]
    rw [live, history, frame.hasInit, frame.hasDtor]
    exact sound.lives element

section
variable (sound : vector.Sound) (larger : vector.capacity < capacity) (fits : capacity * ptrBytes < 2 ^ 64)
include sound larger fits

theorem ptrArray_withTable : (vector.withTable capacity).ptrArray =
      vector.ptrArray.take vector.capacity ++ List.replicate (capacity - vector.capacity) 0 := by
  simp only [withTable, cells_eq fits, cells_eq sound.addressable]
  exact copyCells_replicate sound.covered (le_of_lt larger)

theorem length_withTable : (vector.withTable capacity).ptrArray.length = capacity := by
  have := sound.covered
  rw [ptrArray_withTable sound larger fits, length_append, length_take, length_replicate]
  omega

theorem enlarged_withTable : vector.Enlarged (vector.withTable capacity) where
  growSize := rfl
  elementSize := rfl
  hasInit := rfl
  hasDtor := rfl
  grown := Nat.le_refl _
  ptr := by
    intro index inside
    have := sound.covered
    have held : index < (vector.ptrArray.take vector.capacity).length := by
      rw [length_take]
      omega
    simp only [ptr, getD_eq_getElem?_getD]
    rw [ptrArray_withTable sound larger fits, getElem?_append_left held, getElem?_take_of_lt inside]
  size := rfl
  log := rfl
  initialized := rfl
  contents _ _ := rfl

/-- Replacing the table alone keeps the vector sound. -/
theorem Sound.withTable : (vector.withTable capacity).Sound := by
  apply sound.enlarge (enlarged_withTable sound larger fits)
  · rw [length_withTable sound larger fits]
    exact le_of_lt larger
  · exact sound.addressable
  · have := sound.covered
    simp only [ClVector.withTable, cells_eq fits, cells_eq sound.addressable, sound.straight,
      length_replicate]
    simp
    omega
  · exact Subset.refl _
  · exact fun new inside beyond => absurd inside (Nat.not_lt_of_le beyond)
  · exact fun new inside beyond => absurd inside (Nat.not_lt_of_le beyond)

end

theorem length_fillPtrs (elementSize : Nat) (cells : List Ptr) (index : Nat) (address : Ptr)
    (count : Nat) : (fillPtrs elementSize cells index address count).length = cells.length := by
  induction count generalizing cells index address with
  | zero => rfl
  | succ count ih => rw [fillPtrs, ih, length_set]

/-- The loop points each cell it passes at its element and leaves the others. -/
theorem getElem?_fillPtrs {elementSize : Nat} {cells : List Ptr} {address : Ptr} {count : Nat}
    (inside : index + count ≤ cells.length) (place : Nat) :
    (fillPtrs elementSize cells index address count)[place]? =
      if index ≤ place ∧ place < index + count then
        some (address + (place - index) * elementSize)
      else cells[place]? := by
  induction count generalizing cells index address with
  | zero => rw [fillPtrs, if_neg (by omega)]
  | succ count ih =>
    rw [fillPtrs, ih (by rw [length_set]; omega), getElem?_set]
    by_cases here : index = place
    · subst here
      rw [if_neg (by omega), if_pos rfl, if_pos (by omega), if_pos (by omega)]
      simp
    split_ifs
    · have step : place - index = place - (index + 1) + 1 := by omega
      rw [step, succ_mul, add_assoc, add_comm elementSize]
    all_goals first | rfl | omega

section Chunk
variable [Inhabited α] {vector : ClVector α} {base capacity : Nat}

theorem ptr_withChunk (room : capacity ≤ vector.ptrArray.length)
    (larger : vector.capacity < capacity) (index : Nat) (inside : index < capacity) :
    (vector.withChunk base capacity).ptr index =
      if index < vector.capacity then vector.ptr index
      else base + listItemBytes + (index - vector.capacity) * vector.elementSize := by
  simp only [ptr, withChunk, getD_eq_getElem?_getD]
  rw [getElem?_fillPtrs (by omega)]
  split_ifs <;> first | rfl | omega

variable {index : Nat}

section
variable (room : capacity ≤ vector.ptrArray.length) (larger : vector.capacity < capacity)
include room larger

/-- A place the new chunk holds is one of its slots. -/
theorem extent_withChunk_new (inside : index < capacity) (new : ¬ index < vector.capacity) :
    (vector.withChunk base capacity).extent index =
      .slot (base + listItemBytes) vector.elementSize (index - vector.capacity) := by
  simp only [extent, ptr_withChunk room larger index inside, if_neg new]
  rfl

theorem extent_withChunk_new_inside
    (fits : (capacity - vector.capacity) * vector.elementSize + listItemBytes < 2 ^ 64)
    (inside : index < capacity) (new : ¬ index < vector.capacity) :
    ((vector.withChunk base capacity).extent index).Inside ⟨base, vector.chunkBytes capacity⟩ := by
  rw [extent_withChunk_new room larger inside new, chunkBytes,
    wrap_of_lt (lt_of_le_of_lt (Nat.le_add_right ..) fits), wrap_of_lt fits]
  have whole : base + listItemBytes + (capacity - vector.capacity) * vector.elementSize ≤
      base + ((capacity - vector.capacity) * vector.elementSize + listItemBytes) := by omega
  exact Extent.slot_inside (by omega) (Nat.le_add_right ..) whole

variable (sound : vector.Sound)
  (fresh : ∀ held ∈ vector.allocList, held.Apart ⟨base, vector.chunkBytes capacity⟩)
include sound fresh

theorem enlarged_withChunk : vector.Enlarged (vector.withChunk base capacity) where
  growSize := rfl
  elementSize := rfl
  hasInit := rfl
  hasDtor := rfl
  grown := Nat.le_of_lt larger
  ptr index inside := by
    rw [ptr_withChunk room larger index (lt_trans inside larger), if_pos inside]
  size := rfl
  log := rfl
  initialized := rfl
  contents index inside := by
    -- The element stands in an older chunk, which the new one does not overlap.
    obtain ⟨chunk, held, within⟩ := sound.placed index inside
    have starts : (vector.extent index).Has (vector.ptr index) :=
      ⟨le_refl _, Nat.lt_add_of_pos_right sound.positive⟩
    exact if_neg (fresh chunk held _ (within _ starts))

/-- A chunk of its own behind the elements there are keeps the vector sound. -/
theorem Sound.withChunk (addressable : capacity * ptrBytes < 2 ^ 64)
    (fits : (capacity - vector.capacity) * vector.elementSize + listItemBytes < 2 ^ 64) :
    (vector.withChunk base capacity).Sound := by
  have frame := enlarged_withChunk room larger sound fresh
  apply sound.enlarge frame
  · simpa [ClVector.withChunk, length_fillPtrs] using room
  · exact addressable
  · simp [ClVector.withChunk, sound.straight, room]
  · exact subset_append_left ..
  · intro new inside beyond
    exact ⟨_, mem_append_right _ (mem_singleton_self _),
      extent_withChunk_new_inside room larger fits inside (Nat.not_lt_of_le beyond)⟩
  · intro new inside beyond other below
    by_cases old : other < vector.capacity
    · obtain ⟨chunk, held, within⟩ := sound.placed other old
      rw [frame.extent old]
      exact (fresh chunk held).inside within
        (extent_withChunk_new_inside room larger fits inside (Nat.not_lt_of_le beyond))
    · rw [extent_withChunk_new room larger (lt_trans below inside) old,
        extent_withChunk_new room larger inside (Nat.not_lt_of_le beyond)]
      apply Extent.slot_apart
      omega

end
end Chunk

theorem Enlarged.refl (vector : ClVector α) : vector.Enlarged vector :=
  ⟨.refl vector, rfl, rfl, rfl, fun _ _ => rfl⟩

theorem Enlarged.trans {first third : ClVector α} (left : first.Enlarged second)
    (right : second.Enlarged third) : first.Enlarged third where
  toExtends := left.toExtends.trans right.toExtends
  size := right.size.trans left.size
  log := right.log.trans left.log
  initialized := right.initialized.trans left.initialized
  contents index inside := by
    have later := right.contents index (lt_of_lt_of_le inside left.grown)
    rw [left.ptr index inside] at later
    exact later.trans (left.contents index inside)

theorem Enlarged.get (frame : before.Enlarged after) (inside : index < before.capacity) :
    after.get index = before.get index := by
  simp only [ClVector.get]
  rw [frame.ptr index inside, frame.contents index inside]

/-- A request for more capacity is met, or refused with the capacity as it was. -/
theorem setCapacity_spec [Inhabited α] (sound : vector.Sound) {grant : Grant}
    (fits : vector.CapacityFits capacity) (fresh : vector.FreshChunk grant capacity) :
    (vector.setCapacity grant capacity).2.Sound ∧
      vector.Enlarged (vector.setCapacity grant capacity).2 ∧
      ((vector.setCapacity grant capacity).1 = .success ∧
          capacity ≤ (vector.setCapacity grant capacity).2.capacity ∨
        (vector.setCapacity grant capacity).1 = .insufficientMemory ∧
          (vector.setCapacity grant capacity).2.capacity = vector.capacity) := by
  by_cases enough : capacity ≤ vector.capacity
  · rw [setCapacity, if_pos enough]
    exact ⟨sound, .refl vector, Or.inl ⟨rfl, enough⟩⟩
  obtain ⟨tableFits, chunkFits⟩ := fits.resolve_left enough
  have larger : vector.capacity < capacity := Nat.lt_of_not_le enough
  rw [setCapacity, if_neg enough]
  obtain ⟨table, chunk⟩ := grant
  cases table with
  | false => exact ⟨sound, .refl vector, Or.inr ⟨rfl, rfl⟩⟩
  | true =>
    have held := sound.withTable larger tableFits
    have frame := enlarged_withTable sound larger tableFits
    cases chunk with
    | none => exact ⟨held, frame, Or.inr ⟨rfl, rfl⟩⟩
    | some base =>
      have room : capacity ≤ (vector.withTable capacity).ptrArray.length :=
        le_of_eq (length_withTable sound larger tableFits).symm
      have apart : ∀ chunk ∈ (vector.withTable capacity).allocList,
          chunk.Apart ⟨base, (vector.withTable capacity).chunkBytes capacity⟩ :=
        fresh base rfl
      refine ⟨held.withChunk room larger apart tableFits chunkFits,
        frame.trans (enlarged_withChunk room larger held apart), Or.inl ⟨rfl, ?_⟩⟩
      exact le_refl _

/-- The table, the chunks and the configuration are as before. -/
structure SameTable (before after : ClVector α) : Prop extends SameConfig before after where
  capacity : after.capacity = before.capacity
  ptrArray : after.ptrArray = before.ptrArray
  allocList : after.allocList = before.allocList
  initialized : after.initialized = before.initialized

theorem SameTable.ptr (same : before.SameTable after) (index : Nat) :
    after.ptr index = before.ptr index := by
  simp only [ClVector.ptr, same.ptrArray]

theorem SameTable.extends (same : before.SameTable after) : before.Extends after :=
  ⟨same.toSameConfig, Nat.le_of_eq same.capacity.symm, fun index _ => same.ptr index⟩

theorem history_append {before after : ClVector α} {calls : List ElementCall}
    (log : after.log = before.log ++ calls) (element : Ptr) :
    after.history element = before.history element ++ calls.filter fun call => call.element = element := by
  simp only [history, log, filter_append]

/-- Elements that enter or leave keep a vector sound if the callbacks made are theirs. -/
theorem Sound.relive (sound : before.Sound) (same : before.SameTable after)
    {calls : List ElementCall} (log : after.log = before.log ++ calls)
    (within : after.size ≤ before.capacity) (straight : after.strayed = false)
    (known : ∀ call ∈ calls, ∃ index < before.capacity, before.ptr index = call.element)
    (lives : ∀ element, Lifecycle before.hasInit before.hasDtor element
      (before.history element ++ calls.filter fun call => call.element = element)
      (decide (∃ index < after.size, before.ptr index = element))) : after.Sound where
  alive := same.initialized.trans sound.alive
  positive := same.elementSize ▸ sound.positive
  within := by rwa [same.capacity]
  covered := by
    rw [same.capacity, same.ptrArray]
    exact sound.covered
  addressable := same.capacity ▸ sound.addressable
  straight := straight
  placed := by
    intro index inside
    rw [same.capacity] at inside
    rw [same.allocList, extent, same.ptr, same.elementSize]
    exact sound.placed index inside
  apart := by
    intro first left second right different
    rw [same.capacity] at left right
    simp only [extent, same.ptr, same.elementSize]
    exact sound.apart first left second right different
  known := by
    intro call made
    simp only [same.capacity, same.ptr]
    rw [log, mem_append] at made
    exact made.elim (sound.known call) (known call)
  lives := by
    intro element
    rw [same.hasInit, same.hasDtor]
    have live : after.live element = decide (∃ index < after.size, before.ptr index = element) := by
      simp only [live, same.initialized, sound.alive, same.ptr, Bool.true_and]
    rw [live, history_append log]
    exact lives element

/-- Callbacks for one element extend its history alone. -/
theorem filter_element {calls : List ElementCall} {element : Ptr}
    (own : ∀ call ∈ calls, call.element = element) (other : Ptr) :
    calls.filter (fun call => call.element = other) = if other = element then calls else [] := by
  split
  · rename_i same
    apply filter_eq_self.mpr
    intro call made
    simp [own call made, same]
  · rename_i different
    apply filter_eq_nil_iff.mpr
    intro call made
    simp only [own call made, decide_eq_true_eq]
    exact fun same => different same.symm

/-- The vector with one more element, left by its initialiser with `value`. -/
def entered (vector : ClVector α) (value : α) : ClVector α :=
  { vector.logged vector.size [.init (vector.ptr vector.size) true] with
    contents := Function.update vector.contents (vector.ptr vector.size) value
    size := vector.size + 1 }

theorem sameTable_entered (vector : ClVector α) (value : α) :
    vector.SameTable (vector.entered value) := ⟨⟨rfl, rfl, rfl, rfl⟩, rfl, rfl, rfl, rfl⟩

section
variable (sound : vector.Sound)
include sound

theorem Sound.lives' (element : Ptr) :
    Lifecycle vector.hasInit vector.hasDtor element (vector.history element)
      (decide (∃ index < vector.size, vector.ptr index = element)) := by
  have lives := sound.lives element
  rwa [live, sound.alive, Bool.true_and] at lives

/-- Callbacks for the place behind the last element keep a vector sound if they are of its life. -/
theorem Sound.behind (room : vector.size < vector.capacity) {calls : List ElementCall}
    (own : ∀ call ∈ calls, call.element = vector.ptr vector.size) {contents : Ptr → α}
    (least : vector.size ≤ size) (most : size ≤ vector.size + 1)
    (lives : Lifecycle vector.hasInit vector.hasDtor (vector.ptr vector.size) (vector.history (vector.ptr vector.size)) false → Lifecycle vector.hasInit vector.hasDtor (vector.ptr vector.size) (vector.history (vector.ptr vector.size) ++ calls) (decide (vector.size < size))) :
    ClVector.Sound { vector.logged vector.size calls with contents, size } := by
  have within : size ≤ vector.capacity := le_trans most room
  refine @Sound.relive _ _ vector sound ⟨⟨rfl, rfl, rfl, rfl⟩, rfl, rfl, rfl, rfl⟩ calls rfl within
    ?_ (fun call made => ⟨vector.size, room, (own call made).symm⟩) ?_
  · have := sound.covered
    simp [logged, sound.straight]
    omega
  · intro element
    rw [filter_element own]
    by_cases same : element = vector.ptr vector.size
    · subst same
      have outside := sound.lives' (vector.ptr vector.size)
      simp only [sound.exists_ptr sound.within room, lt_irrefl, decide_false] at outside
      simp only [if_pos, sound.exists_ptr within room]
      exact lives outside
    · have unchanged : (∃ index < size, vector.ptr index = element) ↔
          ∃ index < vector.size, vector.ptr index = element := by
        constructor
        · rintro ⟨index, below, equal⟩
          refine ⟨index, lt_of_le_of_ne (by omega) ?_, equal⟩
          rintro rfl
          exact same equal.symm
        · rintro ⟨index, below, equal⟩
          exact ⟨index, lt_of_lt_of_le below least, equal⟩
      simp only [if_neg same, append_nil, unchanged]
      exact sound.lives' element

theorem Sound.entered (has : vector.hasInit = true) (room : vector.size < vector.capacity)
    (value : α) : (vector.entered value).Sound := by
  apply sound.behind room
  · intro call made
    rw [mem_singleton.mp made]
    rfl
  · exact le_succ _
  · exact le_refl _
  · intro outside
    have inside := outside.enter
    rw [if_pos has] at inside
    rwa [decide_eq_true (lt_succ_self _)]

theorem get_entered (room : vector.size < vector.capacity) (value : α)
    (below : index < vector.size) : (vector.entered value).get index = vector.get index := by
  have different : vector.ptr index ≠ vector.ptr vector.size := fun same => by
    have := sound.ptr_inj (lt_trans below room) room same
    omega
  have place : (vector.entered value).ptr index = vector.ptr index := rfl
  rw [get, place]
  exact Function.update_of_ne different ..

end

/-- The vector once the initialiser of the place behind the last element has failed. -/
def refused (vector : ClVector α) : ClVector α :=
  vector.logged vector.size (.init (vector.ptr vector.size) false ::
    if vector.hasDtor then [.dtor (vector.ptr vector.size)] else [])

theorem sameTable_refused (vector : ClVector α) : vector.SameTable vector.refused :=
  ⟨⟨rfl, rfl, rfl, rfl⟩, rfl, rfl, rfl, rfl⟩

theorem Sound.refused (sound : vector.Sound) (has : vector.hasInit = true)
    (room : vector.size < vector.capacity) : vector.refused.Sound := by
  apply sound.behind room
  · intro call made
    rcases mem_cons.mp made with rfl | later
    · rfl
    · split at later
      · rw [mem_singleton.mp later]
        rfl
      · cases later
  · exact le_refl _
  · exact le_succ _
  · intro outside
    rw [decide_eq_false (lt_irrefl _)]
    exact outside.refused has

/-- What a change of size leaves behind, for the size asked for. -/
structure Resized (before : ClVector α) (inits : Nat → Option α) (size : Nat)
    (result : VectorStatus × ClVector α) : Prop where
  sound : result.2.Sound
  frame : before.Extends result.2
  kept : ∀ index < before.size, index < result.2.size → result.2.get index = before.get index
  reached : result.1 = .success → result.2.size = size
  memory : result.1 = .insufficientMemory → result.2.size = before.size ∧
    result.2.capacity = before.capacity ∧ result.2.log = before.log
  refused : result.1 = .initializerFailed → before.size ≤ result.2.size ∧
    result.2.size < size ∧ inits result.2.size = none

theorem initElements_ne_insufficientMemory (inits : Nat → Option α) (vector : ClVector α)
    (count : Nat) : (vector.initElements inits count).1 ≠ .insufficientMemory := by
  induction count generalizing vector with
  | zero => simp [initElements]
  | succ count ih =>
    unfold initElements
    cases inits vector.size with
    | none => simp
    | some value => exact ih _

/-- The loop initialises the places one after the other and stops at the first failure. -/
theorem initElements_spec (sound : vector.Sound)
    (has : vector.hasInit = true) (inits : Nat → Option α) {count : Nat}
    (room : vector.size + count ≤ vector.capacity) :
    vector.Resized inits (vector.size + count) (vector.initElements inits count) := by
  induction count generalizing vector with
  | zero =>
    exact ⟨sound, .refl vector, fun _ _ _ => rfl, fun _ => rfl, (nomatch ·), (nomatch ·)⟩
  | succ count ih =>
    have first : vector.size < vector.capacity := by omega
    unfold initElements
    cases outcome : inits vector.size with
    | none =>
      exact ⟨sound.refused has first, (sameTable_refused vector).extends, fun _ _ _ => rfl,
        (nomatch ·), (nomatch ·), fun _ => ⟨le_refl _, Nat.lt_add_of_pos_right (succ_pos _), outcome⟩⟩
    | some value =>
      have shape : (vector.entered value).size + count = vector.size + (count + 1) := by
        simp only [ClVector.entered]
        omega
      have rest := ih (sound.entered has first value) has (by rw [shape]; exact room)
      rw [shape] at rest
      refine ⟨rest.sound, (sameTable_entered vector value).extends.trans rest.frame, ?_,
        rest.reached, ?_, ?_⟩
      · intro index below inside
        have later := rest.kept index (lt_succ_of_lt below) inside
        exact later.trans (get_entered sound first value below)
      · exact fun failed =>
          (initElements_ne_insufficientMemory inits (vector.entered value) count failed).elim
      · intro failed
        obtain ⟨least, below, stopped⟩ := rest.refused failed
        exact ⟨le_of_succ_le least, below, stopped⟩

/-- A destructor call from `low` up to the size concerns the element at an index at most once. -/
theorem filter_dtorCalls (sound : vector.Sound) (low : Nat) (inside : index < vector.capacity) :
    (vector.dtorCalls low).filter (fun call => call.element = vector.ptr index) =
      if low ≤ index ∧ index < vector.size ∧ vector.hasDtor then [.dtor (vector.ptr index)]
      else [] := by
  unfold dtorCalls
  cases vector.hasDtor with
  | false => simp
  | true =>
    rw [if_pos rfl, filter_map]
    have one : ∀ place ∈ range' low (vector.size - low),
        ((fun call : ElementCall => decide (call.element = vector.ptr index)) ∘
          fun place => .dtor (vector.ptr place)) place = (place == index) := by
      intro place passed
      have below : place < vector.capacity := by
        have := mem_range'_1.mp passed
        have := sound.within
        omega
      have same : vector.ptr place = vector.ptr index ↔ place = index :=
        ⟨sound.ptr_inj below inside, fun equal => by rw [equal]⟩
      simp only [Function.comp, ElementCall.element, same]
      rfl
    have reach : index ∈ range' low (vector.size - low) ↔ low ≤ index ∧ index < vector.size ∧ true := by
      simp only [mem_range'_1, and_true]
      omega
    rw [filter_congr one, filter_beq, List.Nodup.count nodup_range']
    simp only [reach]
    split <;> rfl

theorem element_of_mem_dtorCalls {low : Nat} {call : ElementCall}
    (made : call ∈ vector.dtorCalls low) :
    ∃ index < vector.size, vector.ptr index = call.element := by
  unfold dtorCalls at made
  split at made
  · obtain ⟨index, passed, rfl⟩ := mem_map.mp made
    have := mem_range'_1.mp passed
    exact ⟨index, by omega, rfl⟩
  · cases made

/-- The life of an element when the size becomes `size` without an initialiser: it leaves if it is
cut off, and enters if the size passes it. -/
theorem lifecycle_resize (sound : vector.Sound) (within : size ≤ vector.capacity)
    (plain : vector.size < size → vector.hasInit = false) (element : Ptr) :
    Lifecycle vector.hasInit vector.hasDtor element
      (vector.history element ++ (vector.dtorCalls size).filter fun call => call.element = element)
      (decide (∃ index < size, vector.ptr index = element)) := by
  have lives := sound.lives' element
  by_cases known : ∃ index < vector.capacity, vector.ptr index = element
  · obtain ⟨index, inside, rfl⟩ := known
    simp only [sound.exists_ptr sound.within inside] at lives
    simp only [sound.exists_ptr within inside, filter_dtorCalls sound size inside]
    by_cases was : index < vector.size <;> by_cases stays : index < size
    · rw [if_neg (by omega), append_nil, decide_eq_true stays]
      rwa [decide_eq_true was] at lives
    · rw [decide_eq_true was] at lives
      have left := lives.leave
      have calls : (if size ≤ index ∧ index < vector.size ∧ vector.hasDtor = true then
          [ElementCall.dtor (vector.ptr index)] else []) =
          if vector.hasDtor then [.dtor (vector.ptr index)] else [] := by
        simp only [Nat.le_of_not_lt stays, was, true_and]
      rwa [calls, decide_eq_false stays]
    · rw [decide_eq_false was] at lives
      have entered := lives.enter
      rw [plain (by omega)] at entered
      rw [if_neg (by omega), decide_eq_true stays, plain (by omega)]
      exact entered
    · rw [if_neg (by omega), append_nil, decide_eq_false stays]
      rwa [decide_eq_false was] at lives
  · have calls : (vector.dtorCalls size).filter (fun call => call.element = element) = [] := by
      apply filter_eq_nil_iff.mpr
      intro call made
      obtain ⟨index, below, same⟩ := element_of_mem_dtorCalls made
      simp only [decide_eq_true_eq]
      exact fun equal =>
        known ⟨index, lt_of_lt_of_le below sound.within, same.trans equal⟩
    have never : ∀ bound ≤ vector.capacity, ¬ ∃ index < bound, vector.ptr index = element :=
      fun bound small ⟨index, below, same⟩ =>
        known ⟨index, lt_of_lt_of_le below small, same⟩
    rw [calls, append_nil, decide_eq_false (never size within)]
    rwa [decide_eq_false (never vector.size sound.within)] at lives

theorem resize_ne_insufficientMemory (inits : Nat → Option α) (vector : ClVector α) (size : Nat) :
    (vector.resize inits size).1 ≠ .insufficientMemory := by
  unfold resize
  split
  · have never := initElements_ne_insufficientMemory inits vector (size - vector.size)
    split
    · simp
    · rename_i failed
      rwa [failed] at never
  · simp

/-- Once there is room, a change of size is made or stopped by an initialiser. -/
theorem resize_spec (sound : vector.Sound) (inits : Nat → Option α) (room : size ≤ vector.capacity)
    :
    vector.Resized inits size (vector.resize inits size) := by
  unfold resize
  split
  · rename_i grows
    have reach : vector.size + (size - vector.size) = size := by omega
    have loop := @initElements_spec _ _ sound grows.2 inits (size - vector.size) (by rw [reach]; exact room)
    rw [reach] at loop
    cases result : vector.initElements inits (size - vector.size) with
    | mk status after =>
      rw [result] at loop
      cases status with
      | success =>
        have sized : { after with size } = after := by rw [← loop.reached rfl]
        simp only [sized]
        exact loop
      | insufficientMemory | initializerFailed => exact loop
  · rename_i plain
    refine ⟨?_, ⟨⟨rfl, rfl, rfl, rfl⟩, le_refl _, fun _ _ => rfl⟩, fun _ _ _ => rfl,
      fun _ => rfl, (nomatch ·), (nomatch ·)⟩
    have same : vector.SameTable { vector with
        log := vector.log ++ vector.dtorCalls size
        strayed := vector.strayed || (vector.hasDtor && decide (size < vector.size) &&
          decide (vector.ptrArray.length < vector.size))
        size } := ⟨⟨rfl, rfl, rfl, rfl⟩, rfl, rfl, rfl, rfl⟩
    apply sound.relive same rfl room
    · have := sound.within
      have := sound.covered
      have short : ¬ vector.ptrArray.length < vector.size := by omega
      simp [sound.straight, short]
    · intro call made
      obtain ⟨index, below, equal⟩ := element_of_mem_dtorCalls made
      exact ⟨index, lt_of_lt_of_le below sound.within, equal⟩
    · refine lifecycle_resize sound room fun larger => ?_
      exact Bool.eq_false_iff.mpr fun has => plain ⟨larger, has⟩

theorem setSize_spec [Inhabited α] (sound : vector.Sound) {grant : Grant}
    {inits : Nat → Option α} {size : Nat} (fits : vector.SizeFits size)
    (fresh : vector.FreshChunk grant (newCapacity size vector.growSize)) :
    vector.Resized inits size (vector.setSize grant inits size) := by
  by_cases same : size = vector.size
  · rw [setSize, if_pos same]
    exact ⟨sound, .refl vector, fun _ _ _ => rfl, fun _ => same.symm, by rintro ⟨⟩, by rintro ⟨⟩⟩
  by_cases room : size ≤ vector.capacity
  · rw [setSize, if_neg same, if_neg (Nat.not_lt_of_le room)]
    exact resize_spec sound inits room
  by_cases fixed : vector.growSize = 0
  · rw [setSize, if_neg same, if_pos (Nat.lt_of_not_le room), if_pos fixed]
    exact ⟨sound, .refl vector, fun _ _ _ => rfl, by rintro ⟨⟩, fun _ => ⟨rfl, rfl, rfl⟩, by rintro ⟨⟩⟩
  have asked : vector.CapacityFits (roundUp size vector.growSize) :=
    (fits.resolve_left room).resolve_left fixed
  have enough := le_roundUp size vector.growSize
  have rounded : newCapacity size vector.growSize = roundUp size vector.growSize := by
    apply newCapacity_eq_roundUp
    rcases asked with low | ⟨high, _⟩
    · omega
    · simp only [ptrBytes] at high
      omega
  rw [rounded] at fresh
  rw [setSize, if_neg same, if_pos (Nat.lt_of_not_le room), if_neg fixed, rounded]
  have grown := setCapacity_spec sound asked fresh
  cases result : vector.setCapacity grant (roundUp size vector.growSize) with
  | mk status after =>
    rw [result] at grown
    obtain ⟨kept, frame, ⟨rfl, reached⟩ | ⟨rfl, stays⟩⟩ := grown
    · have resized := resize_spec kept inits (le_trans enough reached)
      refine ⟨resized.sound, frame.toExtends.trans resized.frame, ?_, resized.reached, ?_, ?_⟩
      · intro index below inside
        have later := resized.kept index (by rw [frame.size]; exact below) inside
        exact later.trans (frame.get (lt_of_lt_of_le below sound.within))
      · intro failed
        exact (resize_ne_insufficientMemory inits after size failed).elim
      · intro failed
        have stopped := resized.refused failed
        rwa [frame.size] at stopped
    · refine ⟨kept, frame.toExtends, ?_, by rintro ⟨⟩, fun _ => ⟨frame.size, stays, frame.log⟩,
        by rintro ⟨⟩⟩
      intro index below _
      exact frame.get (lt_of_lt_of_le below sound.within)

/-- A vector after its destruction: no element is left, and each has seen its whole life. -/
structure Ended (vector : ClVector α) : Prop where
  dead : vector.initialized = false
  lives : ∀ element, Lifecycle vector.hasInit vector.hasDtor element (vector.history element) false

/-- Destruction takes every element that is left through its destructor. -/
theorem Sound.destroy (sound : vector.Sound) : vector.destroy.Ended := by
  have result : vector.destroy = { vector with
      log := vector.log ++ vector.dtorCalls 0
      allocList := []
      ptrArray := []
      strayed := vector.strayed || (vector.hasDtor && decide (vector.ptrArray.length < vector.size))
      initialized := false } := by
    rw [ClVector.destroy, if_pos sound.alive]
  rw [result]
  refine ⟨rfl, ?_⟩
  intro element
  have ended := lifecycle_resize sound (zero_le _) (fun grows => (not_lt_zero _ grows).elim) element
  have none : ¬ ∃ index < 0, vector.ptr index = element := fun ⟨index, below, _⟩ => not_lt_zero index below
  rw [decide_eq_false none] at ended
  rw [@history_append _ vector _ _ rfl]
  exact ended

/-- The size a call asks for. -/
def Call.sizeAsked : Call α → Nat
  | .setSize _ _ size | .setMinSize _ _ size => size
  | .set _ _ index _ => index + 1
  | .setCapacity .. | .destroy => 0

/-- The initialiser fails for the element at an index when the call runs it. -/
def Call.Refuses (index : Nat) : Call α → Prop
  | .setSize _ inits _ | .setMinSize _ inits _ | .set _ inits _ _ => inits index = none
  | .setCapacity .. | .destroy => False

/-- What a call on a living vector leaves behind if it lives on. -/
structure Outcome (before : ClVector α) (call : Call α) (result : VectorStatus × ClVector α) :
    Prop where
  sound : result.2.Sound
  frame : before.Extends result.2
  reached : result.1 = .success → call.sizeAsked ≤ result.2.size
  kept : result.1 ≠ .success → ∀ index < before.size, result.2.get index = before.get index
  memory : result.1 = .insufficientMemory → result.2.size = before.size ∧
    result.2.capacity = before.capacity ∧ result.2.log = before.log
  refused : result.1 = .initializerFailed → before.size ≤ result.2.size ∧
    result.2.size < call.sizeAsked ∧ call.Refuses result.2.size

theorem Resized.kept_of_failed {inits : Nat → Option α} {result : VectorStatus × ClVector α}
    (resized : before.Resized inits size result) (failed : result.1 ≠ .success) (index : Nat)
    (below : index < before.size) : result.2.get index = before.get index := by
  apply resized.kept index below
  cases status : result.1 with
  | success => exact absurd status failed
  | insufficientMemory => rwa [(resized.memory status).1]
  | initializerFailed => exact lt_of_lt_of_le below (resized.refused status).1

/-- A change of size is what the call that asks for it leaves behind. -/
theorem Resized.outcome {call : Call α} {inits : Nat → Option α}
    {result : VectorStatus × ClVector α} (resized : before.Resized inits call.sizeAsked result)
    (refuses : ∀ index, inits index = none → call.Refuses index) : before.Outcome call result where
  sound := resized.sound
  frame := resized.frame
  reached success := Nat.le_of_eq (resized.reached success).symm
  kept := resized.kept_of_failed
  memory := resized.memory
  refused failed := (resized.refused failed).imp_right (.imp_right (refuses _))

theorem sameTable_store (vector : ClVector α) (index : Nat) (element : α) :
    vector.SameTable (vector.store index element) := ⟨⟨rfl, rfl, rfl, rfl⟩, rfl, rfl, rfl, rfl⟩

theorem Sound.store (sound : vector.Sound) (inside : index < vector.size) (element : α) :
    (vector.store index element).Sound := by
  apply sound.relive (sameTable_store vector index element) (append_nil _).symm sound.within
  · have := sound.within
    have := sound.covered
    simp [ClVector.store, sound.straight]
    omega
  · exact fun _ made => nomatch made
  · intro other
    rw [filter_nil, append_nil]
    exact sound.lives' other

section Calls
variable [Inhabited α] {vector : ClVector α}

variable {grant : Grant} {inits : Nat → Option α}

section
variable (sound : vector.Sound)
include sound

theorem outcome_setCapacity
    (fits : vector.CapacityFits capacity) (fresh : vector.FreshChunk grant capacity) :
    vector.Outcome (.setCapacity grant capacity) (vector.setCapacity grant capacity) := by
  obtain ⟨after, frame, result⟩ := setCapacity_spec sound fits fresh
  have kept : ∀ index < vector.size, _ = vector.get index := fun index below =>
    frame.get (lt_of_lt_of_le below sound.within)
  rcases result with ⟨success, _⟩ | ⟨memory, same⟩
  · exact ⟨after, frame.toExtends, fun _ => zero_le _, fun _ => kept, by simp [success], by simp [success]⟩
  · exact ⟨after, frame.toExtends, fun _ => zero_le _, fun _ => kept,
      fun _ => ⟨frame.size, same, frame.log⟩, by simp [memory]⟩

theorem outcome_setMinSize {minSize : Nat} (fits : vector.SizeFits minSize)
    (fresh : vector.FreshChunk grant (newCapacity minSize vector.growSize)) :
    vector.Outcome (.setMinSize grant inits minSize) (vector.setMinSize grant inits minSize) := by
  unfold setMinSize
  split
  · exact (setSize_spec sound fits fresh).outcome fun _ refuses => refuses
  · rename_i enough
    exact ⟨sound, .refl vector, fun _ => Nat.le_of_not_lt enough,
      fun failed => absurd rfl failed, (nomatch ·), (nomatch ·)⟩

theorem outcome_set {element : α}
    (fits : (Call.set grant inits index element).Fits vector)
    (fresh : vector.FreshChunk grant (newCapacity (wrap (index + 1)) vector.growSize)) :
    vector.Outcome (.set grant inits index element) (vector.set grant inits index element) := by
  rw [wrap_of_lt fits.1] at fresh
  unfold set
  split
  · have resized := @setSize_spec _ _ _ sound grant inits _ fits.2 fresh
    rw [wrap_of_lt fits.1]
    cases result : vector.setSize grant inits (index + 1) with
    | mk status grown =>
      rw [result] at resized
      simp only
      split_ifs with failed
      · exact resized.outcome fun _ refuses => refuses
      · -- A growth that fails stops at or before the index.
        have held : index < grown.size := by
          by_cases success : status = .success
          · rw [resized.reached success]
            exact lt_succ_self _
          · exact Nat.lt_of_not_le fun small => failed ⟨success, small⟩
        exact ⟨resized.sound.store held element,
          resized.frame.trans (sameTable_store grown index element).extends, fun _ => held,
          fun failed => absurd rfl failed, (nomatch ·), (nomatch ·)⟩
  · rename_i inside
    exact ⟨sound.store (Nat.lt_of_not_le inside) element,
      (sameTable_store vector index element).extends, fun _ => Nat.lt_of_not_le inside, fun failed => absurd rfl failed, (nomatch ·), (nomatch ·)⟩

/-- Every call but the destruction keeps the vector sound and its elements in place. -/
theorem Sound.outcome {call : Call α} (admitted : call.Admitted vector)
    (fits : call.Fits vector) (stays : call ≠ .destroy) : vector.Outcome call (vector.call call) := by
  cases call with
  | setCapacity grant capacity => exact outcome_setCapacity sound fits admitted.2.2
  | setSize grant inits size =>
    exact (setSize_spec sound fits admitted.2.2).outcome fun _ refuses => refuses
  | setMinSize grant inits minSize => exact outcome_setMinSize sound fits admitted.2.2
  | set grant inits index element => exact outcome_set sound fits admitted.2.2
  | destroy => exact absurd rfl stays

end

omit [Inhabited α] in
theorem sound_fresh {growSize elementSize : Nat} {hasInit hasDtor : Bool} {contents : Ptr → α}
    (positive : 0 < elementSize) :
    ({ growSize, elementSize, hasInit, hasDtor, contents } : ClVector α).Sound where
  alive := rfl
  positive := positive
  within := Nat.le_refl _
  covered := Nat.le_refl _
  addressable := by simp [ptrBytes]
  straight := rfl
  placed _ inside := absurd inside (Nat.not_lt_zero _)
  apart _ inside := absurd inside (Nat.not_lt_zero _)
  known _ made := nomatch made
  lives element := by simpa [live, history] using Lifecycle.raw

theorem Call.admitted_of_next {call : Call α}
    (step : next vector call = some after) :
    call.Admitted vector ∧ (vector.call call).2 = after := by
  obtain ⟨admitted, taken⟩ := Option.ite_none_right_eq_some.mp step
  exact ⟨admitted, Option.some.inj taken⟩

/-- A vector is sound as long as it lives. -/
theorem sound_or_ended_of_reachable (reached : machine.Reachable Call.Fits vector) :
    vector.Sound ∨ vector.Ended := by
  refine @Machine.Reachable.invariant _ _ machine _
    (fun vector : ClVector α => vector.Sound ∨ vector.Ended) ?_ ?_ _ reached
  · rintro _ ⟨growSize, elementSize, hasInit, hasDtor, contents, _, positive, _, rfl⟩
    exact Or.inl (sound_fresh positive)
  · intro before call after either fits step
    obtain ⟨admitted, rfl⟩ := Call.admitted_of_next step
    rcases either with sound | ended
    · by_cases last : call = .destroy
      · subst last
        exact Or.inr sound.destroy
      · exact Or.inl (sound.outcome admitted fits last).sound
    · exact absurd admitted.1 (by simp [ended.dead])

theorem sound_of_reached (reached : machine.Reachable Call.Fits vector)
    (alive : vector.initialized = true) : vector.Sound :=
  (sound_or_ended_of_reachable reached).resolve_right fun ended => by simp [ended.dead] at alive

/-- Over any calls the elements stay where they are, as long as the vector lives. -/
theorem Sound.extends_of_run (sound : vector.Sound) {calls : List (Call α)} {later : ClVector α}
    (guarded : Machine.Guarded next Call.Fits vector calls)
    (ended : Machine.run next vector calls = some later) (alive : later.initialized = true) :
    vector.Extends later := by
  induction calls generalizing vector with
  | nil =>
    cases ended
    exact .refl _
  | cons call rest ih =>
    obtain ⟨middle, first, others⟩ := Option.bind_eq_some_iff.mp ended
    obtain ⟨admitted, rfl⟩ := Call.admitted_of_next first
    by_cases last : call = .destroy
    · -- No call is admitted on a destroyed vector, so the run ends here.
      subst last
      have dead : vector.destroy.initialized = false := sound.destroy.dead
      cases rest with
      | nil =>
        cases others
        simp [call, dead] at alive
      | cons call rest =>
        obtain ⟨_, second, _⟩ := Option.bind_eq_some_iff.mp others
        have living := (Call.admitted_of_next second).1.1
        simp [ClVector.call, dead] at living
    · have outcome := sound.outcome admitted guarded.1 last
      exact outcome.frame.trans (ih outcome.sound (guarded.2 _ first) others)

/-- In every run of calls that compute within `size_t`, the elements of a living vector stand
apart and never move, each element has seen the callbacks of its life and is below the size exactly
while it is alive, a call that fails for lack of memory changes nothing, and one that an initialiser
stops leaves the vector grown up to the element that failed, with the elements there were as they
were. -/
theorem elements_of_reachable
    (reached : machine.Reachable (fun vector call => Call.Fits vector call) vector) :
    (vector.initialized = true → ∀ first < vector.capacity, ∀ second < vector.capacity,
      first ≠ second → (vector.extent first).Apart (vector.extent second)) ∧
    (vector.initialized = true → ∀ calls later,
      Machine.Guarded next (fun vector call => Call.Fits vector call) vector calls →
      Machine.run next vector calls = some later → later.initialized = true →
      ∀ index < vector.capacity, later.ptr index = vector.ptr index) ∧
    (∀ element, Lifecycle vector.hasInit vector.hasDtor element (vector.history element)
      (vector.live element)) ∧
    ∀ call : Call α, call.Admitted vector → call.Fits vector →
      ((vector.call call).1 ≠ .success →
        ∀ index < vector.size, (vector.call call).2.get index = vector.get index) ∧
      ((vector.call call).1 = .insufficientMemory →
        (vector.call call).2.size = vector.size ∧
        (vector.call call).2.capacity = vector.capacity ∧
        (vector.call call).2.log = vector.log) ∧
      ((vector.call call).1 = .initializerFailed →
        vector.size ≤ (vector.call call).2.size ∧
        (vector.call call).2.size < call.sizeAsked ∧
        call.Refuses (vector.call call).2.size) := by
  refine ⟨?_, ?_, ?_, ?_⟩
  · intro alive
    exact (sound_of_reached reached alive).apart
  · intro alive calls later guarded ended living index inside
    exact ((sound_of_reached reached alive).extends_of_run guarded ended living).ptr index inside
  · intro element
    rcases sound_or_ended_of_reachable reached with sound | ended
    · exact sound.lives element
    · have dead : vector.live element = false := by simp [live, ended.dead]
      rw [dead]
      exact ended.lives element
  · intro call admitted fits
    by_cases last : call = .destroy
    · subst last
      exact ⟨fun failed => absurd rfl failed, (nomatch ·), (nomatch ·)⟩
    · have outcome := (sound_of_reached reached admitted.1).outcome admitted fits last
      exact ⟨outcome.kept, outcome.memory, outcome.refused⟩

end Calls

/-- A vector of eight-byte elements with both callbacks that grows by two. -/
def pairs : ClVector Nat :=
  { growSize := 2, elementSize := 8, hasInit := true, hasDtor := true, contents := fun _ => 0 }

theorem pairs_reachable : machine.Reachable Call.Fits pairs :=
  .initial ⟨2, 8, true, true, fun _ => 0, by decide, by decide, by decide, rfl⟩

/-- The vector made with one element in a chunk at address 1000. -/
def onePair : ClVector Nat :=
  (init ⟨true, some 1000⟩ (fun _ => some 7) 1 2 8 true true fun _ => 0).2

theorem onePair_reachable : machine.Reachable Call.Fits onePair := by
  have fits : (Call.setSize ⟨true, some 1000⟩ (fun _ => some 7) 1).Fits pairs := by decide
  exact @init_reachable _ _ _ ⟨true, some 1000⟩ (fun _ => some 7) 1 2 8 true true (fun _ => 0) _
    (by decide) fits rfl

/-- The two places of the chunk stand apart, and the element has been initialised once. -/
theorem onePair_elements :
    onePair.extent 0 = ⟨1016, 8⟩ ∧ (onePair.extent 0).Apart (onePair.extent 1) ∧
      Lifecycle true true 1016 [.init 1016 true] true := by
  obtain ⟨apart, _, lives, _⟩ := elements_of_reachable onePair_reachable
  exact ⟨by decide, apart rfl 0 (by decide) 1 (by decide) (by decide), lives 1016⟩

/-- A growth to two elements that the second initialiser stops keeps the first one: size and
capacity differ from what they were before the call that failed. -/
theorem pairs_setSize_partly :
    machine.Reachable (fun vector call => Call.Fits vector call) pairs ∧
    (pairs.call (.setSize ⟨true, some 1000⟩ (fun index => if index = 0 then some 7 else none) 2)).1 =
      .initializerFailed ∧
    pairs.size = 0 ∧ pairs.capacity = 0 ∧
    (pairs.call (.setSize ⟨true, some 1000⟩
      (fun index => if index = 0 then some 7 else none) 2)).2.size = 1 ∧
    (pairs.call (.setSize ⟨true, some 1000⟩
      (fun index => if index = 0 then some 7 else none) 2)).2.capacity = 2 ∧
    (pairs.call (.setSize ⟨true, some 1000⟩
      (fun index => if index = 0 then some 7 else none) 2)).2.log =
        [.init 1016 true, .init 1024 false, .dtor 1024] :=
  ⟨pairs_reachable, by decide, by decide, by decide, by decide, by decide, by decide⟩

end ClVector

/-- The size a call on a pointer vector asks for. -/
def PtrVector.Call.sizeAsked (vector : PtrVector) : PtrVector.Call → Nat
  | .setSize _ size | .setMinSize _ size => size
  | .set _ index _ => index + 1
  | .insert .. => vector.size + 1
  | .setCapacity .. | .remove _ => 0

/-- A call that succeeds leaves at least the size it asks for. -/
theorem PtrVector.Meets.sizeAsked_le {vector : PtrVector} {call : PtrVector.Call}
    (meets : vector.Meets call) (success : (vector.call call).1.status = .success) :
    call.sizeAsked vector ≤ (vector.call call).2.size := by
  have effect := meets.effect
  cases call with
  | setCapacity memory capacity | remove index => exact zero_le _
  | setSize memory size =>
    rw [← length_entries]
    exact le_of_eq (effect success).1.symm
  | setMinSize memory minSize | set memory index element =>
    rw [← length_entries]
    exact (effect success).1
  | insert memory element =>
    obtain ⟨_, _, _, _, longer, _⟩ := effect success
    rw [length_entries, length_entries] at longer
    exact longer

/-- In every run of calls that compute within `size_t`, and in which a pointer vector is not
refused the memory for the place right behind its last entry, no size exceeds its capacity, the
storage covers the capacity, and a call that succeeds leaves at least the size it asks for. -/
theorem vectors_sized_of_reachable {α : Type} [Inhabited α] {pointers : PtrVector}
    {elements : ClVector α}
    (reached : PtrVector.machine.Reachable
      (fun vector call => call.Fits vector ∧ call.Roomy vector) pointers)
    (arrived : ClVector.machine.Reachable (fun vector call => ClVector.Call.Fits vector call) elements)
    (alive : elements.initialized = true) :
    (pointers.size ≤ pointers.capacity ∧ pointers.capacity ≤ pointers.ptrArray.length ∧
      ∀ call : PtrVector.Call, call.Admitted pointers → call.Fits pointers → call.Roomy pointers →
        (pointers.call call).1.status = .success →
        call.sizeAsked pointers ≤ (pointers.call call).2.size) ∧
    elements.size ≤ elements.capacity ∧ elements.capacity ≤ elements.ptrArray.length ∧
      (∀ index < elements.capacity, ∃ chunk ∈ elements.allocList,
        (elements.extent index).Inside chunk) ∧
      ∀ call : ClVector.Call α, call.Admitted elements → call.Fits elements → call ≠ .destroy →
        (elements.call call).1 = .success → call.sizeAsked ≤ (elements.call call).2.size := by
  constructor
  · have sound := PtrVector.sound_of_reached reached
    refine ⟨sound.within, le_of_eq sound.covered.symm, ?_⟩
    intro call admitted fits roomy success
    exact (sound.meets admitted fits roomy).sizeAsked_le success
  · have sound := ClVector.sound_of_reached arrived alive
    refine ⟨sound.within, sound.covered, sound.placed, ?_⟩
    intro call admitted fits stays success
    exact (sound.outcome admitted fits stays).reached success

/-- Growing two vectors that have entries, within their limits. -/
theorem vectors_sized_grown :
    (5 ≤ (PtrVector.twoEntries.call (.setSize true 5)).2.size ∧
      (PtrVector.twoEntries.call (.setSize true 5)).2.entries = [5, 6, 0, 0, 0]) ∧
    3 ≤ (ClVector.onePair.call (.setSize ⟨true, some 2000⟩ (fun _ => some 8) 3)).2.size ∧
      (ClVector.onePair.call (.setSize ⟨true, some 2000⟩ (fun _ => some 8) 3)).2.contents 1016 = 7 := by
  obtain ⟨⟨_, _, first⟩, _, _, _, second⟩ :=
    vectors_sized_of_reachable PtrVector.twoEntries_reachable ClVector.onePair_reachable rfl
  exact ⟨⟨first (.setSize true 5) (by decide) (by decide) (by decide) (by decide), by decide⟩,
    second (.setSize ⟨true, some 2000⟩ (fun _ => some 8) 3) (by decide) (by decide)
      (fun same => nomatch same) (by decide), by decide⟩

/-- A pointer vector asked for the largest size, with a grow size of two: the capacity asked for
wraps to zero, and the call succeeds without storage. A store at the largest index asks for the size
zero and goes astray. The vector of elements without an initialiser does the same. -/
theorem vectors_sized_wraps :
    (({ growSize := 2 } : PtrVector).call (.setSize true (2 ^ 64 - 1))).1.status = .success ∧
    (({ growSize := 2 } : PtrVector).call (.setSize true (2 ^ 64 - 1))).2.size = 2 ^ 64 - 1 ∧
    (({ growSize := 2 } : PtrVector).call (.setSize true (2 ^ 64 - 1))).2.capacity = 0 ∧
    (({ growSize := 2 } : PtrVector).call (.set true (2 ^ 64 - 1) 5)).1.status = .success ∧
    (({ growSize := 2 } : PtrVector).call (.set true (2 ^ 64 - 1) 5)).2.size = 0 ∧
    (({ growSize := 2 } : PtrVector).call (.set true (2 ^ 64 - 1) 5)).2.strayed = true ∧
    (({ ClVector.pairs with hasInit := false }).call
      (.setSize ⟨true, some 1000⟩ (fun _ => none) (2 ^ 64 - 1))).1 = .success ∧
    (({ ClVector.pairs with hasInit := false }).call
      (.setSize ⟨true, some 1000⟩ (fun _ => none) (2 ^ 64 - 1))).2.size = 2 ^ 64 - 1 ∧
    (({ ClVector.pairs with hasInit := false }).call
      (.setSize ⟨true, some 1000⟩ (fun _ => none) (2 ^ 64 - 1))).2.capacity = 0 := by
  decide

end WinOFED.Complib
