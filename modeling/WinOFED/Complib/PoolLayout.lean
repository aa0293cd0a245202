import WinOFED.Complib.QcPool

/-! Where the components of a composite pool's objects stand.

`cl_qcpool_init` copies four bytes for each of the eight-byte sizes it is given, so that the sizes of
the second half of the components are taken for zero. The components of an object stand apart in its
allocation exactly if nothing is lost in that copy. -/
namespace WinOFED.Complib
open WinOFED.Memory WinOFED.Transition List Nat

/-- The blocks of the given sizes at the component pointers lie in the allocation and share no byte. -/
def Laid (sizes : List Nat) (components : List Ptr) (batch : Extent) : Prop :=
  (∀ (index ptr size : Nat), components[index]? = some ptr → sizes[index]? = some size →
    (⟨ptr, size⟩ : Extent).Inside batch) ∧
  ∀ (first second ptr ptr' size size' : Nat), first ≠ second →
    components[first]? = some ptr → sizes[first]? = some size →
    components[second]? = some ptr' → sizes[second]? = some size' →
    (⟨ptr, size⟩ : Extent).Apart ⟨ptr', size'⟩

/-- A component stands behind all components before it. -/
theorem getElem?_componentPtrs (start : Ptr) (sizes : List Nat) (index : Nat) :
    (componentPtrs start sizes)[index]? =
      if index < sizes.length then some (start + (sizes.take index).sum) else none := by
  induction sizes generalizing start index with
  | nil => simp [componentPtrs]
  | cons size rest ih =>
    cases index with
    | zero => simp [componentPtrs]
    | succ index => simp [componentPtrs, ih, add_assoc]

variable {size : Nat} {sizes : List Nat}

theorem sum_take_add_le {first second : Nat} (before : first < second)
    (known : sizes[first]? = some size) :
    (sizes.take first).sum + size ≤ (sizes.take second).sum := by
  obtain ⟨inside, rfl⟩ := List.getElem?_eq_some_iff.mp known
  have here : (sizes.take (first + 1)).sum = (sizes.take first).sum + sizes[first] := by
    rw [take_succ_eq_append_getElem inside, List.sum_append, sum_singleton]
  rw [← here]
  exact List.Sublist.sum_le_sum (take_sublist_take_left before) fun _ _ => zero_le _

theorem sum_take_le (sizes : List Nat) (index : Nat) : (sizes.take index).sum ≤ sizes.sum :=
  List.Sublist.sum_le_sum (List.take_sublist index sizes) fun _ _ => Nat.zero_le _

/-- Components at pointers stepped by sizes that are large enough stand apart behind one another. -/
theorem laid_of_le {stored : List Nat} {start : Nat} {batch : Extent}
    (enough : ∀ (index size kept : Nat), sizes[index]? = some size → stored[index]? = some kept →
      size ≤ kept) (low : batch.base ≤ start)
    (high : start + stored.sum ≤ batch.base + batch.length) :
    Laid sizes (componentPtrs start stored) batch := by
  have place : ∀ {index ptr : Nat}, (componentPtrs start stored)[index]? = some ptr →
      ptr = start + (stored.take index).sum ∧ ∃ kept, stored[index]? = some kept := by
    intro index ptr found
    rw [getElem?_componentPtrs] at found
    obtain ⟨inside, ⟨⟩⟩ := Option.ite_none_right_eq_some.mp found
    exact ⟨rfl, _, List.getElem?_eq_getElem inside⟩
  -- A component ends no later than any component behind it starts.
  have order : ∀ {first second ptr ptr' size : Nat}, first < second →
      (componentPtrs start stored)[first]? = some ptr → sizes[first]? = some size →
      (componentPtrs start stored)[second]? = some ptr' → ptr + size ≤ ptr' := by
    intro first second ptr ptr' size before found known found'
    obtain ⟨rfl, kept, keptFirst⟩ := place found
    obtain ⟨rfl, _⟩ := place found'
    have := enough first size kept known keptFirst
    have := sum_take_add_le before keptFirst
    omega
  constructor
  · intro index ptr size found known
    obtain ⟨rfl, kept, keptHere⟩ := place found
    have room := enough index size kept known keptHere
    have within : (stored.take index).sum + kept ≤ stored.sum := by
      have upTo := sum_take_add_le (lt_succ_self index) keptHere
      exact le_trans upTo (sum_take_le ..)
    apply Extent.inside_of_le
    · simp only
      omega
    · simp only
      omega
  · intro first second ptr ptr' size size' different found known found' known'
    rcases lt_or_gt_of_ne different with before | after
    · exact Extent.apart_of_le (order before found known found')
    · exact (Extent.apart_of_le (order after found' known' found)).symm

theorem roundupMacro_eq {val align : Nat} (positive : 0 < align)
    (fits : roundUp val align < 2 ^ 64) : roundupMacro val align = roundUp val align := by
  have split := div_add_mod' val align
  have part := mod_lt val positive
  unfold roundupMacro roundUp at *
  split_ifs at fits ⊢ <;> rw [wrap_of_lt (by omega)] <;> omega

theorem getElem?_storedSizes (sizes : List Nat) (index : Nat) :
    (storedSizes sizes)[index]? = sizes[index]?.map fun size =>
      roundupMacro (size % 256 ^ copiedBytes sizes.length index) ptrBytes := by
  simp [storedSizes, copySizes, Function.comp_def]

/-- Each size fits in the bytes that are copied of it. -/
def CopiedWhole (sizes : List Nat) : Prop :=
  ∀ index size, sizes[index]? = some size → size < 256 ^ copiedBytes sizes.length index

/-- The sum of the sizes, each rounded up to the size of a pointer. -/
def roundedSum (sizes : List Nat) : Nat := (sizes.map fun size => roundUp size ptrBytes).sum

theorem roundUp_le_roundedSum (known : size ∈ sizes) : roundUp size ptrBytes ≤ roundedSum sizes :=
  List.single_le_sum (fun _ _ => Nat.zero_le _) _ (List.mem_map_of_mem known)

theorem roundUp_mono {small large grain : Nat} (positive : 0 < grain) (less : small ≤ large) :
    roundUp small grain ≤ roundUp large grain := by
  have first := div_add_mod' small grain
  have second := div_add_mod' large grain
  have parts := mod_lt small positive
  have quotients : small / grain ≤ large / grain := Nat.div_le_div_right less
  rcases lt_or_eq_of_le quotients with below | equal
  · have step := mul_le_mul_right grain (succ_le_of_lt below)
    rw [succ_mul] at step
    have lower := le_roundUp large grain
    unfold roundUp at lower ⊢
    split <;> omega
  · rw [equal] at first
    unfold roundUp
    split <;> split <;> omega

/-- What is stored for a component: the copied part of its size, rounded up. -/
theorem stored_eq (small : roundedSum sizes < 2 ^ 64) {index : Nat}
    (known : sizes[index]? = some size) :
    (storedSizes sizes)[index]? =
      some (roundUp (size % 256 ^ copiedBytes sizes.length index) ptrBytes) := by
  have least : roundUp (size % 256 ^ copiedBytes sizes.length index) ptrBytes ≤
      roundUp size ptrBytes := roundUp_mono (by decide) (mod_le ..)
  have listed := roundUp_le_roundedSum (mem_of_getElem? known)
  rw [getElem?_storedSizes, known, Option.map_some, roundupMacro_eq (by decide) (by omega)]

theorem sum_storedSizes_le (small : roundedSum sizes < 2 ^ 64) :
    (storedSizes sizes).sum ≤ roundedSum sizes := by
  apply List.Forall₂.sum_le_sum
  rw [forall₂_iff_get]
  refine ⟨by simp [storedSizes, copySizes], ?_⟩
  intro index inside inside'
  have bound : index < sizes.length := by simpa using inside'
  have known : sizes[index]? = some sizes[index] := List.getElem?_eq_getElem bound
  have stored := stored_eq small known
  rw [List.getElem?_eq_getElem inside] at stored
  simp only [get_eq_getElem, getElem_map]
  rw [Option.some.inj stored]
  exact roundUp_mono (by decide) (mod_le ..)

theorem foldl_wrap_eq {total : Nat} (small : total + sizes.sum < 2 ^ 64) :
    sizes.foldl (fun total size => wrap (total + size)) total = total + sizes.sum := by
  induction sizes generalizing total with
  | nil => rfl
  | cons size rest ih =>
    rw [sum_cons] at small ⊢
    rw [foldl_cons, wrap_of_lt (by omega), ih (by omega)]
    omega

/-- A size that does not fit in its copied bytes is stored too small, and every component behind it
is stored with no size at all. -/
theorem stored_lt (small : roundedSum sizes < 2 ^ 64) {index : Nat}
    (known : sizes[index]? = some size) (lost : 256 ^ copiedBytes sizes.length index ≤ size) :
    roundUp (size % 256 ^ copiedBytes sizes.length index) ptrBytes < size ∧
      ((storedSizes sizes).drop (index + 1)).sum = 0 := by
  have listed := roundUp_le_roundedSum (mem_of_getElem? known)
  have least := le_roundUp size ptrBytes
  have inside : index < sizes.length := (List.getElem?_eq_some_iff.mp known).1
  -- Less than eight bytes are copied, as the size is a value of `size_t`.
  have few : 4 * sizes.length - 8 * index < 8 := by
    by_contra many
    have whole : copiedBytes sizes.length index = 8 := by
      unfold copiedBytes
      omega
    rw [whole] at lost
    have : (256 : Nat) ^ 8 = 2 ^ 64 := by decide
    omega
  constructor
  · rcases (by omega : 4 * sizes.length - 8 * index = 0 ∨ 4 * sizes.length - 8 * index = 4) with
      zero | four
    · have none : copiedBytes sizes.length index = 0 := by simp [copiedBytes, zero]
      rw [none] at lost ⊢
      simp only [pow_zero, mod_one]
      have : roundUp 0 ptrBytes = 0 := by decide
      omega
    · have half : copiedBytes sizes.length index = 4 := by simp [copiedBytes, four]
      rw [half] at lost ⊢
      have power : (256 : Nat) ^ 4 = 4294967296 := by decide
      rw [power] at lost ⊢
      unfold roundUp ptrBytes
      split <;> omega
  · apply sum_eq_zero
    intro kept listedBehind
    obtain ⟨place, found⟩ := mem_iff_getElem?.mp listedBehind
    rw [List.getElem?_drop, getElem?_storedSizes] at found
    obtain ⟨behind, _, rfl⟩ := Option.map_eq_some_iff.mp found
    have none : copiedBytes sizes.length (index + 1 + place) = 0 := by
      unfold copiedBytes
      omega
    rw [none]
    simp [roundupMacro, mod_one, wrap]

namespace QcPool
variable {pool : QcPool}

theorem objSize_eq (stored : pool.componentSizes = storedSizes sizes)
    (small : roundedSum sizes < 2 ^ 64) : pool.objSize = (storedSizes sizes).sum := by
  have bound := sum_storedSizes_le small
  unfold objSize
  rw [stored, foldl_wrap_eq (by omega)]
  omega

/-- The initialiser calls of a growth are for the objects of the batch, one behind the other. -/
theorem calls_growObjects (initializer : List Ptr → Built) (pool : QcPool) (start : Ptr)
    (count : Nat) :
    ∃ more, (growObjects initializer pool start count).2.calls = pool.calls ++ more ∧
      ∀ components built, PoolCall.init components built ∈ more →
        ∃ index < count, components = componentPtrs (start + index * pool.objSize) pool.componentSizes := by
  induction count generalizing pool start with
  | zero => exact ⟨[], by simp [growObjects], fun _ _ called => nomatch called⟩
  | succ count ih =>
    -- The calls of the rest of the loop are for objects further behind.
    have rest : ∀ item calls,
        (∀ components built, PoolCall.init components built ∈ calls →
          components = componentPtrs start pool.componentSizes) →
        ∃ more, (growObjects initializer (pool.added item calls) (start + pool.objSize)
          count).2.calls = pool.calls ++ more ∧
          ∀ components built, PoolCall.init components built ∈ more →
            ∃ index < count + 1, components =
              componentPtrs (start + index * pool.objSize) pool.componentSizes := by
      intro item calls own
      obtain ⟨more, made, behind⟩ := ih (pool.added item calls) (start + pool.objSize)
      refine ⟨calls ++ more, by rw [made]; simp [added], ?_⟩
      intro components built called
      rcases mem_append.mp called with first | later
      · refine ⟨0, succ_pos _, ?_⟩
        rw [zero_mul]
        exact own components built first
      · obtain ⟨index, below, rfl⟩ := behind components built later
        refine ⟨index + 1, succ_lt_succ below, ?_⟩
        rw [succ_mul, add_comm (index * _), ← add_assoc]
        rfl
    unfold growObjects
    by_cases has : pool.hasInit = true
    · simp only [if_pos has]
      cases initializer (componentPtrs start pool.componentSizes) with
      | made item =>
        apply rest
        intro components built called
        cases mem_singleton.mp called
        rfl
      | failed item =>
        refine ⟨_, rfl, ?_⟩
        intro components built called
        refine ⟨0, succ_pos _, ?_⟩
        rw [zero_mul]
        rcases mem_cons.mp called with first | later
        · cases first
          rfl
        · split at later
          · cases mem_singleton.mp later
          · cases later
    · simp only [if_neg has]
      exact rest _ _ fun _ _ called => nomatch called

/-- An initialiser that never fails is called for every object of the batch. -/
theorem init_mem_growObjects (has : pool.hasInit = true) (item : Ptr) (start : Ptr)
    {index count : Nat} (below : index < count) :
    PoolCall.init (componentPtrs (start + index * pool.objSize) pool.componentSizes) (.made item) ∈
      (growObjects (fun _ => .made item) pool start count).2.calls.drop pool.calls.length := by
  induction count generalizing pool start index with
  | zero => exact absurd below (not_lt_zero _)
  | succ count ih =>
    unfold growObjects
    simp only [if_pos has]
    obtain ⟨more, made, _⟩ := calls_growObjects (fun _ => .made item)
      (pool.added item [.init (componentPtrs start pool.componentSizes) (.made item)])
      (start + pool.objSize) count
    have all : (growObjects (fun _ => .made item)
        (pool.added item [.init (componentPtrs start pool.componentSizes) (.made item)])
        (start + pool.objSize) count).2.calls.drop pool.calls.length =
        .init (componentPtrs start pool.componentSizes) (.made item) :: more := by
      rw [made]
      simp [added]
    rw [all]
    cases index with
    | zero =>
      rw [zero_mul]
      exact mem_cons_self
    | succ index =>
      apply mem_cons_of_mem
      have later := @ih (pool.added item [.init (componentPtrs start pool.componentSizes)
        (.made item)]) has (start + pool.objSize) index (lt_of_succ_lt_succ below)
      rw [made, drop_left' rfl] at later
      rw [succ_mul, add_comm (index * _), ← add_assoc]
      exact later

/-- The calls of a growth with memory are those of the loop over its batch. -/
theorem calls_grow (below : pool.numObjects < pool.maxObjects) (base : Ptr)
    (initializer : List Ptr → Built) (objCount : Nat) :
    (pool.grow (some base) initializer objCount).2.calls =
      (growObjects initializer
        { pool with allocList := pool.allocList ++ [pool.batch base (pool.growth objCount)] }
        (base + listItemBytes) (pool.growth objCount)).2.calls := by
  rw [grow, if_neg (Nat.ne_of_lt below)]

/-- The objects of a batch end where the batch ends. -/
theorem batch_end {count : Nat} (base : Ptr) (fits : listItemBytes + pool.objSize * count < 2 ^ 64)
    :
    (pool.batch base count).base + (pool.batch base count).length =
      base + listItemBytes + count * pool.objSize := by
  simp only [batch]
  rw [wrap_of_lt (lt_of_le_of_lt (Nat.le_add_left ..) fits), wrap_of_lt fits, mul_comm count]
  omega

/-- For every pool and every growth whose sizes do not overflow: all objects are laid out apart in
their allocation, whatever the initialiser does, exactly if the copy of the sizes loses nothing. -/
theorem grow_laid_iff {pool : QcPool} {sizes : List Nat} {objCount base : Nat}
    (stored : pool.componentSizes = storedSizes sizes) (has : pool.hasInit = true)
    (below : pool.numObjects < pool.maxObjects) (some : 0 < objCount)
    (fits : listItemBytes + roundedSum sizes * pool.growth objCount < 2 ^ 64) :
    (∀ initializer components built, PoolCall.init components built ∈
        (pool.grow (.some base) initializer objCount).2.calls.drop pool.calls.length →
      Laid sizes components (pool.batch base (pool.growth objCount))) ↔ CopiedWhole sizes := by
  have count : 0 < pool.growth objCount := by
    unfold growth
    split <;> omega
  have small : roundedSum sizes < 2 ^ 64 := by
    have := Nat.le_mul_of_pos_right (roundedSum sizes) count
    omega
  have size := objSize_eq stored small
  have total := sum_storedSizes_le small
  have room : listItemBytes + pool.objSize * pool.growth objCount < 2 ^ 64 := by
    have := mul_le_mul_right (pool.growth objCount) total
    rw [size]
    omega
  have ends := batch_end base room
  constructor
  · intro laid index size' known
    by_contra lost
    obtain ⟨short, behind⟩ := stored_lt small known (Nat.le_of_not_lt lost)
    -- The last object of the batch sticks out of it.
    have called := @init_mem_growObjects
      { pool with allocList := pool.allocList ++ [pool.batch base (pool.growth objCount)] }
      has 0 (base + listItemBytes) (pool.growth objCount - 1) (pool.growth objCount) (by omega)
    have inside : index < (storedSizes sizes).length := by
      have := (List.getElem?_eq_some_iff.mp known).1
      simpa [storedSizes, copySizes] using this
    have found : (componentPtrs (base + listItemBytes +
        (pool.growth objCount - 1) * pool.objSize) pool.componentSizes)[index]? =
        .some (base + listItemBytes + (pool.growth objCount - 1) * pool.objSize +
          ((storedSizes sizes).take index).sum) := by
      rw [getElem?_componentPtrs, stored, if_pos inside]
    have within := (laid (fun _ => .made 0) _ _ (by rw [calls_grow below]; exact called)).1
      index _ size' found known
    have last := within.end_le (by simp only; omega)
    have object : ((storedSizes sizes).take index).sum +
        roundUp (size' % 256 ^ copiedBytes sizes.length index) ptrBytes = pool.objSize := by
      have here := Option.some.inj
        ((List.getElem?_eq_getElem inside).symm.trans (stored_eq small known))
      rw [size]
      conv_rhs => rw [← take_append_drop (index + 1) (storedSizes sizes), List.sum_append,
        behind, take_succ_eq_append_getElem inside, List.sum_append, sum_singleton, here]
      rfl
    have lastObject : (pool.growth objCount - 1) * pool.objSize + pool.objSize =
        pool.growth objCount * pool.objSize := by
      rw [← succ_mul]
      congr 1
      omega
    rw [ends] at last
    simp only at last
    omega
  · intro whole initializer components built called
    rw [calls_grow below] at called
    obtain ⟨more, made, objects⟩ := calls_growObjects initializer
      { pool with allocList := pool.allocList ++ [pool.batch base (pool.growth objCount)] }
      (base + listItemBytes) (pool.growth objCount)
    rw [made, drop_left' rfl] at called
    obtain ⟨index, inside, rfl⟩ := objects components built called
    have next := mul_le_mul_right pool.objSize (succ_le_of_lt inside)
    rw [succ_mul] at next
    have object : ({ pool with
        allocList := pool.allocList ++ [pool.batch base (pool.growth objCount)] } :
        QcPool).objSize = pool.objSize := rfl
    rw [object]
    simp only [stored]
    apply laid_of_le
    · intro place wanted kept known keptHere
      rw [stored_eq small known] at keptHere
      cases keptHere
      rw [mod_eq_of_lt (whole place wanted known)]
      exact le_roundUp ..
    · exact le_trans (Nat.le_add_right base listItemBytes) (Nat.le_add_right ..)
    · have sum := size.symm
      rw [ends]
      omega

/-- Two objects of two components and two empty ones stand in their allocation, whatever the
initialiser does. -/
theorem fresh_grow_laid :
    CopiedWhole [16, 24, 0, 0] ∧ ∀ initializer components built, PoolCall.init components built ∈
        ((fresh 0 2 [16, 24, 0, 0] true true).grow (.some 1000) initializer 2).2.calls.drop 0 →
      Laid [16, 24, 0, 0] components ((fresh 0 2 [16, 24, 0, 0] true true).batch 1000 2) := by
  have whole : CopiedWhole [16, 24, 0, 0] := by
    intro index size known
    match index with
    | 0 | 1 | 2 | 3 =>
      cases known
      decide
  have growth : (fresh 0 2 [16, 24, 0, 0] true true).growth 2 = 2 := by decide
  have laid := @grow_laid_iff (fresh 0 2 [16, 24, 0, 0] true true) [16, 24, 0, 0] 2 1000 rfl rfl
    (by decide) (by decide) (by decide)
  rw [growth] at laid
  exact ⟨whole, laid.mpr whole⟩

/-- An object of two components of sixteen bytes: the second one is stored with no size, and its
bytes lie behind the allocation. -/
theorem fresh_grow_strays :
    storedSizes [16, 16] = [16, 0] ∧
    ((fresh 0 1 [16, 16] true true).grow (.some 1000) (fun _ => .made 1016) 1).2.calls =
      [.init [1016, 1032] (.made 1016)] ∧
    ((fresh 0 1 [16, 16] true true).grow (.some 1000) (fun _ => .made 1016) 1).2.allocList =
      [⟨1000, 32⟩] ∧
    ¬ Laid [16, 16] [1016, 1032] ⟨1000, 32⟩ := by
  refine ⟨by decide, by decide, by decide, ?_⟩
  intro laid
  have inside := laid.1 1 1032 16 rfl rfl
  exact absurd (inside.end_le (by decide)) (by decide)

end QcPool
end WinOFED.Complib
