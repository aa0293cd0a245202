import WinOFED.Complib.QcPool

/-! The accounts of a composite pool: every object is on the free list or with one client. -/
namespace WinOFED.Complib
open WinOFED.Memory WinOFED.Transition List

namespace QcPool

/-- The objects made are those on the free list and those handed out, and no more than the maximum. -/
structure Accounts (pool : QcPool) : Prop where
  shared : (pool.freeList ++ pool.handed).Perm pool.made
  counted : pool.numObjects = pool.made.length
  bounded : pool.numObjects ≤ pool.maxObjects

/-- What a growth leaves as it was. -/
structure SameUse (before after : QcPool) : Prop where
  handed : after.handed = before.handed
  maxObjects : after.maxObjects = before.maxObjects
  growSize : after.growSize = before.growSize
  hasDtor : after.hasDtor = before.hasDtor
  initialized : after.initialized = before.initialized

theorem SameUse.refl (pool : QcPool) : pool.SameUse pool := ⟨rfl, rfl, rfl, rfl, rfl⟩

theorem SameUse.trans {first second third : QcPool} (left : first.SameUse second)
    (right : second.SameUse third) : first.SameUse third :=
  ⟨right.handed.trans left.handed, right.maxObjects.trans left.maxObjects,
    right.growSize.trans left.growSize, right.hasDtor.trans left.hasDtor,
    right.initialized.trans left.initialized⟩

variable {pool : QcPool}

theorem Accounts.added (accounts : pool.Accounts) (room : pool.numObjects < pool.maxObjects)
    (item : Ptr) (calls : List PoolCall) : (pool.added item calls).Accounts where
  shared := by
    have more : (item :: (pool.freeList ++ pool.handed)).Perm (pool.made ++ [item]) :=
      (accounts.shared.cons item).trans (perm_append_singleton item pool.made).symm
    exact more
  counted := by simp [QcPool.added, accounts.counted]
  bounded := room

/-- The loop makes at most `count` objects, and all of them if it succeeds. -/
theorem growObjects_accounts (initializer : List Ptr → Built) {pool : QcPool} {start : Ptr}
    {count : Nat} (accounts : pool.Accounts) (room : pool.numObjects + count ≤ pool.maxObjects) :
    (growObjects initializer pool start count).2.Accounts ∧
      pool.SameUse (growObjects initializer pool start count).2 ∧
      ((growObjects initializer pool start count).1 = .success →
        (growObjects initializer pool start count).2.freeList.length = pool.freeList.length + count) := by
  induction count generalizing pool start with
  | zero => exact ⟨accounts, .refl pool, fun _ => rfl⟩
  | succ count ih =>
    have first : pool.numObjects < pool.maxObjects := by omega
    -- One object is added, and the loop goes on behind it.
    have step : ∀ item calls,
        (growObjects initializer (pool.added item calls) (start + pool.objSize) count).2.Accounts ∧
        pool.SameUse (growObjects initializer (pool.added item calls) (start + pool.objSize) count).2 ∧
        ((growObjects initializer (pool.added item calls) (start + pool.objSize) count).1 =
            .success →
          (growObjects initializer (pool.added item calls)
            (start + pool.objSize) count).2.freeList.length = pool.freeList.length + (count + 1)) := by
      intro item calls
      have more : (pool.added item calls).numObjects + count ≤ (pool.added item calls).maxObjects := by
        simp only [added]
        omega
      obtain ⟨after, use, all⟩ := @ih _ (start + pool.objSize) (accounts.added first item calls) more
      have same : pool.SameUse (pool.added item calls) := ⟨rfl, rfl, rfl, rfl, rfl⟩
      refine ⟨after, same.trans use, fun success => ?_⟩
      rw [all success]
      simp only [added, length_cons]
      omega
    unfold growObjects
    by_cases has : pool.hasInit = true
    · simp only [if_pos has]
      cases initializer (componentPtrs start pool.componentSizes) with
      | made item => exact step _ _
      | failed item =>
        exact ⟨⟨accounts.shared, accounts.counted, accounts.bounded⟩, ⟨rfl, rfl, rfl, rfl, rfl⟩,
          (nomatch ·)⟩
    · simp only [if_neg has]
      exact step _ _

section
variable (accounts : pool.Accounts)
include accounts

/-- A growth keeps the accounts, and one that succeeds leaves an object on the free list. -/
theorem grow_accounts (grant : Option Ptr)
    (initializer : List Ptr → Built) (objCount : Nat) :
    (pool.grow grant initializer objCount).2.Accounts ∧
      pool.SameUse (pool.grow grant initializer objCount).2 ∧
      (0 < objCount → (pool.grow grant initializer objCount).1 = .success →
        (pool.grow grant initializer objCount).2.freeList ≠ []) := by
  unfold grow
  split
  · exact ⟨accounts, .refl pool, fun _ => (nomatch ·)⟩
  · rename_i below
    cases grant with
    | none => exact ⟨accounts, .refl pool, fun _ => (nomatch ·)⟩
    | some base =>
      have held : ({ pool with
          allocList := pool.allocList ++ [pool.batch base (pool.growth objCount)] } :
          QcPool).Accounts := ⟨accounts.shared, accounts.counted, accounts.bounded⟩
      have same : pool.SameUse { pool with
          allocList := pool.allocList ++ [pool.batch base (pool.growth objCount)] } :=
        ⟨rfl, rfl, rfl, rfl, rfl⟩
      obtain ⟨after, use, all⟩ := @growObjects_accounts initializer _ (base + listItemBytes) _ held (by
        have := accounts.bounded
        change pool.numObjects + pool.growth objCount ≤ pool.maxObjects
        unfold growth
        split <;> omega)
      refine ⟨after, same.trans use, fun positive success empty => ?_⟩
      have length := all success
      rw [empty] at length
      have some : 0 < pool.growth objCount := by
        have := accounts.bounded
        unfold growth
        split <;> omega
      simp only [length_nil] at length
      omega

/-- Taking an item moves it from the free list to the items handed out. -/
structure Taken (before : QcPool) (result : Option Ptr × QcPool) : Prop where
  accounts : result.2.Accounts
  made : result.2.made = before.made
  initialized : result.2.initialized = before.initialized
  item : ∀ item ∈ result.1, item ∈ before.freeList
  none : result.1 = none → before.freeList = []

theorem takeHead_taken : pool.Taken pool.takeHead := by
  unfold takeHead
  cases listed : pool.freeList with
  | nil => exact ⟨accounts, rfl, rfl, (fun _ is => nomatch is), fun _ => listed⟩
  | cons item rest =>
    refine ⟨⟨?_, accounts.counted, accounts.bounded⟩, rfl, rfl, ?_, (nomatch ·)⟩
    · have shared := accounts.shared
      rw [listed] at shared
      exact perm_middle.trans shared
    · rintro _ ⟨⟩
      rw [listed]
      exact mem_cons_self

theorem takeTail_taken : pool.Taken pool.takeTail := by
  unfold takeTail
  cases last : pool.freeList.getLast? with
  | none =>
    exact ⟨accounts, rfl, rfl, (fun _ is => nomatch is), fun _ => getLast?_eq_none_iff.mp last⟩
  | some item =>
    obtain ⟨front, listed⟩ := getLast?_eq_some_iff.mp last
    refine ⟨⟨?_, accounts.counted, accounts.bounded⟩, rfl, rfl, ?_, (nomatch ·)⟩
    · have shared := accounts.shared
      rw [listed] at shared
      rw [listed, dropLast_concat]
      simpa using shared
    · rintro _ ⟨⟩
      rw [listed]
      exact mem_append_right _ (mem_singleton_self _)

/-- A get hands out an item no client holds, and fails only if the free list is empty and the pool
may not grow or its growth fails. -/
structure Got (before : QcPool) (grant : Option Ptr) (initializer : List Ptr → Built)
    (result : Option Ptr × QcPool) : Prop where
  accounts : result.2.Accounts
  initialized : result.2.initialized = before.initialized
  made : result.2.made = before.made ∨
    result.2.made = (before.grow grant initializer before.growSize).2.made
  item : before.NewItems grant initializer before.growSize → before.made.Nodup →
    ∀ item ∈ result.1, item ∉ before.handed
  none : result.1 = none → before.freeList = [] ∧ (before.growSize = 0 ∨
    (before.grow grant initializer before.growSize).1 ≠ .success)

/-- An item of the free list is with no client. -/
theorem Accounts.not_handed (nodup : pool.made.Nodup) {item : Ptr}
    (free : item ∈ pool.freeList) : item ∉ pool.handed := by
  have apart := nodup_append.mp (accounts.shared.nodup_iff.mpr nodup)
  exact fun out => apart.2.2 item free item out rfl

theorem getFrom_got {take : QcPool → Option Ptr × QcPool}
    (taken : ∀ pool : QcPool, pool.Accounts → pool.Taken (take pool))
    (grant : Option Ptr) (initializer : List Ptr → Built) :
    pool.Got grant initializer (getFrom take grant initializer pool) := by
  unfold getFrom
  split
  · rename_i empty
    split
    · rename_i fixed
      exact ⟨accounts, rfl, Or.inl rfl, (fun _ _ _ is => nomatch is), fun _ => ⟨empty, Or.inl fixed⟩⟩
    · rename_i grows
      obtain ⟨after, use, filled⟩ := grow_accounts accounts grant initializer pool.growSize
      have result := taken _ after
      refine ⟨result.accounts, result.initialized.trans use.initialized, Or.inr result.made, ?_, ?_⟩
      · intro distinct _ item is
        rw [← use.handed]
        exact after.not_handed distinct (result.item item is)
      · intro failed
        refine ⟨empty, Or.inr fun success => ?_⟩
        exact filled (Nat.pos_of_ne_zero grows) success (result.none failed)
  · rename_i nonempty
    have result := taken pool accounts
    refine ⟨result.accounts, result.initialized, Or.inl result.made, ?_, ?_⟩
    · intro _ nodup item is
      exact accounts.not_handed nodup (result.item item is)
    · exact fun failed => absurd (result.none failed) nonempty

theorem Accounts.put {item : Ptr} (out : item ∈ pool.handed) :
    (pool.put item).Accounts where
  shared := by
    have back : (item :: pool.handed.erase item).Perm pool.handed := (perm_cons_erase out).symm
    have moved : (item :: (pool.freeList ++ pool.handed.erase item)).Perm
        (pool.freeList ++ pool.handed) :=
      perm_middle.symm.trans (back.append_left pool.freeList)
    exact moved.trans accounts.shared
  counted := accounts.counted
  bounded := accounts.bounded

theorem Accounts.putList {items : List Ptr} (once : items.Nodup)
    (out : ∀ item ∈ items, item ∈ pool.handed) : (pool.putList items).Accounts where
  shared := by
    have part : items.Subperm pool.handed := subperm_of_subset once out
    have back : (items ++ pool.handed.diff items).Perm pool.handed :=
      subperm_append_diff_self_of_count_le fun item _ => part.count_le item
    have moved : (items ++ pool.freeList ++ pool.handed.diff items).Perm
        (pool.freeList ++ (items ++ pool.handed.diff items)) := by
      rw [append_assoc]
      exact perm_append_comm_assoc ..
    exact (moved.trans (back.append_left pool.freeList)).trans accounts.shared
  counted := accounts.counted
  bounded := accounts.bounded

end

/-- A pool in use has its accounts in order and knows each object once. -/
def Kept (pool : QcPool) : Prop :=
  pool.initialized = true → pool.Accounts ∧ pool.made.Nodup

theorem kept_call {call : Call} (kept : pool.Kept) (admitted : call.Admitted pool) :
    (pool.call call).Kept := by
  obtain ⟨accounts, nodup⟩ := kept admitted.1
  intro _
  cases call with
  | grow grant initializer objCount =>
    exact ⟨(grow_accounts accounts grant initializer objCount).1, admitted.2.2.2⟩
  | get grant initializer =>
    have got := getFrom_got accounts (fun _ => takeHead_taken) grant initializer
    refine ⟨got.accounts, ?_⟩
    rcases got.made with same | grown
    · exact (congrArg List.Nodup same).mpr nodup
    · exact (congrArg List.Nodup grown).mpr admitted.2
  | getTail grant initializer =>
    have got := getFrom_got accounts (fun _ => takeTail_taken) grant initializer
    refine ⟨got.accounts, ?_⟩
    rcases got.made with same | grown
    · exact (congrArg List.Nodup same).mpr nodup
    · exact (congrArg List.Nodup grown).mpr admitted.2
  | put item => exact ⟨accounts.put admitted.2, nodup⟩
  | putList items => exact ⟨accounts.putList admitted.2.1 admitted.2.2, nodup⟩
  | destroy =>
    rename_i alive
    simp [QcPool.call, QcPool.destroy, admitted.1] at alive

theorem kept_of_reachable (reached : machine.Reachable (fun _ _ => True) pool) : pool.Kept := by
  refine Machine.Reachable.invariant ?_ ?_ reached
  · rintro _ ⟨maxSize, growSize, sizes, hasInit, hasDtor, _, _, _, _, rfl⟩ _
    exact ⟨⟨List.Perm.refl _, rfl, Nat.zero_le _⟩, nodup_nil⟩
  · intro before call after kept _ step
    obtain ⟨admitted, ⟨⟩⟩ := Option.ite_none_right_eq_some.mp step
    exact kept_call kept admitted

/-- Every item of the pool lies in one of its allocations. -/
def Housed (pool : QcPool) : Prop := ∀ item ∈ pool.made, ∃ batch ∈ pool.allocList, batch.Has item

/-- Without an initialiser the items are the starts of the objects. -/
theorem growObjects_plain (initializer : List Ptr → Built)
    (plain : pool.hasInit = false) (sized : pool.componentSizes ≠ []) {start : Ptr} {count : Nat} :
    (growObjects initializer pool start count).2.made =
        pool.made ++ (List.range count).map (fun index => start + index * pool.objSize) ∧
      (growObjects initializer pool start count).2.allocList = pool.allocList := by
  induction count generalizing pool start with
  | zero => simp [growObjects]
  | succ count ih =>
    have first : (componentPtrs start pool.componentSizes).headD 0 = start := by
      cases listed : pool.componentSizes with
      | nil => exact absurd listed sized
      | cons size rest => rfl
    unfold growObjects
    simp only [plain, first]
    obtain ⟨made, same⟩ := @ih (pool.added start []) plain sized (start + pool.objSize)
    refine ⟨made.trans ?_, same⟩
    rw [range_succ_eq_map, map_cons, map_map]
    simp only [added, append_assoc, singleton_append, Nat.zero_mul, Nat.add_zero]
    congr 2
    apply map_congr_left
    intro index _
    simp only [Function.comp, Nat.succ_mul]
    exact (Nat.add_assoc ..).trans (congrArg (start + ·) (Nat.add_comm ..))

/-- In a pool without an initialiser the items of a new batch are new, if the batch is a block of its
own whose size was computed without overflow. -/
theorem newItems_of_plain (plain : pool.hasInit = false)
    (sized : pool.componentSizes ≠ []) (housed : pool.Housed) (nodup : pool.made.Nodup)
    (positive : 0 < pool.objSize) {grant : Option Ptr} {objCount : Nat}
    (fits : listItemBytes + pool.objSize * pool.growth objCount < 2 ^ 64)
    (apart : ∀ base ∈ grant, ∀ held ∈ pool.allocList,
      held.Apart (pool.batch base (pool.growth objCount)))
    (initializer : List Ptr → Built) :
    pool.NewItems grant initializer objCount ∧
      (pool.grow grant initializer objCount).2.Housed := by
  unfold NewItems grow
  split
  · exact ⟨nodup, housed⟩
  cases grant with
  | none => exact ⟨nodup, housed⟩
  | some base =>
    have length : (pool.batch base (pool.growth objCount)).length =
        listItemBytes + pool.objSize * pool.growth objCount := by
      simp only [batch]
      rw [wrap_of_lt (Nat.lt_of_le_of_lt (Nat.le_add_left ..) fits), wrap_of_lt fits]
    have inside : ∀ index < pool.growth objCount,
        (pool.batch base (pool.growth objCount)).Has
          (base + listItemBytes + index * pool.objSize) := by
      intro index below
      have last := Nat.mul_le_mul_right pool.objSize (Nat.succ_le_of_lt below)
      rw [Nat.succ_mul, Nat.mul_comm (pool.growth objCount)] at last
      refine ⟨by simp only [batch]; omega, ?_⟩
      rw [length]
      simp only [batch]
      omega
    obtain ⟨made, same⟩ := @growObjects_plain
      { pool with allocList := pool.allocList ++ [pool.batch base (pool.growth objCount)] }
      initializer plain sized (base + listItemBytes) (pool.growth objCount)
    constructor
    · rw [made]
      apply Nodup.append nodup
      · apply Nodup.map ?_ nodup_range
        intro first second equal
        exact Nat.eq_of_mul_eq_mul_right positive (Nat.add_left_cancel equal)
      · intro item old new
        obtain ⟨index, below, rfl⟩ := mem_map.mp new
        obtain ⟨held, listed, has⟩ := housed _ old
        exact apart base rfl held listed _ has (inside index (mem_range.mp below))
    · intro item known
      simp only at known ⊢
      rw [made] at known
      rw [same]
      rcases mem_append.mp known with old | new
      · obtain ⟨held, listed, has⟩ := housed item old
        exact ⟨held, mem_append_left _ listed, has⟩
      · obtain ⟨index, below, rfl⟩ := mem_map.mp new
        exact ⟨_, mem_append_right _ (mem_singleton_self _),
          inside index (mem_range.mp below)⟩

/-- The items a destruction calls the destructor for. -/
def destroyed (pool : QcPool) : List Ptr := if pool.hasDtor then pool.freeList else []

/-- In every run, the objects of a pool are those on its free list and those handed out, at most as
many as its maximum, and each is handed out to one client at a time; a get fails only if the free
list is empty and the pool may not grow or its growth fails; and a destruction calls the destructor
once for each object on the free list, which are all objects made if every one was put back. -/
theorem accounts_of_reachable {pool : QcPool}
    (reached : machine.Reachable (fun _ _ => True) pool) (alive : pool.initialized = true) :
    pool.numObjects = pool.freeList.length + pool.handed.length ∧
    pool.numObjects ≤ pool.maxObjects ∧
    (pool.freeList ++ pool.handed).Nodup ∧
    (∀ grant initializer, pool.NewItems grant initializer pool.growSize →
      (∀ item ∈ (pool.get grant initializer).1, item ∉ pool.handed) ∧
      (∀ item ∈ (pool.getTail grant initializer).1, item ∉ pool.handed)) ∧
    (∀ grant initializer,
      (pool.get grant initializer).1 = none ∨ (pool.getTail grant initializer).1 = none →
      pool.freeList = [] ∧ (pool.growSize = 0 ∨
        (pool.grow grant initializer pool.growSize).1 ≠ .success)) ∧
    pool.destroy.calls = pool.calls ++ pool.destroyed.map (fun item => .dtor (some item)) ∧
    (pool.hasDtor = true → pool.handed = [] →
      pool.destroyed.Nodup ∧ ∀ item, item ∈ pool.destroyed ↔ item ∈ pool.made) := by
  obtain ⟨accounts, nodup⟩ := kept_of_reachable reached alive
  have head := getFrom_got accounts (fun _ => takeHead_taken)
  have tail := getFrom_got accounts (fun _ => takeTail_taken)
  refine ⟨?_, accounts.bounded, accounts.shared.nodup_iff.mpr nodup, ?_, ?_, ?_, ?_⟩
  · rw [accounts.counted, ← accounts.shared.length_eq, length_append]
  · intro grant initializer distinct
    exact ⟨(head grant initializer).item distinct nodup, (tail grant initializer).item distinct nodup⟩
  · rintro grant initializer (failed | failed)
    · exact (head grant initializer).none failed
    · exact (tail grant initializer).none failed
  · unfold destroy destroyed
    rw [if_pos alive]
    cases pool.hasDtor <;> simp
  · intro has returned
    have all : pool.freeList.Perm pool.made := by
      have shared := accounts.shared
      rwa [returned, append_nil] at shared
    unfold destroyed
    rw [if_pos has]
    exact ⟨all.nodup_iff.mpr nodup, fun item => all.mem_iff⟩

/-- An initialiser that takes the first component for the pool item. -/
def firstComponent (components : List Ptr) : Built := .made (components.headD 0)

/-- A pool of 32-byte objects with both callbacks that grows by two, up to three objects. -/
def small : QcPool := fresh 3 2 [32] true true

/-- The pool after one object was handed out of a first batch at address 1000. -/
def smallInUse : QcPool := (small.get (some 1000) firstComponent).2

theorem smallInUse_reachable : machine.Reachable (fun _ _ => True) smallInUse := by
  have made : init true none firstComponent 0 3 2 [32] true true = (.success, some small) := rfl
  have step : machine.step small (.get (some 1000) firstComponent) smallInUse := if_pos (by decide)
  exact .step (init_reachable (by decide) (by decide) trivial made) trivial step

/-- Of the two objects one is handed out, and the next call gets the other. -/
theorem smallInUse_accounts :
    smallInUse.numObjects = 2 ∧ smallInUse.freeList.length + smallInUse.handed.length = 2 ∧
      (smallInUse.get none firstComponent).1 = some 1016 ∧ 1016 ∉ smallInUse.handed := by
  obtain ⟨count, _, _, apart, _⟩ := accounts_of_reachable smallInUse_reachable (by decide)
  have two : smallInUse.numObjects = 2 := by decide
  have item : (smallInUse.get none firstComponent).1 = some 1016 := by decide
  exact ⟨two, count.symm.trans two, item, (apart none firstComponent (by decide)).1 1016 item⟩

/-- An object that a client still holds when the pool is destroyed never sees its destructor. -/
theorem smallInUse_destroy_misses :
    machine.Reachable (fun _ _ => True) smallInUse ∧
    smallInUse.calls = [.init [1016] (.made 1016), .init [1048] (.made 1048)] ∧
    smallInUse.handed = [1048] ∧
    smallInUse.destroy.calls = smallInUse.calls ++ [.dtor (some 1016)] :=
  ⟨smallInUse_reachable, by decide, by decide, by decide⟩

end QcPool
end WinOFED.Complib
