import WinOFED.Complib.MapDelta

/-! The map of objects, `cl_map_t`: a quick map whose items come from a pool and point to the
objects. -/
namespace WinOFED.Complib
open RedBlack List
open Function (update update_of_ne update_self)

/-- A map with its pool. The objects are pointers other than `NULL`. -/
structure ClMap (α β : Type) where
  map : QMap α
  /-- `p_object` of the items. -/
  object : Ref α → β
  /-- The pool's free items, -/
  free : List α
  /-- and what it gets each time it grows; nothing if memory is short. -/
  grows : List (List α)

inductive ClStatus
  | success | insufficientMemory
deriving DecidableEq, Repr

variable {α β : Type} [DecidableEq α]

namespace ClMap

/-- `cl_qpool_get` up to the test for a free item. -/
def poolGrow (map : ClMap α β) : ClMap α β :=
  match map.free with
  | [] => { map with free := map.grows.headD [], grows := map.grows.tail }
  | _ :: _ => map

/-- The items that the pool gives before memory is short. -/
def supply (map : ClMap α β) : Nat :=
  map.free.length + (map.grows.takeWhile fun granted => !granted.isEmpty).flatten.length

/-- `cl_qpool_put`. -/
def poolPut (map : ClMap α β) (item : α) : ClMap α β :=
  { map with free := item :: map.free }

end ClMap

/-- `cl_map_init` with the items that the pool starts with, and those it will get. -/
def clMapInit (memory : ClMap α β) (free : List α) (grows : List (List α)) : ClMap α β :=
  { memory with map := qmapInit memory.map, free, grows }

variable (map : ClMap α β)

/-- `cl_map_insert`: the map and the object at the key, `none` for `NULL`. -/
def clMapInsert (key : UInt64) (object : β) : Option (ClMap α β × Option β) :=
  let map := map.poolGrow
  match map.free with
  | [] => some (map, none)
  | item :: free => do
      let map := { map with free, object := update map.object (.item item) object }
      let (quick, atKey) ← qmapInsert map.map key (.item item)
      let map := { map with map := quick }
      -- The item goes back to the pool if the key was taken.
      let map := if atKey ≠ .item item then map.poolPut item else map
      some (map, some (map.object atKey))

/-- `cl_map_get`. -/
def clMapGet (key : UInt64) : Option (Option β) := do
  let item ← qmapGet map.map key
  some (if item = qmapEnd then none else some (map.object item))

/-- `cl_map_remove_item`. -/
def clMapRemoveItem : Ref α → Option (ClMap α β)
  | .nil => some map
  | .root => none
  | .item item => do
      let quick ← qmapRemoveItem map.map (.item item)
      some ({ map with map := quick }.poolPut item)

/-- `cl_map_head`. -/
def clMapHead : Ref α := qmapHead map.map

/-- `cl_map_next`. -/
def clMapNext (itor : Ref α) : Ref α := qmapNext map.map itor

/-- `cl_map_end`. -/
def clMapEnd : Ref α := qmapEnd

/-! ### The map as a list of pairs -/

namespace ClMap

/-- The key and the object of an item. -/
def pair (item : α) : UInt64 × β :=
  (map.map.key (.item item), map.object (.item item))

/-- The quick map is in order and holds the items. They and those of the pool, at hand or to
come, are different ones. -/
structure Carries (map : ClMap α β) (items : List α) : Prop where
  quick : map.map.Carries (fun item => map.map.key (.item item)) items
  pool : (items ++ (map.free ++ map.grows.flatten)).Nodup

/-- The map holds the pairs in the order of their keys. -/
def Shows (pairs : List (UInt64 × β)) : Prop :=
  ∃ items, map.Carries items ∧ items.map map.pair = pairs

/-- The map holds the pairs, and the iterator is at the second part of them. -/
def At (itor : Ref α) (done todo : List (UInt64 × β)) : Prop :=
  ∃ early late, map.Carries (early ++ late) ∧ early.map map.pair = done ∧
    late.map map.pair = todo ∧ itor = firstItem late

variable {map : ClMap α β} {items early late : List α} {item : α}

section

omit [DecidableEq α]

theorem Carries.ascending (carries : map.Carries items) :
    Ascending compareKeys (fun item => map.map.key (.item item)) items :=
  FMap.Carries.ascending carries.quick

theorem Carries.poolGrow (carries : map.Carries items) : map.poolGrow.Carries items := by
  unfold ClMap.poolGrow
  split
  · next empty =>
    refine ⟨carries.quick, ?_⟩
    have pool := carries.pool
    rw [empty] at pool
    cases grown : map.grows with
    | nil =>
      rw [grown] at pool
      exact pool
    | cons first rest =>
      rw [grown] at pool
      exact pool
  · exact carries

theorem poolGrow_map (map : ClMap α β) : map.poolGrow.map = map.map := by
  unfold ClMap.poolGrow
  split <;> rfl

theorem poolGrow_object (map : ClMap α β) : map.poolGrow.object = map.object := by
  unfold ClMap.poolGrow
  split <;> rfl

theorem poolGrow_pair (map : ClMap α β) : map.poolGrow.pair = map.pair := by
  unfold ClMap.pair
  rw [poolGrow_map, poolGrow_object]

theorem poolGrow_length (map : ClMap α β) : map.free.length ≤ map.poolGrow.free.length := by
  unfold ClMap.poolGrow
  split
  · next empty =>
    rw [empty]
    exact Nat.zero_le _
  · exact Nat.le_refl _

end

/-- `cl_map_remove_item`: the item goes to the pool. -/
theorem Carries.removeItem (carries : map.Carries (early ++ item :: late)) :
    ∃ shorter, clMapRemoveItem map (.item item) = some shorter ∧ shorter.Carries (early ++ late) ∧
      shorter.free = item :: map.free ∧
      ∀ other ∈ early ++ late, shorter.pair other = map.pair other := by
  obtain ⟨flexible, run, carried, -⟩ := FMap.Carries.removeItem carries.quick
  obtain ⟨quick, ran, rfl⟩ := qmapRemoveItem_of_fmapRemoveItem run
  have pool := carries.pool
  refine ⟨({ map with map := quick } : ClMap α β).poolPut item, by simp [clMapRemoveItem, ran],
    ⟨⟨rfl, carried.held, fun _ _ => rfl⟩, ?_⟩, rfl, ?_⟩
  · apply List.Perm.nodup _ pool
    simp only [poolPut, append_assoc, cons_append]
    exact List.Perm.append_left _ (perm_middle.symm.trans (List.Perm.refl _))
  · intro other listed
    have key : quick.key (.item other) = map.map.key (.item other) := carried.keys other listed
    simp [pair, poolPut, key]

variable {free : List α} {key : UInt64} {object : β}

omit [DecidableEq α] in
/-- The item that the pool gives is not in the map. -/
theorem Carries.outside (carries : map.Carries items) (head : map.poolGrow.free = item :: free) :
    item ∉ items := by
  have pool := carries.poolGrow.pool
  rw [head] at pool
  exact fun inside => (nodup_append.mp pool).2.2 item inside item (by simp) rfl

/-- The map with the key of an item outside it. -/
theorem Carries.withKey (carries : map.Carries items) (outside : item ∉ items) (key : UInt64) :
    map.map.toFMap.Carries compareKeys (update (fun item => map.map.key (.item item)) item key) items := by
  refine ⟨rfl, carries.quick.held, fun other listed => ?_⟩
  have distinct : other ≠ item := by
    rintro rfl
    exact outside listed
  rw [update_of_ne distinct]
  rfl

/-- `cl_map_insert` with a key that is taken: its object is returned, and the new item goes back
to the pool. -/
theorem Carries.insert_taken (carries : map.Carries items)
    (head : map.poolGrow.free = item :: free) {found : α} (inside : found ∈ items)
    (own : map.map.key (.item found) = key) :
    ∃ after, clMapInsert map key object = some (after, some (map.object (.item found))) ∧
      after.Carries items ∧ after.free = item :: free ∧
      ∀ other ∈ items, after.pair other = map.pair other := by
  have outside := carries.outside head
  have apart : ∀ other ∈ items, other ≠ item := by
    rintro other listed rfl
    exact outside listed
  obtain ⟨flexible, returned, run, listed, same, carried⟩ :=
    (carries.withKey outside key).insert_taken lawful_compareKeys outside
      ⟨found, inside, by simp [update_of_ne (apart found inside), own, compareKeys_eq_zero]⟩
  rw [update_self] at run same
  rw [update_of_ne (apart returned listed), compareKeys_eq_zero] at same
  obtain ⟨quick, ran, rfl⟩ := qmapInsert_of_fmapInsert run
  obtain rfl : returned = found := carries.ascending.eq_of_same lawful_compareKeys listed inside
    (compareKeys_eq_zero.mpr (same.symm.trans own.symm))
  have different : (.item returned : Ref α) ≠ .item item := by simpa using apart returned inside
  have keys : ∀ other ∈ items, quick.key (.item other) = map.map.key (.item other) := by
    intro other inside
    have key := carried.keys other inside
    rwa [update_of_ne (apart other inside)] at key
  refine ⟨{ map.poolGrow with
      map := quick
      object := update map.object (.item item) object
      free := item :: free }, ?_, ⟨⟨rfl, carried.held, fun _ _ => rfl⟩, ?_⟩, rfl, ?_⟩
  · simp only [clMapInsert, head, poolGrow_map, poolGrow_object, ran, Option.bind_eq_bind,
      Option.bind_some, if_pos different, poolPut, update_of_ne different]
  · have pool := carries.poolGrow.pool
    rwa [head] at pool
  · intro other inside
    have notItem : (.item other : Ref α) ≠ .item item := by simpa using apart other inside
    simp only [pair, keys other inside, update_of_ne notItem]

/-- `cl_map_insert` with a new key. -/
theorem Carries.insert_new (carries : map.Carries items)
    (head : map.poolGrow.free = item :: free)
    (absent : ∀ other ∈ items, map.map.key (.item other) ≠ key) :
    ∃ after longer, clMapInsert map key object = some (after, some object) ∧
      after.Carries longer ∧ longer.Perm (item :: items) ∧ after.free = free ∧
      after.pair item = (key, object) ∧ ∀ other ∈ items, after.pair other = map.pair other := by
  have outside := carries.outside head
  have apart : ∀ other ∈ items, other ≠ item := by
    rintro other listed rfl
    exact outside listed
  have free : ∀ other ∈ items, compareKeys
      (update (fun item => map.map.key (.item item)) item key item)
      (update (fun item => map.map.key (.item item)) item key other) ≠ 0 := by
    intro other listed
    rw [update_self, update_of_ne (apart other listed), ne_eq, compareKeys_eq_zero]
    exact (absent other listed).symm
  obtain ⟨flexible, longer, run, carried, perm⟩ :=
    (carries.withKey outside key).insert_new lawful_compareKeys outside free
  rw [update_self] at run
  obtain ⟨quick, ran, rfl⟩ := qmapInsert_of_fmapInsert run
  have keys : ∀ other ∈ item :: items, quick.key (.item other) =
      update (fun item => map.map.key (.item item)) item key other := fun other inside =>
    carried.keys other (perm.mem_iff.mpr inside)
  refine ⟨{ map.poolGrow with
      map := quick
      object := update map.object (.item item) object
      free := _ }, longer, ?_, ⟨⟨rfl, carried.held, fun _ _ => rfl⟩, ?_⟩, perm, rfl, ?_, ?_⟩
  · simp only [clMapInsert, head, poolGrow_map, poolGrow_object, ran, Option.bind_eq_bind,
      Option.bind_some, ne_eq, not_true_eq_false, if_false, update_self]
  · have pool := carries.poolGrow.pool
    rw [head] at pool
    apply List.Perm.nodup _ pool
    refine perm_middle.trans ?_
    exact (perm.append_right _).symm
  · have key := keys item (mem_cons_self ..)
    rw [update_self] at key
    simp only [pair, key, update_self]
  · intro other inside
    have notItem : (.item other : Ref α) ≠ .item item := by simpa using apart other inside
    have key := keys other (mem_cons_of_mem _ inside)
    rw [update_of_ne (apart other inside)] at key
    simp only [pair, key, update_of_ne notItem]

/-! ### The calls on the pairs -/

variable {pairs done todo : List (UInt64 × β)} {itor : Ref α} {first : UInt64 × β}

/-- The keys increase. -/
def ByKey (pairs : List (UInt64 × β)) : Prop :=
  pairs.Pairwise fun first second => first.1 < second.1

section

omit [DecidableEq α]

theorem byKey_map_pair : ByKey (items.map map.pair) ↔
    Ascending compareKeys (fun item => map.map.key (.item item)) items := by
  simp only [ByKey, Ascending, pairwise_map, pair, compareKeys_neg]

theorem Shows.byKey (shows' : map.Shows pairs) : ByKey pairs := by
  obtain ⟨items, carries, rfl⟩ := shows'
  exact byKey_map_pair.mpr carries.ascending

theorem map_pair_congr {after : ClMap α β} (same : ∀ item ∈ items, after.pair item = map.pair item) :
    items.map after.pair = items.map map.pair :=
  List.map_congr_left same

end

theorem clMapInit_shows (memory : ClMap α β) {grows : List (List α)}
    (pool : (free ++ grows.flatten).Nodup) : (clMapInit memory free grows).Shows [] :=
  ⟨[], ⟨qmapInit_carries memory.map _, pool⟩, rfl⟩

/-- `cl_map_get` looks the pairs up. -/
theorem Shows.get (shows' : map.Shows pairs) (key : UInt64) (object : β) :
    clMapGet map key = some (some object) ↔ (key, object) ∈ pairs := by
  obtain ⟨items, carries, rfl⟩ := shows'
  obtain ⟨tree, holds, rfl⟩ := carries.quick.held
  rw [← QMap.holds_iff] at holds
  simp only [mem_map, pair, Prod.mk.injEq]
  rcases holds.get key with ⟨item, inside, rfl, found⟩ | ⟨absent, found⟩
  · simp only [clMapGet, found, qmapEnd, Option.bind_eq_bind, Option.bind_some, reduceCtorEq,
      if_false, Option.some.injEq]
    constructor
    · intro same
      exact ⟨item, inside, rfl, same⟩
    · rintro ⟨other, listed, key, rfl⟩
      rw [carries.ascending.eq_of_same lawful_compareKeys listed inside (compareKeys_eq_zero.mpr key)]
  · simp only [clMapGet, found, Option.bind_eq_bind, Option.bind_some, if_true, Option.some.injEq,
      reduceCtorEq, false_iff]
    rintro ⟨other, listed, own, -⟩
    exact absent other listed own

/-- `cl_map_insert`: memory is short, or the key is taken, or the pair is new. Free items are
used up only by new pairs. -/
theorem Shows.insert (shows' : map.Shows pairs) (key : UInt64) (object : β) :
    ∃ after result, clMapInsert map key object = some (after, result) ∧
      ((result = none ∧ map.free = [] ∧ after.Shows pairs) ∨
        (∃ existing, (key, existing) ∈ pairs ∧ result = some existing ∧ after.Shows pairs ∧
          map.free.length ≤ after.free.length) ∨
        (∀ pair ∈ pairs, pair.1 ≠ key) ∧ result = some object ∧
          map.free.length ≤ after.free.length + 1 ∧
          ∃ longer, longer.Perm ((key, object) :: pairs) ∧ after.Shows longer) := by
  obtain ⟨items, carries, rfl⟩ := shows'
  have more := poolGrow_length map
  cases head : map.poolGrow.free with
  | nil =>
    refine ⟨map.poolGrow, none, by simp only [clMapInsert, head], Or.inl ⟨rfl, ?_, items, carries.poolGrow, ?_⟩⟩
    · rw [head] at more
      exact eq_nil_of_length_eq_zero (Nat.le_zero.mp more)
    · rw [poolGrow_pair]
  | cons item free =>
    rw [head] at more
    by_cases taken : ∃ found ∈ items, map.map.key (.item found) = key
    · obtain ⟨found, inside, rfl⟩ := taken
      obtain ⟨after, run, carried, left, same⟩ := @Carries.insert_taken _ _ _ _ _ _ _ _ object
        carries head found inside rfl
      refine ⟨after, _, run, Or.inr (Or.inl ⟨_, ?_, rfl, ⟨items, carried, map_pair_congr same⟩, ?_⟩)⟩
      · exact mem_map.mpr ⟨found, inside, rfl⟩
      · rw [left]
        exact more
    · have absent : ∀ other ∈ items, map.map.key (.item other) ≠ key := fun other inside own =>
        taken ⟨other, inside, own⟩
      obtain ⟨after, longer, run, carried, perm, left, own, same⟩ :=
        @Carries.insert_new _ _ _ _ _ _ _ _ object carries head absent
      refine ⟨after, _, run, Or.inr (Or.inr ⟨?_, rfl, ?_, longer.map after.pair, ?_, longer, carried, rfl⟩)⟩
      · rintro pair listed
        obtain ⟨other, inside, rfl⟩ := mem_map.mp listed
        exact absent other inside
      · rw [left]
        exact more
      · have moved := perm.map after.pair
        rwa [map_cons, own, map_pair_congr same] at moved

omit [DecidableEq α] in
theorem poolGrow_supply (map : ClMap α β) : map.supply ≤ map.poolGrow.supply ∧
    (map.poolGrow.free = [] → map.supply = 0) := by
  unfold supply poolGrow
  cases free : map.free with
  | cons item rest => simp [free]
  | nil =>
    cases grown : map.grows with
    | nil => simp
    | cons granted rest => cases granted <;> simp

/-- `cl_map_insert` fails only if the pool gives nothing, and takes one item at most. -/
theorem clMapInsert_supply {after : ClMap α β} {result : Option β}
    (run : clMapInsert map key object = some (after, result)) :
    (result = none → map.supply = 0) ∧ map.supply ≤ after.supply + 1 := by
  obtain ⟨more, short⟩ := map.poolGrow_supply
  unfold clMapInsert at run
  dsimp only at run
  split at run
  next none =>
    cases run
    exact ⟨fun _ => short none, Nat.le_succ_of_le more⟩
  next item free head =>
    obtain ⟨⟨quick, atKey⟩, -, ended⟩ := Option.bind_eq_some_iff.mp run
    cases ended
    refine ⟨nofun, ?_⟩
    simp only [supply, head, length_cons] at more ⊢
    split
    · simp only [poolPut, length_cons]
      omega
    · dsimp only
      omega

section

omit [DecidableEq α]

theorem Shows.at_head (shows' : map.Shows pairs) : map.At (clMapHead map) [] pairs := by
  obtain ⟨items, carries, rfl⟩ := shows'
  exact ⟨[], items, carries, rfl, rfl, FMap.Carries.head carries.quick⟩

theorem At.shows (at' : map.At itor done todo) : map.Shows (done ++ todo) := by
  obtain ⟨early, late, carries, rfl, rfl, -⟩ := at'
  exact ⟨early ++ late, carries, map_append⟩

theorem At.length (at' : map.At itor done todo) : map.map.count = done.length + todo.length := by
  obtain ⟨early, late, carries, rfl, rfl, -⟩ := at'
  have count := FMap.Carries.count carries.quick
  rw [length_append] at count
  simpa using count

theorem At.ended (at' : map.At itor done []) : itor = clMapEnd := by
  obtain ⟨early, late, carries, rfl, empty, rfl⟩ := at'
  rw [map_eq_nil_iff.mp empty]
  rfl

/-- The iterator is at an item with the key and the object. -/
theorem At.read (at' : map.At itor done (first :: todo)) :
    itor ≠ clMapEnd ∧ map.map.key itor = first.1 ∧ map.object itor = first.2 := by
  obtain ⟨early, late, carries, rfl, list, rfl⟩ := at'
  obtain ⟨item, late, rfl, rfl, -⟩ := map_eq_cons_iff.mp list
  exact ⟨nofun, rfl, rfl⟩

theorem At.next (at' : map.At itor done (first :: todo)) :
    map.At (clMapNext map itor) (done ++ [first]) todo := by
  obtain ⟨early, late, carries, rfl, list, rfl⟩ := at'
  obtain ⟨item, late, rfl, rfl, rfl⟩ := map_eq_cons_iff.mp list
  refine ⟨early ++ [item], late, by simpa using carries, by simp, rfl, ?_⟩
  exact FMap.Carries.next carries.quick

end

/-- The pair at the iterator is removed. -/
theorem At.remove (at' : map.At itor done (first :: todo)) :
    ∃ shorter, clMapRemoveItem map itor = some shorter ∧
      shorter.At (clMapNext map itor) done todo ∧ shorter.free.length = map.free.length + 1 := by
  obtain ⟨early, late, carries, rfl, list, rfl⟩ := at'
  obtain ⟨item, late, rfl, rfl, rfl⟩ := map_eq_cons_iff.mp list
  obtain ⟨shorter, run, carried, left, same⟩ := carries.removeItem
  refine ⟨shorter, run, ⟨early, late, carried, ?_, ?_, FMap.Carries.next carries.quick⟩, ?_⟩
  · exact map_pair_congr (forall_mem_append.mp same).1
  · exact map_pair_congr (forall_mem_append.mp same).2
  · rw [left]
    rfl

/-- A pair that was removed is inserted again. As its item went to the pool, memory is not
short. -/
theorem At.insertBack (at' : map.At itor done todo) (sorted : ByKey (done ++ (key, object) :: todo))
    (room : map.free ≠ []) :
    ∃ after, clMapInsert map key object = some (after, some object) ∧
      after.At itor (done ++ [(key, object)]) todo ∧
      after.free.length + 1 = map.free.length := by
  obtain ⟨early, late, carries, rfl, rfl, rfl⟩ := at'
  obtain ⟨item, free, head⟩ := exists_cons_of_ne_nil room
  have grown : map.poolGrow = map := by
    unfold ClMap.poolGrow
    rw [head]
  have given : map.poolGrow.free = item :: free := by rw [grown, head]
  have absent : ∀ other ∈ early ++ late, map.map.key (.item other) ≠ key := by
    obtain ⟨-, after, across⟩ := pairwise_append.mp sorted
    intro other listed
    rcases mem_append.mp listed with first | second
    · exact UInt64.ne_of_lt (across _ (mem_map_of_mem first) _ (mem_cons_self ..))
    · have less := (pairwise_cons.mp after).1 _ (mem_map_of_mem second)
      exact (UInt64.ne_of_lt less).symm
  obtain ⟨after, longer, run, carried, perm, left, own, same⟩ :=
    @Carries.insert_new _ _ _ _ _ _ _ _ object carries given absent
  have sameEarly : early.map after.pair = early.map map.pair := map_pair_congr (forall_mem_append.mp same).1
  have sameLate : late.map after.pair = late.map map.pair := map_pair_congr (forall_mem_append.mp same).2
  have place : longer = early ++ item :: late := by
    apply carried.ascending.eq_of_perm lawful_compareKeys _ (perm.trans perm_middle.symm)
    rw [← byKey_map_pair, map_append, map_cons, own, sameEarly, sameLate]
    exact sorted
  rw [place] at carried
  refine ⟨after, run, ⟨early ++ [item], late, by simpa using carried, ?_, sameLate, rfl⟩, ?_⟩
  · rw [map_append, sameEarly, map_cons, own, map_nil]
  · rw [left, head]
    rfl

end ClMap
end WinOFED.Complib
