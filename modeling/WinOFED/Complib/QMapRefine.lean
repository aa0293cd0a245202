import WinOFED.Complib.FMapRefine
import WinOFED.Transition.Machine

/-! The quick map is a partial function from keys to items.

`QMap.Holds` says that the memory of a map is a red-black search tree whose in-order
traversal is its linked list; every call keeps it, and `Contents` is what the map is for. -/
namespace WinOFED.Complib
open RedBlack
variable {α : Type*}

/-- The keys increase from left to right. -/
def Sorted (key : Ref α → UInt64) (items : List α) : Prop :=
  items.Pairwise fun first second => key (.item first) < key (.item second)

/-- The memory of a map holds the tree. -/
structure QMap.Holds (map : QMap α) (tree : RbTree α) : Prop where
  represents : Represents map.links tree
  black : tree.color = .black
  balanced : ∃ height, tree.Balanced height
  ring : map.ring.Segment .nil (tree.items.map .item) .nil
  sorted : Sorted map.key tree.items
  count : map.count = tree.items.length

/-! ### The quick map as a flexi map -/

theorem lawful_compareKeys : LawfulCompare compareKeys := by
  constructor
  · intro key other
    have below := @compareKeys_pos key other
    have above := @compareKeys_neg other key
    rw [← not_iff_not, Int.not_le, Int.not_le, below, above]
  · intro first second third less most
    rw [← Int.not_lt, compareKeys_pos, UInt64.not_lt] at *
    exact UInt64.le_trans less most

variable {map : QMap α} {tree : RbTree α} {key : UInt64} {item : α}

/-- The memory of a quick map is that of a flexi map. -/
theorem QMap.holds_iff : map.Holds tree ↔ map.toFMap.Holds tree := by
  have sorted : Sorted map.key tree.items ↔ map.toFMap.Sorted tree.items := by
    simp only [Sorted, FMap.Sorted, QMap.toFMap_compare, QMap.toFMap_key, compareKeys_neg]
  constructor
  · rintro ⟨represents, black, balanced, ring, inOrder, count⟩
    exact ⟨represents, black, balanced, ring, sorted.mp inOrder, count⟩
  · rintro ⟨represents, black, balanced, ring, inOrder, count⟩
    exact ⟨represents, black, balanced, ring, sorted.mpr inOrder, count⟩

theorem QMap.toFMap_injective {other : QMap α} (same : map.toFMap = other.toFMap) : map = other := by
  cases map
  cases other
  simpa [QMap.toFMap] using same

variable [DecidableEq α]

theorem qmapInsert_of_fmapInsert {item found : Ref α} {grown : FMap UInt64 α}
    (run : fmapInsert map.toFMap key item = some (grown, found)) :
    ∃ quick, qmapInsert map key item = some (quick, found) ∧ quick.toFMap = grown := by
  rw [fmapInsert_toFMap, Option.map_eq_some_iff] at run
  obtain ⟨⟨quick, returned⟩, ran, same⟩ := run
  obtain ⟨rfl, rfl⟩ := Prod.mk.inj same
  exact ⟨quick, ran, rfl⟩

theorem qmapRemoveItem_of_fmapRemoveItem {item : Ref α} {shorter : FMap UInt64 α}
    (run : fmapRemoveItem map.toFMap item = some shorter) :
    ∃ quick, qmapRemoveItem map item = some quick ∧ quick.toFMap = shorter := by
  rw [fmapRemoveItem_toFMap, Option.map_eq_some_iff] at run
  exact run

/-- `cl_qmap_get` finds the item with the key, or the end. -/
theorem QMap.Holds.get (holds : map.Holds tree) (key : UInt64) :
    (∃ item ∈ tree.items, map.key (.item item) = key ∧ qmapGet map key = some (.item item)) ∨
      (∀ item ∈ tree.items, map.key (.item item) ≠ key) ∧ qmapGet map key = some qmapEnd := by
  have got := (QMap.holds_iff.mp holds).get lawful_compareKeys key
  simp only [fmapGet_toFMap, QMap.toFMap_compare, QMap.toFMap_key, ne_eq, compareKeys_eq_zero,
    @eq_comm _ key] at got
  exact got

/-- The fields `cl_qmap_insert` sets at once. -/
def QMap.prepare (map : QMap α) (key : UInt64) (item : Ref α) : QMap α :=
  { map with
    links := initItem map.links item
    key := fun ref => if ref = item then key else map.key ref }

/-- Preparing an item that is not in the map does not touch the map. -/
theorem QMap.Holds.prepare (holds : map.Holds tree) (key : UInt64) (fresh : item ∉ tree.items) :
    (map.prepare key (.item item)).Holds tree :=
  QMap.holds_iff.mpr ((QMap.holds_iff.mp holds).prepare key fresh)

/-- `cl_qmap_insert` of an item that is not in the map: an item with the key is returned
and only the new item's own fields change, or the new item comes between the items with
smaller and those with greater keys. -/
theorem QMap.Holds.insert (holds : map.Holds tree) (key : UInt64) (fresh : item ∉ tree.items) :
    (∃ existing ∈ tree.items, map.key (.item existing) = key ∧
        qmapInsert map key (.item item) = some (map.prepare key (.item item), .item existing)) ∨
      (∀ other ∈ tree.items, map.key (.item other) ≠ key) ∧
        ∃ linked grown before after, qmapInsert map key (.item item) = some (linked, .item item) ∧
          linked.Holds grown ∧ tree.items = before ++ after ∧
          grown.items = before ++ item :: after ∧
          linked.key = (map.prepare key (.item item)).key := by
  rcases (QMap.holds_iff.mp holds).insert lawful_compareKeys key fresh with
    ⟨existing, inside, same, run⟩ | ⟨absent, linked, grown, before, after, run, held, order, items, keys, -⟩
  · refine .inl ⟨existing, inside, (compareKeys_eq_zero.mp same).symm, ?_⟩
    obtain ⟨changed, done, unchanged⟩ := qmapInsert_of_fmapInsert run
    have prepared : changed = map.prepare key (.item item) := QMap.toFMap_injective unchanged
    rw [done, prepared]
  · obtain ⟨changed, done, rfl⟩ := qmapInsert_of_fmapInsert run
    refine .inr ⟨fun other inside same => absent other inside ?_, changed, grown, before, after,
      done, QMap.holds_iff.mpr held, order, items, keys⟩
    exact compareKeys_eq_zero.mpr same.symm

/-- `cl_qmap_remove_item` of an item in the map. -/
theorem QMap.Holds.removeItem (holds : map.Holds tree) (inside : item ∈ tree.items) :
    ∃ shorter rest, qmapRemoveItem map (.item item) = some shorter ∧ shorter.Holds rest ∧
      rest.items = tree.items.erase item ∧ shorter.key = map.key := by
  obtain ⟨shorter, rest, run, held, items, keys, -⟩ := (QMap.holds_iff.mp holds).removeItem inside
  obtain ⟨changed, done, rfl⟩ := qmapRemoveItem_of_fmapRemoveItem run
  exact ⟨changed, rest, done, QMap.holds_iff.mpr held, items, keys⟩

/-! ### The map as a partial function -/

/-- `cl_qmap_init` makes an empty map of any memory. -/
theorem qmapInit_holds (memory : QMap α) : (qmapInit memory).Holds .leaf := by
  refine ⟨⟨trivial, ?_, List.nodup_nil, ?_, ?_⟩, rfl, ⟨0, rfl⟩, ?_, List.Pairwise.nil, rfl⟩
  all_goals simp [qmapInit, qmapRemoveAll, Memory.Ring.Segment]

/-- What a map is for: the item under each key. -/
abbrev Contents (α : Type*) := UInt64 → Option α

namespace Contents

/-- The item under a key as the pointer the calls return. -/
def ref (contents : Contents α) (key : UInt64) : Ref α :=
  match contents key with
  | some item => .item item
  | none => qmapEnd

/-- What a call does to the contents, and what it returns. -/
def call (contents : Contents α) : QMapCall α → Contents α × Option (Ref α)
  | .insert key item =>
      match contents key with
      | some existing => (contents, some (.item existing))
      | none => (Function.update contents key (some item), some (.item item))
  | .remove key => (Function.update contents key none, some (contents.ref key))
  | .removeItem (.item item) =>
      (fun key => if contents key = some item then none else contents key, none)
  | .removeItem _ => (contents, none)

/-- Only items outside the map are inserted, and what is removed as an item is in the map
or its end. -/
def Allows (contents : Contents α) : QMapCall α → Prop
  | .insert _ item => ∀ key, contents key ≠ some item
  | .remove _ => True
  | .removeItem (.item item) => ∃ key, contents key = some item
  | .removeItem place => place = qmapEnd

/-- The contents after a sequence of calls. -/
def calls (contents : Contents α) : List (QMapCall α) → Contents α
  | [] => contents
  | call :: rest => (contents.call call).1.calls rest

/-- What a sequence of calls returns. -/
def results (contents : Contents α) : List (QMapCall α) → List (Option (Ref α))
  | [] => []
  | call :: rest => (contents.call call).2 :: (contents.call call).1.results rest

/-- Each call of a sequence is allowed when it is made. -/
def AllowsAll (contents : Contents α) : List (QMapCall α) → Prop
  | [] => True
  | call :: rest => contents.Allows call ∧ (contents.call call).1.AllowsAll rest

end Contents

/-- A sequence of calls on the memory, with what they return. -/
def qmapCalls (map : QMap α) : List (QMapCall α) → Option (QMap α × List (Option (Ref α)))
  | [] => some (map, [])
  | call :: rest => do
      let (map, result) ← qmapCall map call
      let (map, results) ← qmapCalls map rest
      some (map, result :: results)

/-- The items of the tree are the contents, each under its key. -/
def Contents.Of (contents : Contents α) (map : QMap α) (tree : RbTree α) : Prop :=
  ∀ key item, contents key = some item ↔ item ∈ tree.items ∧ map.key (.item item) = key

variable {contents : Contents α}

omit [DecidableEq α] in
/-- The item under a key is the one in the tree. -/
theorem Contents.Of.ref_item (same : contents.Of map tree) (inside : item ∈ tree.items) :
    contents.ref (map.key (.item item)) = .item item := by
  simp [Contents.ref, (same _ item).mpr ⟨inside, rfl⟩]

omit [DecidableEq α] in
/-- A key no item of the tree has is not in the contents. -/
theorem Contents.Of.eq_none (same : contents.Of map tree)
    (absent : ∀ item ∈ tree.items, map.key (.item item) ≠ key) : contents key = none := by
  refine Option.eq_none_iff_forall_ne_some.mpr fun item found => ?_
  obtain ⟨inside, own⟩ := (same key item).mp found
  exact absent item inside own

section
variable (same : contents.Of map tree)
include same

/-- `cl_qmap_get` returns the item under the key. -/
theorem Contents.Of.get (holds : map.Holds tree) (key : UInt64) :
    qmapGet map key = some (contents.ref key) := by
  rcases holds.get key with ⟨item, inside, rfl, found⟩ | ⟨absent, found⟩
  · rw [found, same.ref_item inside]
  · rw [found, Contents.ref, same.eq_none absent]

/-- Inserting refines setting the key, or returning what it has. -/
theorem Contents.Of.insert (holds : map.Holds tree)
    (fresh : ∀ key, contents key ≠ some item) :
    ∃ changed grown,
      qmapCall map (.insert key item) = some (changed, (contents.call (.insert key item)).2) ∧
      changed.Holds grown ∧ (contents.call (.insert key item)).1.Of changed grown := by
  have outside : item ∉ tree.items := fun inside =>
    fresh (map.key (.item item)) ((same _ item).mpr ⟨inside, rfl⟩)
  have distinct : ∀ other ∈ tree.items, other ≠ item := fun other inside equal =>
    outside (equal ▸ inside)
  rcases holds.insert key outside with
    ⟨existing, inside, rfl, run⟩ | ⟨absent, linked, grown, before, after, run, held, split, joined, keys⟩
  · have found := (same _ existing).mpr ⟨inside, rfl⟩
    refine ⟨map.prepare (map.key (.item existing)) (.item item), tree, ?_, holds.prepare _ outside,
      fun wanted other => ?_⟩
    · simp [qmapCall, run, Contents.call, found]
    · simp only [Contents.call, found, same wanted other]
      refine and_congr_right fun listed => ?_
      simp [QMap.prepare, distinct other listed]
  · have empty := same.eq_none absent
    refine ⟨linked, grown, ?_, held, fun wanted other => ?_⟩
    · simp [qmapCall, run, Contents.call, empty]
    · have listed : other ∈ grown.items ↔ other = item ∨ other ∈ tree.items := by
        rw [split, joined, List.perm_middle.mem_iff, List.mem_cons]
      simp only [Contents.call, empty, listed, keys, QMap.prepare, Ref.item.injEq, Function.update_apply]
      by_cases own : other = item
      · subst own
        by_cases here : wanted = key
        · simp [here]
        · simp only [if_neg here, fresh wanted, true_or, if_true, true_and, false_iff]
          exact fun equal => here equal.symm
      · by_cases here : wanted = key
        · subst here
          simp only [if_true, Option.some.injEq, Ne.symm own, own, false_or, if_false, false_iff]
          exact fun inside => absent other inside.1 inside.2
        · simp [here, own, same wanted other]

/-- Removing an item refines clearing its key. -/
theorem Contents.Of.removeItem (holds : map.Holds tree)
    (inside : item ∈ tree.items) :
    ∃ shorter rest, qmapRemoveItem map (.item item) = some shorter ∧ shorter.Holds rest ∧
      (contents.call (.removeItem (.item item))).1.Of shorter rest := by
  obtain ⟨shorter, rest, run, held, items, keys⟩ := holds.removeItem inside
  refine ⟨shorter, rest, run, held, fun wanted other => ?_⟩
  have listed : other ∈ rest.items ↔ other ∈ tree.items ∧ other ≠ item := by
    rw [items, holds.represents.nodup.mem_erase_iff, and_comm]
  simp only [Contents.call, listed, keys]
  by_cases own : other = item
  · subst own
    simp
  · have clear := same wanted other
    by_cases here : contents wanted = some item
    · simp only [here, Option.some.injEq, Ne.symm own, false_iff] at clear
      simp only [here, if_true, reduceCtorEq, false_iff]
      exact fun kept => clear ⟨kept.1.1, kept.2⟩
    · simp [here, own, clear]

/-- Under one key there is one item, so clearing the item clears just its key. -/
theorem Contents.Of.clear (inside : item ∈ tree.items) :
    (contents.call (.removeItem (.item item))).1 =
      Function.update contents (map.key (.item item)) none := by
  funext wanted
  simp only [Contents.call, Function.update_apply, same wanted item, inside, true_and]
  simp [eq_comm]

/-- A call that the contents allow does what it does to the contents. -/
theorem Contents.Of.call (holds : map.Holds tree) {call : QMapCall α}
    (allowed : contents.Allows call) :
    ∃ changed next, qmapCall map call = some (changed, (contents.call call).2) ∧
      changed.Holds next ∧ (contents.call call).1.Of changed next := by
  match call with
  | .insert key item => exact same.insert holds allowed
  | .remove key =>
    rcases holds.get key with ⟨item, inside, rfl, found⟩ | ⟨absent, found⟩
    · obtain ⟨shorter, rest, run, held, left⟩ := same.removeItem holds inside
      rw [same.clear inside] at left
      refine ⟨shorter, rest, ?_, held, left⟩
      simp [qmapCall, qmapRemove, found, run, Contents.call, same.ref_item inside]
    · have empty := same.eq_none absent
      have unchanged : (contents.call (.remove key)).1 = contents := by
        simp [Contents.call, empty]
      refine ⟨map, tree, ?_, holds, by rw [unchanged]; exact same⟩
      simp [qmapCall, qmapRemove, found, qmapRemoveItem, Contents.call, Contents.ref, empty]
  | .removeItem (.item item) =>
    obtain ⟨key, found⟩ := allowed
    obtain ⟨shorter, rest, run, held, left⟩ := same.removeItem holds ((same key item).mp found).1
    exact ⟨shorter, rest, by simp [qmapCall, run, Contents.call], held, left⟩
  | .removeItem .nil => exact ⟨map, tree, by simp [qmapCall, qmapRemoveItem, qmapEnd, Contents.call],
      holds, same⟩
  | .removeItem .root => cases allowed

/-- A sequence of allowed calls does what it does to the contents. -/
theorem Contents.Of.calls (holds : map.Holds tree)
    {calls : List (QMapCall α)} (allowed : contents.AllowsAll calls) :
    ∃ changed next, qmapCalls map calls = some (changed, contents.results calls) ∧
      changed.Holds next ∧ (contents.calls calls).Of changed next := by
  induction calls generalizing contents map tree with
  | nil => exact ⟨map, tree, rfl, holds, same⟩
  | cons call rest ih =>
    obtain ⟨middle, between, first, held, kept⟩ := same.call holds allowed.1
    obtain ⟨changed, next, others, final, left⟩ := ih kept held allowed.2
    exact ⟨changed, next, by simp [qmapCalls, first, others, Contents.results], final, left⟩

end

/-- After any sequence of allowed calls on an initialised map, each of which returned what
its contents say: the memory is a red-black search tree, the list is its traversal, `count`
its size, and `cl_qmap_get` looks the contents up. Inserting under a key that is taken
returns its item and changes neither the tree nor the list. -/
theorem qmap_refines_contents (memory : QMap α) (calls : List (QMapCall α))
    (allowed : Contents.AllowsAll (fun _ => none) calls) :
    ∃ map tree, qmapCalls (qmapInit memory) calls =
        some (map, Contents.results (fun _ => none) calls) ∧
      map.Holds tree ∧
      map.ring.walk qmapEnd map.count (qmapHead map) = tree.items.map .item ∧
      (∀ key, qmapGet map key = some (Contents.ref (Contents.calls (fun _ => none) calls) key)) ∧
      ∀ key existing item, Contents.calls (fun _ => none) calls key = some existing →
        item ∉ tree.items → ∃ changed,
          qmapInsert map key (.item item) = some (changed, .item existing) ∧
          changed.Holds tree ∧ changed.ring = map.ring := by
  have empty : Contents.Of (fun _ => none) (qmapInit memory) (.leaf : RbTree α) := by
    simp [Contents.Of]
  obtain ⟨map, tree, run, holds, same⟩ := empty.calls (qmapInit_holds memory) allowed
  refine ⟨map, tree, run, holds, holds.ring.walk (by simp) (by simp [holds.count]),
    same.get holds, fun key existing item taken fresh => ?_⟩
  obtain ⟨inside, own⟩ := (same key existing).mp taken
  rcases holds.insert key fresh with ⟨other, listed, equal, found⟩ | ⟨absent, _⟩
  · have one : other = existing := by
      have twice := (same key other).mpr ⟨listed, equal⟩
      rw [taken] at twice
      exact (Option.some.inj twice).symm
    exact ⟨_, one ▸ found, holds.prepare key fresh, rfl⟩
  · exact absurd own (absent existing inside)

/-- Two items, a second insertion under the first one's key, and both ways to remove. -/
theorem qmap_refines_contents_five :
    let calls : List (QMapCall Nat) :=
      [.insert 5 1, .insert 3 2, .insert 5 3, .removeItem (.item 1), .remove 3]
    let memory : QMap Nat :=
      { links := ⟨fun _ _ => .nil, fun _ => .nil, fun _ => .red⟩
        ring := ⟨fun _ => .nil, fun _ => .nil⟩
        key := fun _ => 0
        count := 0 }
    Contents.AllowsAll (fun _ => none) calls ∧
      ∃ map tree, qmapCalls (qmapInit memory) calls =
          some (map, [some (.item 1), some (.item 2), some (.item 1), none, some (.item 2)]) ∧
        map.Holds tree := by
  intro calls memory
  have allowed : Contents.AllowsAll (fun _ => none) calls := by
    refine ⟨?_, ?_, ?_, ⟨5, ?_⟩, trivial, trivial⟩
    all_goals simp [Contents.Allows, Contents.call, Function.update_apply]
    all_goals grind
  refine ⟨allowed, ?_⟩
  obtain ⟨map, tree, run, holds, _⟩ := qmap_refines_contents memory calls allowed
  have returned : Contents.results (fun _ => none) calls =
      [some (.item 1), some (.item 2), some (.item 1), none, some (.item 2)] := by
    simp [calls, Contents.results, Contents.call, Contents.ref, Function.update_apply]
  exact ⟨map, tree, returned ▸ run, holds⟩

end WinOFED.Complib
