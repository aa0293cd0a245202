import WinOFED.Complib.FMap
import WinOFED.RedBlack.Search

/-! The memory of a flexi map.

`FMap.Holds` says that it is a red-black search tree whose in-order traversal is the linked
list; every call keeps it. -/
namespace WinOFED.Complib
open RedBlack RbTree List
variable {κ α : Type*}

/-- The function of the user is a total order: what it gives for two keys has the opposite
sign of what it gives for them the other way round, and it is transitive. -/
structure LawfulCompare (compare : κ → κ → Int) : Prop where
  swap : ∀ key other, compare key other ≤ 0 ↔ 0 ≤ compare other key
  trans : ∀ first second third, compare first second ≤ 0 → compare second third ≤ 0 →
    compare first third ≤ 0

namespace LawfulCompare
variable {compare : κ → κ → Int} (lawful : LawfulCompare compare) {first second third : κ}
include lawful

theorem neg_iff : compare first second < 0 ↔ 0 < compare second first := by
  have turned := lawful.swap second first
  omega

theorem zero_iff : compare first second = 0 ↔ compare second first = 0 := by
  have one := lawful.swap first second
  have two := lawful.swap second first
  omega

theorem lt_trans (less : compare first second < 0) (most : compare second third ≤ 0) :
    compare first third < 0 := by
  have back := lawful.trans second third first most
  have one := lawful.swap third first
  have two := lawful.swap first second
  have three := lawful.swap second first
  omega

theorem trans_lt (most : compare first second ≤ 0) (less : compare second third < 0) :
    compare first third < 0 := by
  have back := lawful.trans third first second
  have one := lawful.swap third first
  have two := lawful.swap third second
  have three := lawful.swap second third
  have four := lawful.swap first third
  omega

theorem refl (key : κ) : compare key key = 0 := by
  have turned := lawful.swap key key
  omega

end LawfulCompare

/-- The keys increase from left to right. -/
def FMap.Sorted (map : FMap κ α) (items : List α) : Prop :=
  items.Pairwise fun first second => map.compare (map.key (.item first)) (map.key (.item second)) < 0

/-- The memory of a map holds the tree. -/
structure FMap.Holds (map : FMap κ α) (tree : RbTree α) : Prop where
  represents : Represents map.links tree
  black : tree.color = .black
  balanced : ∃ height, tree.Balanced height
  ring : map.ring.Segment .nil (tree.items.map .item) .nil
  sorted : map.Sorted tree.items
  count : map.count = tree.items.length

/-! ### Lookup -/

/-- Where the searches for a key go on from an item. -/
def FMap.probe (map : FMap κ α) (key : κ) (item : α) : Option Side :=
  let cmp := map.compare key (map.key (.item item))
  if cmp = 0 then none else if cmp < 0 then some .left else some .right

variable {item : α} {map : FMap κ α} {key : κ} {tree : RbTree α} {path : Path α}

theorem FMap.probe_none : map.probe key item = none ↔ map.compare key (map.key (.item item)) = 0 := by
  simp only [FMap.probe]
  split_ifs with same <;> simp [same]

theorem FMap.probe_left : map.probe key item = some .left ↔ map.compare key (map.key (.item item)) < 0 := by
  simp only [FMap.probe]
  split_ifs with same below
  · simp [same]
  · simp [below]
  · simp [below]

theorem FMap.probe_right :
    map.probe key item = some .right ↔ 0 < map.compare key (map.key (.item item)) := by
  simp only [FMap.probe]
  split_ifs with same below
  · simp [same]
  · simp only [Option.some.injEq, reduceCtorEq, false_iff]
    omega
  · simp only [true_iff]
    omega

/-- Sorted items are searched in order. -/
theorem FMap.Sorted.steers {items : List α} (sorted : map.Sorted items)
    (lawful : LawfulCompare map.compare) (key : κ) : Steers (map.probe key) items := by
  refine List.Pairwise.imp (fun {first second} less => ?_) sorted
  simp only [FMap.probe_left, FMap.probe_right]
  refine ⟨fun below => lawful.lt_trans below (Int.le_of_lt less), fun above => ?_⟩
  rw [← lawful.neg_iff] at above ⊢
  exact lawful.lt_trans less (Int.le_of_lt above)

variable [DecidableEq α]

/-- The comparison with the last item of a path. -/
def FMap.lastCompare (map : FMap κ α) (key : κ) : Path α → Int
  | .top => 0
  | .step _ _ value _ _ => map.compare key (map.key (.item value))

/-- What the search of `cl_fmap_insert` makes of the place where it ends. -/
def FPlace.of (map : FMap κ α) (key : κ) : Path α × RbTree α → FPlace α
  | (path, .leaf) => .insertAt path.ref (map.lastCompare key path)
  | (_, .node _ _ value _) => .existing (.item value)

/-- The search of `cl_fmap_insert` goes down the tree. -/
theorem fmapPlace_eq {rounds : Nat}
    (represents : Represents map.links (path.plug tree)) (enough : tree.items.length < rounds) :
    fmapPlace map key rounds path.ref (map.lastCompare key path) tree.ref =
      some (FPlace.of map key (tree.descend (map.probe key) path)) := by
  induction rounds generalizing path tree with
  | zero => cases enough
  | succ rounds ih =>
    cases tree with
    | leaf => simp [fmapPlace, descend, FPlace.of]
    | node color left value right =>
      obtain ⟨_, _, onLeft, onRight, _, _⟩ := represents.inside
      simp only [items, length_append, length_cons] at enough
      have less : left.items.length < rounds := by omega
      have more : right.items.length < rounds := by omega
      simp only [fmapPlace, ref, reduceCtorEq, if_false, onLeft, onRight, descend, FMap.probe]
      split_ifs
      · rfl
      · exact @ih _ (.step .left color value right path) represents less
      · exact @ih _ (.step .right color value left path) represents more

/-- The item a search has come to, or the end. -/
def FPlace.found : FPlace α → Ref α
  | .existing item => item
  | .insertAt _ _ => .nil

/-- The loop of `cl_fmap_get` is the search of `cl_fmap_insert`. -/
theorem fmapSeek_eq (map : FMap κ α) (key : κ) (rounds : Nat) (insertAt : Ref α) (cmp : Int)
    (item : Ref α) :
    fmapSeek map key rounds item = (fmapPlace map key rounds insertAt cmp item).map (·.found) := by
  induction rounds generalizing insertAt cmp item with
  | zero => rfl
  | succ rounds ih =>
    simp only [fmapSeek, fmapPlace]
    split_ifs with last
    · rw [last]
      rfl
    · rfl
    · exact ih ..
    · exact ih ..

/-- `cl_fmap_get` finds the item with the key, or the end. -/
theorem FMap.Holds.get (holds : map.Holds tree) (lawful : LawfulCompare map.compare) (key : κ) :
    (∃ item ∈ tree.items, map.compare key (map.key (.item item)) = 0 ∧
        fmapGet map key = some (.item item)) ∨
      (∀ item ∈ tree.items, map.compare key (map.key (.item item)) ≠ 0) ∧
        fmapGet map key = some fmapEnd := by
  have bound : tree.items.length < map.count + 1 := by
    rw [holds.count]
    exact Nat.lt_succ_self _
  have run := fmapSeek_eq map key (map.count + 1) Path.top.ref 0 tree.ref
  rw [← FMap.lastCompare, fmapPlace_eq holds.represents bound, ← holds.represents.root] at run
  rcases tree.descend_cases (holds.sorted.steers lawful key) with
    ⟨item, inside, stop, place, color, left, right, ended⟩ | ⟨place, ended, rfl, before, after⟩
  · refine .inl ⟨item, inside, FMap.probe_none.mp stop, ?_⟩
    rw [fmapGet, run, ended]
    rfl
  · refine .inr ⟨fun item inside same => ?_, by rw [fmapGet, run, ended]; rfl⟩
    have stop := FMap.probe_none.mpr same
    rw [Path.items_plug_leaf, mem_append] at inside
    rcases inside with early | late
    · simp [before item early] at stop
    · simp [after item late] at stop

/-! ### Insertion -/

/-- The fields `cl_fmap_insert` sets at once. -/
def FMap.prepare (map : FMap κ α) (key : κ) (item : Ref α) : FMap κ α :=
  { map with
    links := initItem map.links item
    key := fun ref => if ref = item then key else map.key ref }

/-- Preparing an item that is not in the map does not touch the map. -/
theorem FMap.Holds.prepare (holds : map.Holds tree) (key : κ) (fresh : item ∉ tree.items) :
    (map.prepare key (.item item)).Holds tree := by
  have distinct : ∀ value ∈ tree.items, value ≠ item := fun value inside same =>
    fresh (same ▸ inside)
  refine ⟨holds.represents.congr (fun value inside => ?_) ?_ ?_, holds.black, holds.balanced,
    holds.ring, ?_, holds.count⟩
  · simp [FMap.prepare, initItem, distinct value inside]
  · simp [FMap.prepare, initItem]
  · simp [FMap.prepare, initItem]
  · refine holds.sorted.imp_of_mem fun {first second} one two less => ?_
    simpa [FMap.prepare, distinct first one, distinct second two] using less

omit [DecidableEq α] in
/-- The nodes of a map's list. -/
theorem FMap.Holds.ring_nodup (holds : map.Holds tree) : (Ref.nil :: tree.items.map Ref.item).Nodup := by
  refine nodup_cons.mpr ⟨by simp, holds.represents.nodup.map fun first second same => ?_⟩
  cases same
  rfl

/-- The side and the list position `cl_fmap_insert` derives from the place it found. -/
theorem fmapPlace_of_toward
    (ring : map.ring.Segment .nil ((path.before ++ path.after).map .item) .nil)
    (toward : path.Toward (map.probe key)) :
    (if path.ref = .root then (Side.left, Ref.nil)
      else if map.lastCompare key path < 0 then (Side.left, path.ref)
      else (Side.right, map.ring.next path.ref)) =
      (path.side, Memory.Ring.following (path.after.map .item) .nil) := by
  match path with
  | .top => rfl
  | .step .left color value sibling path =>
    have below := FMap.probe_left.mp toward
    simp [Path.ref, FMap.lastCompare, below, Path.side, Path.after, Memory.Ring.following]
  | .step .right color value sibling path =>
    have above : ¬ map.compare key (map.key (.item value)) < 0 := by
      have right := FMap.probe_right.mp toward
      omega
    rw [map_append] at ring
    have meet := ring.next_last
    simp only [Path.before, map_append, map_cons, map_nil, ← cons_append, getLast_append_singleton] at meet
    simp [Path.ref, FMap.lastCompare, above, Path.side, meet]

/-- Linking a prepared item into its place. -/
theorem fmapLinkItem_holds (holds : map.Holds (path.plug .leaf))
    (fresh : item ∉ (path.plug .leaf).items)
    (toward : path.Toward ((map.prepare key (.item item)).probe key))
    (before : ∀ other ∈ path.before, map.compare ((map.prepare key (.item item)).key (.item other)) key < 0)
    (after : ∀ other ∈ path.after, map.compare key ((map.prepare key (.item item)).key (.item other)) < 0) :
    ∃ linked tree, fmapLinkItem (map.prepare key (.item item)) (.item item) path.ref
        ((map.prepare key (.item item)).lastCompare key path) = some linked ∧
      linked.Holds tree ∧ tree.items = path.before ++ item :: path.after ∧
      linked.key = (map.prepare key (.item item)).key ∧ linked.compare = map.compare := by
  have prepared := holds.prepare key fresh
  have order : (path.plug .leaf).items = path.before ++ path.after := path.items_plug_leaf
  obtain ⟨changed, tree, run, held, black, balanced, items⟩ :=
    insertItem_represents holds.represents holds.black holds.balanced fresh
  rw [← holds.count] at run
  have ring := prepared.ring
  rw [order] at ring
  refine ⟨{ map.prepare key (.item item) with
      links := changed
      ring := map.ring.insertBefore (Memory.Ring.following (path.after.map .item) .nil) (.item item)
      count := map.count + 1 }, tree, ?_, ⟨held, black, balanced, ?_, ?_, ?_⟩, items, rfl, rfl⟩
  · simp only [fmapLinkItem, fmapPlace_of_toward ring toward]
    rw [show (map.prepare key (.item item)).links = initItem map.links (.item item) from rfl,
      show (map.prepare key (.item item)).count = map.count from rfl, run]
    rfl
  · rw [items, map_append, map_cons]
    rw [map_append] at ring
    have nodes := holds.ring_nodup
    rw [order, map_append] at nodes
    rw [order] at fresh
    refine ring.insertBefore nodes (by simp) ?_ (by simp)
    simpa using fresh
  · rw [items]
    have own : (map.prepare key (.item item)).key (.item item) = key := by simp [FMap.prepare]
    refine pairwise_insert (order ▸ prepared.sorted) ?_ ?_
    · rw [own]
      exact before
    · rw [own]
      exact after
  · simp [items, holds.count, order]
    omega

/-- `cl_fmap_insert` of an item that is not in the map: an item with the key is returned
and only the new item's own fields change, or the new item comes between the items with
smaller and those with greater keys. -/
theorem FMap.Holds.insert (holds : map.Holds tree) (lawful : LawfulCompare map.compare) (key : κ)
    (fresh : item ∉ tree.items) :
    (∃ existing ∈ tree.items, map.compare key (map.key (.item existing)) = 0 ∧
        fmapInsert map key (.item item) = some (map.prepare key (.item item), .item existing)) ∨
      (∀ other ∈ tree.items, map.compare key (map.key (.item other)) ≠ 0) ∧
        ∃ linked grown before after, fmapInsert map key (.item item) = some (linked, .item item) ∧
          linked.Holds grown ∧ tree.items = before ++ after ∧
          grown.items = before ++ item :: after ∧
          linked.key = (map.prepare key (.item item)).key ∧ linked.compare = map.compare := by
  have prepared := holds.prepare key fresh
  have same : ∀ other ∈ tree.items,
      (map.prepare key (.item item)).key (.item other) = map.key (.item other) := by
    rintro other inside
    have distinct : other ≠ item := by
      rintro rfl
      exact fresh inside
    simp [FMap.prepare, distinct]
  have bound : tree.items.length < (map.prepare key (.item item)).count + 1 := by
    rw [prepared.count]
    exact Nat.lt_succ_self _
  have search := @fmapPlace_eq _ _ (map.prepare key (.item item)) key tree .top _ _
    prepared.represents bound
  change fmapPlace (map.prepare key (.item item)) key ((map.prepare key (.item item)).count + 1)
    .root 0 tree.ref = _ at search
  rw [← prepared.represents.root] at search
  have order := prepared.sorted.steers (show LawfulCompare _ from lawful) key
  rcases tree.descend_cases order with
    ⟨existing, inside, stop, place, color, left, right, ended⟩ | ⟨place, ended, rfl, before, after⟩
  · have equal := FMap.probe_none.mp stop
    rw [same existing inside] at equal
    refine .inl ⟨existing, inside, equal, ?_⟩
    rw [ended] at search
    unfold fmapInsert
    dsimp only
    erw [search]
    rfl
  · have order : (place.plug .leaf).items = place.before ++ place.after := place.items_plug_leaf
    have early := fun other listed => FMap.probe_right.mp (before other listed)
    have late := fun other listed => FMap.probe_left.mp (after other listed)
    have toward := (place.plug .leaf).descend_toward
      (show Path.top.Toward ((map.prepare key (.item item)).probe key) from trivial)
    rw [ended] at toward
    obtain ⟨linked, grown, run, held, items, keys⟩ := fmapLinkItem_holds holds fresh toward
      (fun other listed => lawful.neg_iff.mpr (early other listed)) late
    refine .inr ⟨fun other inside => ?_, linked, grown, _, _, ?_, held, order, items, keys⟩
    · have listed := inside
      rw [order, mem_append] at listed
      rw [← same other inside]
      rcases listed with first | second
      · exact (Int.ne_of_lt (early other first)).symm
      · exact Int.ne_of_lt (late other second)
    · rw [ended] at search
      unfold fmapInsert
      dsimp only
      erw [search]
      exact congrArg (Option.map (·, Ref.item item)) run

/-! ### Removal -/

/-- The part of `cl_fmap_remove_item` that concerns the tree. -/
def fmapUnlink (map : FMap κ α) (item : Ref α) : Option (Links α) :=
  let delItem :=
    if map.links.child .right item = .nil ∨ map.links.child .left item = .nil then item
    else fmapNext map item
  let child :=
    if map.links.child .left delItem ≠ .nil then map.links.child .left delItem
    else map.links.child .right delItem
  unlinkItem (map.count - 1 + 1) map.links item delItem child

/-- The node `cl_fmap_remove_item` takes out of the tree is the item or, if that has two
subtrees, the next one on the list, which is the first of the right subtree. -/
theorem fmapUnlink_represents {color : Color} {left right : RbTree α} {value : α}
    (holds : map.Holds (path.plug (.node color left value right)))
    (removed : removeAt path color left value right = some tree) :
    ∃ changed, fmapUnlink map (.item value) = some changed ∧ Represents changed tree := by
  obtain ⟨_, _, onLeft, onRight, _, _⟩ := holds.represents.inside
  refine unlinkItem_represents holds.represents removed (by rw [← holds.count]; omega) ?_ ?_ ?_
  · rintro rfl
    simp [onLeft, onRight]
  · rintro full rfl
    have leftRef : left.ref ≠ .nil := fun empty => full (ref_eq_nil.mp empty)
    simp [onLeft, onRight, leftRef]
  · rintro shade inner first outer place hue next rest full rfl _ found order
    have leftRef : left.ref ≠ .nil := fun empty => full (ref_eq_nil.mp empty)
    obtain ⟨_, _, nextLeft, nextRight, _, _⟩ := found.inside
    have follows : fmapNext map (.item value) = .item next := by
      have ring := holds.ring
      rw [order, map_append, map_cons, Memory.Ring.segment_append] at ring
      exact ring.2.1
    simp [onLeft, onRight, leftRef, follows, nextLeft, nextRight]

/-- `cl_fmap_remove_item` of an item in the map. -/
theorem FMap.Holds.removeItem (holds : map.Holds tree) (inside : item ∈ tree.items) :
    ∃ shorter rest, fmapRemoveItem map (.item item) = some shorter ∧ shorter.Holds rest ∧
      rest.items = tree.items.erase item ∧ shorter.key = map.key ∧
      shorter.compare = map.compare := by
  obtain ⟨path, color, left, right, rfl⟩ := exists_plug_of_mem inside
  obtain ⟨rest, before, after, removed, black, balanced, order, rest_items⟩ :=
    removeAt_split holds.represents.nodup holds.balanced holds.black
  obtain ⟨changed, run, held⟩ := fmapUnlink_represents holds removed
  refine ⟨{ map with links := changed, ring := map.ring.remove (.item item), count := map.count - 1 },
    rest, ?_, ⟨held, black, balanced, ?_, ?_, ?_⟩, ?_, rfl, rfl⟩
  · have unfolded : fmapRemoveItem map (.item item) = (fmapUnlink map (.item item)).map fun links =>
        { map with links, ring := map.ring.remove (.item item), count := map.count - 1 } := rfl
    rw [unfolded, run]
    rfl
  · have ring := holds.ring
    have nodes := holds.ring_nodup
    rw [order, map_append, map_cons] at ring nodes
    rw [rest_items, map_append]
    exact ring.remove nodes (by simp)
  · have sorted := holds.sorted
    rw [order] at sorted
    rw [rest_items]
    exact List.Pairwise.sublist ((sublist_cons_self _ _).append_left _) sorted
  · simp only [holds.count, order, rest_items, length_append, length_cons]
    omega
  · rw [rest_items, erase_middle holds.represents.nodup order]

end WinOFED.Complib
