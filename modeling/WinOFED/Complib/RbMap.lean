import WinOFED.Complib.MapEdit
import WinOFED.RedBlack.Search

/-! The red-black map, `cl_rbmap_t`, of which the users do the searching themselves. -/
namespace WinOFED.Complib
open RedBlack List

/-- A map together with the memory of all items, in the map or not. -/
structure RbMap (α : Type*) where
  links : Links α
  count : Nat

variable {α : Type*} [DecidableEq α]

/-- `cl_rbmap_init`, whatever was in the memory before. -/
def rbmapInit (map : RbMap α) : RbMap α :=
  let links := (map.links.setChild .left .root .nil).setChild .right .root .nil
  let links := (links.setUp .root .root).setColor .root .black
  let links := (links.setChild .left .nil .nil).setChild .right .nil .nil
  { links := (links.setUp .nil .nil).setColor .nil .black, count := 0 }

/-- `cl_rbmap_root`. -/
def rbmapRoot (map : RbMap α) : Ref α := map.links.child .left .root

/-- `cl_rbmap_end`. -/
def rbmapEnd : Ref α := .nil

/-- Where a search has come to: the last item it passed, on which side of it (left if the
flag is set), and the item it stopped at. -/
structure RbPlace (α : Type*) where
  insertAt : Ref α
  left : Bool
  item : Ref α
deriving DecidableEq, Repr

/-- The search loop of the map's users: from each item go to the side given by `probe`,
`cl_rbmap_left` or `cl_rbmap_right`, until it gives none or the end is reached. -/
def rbmapDescend (map : RbMap α) (probe : α → Option Side) : Nat → RbPlace α → Option (RbPlace α)
  | 0, _ => none
  | rounds + 1, place =>
      match place.item with
      | .root => none
      | .nil => some place
      | .item value =>
          match probe value with
          | none => some { place with insertAt := .item value }
          | some side =>
              rbmapDescend map probe rounds
                { insertAt := .item value, left := side = .left
                  item := map.links.child side (.item value) }

/-- A search from the root. Each round goes one node down, so the number of items bounds
them. -/
def rbmapSearch (map : RbMap α) (probe : α → Option Side) : Option (RbPlace α) :=
  rbmapDescend map probe (map.count + 1)
    { insertAt := rbmapRoot map, left := true, item := rbmapRoot map }

/-- `cl_rbmap_insert`. -/
def rbmapInsert (map : RbMap α) (insertAt item : Ref α) (left : Bool) : Option (RbMap α) := do
  let links := initItem map.links item
  let links :=
    if insertAt = rbmapEnd then hangItem links .left .root item
    else hangItem links (if left then .left else .right) insertAt item
  let links ← balanceItem (map.count + 1) links item
  some { links, count := map.count + 1 }

/-- The loop of `cl_rbmap_remove_item` for the first item of a subtree. -/
def rbmapFirst (map : RbMap α) : Nat → Ref α → Option (Ref α)
  | 0, _ => none
  | rounds + 1, item =>
      if map.links.child .left item ≠ .nil then rbmapFirst map rounds (map.links.child .left item)
      else some item

/-- The node `cl_rbmap_remove_item` takes out of the tree and the one that gets its place. -/
def rbmapSubstitute (map : RbMap α) (item : Ref α) : Option (Ref α × Ref α) :=
  if map.links.child .right item = .nil then some (item, map.links.child .left item)
  else if map.links.child .left item = .nil then some (item, map.links.child .right item)
  else do
    let delItem ← rbmapFirst map map.count (map.links.child .right item)
    some (delItem, map.links.child .right delItem)

/-- `cl_rbmap_remove_item`. -/
def rbmapRemoveItem (map : RbMap α) (item : Ref α) : Option (RbMap α) :=
  if item = rbmapEnd then some map
  else do
    let (delItem, child) ← rbmapSubstitute map item
    let links ← unlinkItem map.count map.links item delItem child
    some { links, count := map.count - 1 }

/-- The items below a reference in order, down to a depth. -/
def rbmapWalk (map : RbMap α) : Nat → Ref α → List α
  | depth + 1, .item value =>
      rbmapWalk map depth (map.links.child .left (.item value)) ++
        value :: rbmapWalk map depth (map.links.child .right (.item value))
  | _, _ => []

/-- The items that are linked in a map, in order. -/
def rbmapItems (map : RbMap α) : List α := rbmapWalk map map.count (rbmapRoot map)

/-! ### The map as a tree -/

/-- The memory of a map holds the tree. -/
structure RbMap.Holds (map : RbMap α) (tree : RbTree α) : Prop where
  represents : Represents map.links tree
  black : tree.color = .black
  balanced : ∃ height, tree.Balanced height
  count : map.count = tree.items.length

/-- `cl_rbmap_init` makes an empty map of any memory. -/
theorem rbmapInit_holds (memory : RbMap α) : (rbmapInit memory).Holds .leaf := by
  refine ⟨⟨trivial, ?_, nodup_nil, ?_, ?_⟩, rfl, ⟨0, rfl⟩, rfl⟩
  all_goals simp [rbmapInit]

/-- A search that has come to the subtree at the end of the path. -/
def RbPlace.at (path : Path α) (tree : RbTree α) : RbPlace α :=
  { insertAt := match path with
      | .top => tree.ref
      | .step _ _ value _ _ => .item value
    left := path.side = .left
    item := tree.ref }

omit [DecidableEq α] in
/-- The loop goes down the tree; at a node where it stops it has passed that node. -/
theorem rbmapDescend_eq {map : RbMap α} {probe : α → Option Side} {path : Path α} {tree : RbTree α}
    {rounds : Nat} (represents : Represents map.links (path.plug tree))
    (enough : tree.items.length < rounds) :
    rbmapDescend map probe rounds (.at path tree) =
      some (match tree.descend probe path with
        | (place, .leaf) => .at place .leaf
        | (place, .node _ _ value _) =>
            { insertAt := .item value, left := place.side = .left, item := .item value }) := by
  induction rounds generalizing path tree with
  | zero => cases enough
  | succ rounds ih =>
    cases tree with
    | leaf => simp [rbmapDescend, RbTree.descend, RbPlace.at]
    | node color left value right =>
      obtain ⟨_, _, onLeft, onRight, _, _⟩ := represents.inside
      simp only [RbTree.items, length_append, length_cons] at enough
      have less : left.items.length < rounds := by omega
      have more : right.items.length < rounds := by omega
      simp only [rbmapDescend, RbPlace.at, RbTree.ref_node, RbTree.descend]
      rcases probe value with _ | _ | _
      · rfl
      · simp only [onLeft]
        exact @ih (.step .left color value right path) _ represents less
      · simp only [onRight]
        exact @ih (.step .right color value left path) _ represents more

variable {map : RbMap α} {tree : RbTree α} {item : α} {member : α → Prop}

section

omit [DecidableEq α]

/-- A search ends at a node of the tree or at an empty place. -/
theorem RbMap.Holds.search (holds : map.Holds tree) (probe : α → Option Side) :
    rbmapSearch map probe =
      some (match tree.descend probe .top with
        | (place, .leaf) => .at place .leaf
        | (place, .node _ _ value _) =>
            { insertAt := .item value, left := place.side = .left, item := .item value }) := by
  have bound : tree.items.length < map.count + 1 := by
    rw [holds.count]
    exact Nat.lt_succ_self _
  rw [← @rbmapDescend_eq _ map probe .top tree _ holds.represents bound]
  simp [rbmapSearch, rbmapRoot, holds.represents.root, RbPlace.at, Path.side]

theorem rbmapWalk_eq {path : Path α} {tree : RbTree α} {depth : Nat}
    (represents : Represents map.links (path.plug tree)) (enough : tree.items.length ≤ depth) :
    rbmapWalk map depth tree.ref = tree.items := by
  induction tree generalizing path depth with
  | leaf => cases depth <;> rfl
  | node color left value right ihLeft ihRight =>
    obtain ⟨_, _, onLeft, onRight, _, _⟩ := represents.inside
    simp only [RbTree.items, length_append, length_cons] at enough
    cases depth with
    | zero => omega
    | succ depth =>
      have onTheLeft := @ihLeft (.step .left color value right path) depth represents (by omega)
      have onTheRight := @ihRight (.step .right color value left path) depth represents (by omega)
      simp only [RbTree.ref_node, rbmapWalk, onLeft, onRight, onTheLeft, onTheRight, RbTree.items]

/-- The items of a map are those of its tree. -/
theorem RbMap.Holds.items (holds : map.Holds tree) : rbmapItems map = tree.items := by
  rw [rbmapItems, rbmapRoot, holds.represents.root]
  exact @rbmapWalk_eq _ map .top tree _ holds.represents (Nat.le_of_eq holds.count.symm)

end

/-- `cl_rbmap_insert` at an empty place a search has found. -/
theorem RbMap.Holds.insert {path : Path α} (holds : map.Holds (path.plug .leaf))
    (fresh : item ∉ (path.plug .leaf).items) :
    ∃ grown tree, rbmapInsert map (RbPlace.at path .leaf).insertAt (.item item)
        (RbPlace.at path .leaf).left = some grown ∧
      grown.Holds tree ∧ tree.items = path.before ++ item :: path.after := by
  obtain ⟨changed, tree, run, held, black, balanced, items⟩ :=
    insertItem_represents holds.represents holds.black holds.balanced fresh
  rw [← holds.count] at run
  refine ⟨{ links := changed, count := map.count + 1 }, tree, ?_, ⟨held, black, balanced, ?_⟩, items⟩
  · have place : ∀ links : Links α,
        (if (RbPlace.at path .leaf).insertAt = rbmapEnd then hangItem links .left .root (.item item)
          else hangItem links (if (RbPlace.at path .leaf).left then .left else .right)
            (RbPlace.at path .leaf).insertAt (.item item)) =
          hangItem links path.side path.ref (.item item) := by
      intro links
      match path with
      | .top => rfl
      | .step .left _ _ _ _ => rfl
      | .step .right _ _ _ _ => rfl
    simp only [rbmapInsert, place, run, Option.bind_eq_bind, Option.bind_some]
  · simp only [holds.count, items, Path.items_plug_leaf, length_append, length_cons]
    omega

/-- The first item of a subtree is found by going left. -/
theorem rbmapFirst_eq {path place : Path α} {color shade : Color}
    {left right child : RbTree α} {value first : α} {rounds : Nat}
    (represents : Represents map.links (path.plug (.node color left value right)))
    (enough : left.items.length < rounds)
    (found : firstPlace color left value right path = (place, shade, first, child)) :
    rbmapFirst map rounds (.item value) = some (.item first) := by
  induction rounds generalizing path color left value right with
  | zero => cases enough
  | succ rounds ih =>
    obtain ⟨_, _, onLeft, _⟩ := represents.inside
    cases left with
    | leaf =>
      cases found
      simp [rbmapFirst, onLeft]
    | node inner below other between =>
      simp only [RbTree.items, length_append, length_cons] at enough
      have less : below.items.length < rounds := by omega
      simp only [rbmapFirst, onLeft, RbTree.ref_node, ne_eq, reduceCtorEq, not_false_eq_true, if_true]
      exact @ih (.step .left color value right path) inner below between other represents less found

/-- `cl_rbmap_remove_item` of an item in the map. -/
theorem RbMap.Holds.removeItem (holds : map.Holds tree) (inside : item ∈ tree.items) :
    ∃ shorter rest, rbmapRemoveItem map (.item item) = some shorter ∧ shorter.Holds rest ∧
      rest.items = tree.items.erase item := by
  obtain ⟨path, color, left, right, rfl⟩ := RbTree.exists_plug_of_mem inside
  obtain ⟨_, _, onLeft, onRight, _, _⟩ := holds.represents.inside
  obtain ⟨rest, before, after, removed, black, balanced, order, rest_items⟩ :=
    removeAt_split holds.represents.nodup holds.balanced holds.black
  suffices ∃ delItem child changed, rbmapSubstitute map (.item item) = some (delItem, child) ∧
      unlinkItem map.count map.links (.item item) delItem child = some changed ∧
      Represents changed rest by
    obtain ⟨delItem, child, changed, substitute, run, held⟩ := this
    refine ⟨{ links := changed, count := map.count - 1 }, rest, ?_, ⟨held, black, balanced, ?_⟩, ?_⟩
    · simp [rbmapRemoveItem, rbmapEnd, substitute, run]
    · simp only [holds.count, order, rest_items, length_append, length_cons]
      omega
    · rw [rest_items, erase_middle holds.represents.nodup order]
  have unlink := fun delItem child => @unlinkItem_represents _ _ map.links path item rest left right
    map.count color delItem child holds.represents removed (Nat.le_of_eq holds.count.symm)
  have nonempty : ∀ {subtree : RbTree α}, subtree ≠ .leaf → subtree.ref ≠ .nil :=
    fun full empty => full (RbTree.ref_eq_nil.mp empty)
  by_cases noRight : right = .leaf
  · subst noRight
    obtain ⟨changed, run, held⟩ := unlink (.item item) left.ref (by rintro rfl; simp) (by simp) (by
      rintro _ _ _ _ _ _ _ _ _ ⟨⟩)
    exact ⟨_, _, changed, by simp [rbmapSubstitute, onRight, onLeft], run, held⟩
  by_cases noLeft : left = .leaf
  · subst noLeft
    obtain ⟨changed, run, held⟩ := unlink (.item item) right.ref (by simp) (by simp) (by simp)
    exact ⟨_, _, changed, by simp [rbmapSubstitute, onRight, onLeft, nonempty noRight], run, held⟩
  match right with
  | .leaf => exact absurd rfl noRight
  | .node shade inner first outer =>
    rcases found : firstPlace shade inner first outer (.step .right color item left path) with
      ⟨place, hue, next, child⟩
    have bound : inner.items.length < map.count := by
      rw [holds.count, Path.items_plug]
      simp only [RbTree.items, length_append, length_cons]
      omega
    have least := @rbmapFirst_eq _ _ map (.step .right color item left path) _ _ _ _ _ _ _ _ _
      holds.represents bound found
    have same := plug_firstPlace shade inner first outer (.step .right color item left path)
    rw [found] at same
    have represents : Represents map.links (place.plug (.node hue .leaf next child)) := by
      rw [same]
      exact holds.represents
    obtain ⟨_, _, _, nextRight, _, _⟩ := represents.inside
    obtain ⟨changed, run, held⟩ := unlink (.item next) child.ref (fun empty => absurd empty noLeft)
      (by simp) (by
        rintro _ _ _ _ _ _ _ _ _ ⟨⟩ equal _ _
        rw [found] at equal
        cases equal
        exact ⟨rfl, rfl⟩)
    refine ⟨_, _, changed, ?_, run, held⟩
    simp [rbmapSubstitute, onRight, onLeft, nonempty noLeft, least, nextRight]

/-! ### The map as a set -/

/-- The map is in order and its items are those with the property. -/
def RbMap.Contains (map : RbMap α) (member : α → Prop) : Prop :=
  ∃ tree, map.Holds tree ∧ ∀ item, item ∈ tree.items ↔ member item

omit [DecidableEq α] in
theorem RbMap.Contains.congr {other : α → Prop} (contains : map.Contains member)
    (same : ∀ item, member item ↔ other item) : map.Contains other := by
  obtain ⟨tree, holds, listed⟩ := contains
  exact ⟨tree, holds, fun item => (listed item).trans (same item)⟩

omit [DecidableEq α] in
theorem RbMap.Contains.mem_items (contains : map.Contains member) (item : α) :
    item ∈ rbmapItems map ↔ member item := by
  obtain ⟨tree, holds, listed⟩ := contains
  rw [holds.items, listed]

theorem rbmapInit_contains (memory : RbMap α) : (rbmapInit memory).Contains fun _ => False :=
  ⟨.leaf, rbmapInit_holds memory, fun _ => by simp⟩

/-- A search ends at an item of the map where the probe gives no side, or at a place where
another item can be inserted. -/
theorem RbMap.Contains.search (contains : map.Contains member) (probe : α → Option Side) :
    ∃ place, rbmapSearch map probe = some place ∧
      ((∃ item, place.item = .item item ∧ member item ∧ probe item = none) ∨
        place.item = rbmapEnd ∧ ∀ item, ¬ member item →
          ∃ grown, rbmapInsert map place.insertAt (.item item) place.left = some grown ∧
            grown.Contains fun other => other = item ∨ member other) := by
  obtain ⟨tree, holds, listed⟩ := contains
  have search := holds.search probe
  have whole := @RbTree.plug_descend _ probe tree .top
  rcases ended : tree.descend probe .top with ⟨place, _ | ⟨color, left, found, right⟩⟩
  · rw [ended] at search whole
    obtain rfl : place.plug .leaf = tree := whole
    refine ⟨_, search, .inr ⟨rfl, fun item outside => ?_⟩⟩
    obtain ⟨grown, tree, run, held, items⟩ := holds.insert (mt (listed item).mp outside)
    refine ⟨grown, run, tree, held, fun other => ?_⟩
    rw [items, perm_middle.mem_iff, mem_cons, ← Path.items_plug_leaf, listed]
  · obtain ⟨inside, said⟩ := RbTree.probe_of_descend ended
    rw [ended] at search
    exact ⟨_, search, .inl ⟨found, rfl, (listed found).mp inside, said⟩⟩

/-- `cl_rbmap_remove_item` of an item in the map. -/
theorem RbMap.Contains.remove (contains : map.Contains member) (inside : member item) :
    ∃ shorter, rbmapRemoveItem map (.item item) = some shorter ∧
      shorter.Contains fun other => other ≠ item ∧ member other := by
  obtain ⟨tree, holds, listed⟩ := contains
  obtain ⟨shorter, rest, run, held, items⟩ := holds.removeItem ((listed item).mpr inside)
  refine ⟨shorter, run, rest, held, fun other => ?_⟩
  rw [items, holds.represents.nodup.mem_erase_iff, listed]

end WinOFED.Complib
