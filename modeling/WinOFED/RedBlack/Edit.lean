import WinOFED.RedBlack.Balance

/-! Insertion and removal at a place of a red-black tree. -/
namespace WinOFED.RedBlack
open RbTree RedBlack.Path List
variable {α : Type*}

/-- Put a new value into the empty place at the end of the path. -/
def insertAt (path : Path α) (value : α) : Option (RbTree α) :=
  (repairInsert path (node .red leaf value leaf)).map (recolor .black)

/-- Let a node of the given color with one subtree give way to that subtree. -/
def spliceAt (path : Path α) (color : Color) (child : RbTree α) : Option (RbTree α) :=
  match color with
  | .red => some (path.plug child)
  | .black => repairDelete path child

/-- The first place of a nonempty tree, given by its root, and what is there: the color,
value and right subtree of the first node. -/
def firstPlace : Color → RbTree α → α → RbTree α → Path α → Path α × Color × α × RbTree α
  | shade, leaf, value, right, path => (path, shade, value, right)
  | shade, node inner left first child, value, right, path =>
      firstPlace inner left first child (.step .left shade value right path)

/-- Remove the node at the end of the path. One with two subtrees is replaced by the
value that follows it, whose own node is removed instead. -/
def removeAt [DecidableEq α] (path : Path α) (color : Color) (left : RbTree α) (value : α)
    (right : RbTree α) : Option (RbTree α) :=
  match left, right with
  | leaf, right => spliceAt path color right
  | left, leaf => spliceAt path color left
  | node _ _ _ _, node shade inner first outer =>
      let place := firstPlace shade inner first outer (.step .right color value left path)
      (spliceAt place.1 place.2.1 place.2.2.2).map
        (RbTree.map fun item => if item = value then place.2.2.1 else item)

/-! ### Insertion -/

variable {height : Nat} {path : Path α} {tree left right : RbTree α} {value : α} {color : Color}

theorem insertAt_balanced (value : α) (balanced : (path.plug leaf).Balanced height)
    (black : (path.plug leaf).color = .black) :
    ∃ tree height, insertAt path value = some tree ∧ tree.Balanced height ∧ tree.color = .black := by
  obtain ⟨place, above, empty, _, _⟩ := balanced_of_plug balanced black
  obtain rfl : place = 0 := empty
  obtain ⟨repaired, height, repair, fits⟩ :=
    repairInsert_balanced path above (show (node .red leaf value leaf).Balanced 0 by
      simp [RbTree.Balanced]) rfl
  have blackened : (repaired.recolor .black).color = .black := by cases repaired <;> rfl
  cases shade : repaired.color with
  | red => exact ⟨_, _, by rw [insertAt, repair]; rfl, fits.blacken shade, blackened⟩
  | black =>
    refine ⟨_, height, by rw [insertAt, repair]; rfl, ?_, blackened⟩
    rwa [← shade, recolor_self]

theorem items_insertAt (inserted : insertAt path value = some tree) :
    tree.items = path.before ++ value :: path.after := by
  obtain ⟨repaired, repair, rfl⟩ := Option.map_eq_some_iff.mp inserted
  rw [items_recolor, items_repairInsert path repair, items_plug]
  simp [items]

/-! ### Removal -/

theorem spliceAt_balanced {child : RbTree α} (balanced : path.Balanced (color.height height))
    (fits : child.Balanced height)
    (alternate : color = .red → path.color = .black ∧ child.color = .black ∧ path ≠ top) :
    ∃ tree height, spliceAt path color child = some tree ∧ tree.Balanced height ∧ tree.color = .black := by
  cases color with
  | red =>
    obtain ⟨_, black, inner⟩ := alternate rfl
    obtain ⟨whole, done⟩ := balanced.plug fits fun _ => black
    exact ⟨_, whole, rfl, done, balanced.color_plug inner _⟩
  | black => exact repairDelete_balanced balanced fits.short

theorem items_spliceAt {child : RbTree α} (spliced : spliceAt path color child = some tree) :
    tree.items = (path.plug child).items := by
  cases color with
  | red =>
    cases spliced
    rfl
  | black => exact items_repairDelete spliced

/-- The first place of a tree is one of its places. -/
theorem plug_firstPlace (color : Color) (left : RbTree α) (value : α) (right : RbTree α)
    (path : Path α) :
    (firstPlace color left value right path).1.plug
        (node (firstPlace color left value right path).2.1 leaf
          (firstPlace color left value right path).2.2.1
          (firstPlace color left value right path).2.2.2) =
      path.plug (node color left value right) := by
  induction left generalizing color value right path with
  | leaf => rfl
  | node shade left first inner ih _ => exact ih shade first inner (.step .left color value right path)

/-- Nothing of the tree is before its first place. -/
theorem before_firstPlace (color : Color) (left : RbTree α) (value : α) (right : RbTree α)
    (path : Path α) : (firstPlace color left value right path).1.before = path.before := by
  induction left generalizing color value right path with
  | leaf => rfl
  | node shade left first inner ih _ => exact ih shade first inner (.step .left color value right path)

/-- A node of a balanced tree with a black root can be spliced out. -/
theorem spliceAt_of_plug {child : RbTree α} {side : Side}
    (balanced : (path.plug (join side color child value leaf)).Balanced height)
    (black : (path.plug (join side color child value leaf)).color = .black) :
    ∃ tree height, spliceAt path color child = some tree ∧ tree.Balanced height ∧ tree.color = .black := by
  obtain ⟨place, above, node, alternate, last⟩ := balanced_of_plug balanced black
  simp only [color_join] at alternate last
  cases color with
  | red =>
    obtain ⟨fits, _, childBlack, _⟩ := balanced_join_red.mp node
    refine spliceAt_balanced above fits fun _ => ⟨?_, childBlack, fun empty => ?_⟩
    · exact Color.ne_red.mp fun shade => absurd (alternate shade) (by decide)
    · exact absurd (last empty) (by decide)
  | black =>
    cases place with
    | zero => exact absurd node not_balanced_join_zero
    | succ place =>
      exact spliceAt_balanced above (balanced_join_black.mp node).1 fun red => absurd red (by decide)

theorem RbTree.color_map {β : Type*} (f : α → β) (tree : RbTree α) : (tree.map f).color = tree.color := by
  cases tree <;> rfl

theorem removeAt_right [DecidableEq α] (path : Path α) (color : Color) (value : α)
    (right : RbTree α) : removeAt path color leaf value right = spliceAt path color right := by
  cases right <;> rfl

theorem removeAt_left [DecidableEq α] (path : Path α) (color : Color) (left : RbTree α) (value : α) :
    removeAt path color left value leaf = spliceAt path color left := by
  cases left <;> rfl

theorem removeAt_both [DecidableEq α] (path : Path α) (color : Color) (value : α) (shade : Color)
    (inner : RbTree α) (first : α) (outer : RbTree α) (full : left ≠ leaf) :
    ∃ place hue next child,
      firstPlace shade inner first outer (.step .right color value left path) = (place, hue, next, child) ∧
      removeAt path color left value (node shade inner first outer) =
        (spliceAt place hue child).map (RbTree.map fun item => if item = value then next else item) ∧
      place.plug (node hue leaf next child) =
        path.plug (node color left value (node shade inner first outer)) ∧
      place.before = path.before ++ left.items ++ [value] := by
  have same := plug_firstPlace shade inner first outer (.step .right color value left path)
  have early := before_firstPlace shade inner first outer (.step .right color value left path)
  refine ⟨_, _, _, _, rfl, ?_, same, early⟩
  cases left with
  | leaf => exact absurd rfl full
  | node => rfl

theorem removeAt_balanced [DecidableEq α]
    (balanced : (path.plug (node color left value right)).Balanced height)
    (black : (path.plug (node color left value right)).color = .black) :
    ∃ tree height, removeAt path color left value right = some tree ∧ tree.Balanced height ∧
      tree.color = .black := by
  cases left with
  | leaf =>
    rw [removeAt_right]
    exact @spliceAt_of_plug _ _ _ _ _ _ .right balanced black
  | node leftShade leftLeft leftValue leftRight =>
    cases right with
    | leaf =>
      rw [removeAt_left]
      exact @spliceAt_of_plug _ _ _ _ _ _ .left balanced black
    | node shade inner first outer =>
      obtain ⟨place, hue, next, child, _, removal, same, _⟩ := removeAt_both path color value shade inner
        first outer (show node leftShade leftLeft leftValue leftRight ≠ leaf by simp)
      rw [← same] at balanced black
      obtain ⟨tree, height, spliced, fits, root⟩ :=
        @spliceAt_of_plug _ _ place next hue child .right balanced black
      exact ⟨_, height, by rw [removal, spliced]; rfl, fits.map _, (color_map _ tree).trans root⟩

/-- Replacing a value that occurs once. -/
theorem map_replace_append [DecidableEq α] {first last : List α} {next : α}
    (unique : (first ++ value :: last).Nodup) :
    (first ++ value :: last).map (fun item => if item = value then next else item) =
      first ++ next :: last := by
  have outside : ∀ item ∈ first ++ last, item ≠ value := by
    rintro item inside rfl
    exact (nodup_cons.mp (nodup_middle.mp unique)).1 inside
  have kept : ∀ list ⊆ first ++ last,
      list.map (fun item => if item = value then next else item) = list := by
    intro list within
    refine (map_congr_left fun item inside => ?_).trans (map_id list)
    exact if_neg (outside item (within inside))
  rw [map_append, map_cons, kept first (subset_append_left _ _),
    kept last (subset_append_right _ _), if_pos rfl]

/-- A value that is listed once is taken out of its place. -/
theorem erase_middle [DecidableEq α] {items before after : List α} (unique : items.Nodup)
    (order : items = before ++ value :: after) : items.erase value = before ++ after := by
  subst order
  have outside := (nodup_cons.mp (nodup_middle.mp unique)).1
  rw [erase_append_right _ fun early => outside (mem_append_left _ early), erase_cons_head]

section
variable (unique : (path.plug (node color left value right)).items.Nodup)
include unique

theorem items_removeAt [DecidableEq α]
    (removed : removeAt path color left value right = some tree) :
    tree.items = path.before ++ (left.items ++ right.items) ++ path.after := by
  cases left with
  | leaf =>
    rw [removeAt_right] at removed
    rw [items_spliceAt removed, items_plug]
    rfl
  | node leftShade leftLeft leftValue leftRight =>
    have full : node leftShade leftLeft leftValue leftRight ≠ leaf := by simp
    generalize node leftShade leftLeft leftValue leftRight = left at *
    cases right with
    | leaf =>
      rw [removeAt_left] at removed
      rw [items_spliceAt removed, items_plug]
      simp
    | node shade inner first outer =>
      obtain ⟨place, hue, next, child, _, removal, same, early⟩ :=
        removeAt_both path color value shade inner first outer full
      rw [removal] at removed
      obtain ⟨spliced, splice, rfl⟩ := Option.map_eq_some_iff.mp removed
      have order := congrArg items same
      simp only [items_plug, early, items, append_assoc, append_cancel_left_eq,
        cons_append, nil_append] at order
      have shape : spliced.items =
          (path.before ++ left.items) ++ value :: (child.items ++ place.after) := by
        rw [items_spliceAt splice, items_plug, early]
        simp
      have once : ((path.before ++ left.items) ++ value :: (child.items ++ place.after)).Nodup := by
        have all : (path.plug (node color left value (node shade inner first outer))).items =
            (path.before ++ left.items) ++ value :: (next :: (child.items ++ place.after)) := by
          rw [order, items_plug]
          simp [items]
        rw [all] at unique
        exact unique.sublist (((sublist_cons_self _ _).cons_cons value).append_left _)
      rw [items_map, shape, map_replace_append once, (cons.inj order).2]
      simp [items]

/-- Replacing a value that occurs once changes the node that holds it. -/
theorem map_replace_plug [DecidableEq α]
    (next : α) :
    (path.plug (node color left value right)).map (fun item => if item = value then next else item) =
      path.plug (node color left next right) := by
  rw [items_plug, items, append_assoc, append_assoc, ← append_assoc,
    cons_append, nodup_middle, nodup_cons] at unique
  simp only [mem_append, not_or] at unique
  obtain ⟨⟨⟨before, onLeft⟩, onRight, after⟩, _⟩ := unique
  have kept : ∀ {list : List α}, value ∉ list → ∀ item ∈ list,
      (if item = value then next else item) = id item := by
    intro list fresh item listed
    refine if_neg ?_
    rintro rfl
    exact fresh listed
  rw [map_plug, Path.map_eq_self (kept before) (kept after), RbTree.map,
    RbTree.map_congr (kept onLeft), RbTree.map_congr (kept onRight), if_pos rfl, RbTree.map_id,
    RbTree.map_id]

/-- A removal keeps the shape and takes one value out of the list. -/
theorem removeAt_split [DecidableEq α]
    (balanced : ∃ height, (path.plug (node color left value right)).Balanced height)
    (black : (path.plug (node color left value right)).color = .black) :
    ∃ rest before after, removeAt path color left value right = some rest ∧
      rest.color = .black ∧ (∃ height, rest.Balanced height) ∧
      (path.plug (node color left value right)).items = before ++ value :: after ∧
      rest.items = before ++ after := by
  obtain ⟨height, balanced⟩ := balanced
  obtain ⟨rest, height, removed, fits, black⟩ := removeAt_balanced balanced black
  refine ⟨rest, path.before ++ left.items, right.items ++ path.after, removed, black,
    ⟨height, fits⟩, ?_, ?_⟩
  · rw [items_plug]
    simp [items]
  · rw [items_removeAt unique removed]
    simp

end
end WinOFED.RedBlack
