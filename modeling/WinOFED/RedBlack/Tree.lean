import Mathlib

/-! Red-black trees and the two ways of repairing them along a path to the root.

A place in a tree is a subtree together with its `Path`, the frames around it from
the inside out. Left and right are treated alike: `Tree.join side` builds a node from
the subtree on that side and the one across from it, and every repair step is stated
once for both sides. -/
namespace WinOFED.RedBlack
open List

inductive Color
  | red
  | black
deriving DecidableEq, Repr

inductive Side
  | left
  | right
deriving DecidableEq, Repr

@[simp] theorem Color.ne_red {color : Color} : color ≠ .red ↔ color = .black := by
  cases color <;> decide

/-- The side across. -/
def Side.other : Side → Side
  | left => right
  | right => left

@[simp] theorem Side.other_ne (side : Side) : side.other ≠ side := by
  cases side <;> decide

@[simp] theorem Side.ne_other (side : Side) : side ≠ side.other := by
  cases side <;> decide

theorem Side.eq_or_eq_other (first second : Side) : first = second ∨ first = second.other := by
  cases first <;> cases second <;> simp [Side.other]

/-- Binary trees with colored nodes. -/
inductive RbTree (α : Type*)
  | leaf
  | node (color : Color) (left : RbTree α) (value : α) (right : RbTree α)
deriving DecidableEq, Repr

namespace RbTree
variable {α β : Type*} {side : Side} {value : α}

/-- A node with the subtree `near` on the given side and `far` on the other. -/
def join : Side → Color → RbTree α → α → RbTree α → RbTree α
  | .left, color, near, value, far => node color near value far
  | .right, color, near, value, far => node color far value near

theorem join_other (side : Side) (color : Color) (near : RbTree α) (value : α) (far : RbTree α) :
    join side.other color near value far = join side color far value near := by
  cases side <;> rfl

theorem join_ne_leaf {color : Color} {near far : RbTree α} : join side color near value far ≠ leaf := by
  cases side <;> simp [join]

/-- Leaves count as black. -/
def color : RbTree α → Color
  | leaf => .black
  | node color _ _ _ => color

@[simp] theorem color_leaf : (leaf : RbTree α).color = .black := rfl

@[simp] theorem color_join (side : Side) (color : Color) (near : RbTree α) (value : α)
    (far : RbTree α) : (join side color near value far).color = color := by
  cases side <;> rfl

/-- The tree with a new color at its root. -/
def recolor (color : Color) : RbTree α → RbTree α
  | leaf => leaf
  | node _ left value right => node color left value right

@[simp] theorem recolor_join (side : Side) (color repainted : Color) (near : RbTree α) (value : α)
    (far : RbTree α) :
    (join side color near value far).recolor repainted = join side repainted near value far := by
  cases side <;> rfl

@[simp] theorem recolor_leaf (color : Color) : (leaf : RbTree α).recolor color = leaf := rfl

theorem recolor_self (tree : RbTree α) : tree.recolor tree.color = tree := by
  cases tree <;> rfl

/-- The values from left to right. -/
def items : RbTree α → List α
  | leaf => []
  | node _ left value right => left.items ++ value :: right.items

@[simp] theorem items_leaf : (leaf : RbTree α).items = [] := rfl

@[simp] theorem items_recolor (color : Color) (tree : RbTree α) :
    (tree.recolor color).items = tree.items := by
  cases tree <;> rfl

theorem perm_items_join (side : Side) (color : Color) (near : RbTree α) (value : α) (far : RbTree α) :
    (join side color near value far).items.Perm (value :: (near.items ++ far.items)) := by
  cases side with
  | left => exact perm_middle
  | right => exact perm_middle.trans (perm_append_comm.cons value)

theorem mem_items_join {color : Color} {near far : RbTree α} {item : α} :
    item ∈ (join side color near value far).items ↔
      item = value ∨ item ∈ near.items ∨ item ∈ far.items := by
  rw [(perm_items_join side color near value far).mem_iff, mem_cons, mem_append]

theorem nodup_items_join {color : Color} {near far : RbTree α} :
    (join side color near value far).items.Nodup ↔
      value ∉ near.items ++ far.items ∧ (near.items ++ far.items).Nodup := by
  rw [(perm_items_join side color near value far).nodup_iff, nodup_cons]

/-- Every tree is a leaf or a node seen from the given side. -/
theorem eq_leaf_or_join (side : Side) (tree : RbTree α) :
    tree = leaf ∨ ∃ color near value far, tree = join side color near value far := by
  cases tree with
  | leaf => exact .inl rfl
  | node color left value right =>
    cases side
    · exact .inr ⟨color, left, value, right, rfl⟩
    · exact .inr ⟨color, right, value, left, rfl⟩

theorem eq_join_of_red (side : Side) {tree : RbTree α} (red : tree.color = .red) :
    ∃ near value far, tree = join side .red near value far := by
  rcases tree.eq_leaf_or_join side with rfl | ⟨color, near, value, far, rfl⟩
  · cases red
  · rw [color_join] at red
    exact ⟨near, value, far, by rw [red]⟩

/-- A nonempty tree taken apart as seen from the given side. -/
def split (side : Side) : RbTree α → Option (Color × RbTree α × α × RbTree α)
  | leaf => none
  | node color left value right =>
      match side with
      | .left => some (color, left, value, right)
      | .right => some (color, right, value, left)

@[simp] theorem split_join (side : Side) (color : Color) (near : RbTree α) (value : α)
    (far : RbTree α) : (join side color near value far).split side = some (color, near, value, far) := by
  cases side <;> rfl

@[simp] theorem split_leaf (side : Side) : (leaf : RbTree α).split side = none := rfl

/-- The same shape with every value replaced. -/
def map (f : α → β) : RbTree α → RbTree β
  | leaf => leaf
  | node color left value right => node color (left.map f) (f value) (right.map f)

@[simp] theorem items_map (f : α → β) (tree : RbTree α) : (tree.map f).items = tree.items.map f := by
  induction tree with
  | leaf => rfl
  | node color left value right ihLeft ihRight => simp [map, items, ihLeft, ihRight]

theorem map_congr {f g : α → β} {tree : RbTree α} (same : ∀ item ∈ tree.items, f item = g item) :
    tree.map f = tree.map g := by
  induction tree with
  | leaf => rfl
  | node color left value right ihLeft ihRight =>
    simp only [items, mem_append, mem_cons] at same
    rw [map, map, ihLeft fun item inside => same item (.inl inside), same value (by simp),
      ihRight fun item inside => same item (by simp [inside])]

@[simp] theorem map_id (tree : RbTree α) : tree.map id = tree := by
  induction tree with
  | leaf => rfl
  | node color left value right ihLeft ihRight => simp [map, ihLeft, ihRight]

end RbTree

/-- The nodes around a place in a tree, from the inside out. Each comes without the
subtree that holds the place, which is on the given side of it. -/
inductive Path (α : Type*)
  | top
  | step (side : Side) (color : Color) (value : α) (sibling : RbTree α) (path : Path α)
deriving DecidableEq, Repr

namespace Path
variable {α β : Type*} (path : Path α) (tree : RbTree α)

/-- The tree that has the given subtree at the end of the path. -/
def plug : Path α → RbTree α → RbTree α
  | top, tree => tree
  | step side color value sibling path, tree => path.plug (.join side color tree value sibling)

@[simp] theorem plug_top : plug top tree = tree := rfl

theorem plug_step (side : Side) (color : Color) (value : α) (sibling : RbTree α) (path : Path α)
    (tree : RbTree α) :
    (step side color value sibling path).plug tree = path.plug (.join side color tree value sibling) := rfl

/-- A node can be entered on either side. -/
theorem plug_far (side : Side) (color : Color) (near : RbTree α) (value : α)
    (far : RbTree α) :
    path.plug (.join side color near value far) = (step side.other color value near path).plug far := by
  rw [plug_step, RbTree.join_other]

/-- The color of the node above the hole; the top counts as black. -/
def color : Path α → Color
  | top => .black
  | step _ color _ _ _ => color

/-- The side the hole is on; a whole tree hangs on the left. -/
def side : Path α → Side
  | top => .left
  | step side _ _ _ _ => side

/-- The number of nodes above the hole. -/
def length : Path α → Nat
  | top => 0
  | step _ _ _ _ path => path.length + 1

/-- The values before the hole. -/
def before : Path α → List α
  | top => []
  | step .left _ _ _ path => path.before
  | step .right _ value sibling path => path.before ++ sibling.items ++ [value]

/-- The values after the hole. -/
def after : Path α → List α
  | top => []
  | step .left _ value sibling path => value :: sibling.items ++ path.after
  | step .right _ _ _ path => path.after

theorem items_plug : (path.plug tree).items = path.before ++ tree.items ++ path.after := by
  induction path generalizing tree with
  | top => simp [before, after]
  | step side color value sibling path ih =>
    cases side <;> simp [plug_step, ih, before, after, RbTree.join, RbTree.items]

theorem items_plug_leaf : (path.plug .leaf).items = path.before ++ path.after := by
  rw [items_plug]
  simp

theorem items_plug_congr {first second : RbTree α} (same : first.items = second.items)
    (path : Path α) : (path.plug first).items = (path.plug second).items := by
  rw [items_plug, items_plug, same]

/-- The same path with every value replaced. -/
def map (f : α → β) : Path α → Path β
  | top => top
  | step side color value sibling path => step side color (f value) (sibling.map f) (path.map f)

theorem map_plug (f : α → β) (path : Path α) (tree : RbTree α) :
    (path.plug tree).map f = (path.map f).plug (tree.map f) := by
  induction path generalizing tree with
  | top => rfl
  | step side color value sibling path ih => cases side <;> exact ih _

theorem map_eq_self {f : α → α} {path : Path α}
    (before : ∀ item ∈ path.before, f item = item) (after : ∀ item ∈ path.after, f item = item) :
    path.map f = path := by
  induction path with
  | top => rfl
  | step side color value sibling path ih =>
    have inside : ∀ item ∈ sibling.items, f item = id item := by
      cases side with
      | left => exact fun item inside => after item (by simp [Path.after, inside])
      | right => exact fun item inside => before item (by simp [Path.before, inside])
    have root : f value = value := by
      cases side with
      | left => exact after value (by simp [Path.after])
      | right => exact before value (by simp [Path.before])
    have above : path.map f = path := by
      cases side with
      | left => exact ih before fun item inside => after item (by simp [Path.after, inside])
      | right => exact ih (fun item inside => before item (by simp [Path.before, inside])) after
    rw [map, root, above, RbTree.map_congr inside, RbTree.map_id]

/-- A path is no longer than the tree it leads into has values. -/
theorem length_le_items : path.length + tree.items.length ≤ (path.plug tree).items.length := by
  rw [items_plug]
  suffices bounded : path.length ≤ path.before.length + path.after.length by
    simp only [length_append]
    omega
  induction path with
  | top => simp [length]
  | step side color value sibling path ih =>
    cases side <;> simp only [length, before, after, length_append, length_cons, length_nil] <;> omega

end Path

/-- Every value of a tree is the root of a subtree of it. -/
theorem RbTree.exists_plug_of_mem {α : Type*} {tree : RbTree α} {item : α} (inside : item ∈ tree.items) :
    ∃ (path : Path α) (color : Color) (left right : RbTree α),
      tree = path.plug (.node color left item right) := by
  suffices general : ∀ path : Path α, ∃ (deeper : Path α) (color : Color) (left right : RbTree α),
      path.plug tree = deeper.plug (.node color left item right) from general .top
  induction tree with
  | leaf => cases inside
  | node color left value right ihLeft ihRight =>
    intro path
    rcases mem_append.mp inside with first | second
    · exact ihLeft first (.step .left color value right path)
    · rcases mem_cons.mp second with rfl | third
      · exact ⟨path, color, left, right, rfl⟩
      · exact ihRight third (.step .right color value left path)

end WinOFED.RedBlack
