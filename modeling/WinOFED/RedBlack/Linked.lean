import WinOFED.RedBlack.Tree

/-! Trees as linked nodes between two sentinels.

The fields of the nodes are kept as one function each, so that a write to one field is
seen to leave the others alone. A tree hangs on the left of the root sentinel and all
its leaves are the one nil sentinel, which has an `up` link like any node. -/
namespace WinOFED.RedBlack
open RbTree List
variable {α : Type*} {value : α} {color : Color} {tree : RbTree α} {side : Side}

/-- What a link may lead to. -/
inductive Ref (α : Type*)
  | root
  | nil
  | item (value : α)
deriving DecidableEq, Repr

/-- The fields of all nodes. -/
@[ext]
structure Links (α : Type*) where
  child : Side → Ref α → Ref α
  up : Ref α → Ref α
  color : Ref α → Color

namespace Links
variable [DecidableEq α]

def setChild (links : Links α) (side : Side) (ref target : Ref α) : Links α :=
  { links with child := fun wing place =>
      if wing = side ∧ place = ref then target else links.child wing place }

def setUp (links : Links α) (ref target : Ref α) : Links α :=
  { links with up := fun place => if place = ref then target else links.up place }

def setColor (links : Links α) (ref : Ref α) (color : Color) : Links α :=
  { links with color := fun place => if place = ref then color else links.color place }

section Fields
variable (links : Links α) (side wing : Side) (ref target place : Ref α) (color : Color)

@[simp] theorem child_setChild : (links.setChild side ref target).child wing place =
    if wing = side ∧ place = ref then target else links.child wing place := rfl

@[simp] theorem up_setChild : (links.setChild side ref target).up = links.up := rfl

@[simp] theorem color_setChild : (links.setChild side ref target).color = links.color := rfl

@[simp] theorem child_setUp : (links.setUp ref target).child = links.child := rfl

@[simp] theorem up_setUp : (links.setUp ref target).up place =
    if place = ref then target else links.up place := rfl

@[simp] theorem color_setUp : (links.setUp ref target).color = links.color := rfl

@[simp] theorem child_setColor : (links.setColor ref color).child = links.child := rfl

@[simp] theorem up_setColor : (links.setColor ref color).up = links.up := rfl

@[simp] theorem color_setColor : (links.setColor ref color).color place =
    if place = ref then color else links.color place := rfl

end Fields
end Links

/-- The two sets of links agree on the nodes of the listed values. -/
def Links.SameOn (first second : Links α) (values : List α) : Prop :=
  ∀ value ∈ values, second.up (.item value) = first.up (.item value) ∧
    second.color (.item value) = first.color (.item value) ∧
    ∀ side, second.child side (.item value) = first.child side (.item value)

theorem Links.SameOn.mono {first second : Links α} {values fewer : List α}
    (same : first.SameOn second values) (within : fewer ⊆ values) : first.SameOn second fewer :=
  fun value inside => same value (within inside)

namespace RbTree

/-- Where the root of a tree is. -/
def ref : RbTree α → Ref α
  | leaf => .nil
  | node _ _ value _ => .item value

@[simp] theorem ref_leaf : (leaf : RbTree α).ref = .nil := rfl

@[simp] theorem ref_node (color : Color) (left : RbTree α) (value : α) (right : RbTree α) :
    (node color left value right).ref = .item value := rfl

@[simp] theorem ref_join (side : Side) (color : Color) (near : RbTree α) (value : α) (far : RbTree α) :
    (join side color near value far).ref = .item value := by
  cases side <;> rfl

variable {tree : RbTree α} {parent : Ref α} {links : Links α}

theorem mem_of_ref_eq (root : tree.ref = .item value) : value ∈ tree.items := by
  cases tree with
  | leaf => cases root
  | node color left item right =>
    cases root
    simp [items]

theorem ref_eq_nil : tree.ref = .nil ↔ tree = leaf := by
  cases tree <;> simp [ref]

/-- The links below `parent` form the tree. -/
def Linked (links : Links α) : Ref α → RbTree α → Prop
  | _, leaf => True
  | parent, node color left value right =>
      links.up (.item value) = parent ∧ links.color (.item value) = color ∧
        links.child .left (.item value) = left.ref ∧
        links.child .right (.item value) = right.ref ∧
        left.Linked links (.item value) ∧ right.Linked links (.item value)

theorem linked_join {near far : RbTree α} :
    (join side color near value far).Linked links parent ↔
      links.up (.item value) = parent ∧ links.color (.item value) = color ∧
        links.child side (.item value) = near.ref ∧
        links.child side.other (.item value) = far.ref ∧
        near.Linked links (.item value) ∧ far.Linked links (.item value) := by
  cases side
  · exact Iff.rfl
  · simp only [join, Linked, Side.other]
    tauto

theorem Linked.congr {changed : Links α} (linked : tree.Linked links parent)
    (same : links.SameOn changed tree.items) : tree.Linked changed parent := by
  induction tree generalizing parent with
  | leaf => trivial
  | node color left value right ihLeft ihRight =>
    obtain ⟨up, shade, onLeft, onRight, leftLinked, rightLinked⟩ := linked
    obtain ⟨sameUp, sameColor, sameChild⟩ := same value (by simp [items])
    refine ⟨sameUp.trans up, sameColor.trans shade, (sameChild _).trans onLeft,
      (sameChild _).trans onRight, ihLeft leftLinked (same.mono ?_),
      ihRight rightLinked (same.mono ?_)⟩
    · exact subset_append_left _ _
    · exact List.Subset.trans (subset_cons_self _ _) (subset_append_right _ _)

/-- A tree can be hung elsewhere by changing the `up` link of its root. -/
theorem Linked.reparent [DecidableEq α] {changed : Links α} {above : Ref α}
    (linked : tree.Linked links parent) (nodup : tree.items.Nodup)
    (same : ∀ value ∈ tree.items,
      changed.up (.item value) = (if .item value = tree.ref then above else links.up (.item value)) ∧
      changed.color (.item value) = links.color (.item value) ∧
      ∀ side, changed.child side (.item value) = links.child side (.item value)) :
    tree.Linked changed above := by
  cases tree with
  | leaf => trivial
  | node color left value right =>
    obtain ⟨_, shade, onLeft, onRight, leftLinked, rightLinked⟩ := linked
    obtain ⟨sameUp, sameColor, sameChild⟩ := same value (by simp [items])
    have below : links.SameOn changed (left.items ++ right.items) := by
      intro item inside
      have listed : item ∈ (node color left value right).items := by
        rcases mem_append.mp inside with first | second <;> simp [items, *]
      have distinct : item ≠ value := by
        rintro rfl
        exact (nodup_cons.mp (nodup_middle.mp nodup)).1 inside
      simpa [distinct] using same item listed
    exact ⟨sameUp.trans (if_pos rfl), sameColor.trans shade, (sameChild _).trans onLeft,
      (sameChild _).trans onRight,
      leftLinked.congr (below.mono (subset_append_left _ _)),
      rightLinked.congr (below.mono (subset_append_right _ _))⟩

end RbTree

namespace Path

/-- The node above the hole. -/
def ref : Path α → Ref α
  | top => .root
  | step _ _ value _ _ => .item value

/-- All values on and beside the path. -/
def items (path : Path α) : List α := path.before ++ path.after

theorem perm_items_step (side : Side) (color : Color) (value : α) (sibling : RbTree α)
    (path : Path α) :
    (step side color value sibling path).items.Perm (value :: (sibling.items ++ path.items)) := by
  cases side with
  | left =>
    simp only [items, before, after, cons_append]
    refine perm_middle.trans (List.Perm.cons value ?_)
    rw [← append_assoc, ← append_assoc]
    exact perm_append_comm.append_right _
  | right =>
    simp only [items, before, after, append_assoc, singleton_append]
    rw [← append_assoc, ← append_assoc]
    refine perm_middle.trans (List.Perm.cons value ?_)
    exact perm_append_comm.append_right _

variable {path : Path α}

theorem mem_items_step {item : α} {sibling : RbTree α} :
    item ∈ (step side color value sibling path).items ↔
      item = value ∨ item ∈ sibling.items ∨ item ∈ path.items := by
  rw [(perm_items_step side color value sibling path).mem_iff, mem_cons, mem_append]

theorem mem_of_ref_eq (parent : path.ref = .item value) : value ∈ path.items := by
  cases path with
  | top => cases parent
  | step side color item sibling path =>
    cases parent
    exact mem_items_step.mpr (.inl rfl)

theorem perm_items_plug (path : Path α) (tree : RbTree α) :
    (path.plug tree).items.Perm (tree.items ++ path.items) := by
  rw [items_plug, items, ← append_assoc]
  exact perm_append_comm.append_right _

theorem mem_items_plug {item : α} :
    item ∈ (path.plug tree).items ↔ item ∈ tree.items ∨ item ∈ path.items := by
  rw [(perm_items_plug path tree).mem_iff, mem_append]

theorem nodup_items_plug :
    (path.plug tree).items.Nodup ↔
      tree.items.Nodup ∧ path.items.Nodup ∧ ∀ item ∈ tree.items, item ∉ path.items := by
  rw [(perm_items_plug path tree).nodup_iff, nodup_append]
  refine and_congr_right fun _ => and_congr_right fun _ => ⟨fun apart item inside outside => ?_,
    fun apart item inside other outside same => ?_⟩
  · exact apart item inside item outside rfl
  · exact apart item inside (same ▸ outside)

/-- The links around the hole form the path. -/
def Linked (links : Links α) : Path α → Ref α → Prop
  | top, hole => links.child .left .root = hole
  | step side color value sibling path, hole =>
      links.up (.item value) = path.ref ∧ links.color (.item value) = color ∧
        links.child side (.item value) = hole ∧
        links.child side.other (.item value) = sibling.ref ∧
        sibling.Linked links (.item value) ∧ path.Linked links (.item value)

/-- The link into the hole. -/
theorem Linked.entry {links : Links α} {hole : Ref α} (linked : path.Linked links hole) :
    links.child path.side path.ref = hole := by
  cases path with
  | top => exact linked
  | step => exact linked.2.2.1

theorem Linked.child_eq [DecidableEq α] {links : Links α} {hole : Ref α}
    (linked : path.Linked links hole) (wing : Side) (place : Ref α) :
    links.child wing place =
      if wing = path.side ∧ place = path.ref then hole else links.child wing place := by
  split
  next here => rw [here.1, here.2, linked.entry]
  next => rfl

/-- A path is linked to a new hole once the link into the hole is changed. -/
theorem Linked.congr [DecidableEq α] {links changed : Links α} {hole filled : Ref α}
    (linked : path.Linked links hole) (nodup : path.items.Nodup)
    (same : ∀ value ∈ path.items, changed.up (.item value) = links.up (.item value) ∧
      changed.color (.item value) = links.color (.item value) ∧
      ∀ side, changed.child side (.item value) =
        if side = path.side ∧ .item value = path.ref then filled else links.child side (.item value))
    (root : changed.child .left .root =
      if .left = path.side ∧ .root = path.ref then filled else links.child .left .root) :
    path.Linked changed filled := by
  induction path generalizing hole filled with
  | top => exact root.trans (if_pos ⟨rfl, rfl⟩)
  | step side color value sibling path ih =>
    obtain ⟨up, shade, _, across, beside, above⟩ := linked
    have apart := nodup_cons.mp ((perm_items_step side color value sibling path).nodup_iff.mp nodup)
    have other : links.SameOn changed (sibling.items ++ path.items) := by
      intro item listed
      have distinct : item ≠ value := by
        rintro rfl
        exact apart.1 listed
      simpa [Path.ref, distinct] using same item (mem_items_step.mpr (.inr (mem_append.mp listed)))
    obtain ⟨sameUp, sameColor, sameChild⟩ := same value (mem_items_step.mpr (.inl rfl))
    refine ⟨sameUp.trans up, sameColor.trans shade, (sameChild side).trans (if_pos ⟨rfl, rfl⟩),
      ?_, beside.congr (other.mono (subset_append_left _ _)), ?_⟩
    · exact (sameChild side.other).trans ((if_neg fun here => Side.ne_other side here.1.symm).trans across)
    -- The link into the rest of the path is still the one to the step's own node.
    refine ih above (nodup_append.mp apart.2).2.1 (fun item listed => ?_) ?_
    · obtain ⟨sameUp, sameColor, sameChild⟩ := other item (mem_append_right _ listed)
      exact ⟨sameUp, sameColor, fun wing => (sameChild wing).trans (above.child_eq ..)⟩
    · exact (root.trans (if_neg fun here => nomatch here.2)).trans (above.child_eq ..)

end Path

/-- The links form the tree, hung on the left of the root sentinel. Both sentinels are
black. -/
structure Represents (links : Links α) (tree : RbTree α) : Prop where
  linked : tree.Linked links .root
  root : links.child .left .root = tree.ref
  nodup : tree.items.Nodup
  rootColor : links.color .root = .black
  nilColor : links.color .nil = .black

/-- What the links are at one place of a tree. -/
theorem represents_plug {links : Links α} {path : Path α} :
    Represents links (path.plug tree) ↔
      tree.Linked links path.ref ∧ path.Linked links tree.ref ∧ (path.plug tree).items.Nodup ∧
        links.color .root = .black ∧ links.color .nil = .black := by
  suffices place : (path.plug tree).Linked links .root ∧ links.child .left .root = (path.plug tree).ref ↔
      tree.Linked links path.ref ∧ path.Linked links tree.ref by
    constructor
    · rintro ⟨linked, root, nodup, rootColor, nilColor⟩
      obtain ⟨inside, around⟩ := place.mp ⟨linked, root⟩
      exact ⟨inside, around, nodup, rootColor, nilColor⟩
    · rintro ⟨inside, around, nodup, rootColor, nilColor⟩
      obtain ⟨linked, root⟩ := place.mpr ⟨inside, around⟩
      exact ⟨linked, root, nodup, rootColor, nilColor⟩
  induction path generalizing tree with
  | top => exact Iff.rfl
  | step side color value sibling path ih =>
    rw [Path.plug_step, ih]
    simp only [linked_join, ref_join, Path.Linked, Path.ref]
    tauto

namespace Represents
variable {links : Links α} {path : Path α} {tree : RbTree α}

/-- Nodes outside the tree do not matter. -/
theorem congr {changed : Links α} (represents : Represents links tree)
    (same : links.SameOn changed tree.items)
    (root : changed.child .left .root = links.child .left .root)
    (colors : changed.color .root = links.color .root ∧ changed.color .nil = links.color .nil) :
    Represents changed tree :=
  ⟨represents.linked.congr same, root.trans represents.root, represents.nodup,
    colors.1.trans represents.rootColor, colors.2.trans represents.nilColor⟩

section
variable (represents : Represents links (path.plug tree))
include represents

theorem inside : tree.Linked links path.ref := (represents_plug.mp represents).1

theorem around : path.Linked links tree.ref := (represents_plug.mp represents).2.1

theorem entry : links.child path.side path.ref = tree.ref := represents.around.entry

theorem color_ref : links.color tree.ref = tree.color := by
  cases tree with
  | leaf => exact represents.nilColor
  | node => exact represents.inside.2.1

theorem color_pathRef : links.color path.ref = path.color := by
  cases path with
  | top => exact represents.rootColor
  | step => exact represents.around.2.1

/-- The parent of a node is not in its subtree. -/
theorem pathRef_ne (inside : value ∈ tree.items) : path.ref ≠ .item value := fun parent =>
  (Path.nodup_items_plug.mp represents.nodup).2.2 value inside (Path.mem_of_ref_eq parent)

end

section Join
variable {side : Side} {color : Color} {near far : RbTree α} {value : α}
  (represents : Represents links (path.plug (.join side color near value far)))
include represents

theorem up : links.up (.item value) = path.ref := (linked_join.mp represents.inside).1

theorem color_item : links.color (.item value) = color := (linked_join.mp represents.inside).2.1

theorem childNear : links.child side (.item value) = near.ref := (linked_join.mp represents.inside).2.2.1

theorem childFar : links.child side.other (.item value) = far.ref :=
  (linked_join.mp represents.inside).2.2.2.1

theorem color_near : links.color near.ref = near.color := by
  rw [← Path.plug_step] at represents
  exact represents.color_ref

theorem color_far : links.color far.ref = far.color := by
  rw [Path.plug_far] at represents
  exact represents.color_ref

/-- Painting a node. -/
theorem setColor [DecidableEq α] (repainted : Color) :
    Represents (links.setColor (.item value) repainted)
      (path.plug (.join side repainted near value far)) := by
  obtain ⟨inside, around, nodup, rootColor, nilColor⟩ := represents_plug.mp represents
  obtain ⟨up, _, onNear, onFar, nearLinked, farLinked⟩ := linked_join.mp inside
  obtain ⟨within, beside, apart⟩ := Path.nodup_items_plug.mp nodup
  have own := (nodup_items_join.mp within).1
  have untouched : ∀ values : List α, value ∉ values →
      links.SameOn (links.setColor (.item value) repainted) values := by
    intro values fresh item listed
    have distinct : item ≠ value := fun same => fresh (same ▸ listed)
    simp [distinct]
  have outside := apart value (mem_items_join.mpr (.inl rfl))
  refine represents_plug.mpr ⟨linked_join.mpr ⟨up, by simp, onNear, onFar, ?_, ?_⟩, ?_, ?_,
    by simpa using rootColor, by simpa using nilColor⟩
  · exact nearLinked.congr (untouched _ fun listed => own (mem_append_left _ listed))
  · exact farLinked.congr (untouched _ fun listed => own (mem_append_right _ listed))
  · rw [ref_join] at around ⊢
    refine around.congr beside (fun item listed => ?_) ?_
    · obtain ⟨sameUp, sameColor, sameChild⟩ := untouched _ outside item listed
      exact ⟨sameUp, sameColor, fun wing => (sameChild wing).trans (around.child_eq ..)⟩
    · exact around.child_eq ..
  · rw [Path.nodup_items_plug] at nodup ⊢
    refine ⟨?_, beside, fun item listed => apart item ?_⟩
    · exact nodup_items_join.mpr (nodup_items_join.mp within)
    · exact mem_items_join.mpr (mem_items_join.mp listed)

end Join

/-- The place of the sibling. -/
theorem beside {sibling : RbTree α}
    (represents : Represents links ((Path.step side color value sibling path).plug tree)) :
    Represents links ((Path.step side.other color value tree path).plug sibling) := by
  rw [← Path.plug_far]
  exact represents

/-- The `up` link of a subtree that is not empty. -/
theorem up_ref (represents : Represents links (path.plug tree)) (nonempty : tree ≠ .leaf) :
    links.up tree.ref = path.ref := by
  cases tree with
  | leaf => exact absurd rfl nonempty
  | node => exact represents.inside.1

/-- Painting the root of a subtree; an empty one can only be painted black. -/
theorem recolor [DecidableEq α] (represents : Represents links (path.plug tree))
    (safe : tree = .leaf → color = .black) :
    Represents (links.setColor tree.ref color) (path.plug (tree.recolor color)) := by
  rcases tree.eq_leaf_or_join .left with rfl | ⟨shade, near, value, far, rfl⟩
  · obtain rfl := safe rfl
    have same : links.setColor .nil .black = links := by
      ext ref <;> simp only [Links.child_setColor, Links.up_setColor, Links.color_setColor]
      split
      next nil => rw [nil, represents.nilColor]
      next => rfl
    simpa [same] using represents
  · simpa using represents.setColor color

end Represents
end WinOFED.RedBlack
