import WinOFED.Complib.MapTree

/-! Linking items into the maps' trees and out of them. -/
namespace WinOFED.Complib
open RedBlack RbTree List
variable {α : Type*} [DecidableEq α]

/-- The fields a new item gets before its place is known. -/
def initItem (links : Links α) (item : Ref α) : Links α :=
  ((links.setChild .left item .nil).setChild .right item .nil).setColor item .red

/-- Hang an item on one side of a node. -/
def hangItem (links : Links α) (side : Side) (parent item : Ref α) : Links α :=
  (links.setChild side parent item).setUp item parent

/-- The end of an insertion: rebalance and paint the root black. -/
def balanceItem (rounds : Nat) (links : Links α) (item : Ref α) : Option (Links α) := do
  let links ← insBal rounds links item
  some (links.setColor (links.child .left .root) .black)

/-- Let the child of a node take its place. The parent of the child is set even if the
child is the nil sentinel. -/
def spliceItem (links : Links α) (item child : Ref α) : Links α :=
  let links := links.setUp child (links.up item)
  links.setChild (parentSide links item) (links.up item) child

/-- Take a node out of the tree and rebalance if a black node was lost. -/
def dropItem (rounds : Nat) (links : Links α) (item child : Ref α) : Option (Links α) :=
  let links := spliceItem links item child
  if links.color item ≠ .red then delBal rounds links child else some links

/-- Put the node `substitute` into the place of `item`. -/
def exchangeItem (links : Links α) (item substitute : Ref α) : Links α :=
  let links := links.setUp substitute (links.up item)
  let links := links.setChild .left substitute (links.child .left item)
  let links := links.setChild .right substitute (links.child .right item)
  let links := links.setChild (parentSide links item) (links.up item) substitute
  let links := links.setUp (links.child .right item) substitute
  let links := links.setUp (links.child .left item) substitute
  links.setColor substitute (links.color item)

/-- The end of a removal, `delItem` being the node whose place in the tree goes away and
`child` the one that takes it. If it is not the item to be removed, it then takes over
from that one. -/
def unlinkItem (rounds : Nat) (links : Links α) (item delItem child : Ref α) :
    Option (Links α) := do
  let links ← dropItem rounds links delItem child
  some (if delItem ≠ item then exchangeItem links item delItem else links)

/-! ### Insertion -/

variable {links : Links α} {path : Path α} {value next : α} {tree child left right : RbTree α}
  {rounds : Nat} {color : Color}

attribute [local simp] initItem hangItem

/-- A new item hung into an empty place. -/
theorem hangItem_represents (represents : Represents links (path.plug .leaf))
    (fresh : value ∉ (path.plug .leaf).items) :
    Represents (hangItem (initItem links (.item value)) path.side path.ref (.item value))
      (path.plug (.node .red .leaf value .leaf)) := by
  obtain ⟨_, around, nodup, rootColor, nilColor⟩ := represents_plug.mp represents
  obtain ⟨_, beside, _⟩ := Path.nodup_items_plug.mp nodup
  have outside : value ∉ path.items := fun listed => fresh (Path.mem_items_plug.mpr (.inr listed))
  have notParent : Ref.item value ≠ path.ref := fun parent =>
    outside (Path.mem_of_ref_eq parent.symm)
  have distinct : ∀ item ∈ path.items, item ≠ value := fun item listed same =>
    outside (same ▸ listed)
  refine represents_plug.mpr ⟨⟨?_, ?_, ?_, ?_, trivial, trivial⟩, ?_, ?_, ?_, ?_⟩
  · simp
  · simp
  · simp [notParent]
  · simp [notParent]
  · refine around.congr beside (fun item listed => ?_) ?_
    · simp [distinct item listed]
    · simp
  · rw [Path.nodup_items_plug]
    refine ⟨by simp [items], beside, fun item listed => ?_⟩
    obtain rfl : item = value := by simpa [items] using listed
    exact outside
  · simpa using rootColor
  · simpa using nilColor

/-- `balanceItem` carries out the rest of `insertAt`. -/
theorem balanceItem_represents
    (represents : Represents links (path.plug (.node .red .leaf value .leaf)))
    (inserted : insertAt path value = some tree) (enough : path.length < rounds) :
    ∃ changed, balanceItem rounds links (.item value) = some changed ∧ Represents changed tree := by
  obtain ⟨repaired, repair, rfl⟩ := Option.map_eq_some_iff.mp inserted
  obtain ⟨changed, run, held⟩ := insBal_represents represents (by simp) repair enough
  have painted : Represents (changed.setColor repaired.ref .black)
      (Path.top.plug (repaired.recolor .black)) :=
    Represents.recolor (show Represents changed (Path.top.plug repaired) from held) fun _ => rfl
  refine ⟨changed.setColor repaired.ref .black, ?_, painted⟩
  rw [← held.root]
  simp only [balanceItem, Option.bind_eq_bind]
  rw [show insBal rounds links (.item value) = some changed from run]
  rfl

/-- An item hung at an empty place and rebalanced is inserted into the tree. -/
theorem insertItem_represents (represents : Represents links (path.plug .leaf))
    (black : (path.plug .leaf).color = .black)
    (balanced : ∃ height, (path.plug .leaf).Balanced height)
    (fresh : value ∉ (path.plug .leaf).items) :
    ∃ changed tree, balanceItem ((path.plug .leaf).items.length + 1)
        (hangItem (initItem links (.item value)) path.side path.ref (.item value)) (.item value) =
          some changed ∧
      Represents changed tree ∧ tree.color = .black ∧ (∃ height, tree.Balanced height) ∧
      tree.items = path.before ++ value :: path.after := by
  obtain ⟨height, balanced⟩ := balanced
  obtain ⟨tree, height, inserted, fits, black⟩ := insertAt_balanced value balanced black
  have hung := hangItem_represents represents fresh
  have bound : path.length < (path.plug .leaf).items.length + 1 := by
    have short := path.length_le_items (.leaf : RbTree α)
    omega
  obtain ⟨changed, run, held⟩ := balanceItem_represents hung inserted bound
  exact ⟨changed, tree, run, held, black, ⟨height, fits⟩, items_insertAt inserted⟩

/-! ### Removal -/

/-- A node with one subtree gives way to it; the parent of the place is known afterwards
even if the subtree is empty. -/
theorem spliceItem_represents {side : Side}
    (represents : Represents links (path.plug (.join side color child value .leaf))) :
    Represents (spliceItem links (.item value) child.ref) (path.plug child) ∧
      (spliceItem links (.item value) child.ref).up child.ref = path.ref ∧
      (spliceItem links (.item value) child.ref).color = links.color := by
  obtain ⟨inside, around, nodup, rootColor, nilColor⟩ := represents_plug.mp represents
  obtain ⟨up, _, _, _, childLinked, _⟩ := linked_join.mp inside
  obtain ⟨within, beside, apart⟩ := Path.nodup_items_plug.mp nodup
  obtain ⟨own, childNodup⟩ := nodup_items_join.mp within
  simp only [items_leaf, append_nil] at own childNodup
  have notChild : Ref.item value ≠ child.ref := fun root => own (mem_of_ref_eq root.symm)
  have hand := parentSide_ref represents join_ne_leaf
  rw [ref_join] at hand
  have closed : spliceItem links (.item value) child.ref =
      (links.setUp child.ref path.ref).setChild path.side path.ref child.ref := by
    have kept : (links.setUp child.ref path.ref).up (.item value) = path.ref := by
      simp [notChild, up]
    have same : parentSide (links.setUp child.ref path.ref) (.item value) = path.side := by
      rw [← hand]
      simp only [parentSide, isLeftChild, kept, up]
      rfl
    simp only [spliceItem, up, same, kept]
  have inPath : ∀ item ∈ child.items, .item item ≠ path.ref := fun item listed parent =>
    apart item (mem_items_join.mpr (.inr (.inl listed))) (Path.mem_of_ref_eq parent.symm)
  have inChild : ∀ item ∈ path.items, .item item ≠ child.ref := fun item listed root =>
    apart item (mem_items_join.mpr (.inr (.inl (mem_of_ref_eq root.symm)))) listed
  rw [closed]
  refine ⟨represents_plug.mpr ⟨?_, ?_, ?_, rootColor, nilColor⟩, by simp, rfl⟩
  · refine childLinked.reparent childNodup fun item listed => ?_
    simp [inPath item listed]
  · refine around.congr beside (fun item listed => ?_) ?_
    · simp [inChild item listed]
    · simp
  · rw [Path.nodup_items_plug]
    exact ⟨childNodup, beside, fun item listed =>
      apart item (mem_items_join.mpr (.inr (.inl listed)))⟩

section
variable (represents : Represents links (path.plug (.node color left value right)))
  (fresh : next ∉ (path.plug (.node color left value right)).items)
include represents fresh

/-- An exchange as one simultaneous update. -/
theorem exchangeItem_eq : exchangeItem links (.item value) (.item next) =
      { child := fun wing ref =>
          if wing = path.side ∧ ref = path.ref then .item next
          else if wing = .right ∧ ref = .item next then right.ref
          else if wing = .left ∧ ref = .item next then left.ref
          else links.child wing ref
        up := fun ref =>
          if ref = left.ref then .item next
          else if ref = right.ref then .item next
          else if ref = .item next then path.ref
          else links.up ref
        color := fun ref => if ref = .item next then color else links.color ref } := by
  have node : Represents links (path.plug (.join .left color left value right)) := represents
  have hand := parentSide_ref node join_ne_leaf
  have distinct : value ≠ next := fun same =>
    fresh (same ▸ Path.mem_items_plug.mpr (.inl (by simp [items])))
  have notParent : Ref.item value ≠ path.ref := (node.pathRef_ne (by simp [mem_items_join])).symm
  have nextParent : path.ref ≠ Ref.item next := fun parent =>
    fresh (Path.mem_items_plug.mpr (.inr (Path.mem_of_ref_eq parent)))
  have up := node.up
  have onLeft := node.childNear
  have onRight := node.childFar
  have shade := node.color_item
  rw [ref_join] at hand
  simp only [Side.other] at onRight
  have same : parentSide (((links.setUp (.item next) path.ref).setChild .left (.item next)
      left.ref).setChild .right (.item next) right.ref) (.item value) = path.side := by
    rw [← hand]
    simp [parentSide, isLeftChild, distinct, up, nextParent]
  ext ref <;> simp [exchangeItem, up, onLeft, onRight, shade, distinct, notParent, same]

/-- A node that is not in the tree takes the place of one that is. -/
theorem exchangeItem_represents : Represents (exchangeItem links (.item value) (.item next))
      (path.plug (.node color left next right)) := by
  rw [exchangeItem_eq represents fresh]
  obtain ⟨inside, around, nodup, rootColor, nilColor⟩ := represents_plug.mp represents
  obtain ⟨up, shade, onLeft, onRight, leftLinked, rightLinked⟩ := inside
  obtain ⟨within, beside, apart⟩ := Path.nodup_items_plug.mp nodup
  obtain ⟨own, pair⟩ := nodup_items_join.mp
    (show (join .left color left value right).items.Nodup from within)
  obtain ⟨leftNodup, rightNodup, disjoint⟩ := nodup_append.mp pair
  simp only [Path.mem_items_plug, items, mem_append, mem_cons] at fresh apart own
  have notLeft : ∀ item, item ∉ left.items → .item item ≠ left.ref := fun item outside root =>
    outside (mem_of_ref_eq root.symm)
  have notRight : ∀ item, item ∉ right.items → .item item ≠ right.ref := fun item outside root =>
    outside (mem_of_ref_eq root.symm)
  have notPath : ∀ item, item ∉ path.items → .item item ≠ path.ref := fun item outside parent =>
    outside (Path.mem_of_ref_eq parent.symm)
  have nextLeft := notLeft next fun listed => fresh (.inl (.inl listed))
  have nextRight := notRight next fun listed => fresh (.inl (.inr (.inr listed)))
  have nextPath := notPath next fun listed => fresh (.inr listed)
  refine represents_plug.mpr ⟨⟨?_, ?_, ?_, ?_, ?_, ?_⟩, ?_, ?_, ?_, ?_⟩
  · simp [nextLeft, nextRight]
  · simp
  · simp [nextPath]
  · simp [nextPath]
  · refine leftLinked.reparent leftNodup fun item listed => ?_
    have notNext : item ≠ next := fun same => fresh (.inl (.inl (same ▸ listed)))
    have notParent := notPath item (apart item (.inl listed))
    have across := notRight item fun also => disjoint item listed item also rfl
    simp [notNext, notParent, across]
  · refine rightLinked.reparent rightNodup fun item listed => ?_
    have notNext : item ≠ next := fun same => fresh (.inl (.inr (.inr (same ▸ listed))))
    have notParent := notPath item (apart item (.inr (.inr listed)))
    have across := notLeft item fun also => disjoint item also item listed rfl
    simp [notNext, notParent, across]
  · refine around.congr beside (fun item listed => ?_) ?_
    · have notNext : item ≠ next := fun same => fresh (.inr (same ▸ listed))
      have onLeft := notLeft item fun also => apart item (.inl also) listed
      have onRight := notRight item fun also => apart item (.inr (.inr also)) listed
      simp [notNext, onLeft, onRight]
    · simp
  · rw [Path.nodup_items_plug]
    refine ⟨?_, beside, fun item listed => ?_⟩
    · refine (perm_items_join .left color left next right).nodup_iff.mpr
        (nodup_cons.mpr ⟨fun listed => fresh ?_, pair⟩)
      rcases mem_append.mp listed with first | second
      · exact .inl (.inl first)
      · exact .inl (.inr (.inr second))
    · rcases mem_append.mp listed with first | second
      · exact apart item (.inl first)
      · rcases mem_cons.mp second with rfl | third
        · exact fun listed => fresh (.inr listed)
        · exact apart item (.inr (.inr third))
  · simpa using rootColor
  · simpa using nilColor

end

/-- Taking a node with at most one subtree out of the tree. -/
theorem dropItem_represents {side : Side}
    (represents : Represents links (path.plug (.join side color child value .leaf)))
    (spliced : spliceAt path color child = some tree) (enough : path.length < rounds) :
    ∃ changed, dropItem rounds links (.item value) child.ref = some changed ∧ Represents changed tree := by
  obtain ⟨held, up, colors⟩ := spliceItem_represents represents
  simp only [dropItem, colors, represents.color_item]
  cases color with
  | red =>
    cases spliced
    exact ⟨_, if_neg (by simp), held⟩
  | black =>
    rw [if_pos (by simp)]
    exact delBal_represents held up spliced enough

/-- Removing an item with at most one subtree. -/
theorem unlinkItem_single {side : Side}
    (represents : Represents links (path.plug (.join side color child value .leaf)))
    (spliced : spliceAt path color child = some tree) (enough : path.length < rounds) :
    ∃ changed, unlinkItem rounds links (.item value) (.item value) child.ref = some changed ∧
      Represents changed tree := by
  obtain ⟨changed, run, held⟩ := dropItem_represents represents spliced enough
  refine ⟨changed, ?_, held⟩
  simp [unlinkItem, run]

/-- Removing an item with two subtrees: the item after it takes its place. -/
theorem unlinkItem_double {place : Path α} {shade : Color}
    (represents : Represents links (path.plug (.node color left value right)))
    (same : place.plug (.node shade .leaf next child) = path.plug (.node color left value right))
    (distinct : next ≠ value) (spliced : spliceAt place shade child = some tree)
    (enough : place.length < rounds) :
    ∃ changed, unlinkItem rounds links (.item value) (.item next) child.ref = some changed ∧
      Represents changed (tree.map fun item => if item = value then next else item) := by
  have found : Represents links (place.plug (.join .right shade child next .leaf)) := by
    rw [← same] at represents
    exact represents
  obtain ⟨changed, run, held⟩ := dropItem_represents found spliced enough
  have order : tree.items = (place.plug child).items := items_spliceAt spliced
  have listed : ∀ item, item ∈ tree.items ↔ item ∈ child.items ∨ item ∈ place.items := by
    intro item
    rw [order, Path.mem_items_plug]
  have inside : value ∈ tree.items := by
    have whole : value ∈ (place.plug (.join .right shade child next .leaf)).items := by
      change value ∈ (place.plug (.node shade .leaf next child)).items
      rw [same, Path.mem_items_plug]
      exact .inl (by simp [items])
    rw [Path.mem_items_plug, mem_items_join] at whole
    rcases whole with (eq | first | none) | second
    · exact absurd eq.symm distinct
    · exact (listed value).mpr (.inl first)
    · cases none
    · exact (listed value).mpr (.inr second)
  have fresh : next ∉ tree.items := by
    obtain ⟨within, _, apart⟩ := Path.nodup_items_plug.mp found.nodup
    rw [listed]
    rintro (first | second)
    · exact (nodup_items_join.mp within).1 (mem_append_left _ first)
    · exact apart next (mem_items_join.mpr (.inl rfl)) second
  obtain ⟨spot, hue, before, after, rfl⟩ := exists_plug_of_mem inside
  refine ⟨exchangeItem changed (.item value) (.item next), ?_, ?_⟩
  · simp [unlinkItem, run, distinct]
  · rw [map_replace_plug held.nodup]
    exact exchangeItem_represents held fresh

/-- `unlinkItem` carries out `removeAt` if it is given the node whose place goes away and
what takes it: the item itself and its only subtree, or the first node of its right one. -/
theorem unlinkItem_represents {delItem child : Ref α}
    (represents : Represents links (path.plug (.node color left value right)))
    (removed : removeAt path color left value right = some tree)
    (enough : (path.plug (.node color left value right)).items.length ≤ rounds)
    (noLeft : left = .leaf → delItem = .item value ∧ child = right.ref)
    (noRight : left ≠ .leaf → right = .leaf → delItem = .item value ∧ child = left.ref)
    (both : ∀ shade inner first outer place hue next rest, left ≠ .leaf →
      right = .node shade inner first outer →
      firstPlace shade inner first outer (.step .right color value left path) = (place, hue, next, rest) →
      Represents links (place.plug (.node hue .leaf next rest)) →
      (path.plug (.node color left value right)).items =
        (path.before ++ left.items) ++ value :: next :: (rest.items ++ place.after) →
      delItem = .item next ∧ child = rest.ref) :
    ∃ changed, unlinkItem rounds links (.item value) delItem child = some changed ∧
      Represents changed tree := by
  have bound : ∀ (place : Path α) (node : RbTree α),
      place.plug node = path.plug (.node color left value right) → node ≠ .leaf →
      place.length < rounds := by
    intro place node same nonempty
    have short := place.length_le_items node
    rw [same] at short
    have positive : 0 < node.items.length := by
      cases node with
      | leaf => exact absurd rfl nonempty
      | node =>
        simp only [items, length_append, length_cons]
        omega
    omega
  by_cases empty : left = .leaf
  · obtain ⟨rfl, rfl⟩ := noLeft empty
    subst empty
    rw [removeAt_right] at removed
    exact @unlinkItem_single _ _ _ _ _ _ _ _ _ .right represents removed (bound _ _ rfl (by simp))
  cases right with
  | leaf =>
    obtain ⟨rfl, rfl⟩ := noRight empty rfl
    rw [removeAt_left] at removed
    exact @unlinkItem_single _ _ _ _ _ _ _ _ _ .left represents removed (bound _ _ rfl (by simp))
  | node shade inner first outer =>
    obtain ⟨place, hue, next, rest, at_first, removal, same, early⟩ :=
      removeAt_both path color value shade inner first outer empty
    rw [removal] at removed
    obtain ⟨spliced, splice, rfl⟩ := Option.map_eq_some_iff.mp removed
    have found : Represents links (place.plug (.node hue .leaf next rest)) := by
      rw [same]
      exact represents
    have order : (path.plug (.node color left value (.node shade inner first outer))).items =
        (path.before ++ left.items) ++ value :: next :: (rest.items ++ place.after) := by
      rw [← same, Path.items_plug, early]
      simp [items]
    obtain ⟨rfl, rfl⟩ := both _ _ _ _ _ _ _ _ empty rfl at_first found order
    have distinct : next ≠ value := by
      have nodup := represents.nodup
      rw [order] at nodup
      rintro rfl
      exact (nodup_cons.mp (nodup_append.mp nodup).2.1).1 (by simp)
    exact unlinkItem_double represents same distinct splice (bound place _ same (by simp))

end WinOFED.Complib
