import WinOFED.RedBlack.Edit
import WinOFED.RedBlack.Linked

/-! The tree part of the component library's maps.

`cl_rbmap_t` and `cl_qmap_t` have the same rotations and the same rebalancing, each
written out once for the left and once for the right. Here both maps share one
definition, and the mirror images are one definition with the side as parameter. -/
namespace WinOFED.Complib
open RedBlack RbTree
variable {α : Type*} [DecidableEq α]

/-- `__cl_map_is_left_child`, `__cl_rbmap_is_left_child`. -/
def isLeftChild (links : Links α) (item : Ref α) : Bool :=
  links.child .left (links.up item) == item

/-- `__cl_map_get_parent_ptr_to_item`: the side of the parent that points to the item. -/
def parentSide (links : Links α) (item : Ref α) : Side :=
  if isLeftChild links item then .left else .right

/-- A rotation towards the given side. The link from the parent, `*pp_root` in the source,
is read again at each use. -/
def rotate (side : Side) (links : Links α) (item : Ref α) : Links α :=
  let parent := links.up item
  let hand := parentSide links item
  let links := links.setChild hand parent (links.child side.other item)
  let links := links.setUp (links.child hand parent) (links.up item)
  let links := links.setChild side.other item (links.child side (links.child hand parent))
  -- The nil sentinel must not change: a caller may depend on its parent.
  let links :=
    if links.child side (links.child hand parent) ≠ .nil then
      links.setUp (links.child side (links.child hand parent)) item
    else links
  let links := links.setChild side (links.child hand parent) item
  links.setUp item (links.child hand parent)

/-- `__cl_map_rot_left`, `__cl_rbmap_rot_left`. -/
def rotLeft (links : Links α) (item : Ref α) : Links α := rotate .left links item

/-- `__cl_map_rot_right`, `__cl_rbmap_rot_right`. -/
def rotRight (links : Links α) (item : Ref α) : Links α := rotate .right links item

/-- One round of `__cl_map_ins_bal` for a red parent on the given side of its own parent. -/
def insBalRound (side : Side) (links : Links α) (item : Ref α) : Links α × Ref α :=
  let uncle := links.child side.other (links.up (links.up item))
  if links.color uncle = .red then
    let links := links.setColor uncle .black
    let links := links.setColor (links.up item) .black
    let links := links.setColor (links.up (links.up item)) .red
    (links, links.up (links.up item))
  else
    let (links, item) :=
      if parentSide links item ≠ side then (rotate side links (links.up item), links.up item)
      else (links, item)
    let links := links.setColor (links.up item) .black
    let links := links.setColor (links.up (links.up item)) .red
    (rotate side.other links (links.up (links.up item)), item)

/-- `__cl_map_ins_bal`, `__cl_rbmap_ins_bal`, with a bound on the rounds of its loop. -/
def insBal : Nat → Links α → Ref α → Option (Links α)
  | 0, _, _ => none
  | rounds + 1, links, item =>
      if links.color (links.up item) = .red then
        let (links, item) := insBalRound (parentSide links (links.up item)) links item
        insBal rounds links item
      else some links

/-- The rest of a round of `__cl_map_del_bal`, once the uncle is black. There is an item to
go on with unless the round ends the loop. -/
def delBalSettle (side : Side) (links : Links α) (item : Ref α) : Links α × Option (Ref α) :=
  let uncle := links.child side.other (links.up item)
  if links.color (links.child side.other uncle) ≠ .red ∧
      links.color (links.child side uncle) ≠ .red then
    (links.setColor uncle .red, some (links.up item))
  else
    let (links, uncle) :=
      if links.color (links.child side.other uncle) ≠ .red then
        let links := links.setColor (links.child side uncle) .black
        let links := links.setColor uncle .red
        let links := rotate side.other links uncle
        (links, links.child side.other (links.up item))
      else (links, uncle)
    let links := links.setColor uncle (links.color (links.up item))
    let links := links.setColor (links.up item) .black
    let links := links.setColor (links.child side.other uncle) .black
    (rotate side links (links.up item), none)

/-- One round of `__cl_map_del_bal` for an item on the given side of its parent. -/
def delBalRound (side : Side) (links : Links α) (item : Ref α) : Links α × Option (Ref α) :=
  let uncle := links.child side.other (links.up item)
  let links :=
    if links.color uncle = .red then
      let links := links.setColor uncle .black
      let links := links.setColor (links.up item) .red
      rotate side links (links.up item)
    else links
  delBalSettle side links item

/-- `__cl_map_del_bal`, `__cl_rbmap_del_bal`, with a bound on the rounds of its loop. -/
def delBal : Nat → Links α → Ref α → Option (Links α)
  | 0, _, _ => none
  | rounds + 1, links, item =>
      if links.color item ≠ .red ∧ links.up item ≠ .root then
        match delBalRound (parentSide links item) links item with
        | (links, some next) => delBal rounds links next
        | (links, none) => some (links.setColor item .black)
      else some (links.setColor item .black)

/-! ### Rotations -/

variable {links : Links α} {tree inner middle outer sibling repaired : RbTree α} {path : Path α}
  {side : Side} {high value low : α} {lower upper color : Color} {rounds : Nat}

/-- The side of the parent's link is the side the item's place is on. An empty place is
told apart from its sibling only if the sibling is not empty. -/
theorem parentSide_eq (represents : Represents links (path.plug tree))
    (up : links.up tree.ref = path.ref)
    (distinct : ∀ side color value path', path = .step side color value .leaf path' →
      tree ≠ .leaf) : parentSide links tree.ref = path.side := by
  unfold parentSide isLeftChild
  rw [up]
  cases path with
  | top =>
    have entry := represents.entry
    simp only [Path.side, Path.ref] at entry ⊢
    simp [entry]
  | step side color value sibling path =>
    obtain ⟨_, _, entry, across, _, _⟩ := represents.around
    cases side with
    | left => simp [Path.side, Path.ref, entry]
    | right =>
      simp only [Side.other] at across
      have apart : sibling.ref ≠ tree.ref := by
        intro same
        cases sibling with
        | leaf => exact distinct _ _ _ _ rfl (ref_eq_nil.mp same.symm)
        | node shade left item right =>
          have inside := mem_of_ref_eq (show tree.ref = .item item from same.symm)
          refine (Path.nodup_items_plug.mp represents.nodup).2.2 item inside ?_
          exact Path.mem_items_step.mpr (.inr (.inl (by simp [items])))
      simp [Path.side, Path.ref, across, apart]

section
variable (represents : Represents links (path.plug (.join side upper outer high (.join side lower middle low inner))))
include represents

/-- A rotation as one simultaneous update. -/
theorem rotate_eq :
    rotate side links (.item high) =
      { child := fun wing ref =>
          if wing = side ∧ ref = .item low then .item high
          else if wing = side.other ∧ ref = .item high then middle.ref
          else if wing = path.side ∧ ref = path.ref then .item low
          else links.child wing ref
        up := fun ref =>
          if ref = .item high then .item low
          else if ref = middle.ref ∧ middle.ref ≠ .nil then .item high
          else if ref = .item low then path.ref
          else links.up ref
        color := links.color } := by
  have below := Represents.beside (show Represents links ((Path.step side upper high _ path).plug
    outer) from represents)
  have hand := parentSide_eq represents (by simpa using represents.up) (by
    intro _ _ _ _ _ empty
    simpa using congrArg ref empty)
  rw [ref_join] at hand
  have parentHigh : path.ref ≠ .item high := represents.pathRef_ne (by simp [mem_items_join])
  have parentLow : path.ref ≠ .item low := represents.pathRef_ne (by simp [mem_items_join])
  have distinct : low ≠ high := by
    rintro rfl
    exact below.pathRef_ne (show low ∈ (join side lower middle low inner).items by
      simp [mem_items_join]) rfl
  have up := represents.up
  have far : links.child side.other (.item high) = .item low := by simpa using represents.childFar
  have near := below.childNear
  simp only [rotate, hand, up, far]
  by_cases empty : middle.ref = .nil
  · ext wing ref <;> simp [near, empty, up, parentHigh, parentLow, parentLow.symm, distinct]
  · ext wing ref <;> simp [near, empty, up, parentHigh, parentLow, parentLow.symm, distinct]

/-- A rotation turns the represented tree. -/
theorem rotate_represents :
    Represents (rotate side links (.item high))
      (path.plug (.join side lower (.join side upper outer high middle) low inner)) := by
  obtain ⟨inside, around, nodup, rootColor, nilColor⟩ := represents_plug.mp represents
  obtain ⟨up, upperColor, onOuter, onLow, outerLinked, lowLinked⟩ := linked_join.mp inside
  obtain ⟨_, lowerColor, onMiddle, onInner, middleLinked, innerLinked⟩ := linked_join.mp lowLinked
  obtain ⟨within, beside, apart⟩ := Path.nodup_items_plug.mp nodup
  obtain ⟨highFresh, rest⟩ := nodup_items_join.mp within
  obtain ⟨_, lowerNodup, outerApart⟩ := List.nodup_append.mp rest
  obtain ⟨lowFresh, pair⟩ := nodup_items_join.mp lowerNodup
  obtain ⟨middleNodup, _, middleApart⟩ := List.nodup_append.mp pair
  simp only [mem_items_join, List.mem_append] at *
  have middleRef : ∀ value, value ∉ middle.items → .item value ≠ middle.ref :=
    fun value fresh root => fresh (mem_of_ref_eq root.symm)
  have pathRef : ∀ value, value ∉ path.items → .item value ≠ path.ref :=
    fun value fresh parent => fresh (Path.mem_of_ref_eq parent.symm)
  have distinct : low ≠ high := fun same => highFresh (.inr (.inl same.symm))
  have middleHigh := middleRef high fun listed => highFresh (.inr (.inr (.inl listed)))
  have middleLow := middleRef low fun listed => lowFresh (.inl listed)
  have parentHigh := pathRef high (apart high (.inl rfl))
  have parentLow := pathRef low (apart low (.inr (.inr (.inl rfl))))
  have kept : ∀ values : List α, (∀ value ∈ values, value ≠ high ∧ value ≠ low ∧
      value ∉ middle.items ∧ value ∉ path.items) →
      links.SameOn (rotate side links (.item high)) values := by
    intro values fresh value listed
    obtain ⟨notHigh, notLow, notMiddle, notPath⟩ := fresh value listed
    rw [rotate_eq represents]
    simp [notHigh, notLow, middleRef value notMiddle, pathRef value notPath]
  rw [rotate_eq represents] at kept ⊢
  refine represents_plug.mpr ⟨linked_join.mpr ⟨?_, lowerColor, ?_, ?_,
    linked_join.mpr ⟨?_, upperColor, ?_, ?_, ?_, ?_⟩, ?_⟩, ?_, ?_, rootColor, nilColor⟩
  · simp [distinct, middleLow]
  · simp
  · simpa [distinct, parentLow] using onInner
  · simp
  · simpa [distinct.symm, parentHigh] using onOuter
  · simp [distinct.symm]
  · exact outerLinked.congr (kept _ fun value listed =>
      ⟨fun same => highFresh (.inl (same ▸ listed)), outerApart value listed low (.inl rfl),
        fun also => outerApart value listed value (.inr (.inl also)) rfl,
        apart value (.inr (.inl listed))⟩)
  · -- Only the root of the middle tree gets a new parent.
    refine middleLinked.reparent middleNodup fun value listed => ?_
    have notHigh : value ≠ high := fun same => highFresh (.inr (.inr (.inl (same ▸ listed))))
    have notLow : value ≠ low := fun same => lowFresh (.inl (same ▸ listed))
    have notParent := pathRef value (apart value (.inr (.inr (.inr (.inl listed)))))
    by_cases root : .item value = middle.ref
    · simp [notHigh, notLow, notParent, ← root]
    · simp [notHigh, notLow, notParent, root]
  · exact innerLinked.congr (kept _ fun value listed =>
      ⟨fun same => highFresh (.inr (.inr (.inr (same ▸ listed)))),
        fun same => lowFresh (.inr (same ▸ listed)),
        fun also => middleApart value also value listed rfl,
        apart value (.inr (.inr (.inr (.inr listed))))⟩)
  · rw [ref_join]
    refine around.congr beside (fun value listed => ?_) ?_
    · have notHigh : value ≠ high := fun same => apart value (.inl same) listed
      have notLow : value ≠ low := fun same => apart value (.inr (.inr (.inl same))) listed
      have notMiddle := middleRef value fun also => apart value (.inr (.inr (.inr (.inl also)))) listed
      simp [notHigh, notLow, notMiddle]
    · simp
  · have same : ∀ first second : RbTree α, first.items.Perm second.items →
        (path.plug first).items.Perm (path.plug second).items := fun first second perm =>
      (Path.perm_items_plug path first).trans
        ((perm.append_right _).trans (Path.perm_items_plug path second).symm)
    refine (List.Perm.nodup_iff (same _ _ ?_)).mp nodup
    cases side <;> simp [join, items]

/-- A rotation leaves the `up` link of the nil sentinel alone. -/
theorem rotate_up_nil : (rotate side links (.item high)).up .nil = links.up .nil := by
  rw [rotate_eq represents]
  simp only [reduceCtorEq, if_false]
  split
  next empty => exact absurd empty.1.symm empty.2
  next => rfl

end

/-! ### Rebalancing after an insertion -/

/-- The parent's side for a subtree that is not empty. -/
theorem parentSide_ref (represents : Represents links (path.plug tree)) (nonempty : tree ≠ .leaf) :
    parentSide links tree.ref = path.side :=
  parentSide_eq represents (represents.up_ref nonempty) fun _ _ _ _ _ => nonempty

/-- The last part of a round of `insBal`: the red parent becomes black and takes the place
of its own parent, which becomes red. -/
theorem insBal_rotate {uncle : RbTree α} {grand : α} (represents : Represents links
      (path.plug (.join side upper (.join side lower tree value sibling) grand uncle))) :
    Represents
        (rotate side.other ((links.setColor (.item value) .black).setColor (.item grand) .red)
          (.item grand))
        (path.plug (.join side .black tree value (.join side .red sibling grand uncle))) ∧
      (rotate side.other ((links.setColor (.item value) .black).setColor (.item grand) .red)
        (.item grand)).up .nil = links.up .nil := by
  have below : Represents links ((Path.step side upper grand uncle path).plug
      (.join side lower tree value sibling)) := represents
  have first : Represents (links.setColor (.item value) .black)
      (path.plug (.join side upper (.join side .black tree value sibling) grand uncle)) :=
    below.setColor .black
  have painted := first.setColor .red
  rw [← join_other side .red, ← join_other side .black] at painted
  refine ⟨?_, (rotate_up_nil painted).trans rfl⟩
  have turned := rotate_represents painted
  rwa [join_other, join_other] at turned

/-- A black parent ends the loop. -/
theorem insBal_of_black (represents : Represents links (path.plug tree)) (nonempty : tree ≠ .leaf)
    (black : path.color = .black) (positive : 0 < rounds) :
    insBal rounds links tree.ref = some links := by
  cases rounds with
  | zero => cases positive
  | succ rounds => simp [insBal, represents.up_ref nonempty, represents.color_pathRef, black]

section RedParent
variable {links : Links α} {path : Path α} {side above : Side} {shade : Color}
  {tree sibling uncle : RbTree α} {value grand : α}
  (represents : Represents links
    ((Path.step side .red value sibling (.step above shade grand uncle path)).plug tree))
  (nonempty : tree ≠ .leaf)
include represents nonempty

omit [DecidableEq α] in
/-- The links a round reads. -/
theorem insBal_reads :
    links.up tree.ref = .item value ∧ links.up (.item value) = .item grand ∧
      links.child above.other (.item grand) = uncle.ref ∧ links.color uncle.ref = uncle.color := by
  have parent : Represents links ((Path.step above shade grand uncle path).plug
      (.join side .red tree value sibling)) := represents
  exact ⟨represents.up_ref nonempty, parent.up,
    Represents.childFar (show Represents links (path.plug _) from parent), parent.beside.color_ref⟩

/-- A red parent starts a round. -/
theorem insBal_of_red (rounds : Nat) :
    insBal (rounds + 1) links tree.ref =
      insBal rounds (insBalRound above links tree.ref).1 (insBalRound above links tree.ref).2 := by
  have parent : Represents links ((Path.step above shade grand uncle path).plug
      (.join side .red tree value sibling)) := represents
  have hand := parentSide_ref parent join_ne_leaf
  rw [ref_join] at hand
  obtain ⟨up, _⟩ := insBal_reads represents nonempty
  simp only [insBal, up, hand, parent.color_item, if_true]
  rfl

end RedParent

/-- `insBal` carries out `repairInsert`. -/
theorem insBal_represents (represents : Represents links (path.plug tree)) (nonempty : tree ≠ .leaf)
    (repair : repairInsert path tree = some repaired) (enough : path.length < rounds) :
    ∃ changed, insBal rounds links tree.ref = some changed ∧ Represents changed repaired := by
  fun_induction repairInsert path tree generalizing links rounds with
  | case1 tree =>
    cases repair
    exact ⟨links, insBal_of_black represents nonempty rfl (by omega), represents⟩
  | case2 side value sibling path tree =>
    cases repair
    exact ⟨links, insBal_of_black represents nonempty rfl (by omega), represents⟩
  | case3 side value sibling tree => cases repair
  | case4 side value sibling above shade grand uncle path tree uncleRed ih =>
    obtain ⟨rounds, rfl⟩ := Nat.exists_eq_add_of_lt enough
    rw [insBal_of_red represents nonempty]
    obtain ⟨up, grandUp, child, color⟩ := insBal_reads represents nonempty
    simp only [insBalRound, up, grandUp, child, color, uncleRed, if_true, Links.up_setColor]
    have beside := Represents.beside (show Represents links ((Path.step above shade grand uncle
      path).plug (.join side .red tree value sibling)) from represents)
    have painted := beside.recolor fun _ => (rfl : Color.black = .black)
    rw [← Path.plug_far] at painted
    have parent := Represents.setColor (show Represents _ ((Path.step above shade grand
      (uncle.recolor .black) path).plug (.join side .red tree value sibling)) from painted) .black
    have done := Represents.setColor (show Represents _ (path.plug _) from parent) .red
    rw [ref_join] at ih
    exact ih done join_ne_leaf repair (by simp only [Path.length]; omega)
  | case5 value sibling above shade grand uncle path tree uncleBlack =>
    cases repair
    obtain ⟨rounds, rfl⟩ := Nat.exists_eq_add_of_lt enough
    rw [insBal_of_red represents nonempty]
    obtain ⟨up, grandUp, child, color⟩ := insBal_reads represents nonempty
    have hand : parentSide links tree.ref = above := parentSide_ref represents nonempty
    simp only [insBalRound, up, grandUp, child, color, uncleBlack, if_false, hand, ne_eq,
      not_true_eq_false, Links.up_setColor]
    obtain ⟨turned, -⟩ := insBal_rotate (show Represents links (path.plug _) from represents)
    exact ⟨_, insBal_of_black (show Represents _ ((Path.step above .black value
      (.join above .red sibling grand uncle) path).plug tree) from turned) nonempty rfl
      (by simp only [Path.length]; omega), turned⟩
  | case6 side value sibling above shade grand uncle path tree uncleBlack inner none => cases repair
  | case7 side value sibling above shade grand uncle path tree uncleBlack inner color near middle far
      found =>
    cases repair
    obtain ⟨rounds, rfl⟩ := Nat.exists_eq_add_of_lt enough
    rw [insBal_of_red represents nonempty]
    obtain ⟨up, grandUp, child, uncleColor⟩ := insBal_reads represents nonempty
    have hand : parentSide links tree.ref = side := parentSide_ref represents nonempty
    simp only [insBalRound, up, grandUp, child, uncleColor, uncleBlack, if_false, hand, ne_eq, inner,
      not_false_eq_true, if_true, Links.up_setColor]
    obtain rfl : side = above.other := (side.eq_or_eq_other above).resolve_left inner
    rcases tree.eq_leaf_or_join above with rfl | ⟨lower, inside, item, outside, rfl⟩
    · exact absurd rfl nonempty
    simp only [split_join, Option.some.injEq, Prod.mk.injEq] at found
    obtain ⟨rfl, rfl, rfl, rfl⟩ := found
    have below : Represents links ((Path.step above shade grand uncle path).plug
        (.join above .red sibling value (.join above lower inside item outside))) := by
      rw [← join_other]
      exact represents
    have first := rotate_represents below
    have lifted : Represents (rotate above links (.item value)) ((Path.step above lower item outside
        (.step above shade grand uncle path)).plug (.join above .red sibling value inside)) := first
    rw [lifted.up, show Path.ref (.step above lower item outside (.step above shade grand uncle path)) =
      .item item from rfl, Represents.up first]
    obtain ⟨turned, -⟩ := insBal_rotate (show Represents _ (path.plug _) from first)
    refine ⟨_, ?_, turned⟩
    have final : Represents _ ((Path.step above .black item (.join above .red outside grand uncle)
      path).plug (.join above .red sibling value inside)) := turned
    have exits := insBal_of_black final join_ne_leaf rfl (show 0 < path.length + 2 + rounds by omega)
    rw [ref_join] at exits
    exact exits

/-! ### Rebalancing after a removal -/

/-- The last part of a round of `delBal`: the uncle takes the place and the color of the
parent. -/
theorem delBal_rotate {shade : Color} {near far : RbTree α} {uncle : α}
    (represents : Represents links
      (path.plug (.join side color tree value (.join side shade near uncle far)))) :
    Represents
      (rotate side (((links.setColor (.item uncle) color).setColor (.item value) .black).setColor
        far.ref .black) (.item value))
      (path.plug (.join side color (.join side .black tree value near) uncle (far.recolor .black))) := by
  have beside := Represents.beside (show Represents links ((Path.step side color value _ path).plug
    tree) from represents)
  have first := beside.setColor color
  rw [← Path.plug_far] at first
  have second := first.setColor .black
  rw [Path.plug_far, Path.plug_far] at second
  have third := second.recolor fun _ => rfl
  rw [← Path.plug_far, ← Path.plug_far] at third
  exact rotate_represents third

omit [DecidableEq α] in
/-- The parent of a place does not depend on whether the place is empty, as long as the
nil sentinel keeps its `up` link. -/
theorem up_of_nil {changed : Links α} {parent : Ref α} (up : links.up tree.ref = parent)
    (represents : Represents changed (path.plug tree)) (place : path.ref = parent)
    (nil : changed.up .nil = links.up .nil) : changed.up tree.ref = parent := by
  cases tree with
  | leaf => exact nil.trans up
  | node => exact (represents.up_ref (by simp)).trans place

/-- Painting a black subtree black changes nothing. -/
theorem setColor_black (represents : Represents links (path.plug tree))
    (black : tree.color = .black) :
    Represents (links.setColor tree.ref .black) (path.plug tree) := by
  have painted : Represents (links.setColor tree.ref .black) (path.plug (tree.recolor .black)) :=
    represents.recolor fun _ => rfl
  rwa [← black, tree.recolor_self, black] at painted

/-- `delBalSettle` carries out `settle`. -/
theorem delBalSettle_represents {settled : RbTree α} {short : Bool}
    (represents : Represents links ((Path.step side color value sibling path).plug tree))
    (up : links.up tree.ref = .item value) (black : tree.color = .black)
    (settle : settle side color value tree sibling = some (settled, short)) :
    ∃ changed, delBalSettle side links tree.ref =
        (changed, if short then some (.item value) else none) ∧
      Represents changed (path.plug settled) ∧ (short = true → settled.ref = .item value) ∧
      (short = false → Represents (changed.setColor tree.ref .black) (path.plug settled)) := by
  rcases sibling.eq_leaf_or_join side with rfl | ⟨shade, near, uncle, far, rfl⟩
  · cases settle
  have beside := represents.beside
  have parentColor : links.color (.item value) = color := represents.around.2.1
  have onUncle : links.child side.other (.item value) = .item uncle := by
    simpa using represents.around.2.2.2.1
  have onNear := beside.childNear
  have onFar := beside.childFar
  have nearColor := beside.color_near
  have farColor := beside.color_far
  -- The round's last rotation, from any links in which the uncle has a red far child.
  have last : ∀ {changed : Links α} {shade : Color} {near far : RbTree α} {uncle : α},
      Represents changed (path.plug (.join side color tree value (.join side shade near uncle far))) →
      ∃ final, (rotate side (((changed.setColor (.item uncle) color).setColor (.item value)
          .black).setColor far.ref .black) (.item value)) = final ∧
        Represents final (path.plug (.join side color (.join side .black tree value near) uncle
          (far.recolor .black))) ∧
        Represents (final.setColor tree.ref .black) (path.plug (.join side color
          (.join side .black tree value near) uncle (far.recolor .black))) := by
    intro changed shade near far uncle held
    have turned := delBal_rotate held
    exact ⟨_, rfl, turned, setColor_black (show Represents _ ((Path.step side .black value near
      (.step side color uncle (far.recolor .black) path)).plug tree) from turned) black⟩
  cases farShade : far.color with
  | red =>
    rw [settle_far farShade] at settle
    cases settle
    obtain ⟨final, rotated, turned, painted⟩ := last represents
    refine ⟨final, ?_, turned, by simp, fun _ => painted⟩
    simp [delBalSettle, up, onUncle, onFar, farColor, farShade, parentColor, ← rotated]
  | black =>
    cases nearShade : near.color with
    | red =>
      obtain ⟨inner, niece, outer, rfl⟩ := near.eq_join_of_red side nearShade
      rw [settle_near farShade] at settle
      cases settle
      obtain ⟨lifted, nil⟩ := insBal_rotate beside
      generalize turned : rotate side.other ((links.setColor (.item niece) .black).setColor
        (.item uncle) .red) (.item uncle) = middle at lifted nil
      rw [← Path.plug_far] at lifted
      have place : Represents middle ((Path.step side color value _ path).plug tree) := lifted
      have middleUp := up_of_nil up place rfl nil
      have middleColor : middle.color (.item value) = color := place.around.2.1
      have middleUncle : middle.child side.other (.item value) = .item niece := by
        simpa using place.around.2.2.2.1
      have middleFar : middle.child side.other (.item niece) = .item uncle := by
        have across := lifted
        rw [Path.plug_far] at across
        simpa using across.childFar
      obtain ⟨final, rotated, done, painted⟩ := last lifted
      refine ⟨final, ?_, by simpa using done, by simp, fun _ => by simpa using painted⟩
      simp only [ref_join, color_join] at onNear nearColor rotated
      simp [delBalSettle, up, onUncle, onFar, onNear, farColor, farShade, nearColor, turned,
        middleUp, middleColor, middleUncle, middleFar, rotated]
    | black =>
      rw [settle_neither farShade nearShade] at settle
      cases settle
      have painted := beside.setColor .red
      rw [← Path.plug_far] at painted
      refine ⟨_, ?_, painted, by simp, by simp⟩
      simp [delBalSettle, up, onUncle, onFar, onNear, farColor, farShade, nearColor, nearShade]

/-- A red item, or one at the top, ends the loop. -/
theorem delBal_exit (represents : Represents links (path.plug tree))
    (up : links.up tree.ref = path.ref) (exits : tree.color = .red ∨ path = .top)
    (positive : 0 < rounds) :
    ∃ changed, delBal rounds links tree.ref = some changed ∧
      Represents changed (path.plug (tree.recolor .black)) := by
  refine ⟨links.setColor tree.ref .black, ?_, represents.recolor fun _ => rfl⟩
  cases rounds with
  | zero => cases positive
  | succ rounds =>
    have stop : ¬ (links.color tree.ref ≠ .red ∧ links.up tree.ref ≠ .root) := by
      rintro ⟨color, above⟩
      rcases exits with red | rfl
      · exact color (represents.color_ref.trans red)
      · exact above up
    simp only [delBal, if_neg stop]

/-- A black item below another one starts a round. -/
theorem delBal_round
    (represents : Represents links ((Path.step side color value sibling path).plug tree))
    (up : links.up tree.ref = .item value) (black : tree.color = .black) (full : sibling ≠ .leaf)
    (rounds : Nat) :
    delBal (rounds + 1) links tree.ref =
      match delBalRound side links tree.ref with
      | (links, some next) => delBal rounds links next
      | (links, none) => some (links.setColor tree.ref .black) := by
  have hand : parentSide links tree.ref = side := parentSide_eq represents up (by
    rintro _ _ _ _ same
    cases same
    exact absurd rfl full)
  simp only [delBal, up, hand, represents.color_ref, black]
  simp

/-- `delBal` carries out `repairDelete`. -/
theorem delBal_represents (represents : Represents links (path.plug tree))
    (up : links.up tree.ref = path.ref) (repair : repairDelete path tree = some repaired)
    (enough : path.length < rounds) :
    ∃ changed, delBal rounds links tree.ref = some changed ∧ Represents changed repaired := by
  induction path generalizing links tree rounds with
  | top =>
    cases repair
    exact delBal_exit represents up (.inr rfl) (by omega)
  | step side color value sibling path ih =>
    cases treeColor : tree.color with
    | red =>
      rw [repairDelete_red treeColor] at repair
      cases repair
      exact delBal_exit represents up (.inl treeColor) (by omega)
    | black =>
      obtain ⟨rounds, rfl⟩ := Nat.exists_eq_add_of_lt enough
      simp only [Path.ref] at up
      have across := represents.around.2.2.2.1
      cases siblingColor : sibling.color with
      | red =>
        obtain ⟨near, uncle, far, rfl⟩ := sibling.eq_join_of_red side siblingColor
        rw [repairDelete_siblingRed treeColor] at repair
        obtain ⟨⟨settled, short⟩, settle, rfl⟩ := Option.map_eq_some_iff.mp repair
        -- The red uncle is turned up and the item gets a black one.
        have beside := represents.beside
        have painted := beside.setColor .black
        rw [← Path.plug_far] at painted
        have painted := painted.setColor .red
        have turned := rotate_represents painted
        have nil := rotate_up_nil painted
        generalize lifted : rotate side ((links.setColor (.item uncle) .black).setColor
          (.item value) .red) (.item value) = middle at turned nil
        have place : Represents middle ((Path.step side .red value near
            (.step side .black uncle far path)).plug tree) := turned
        obtain ⟨changed, outcome, held, root, painted⟩ :=
          delBalSettle_represents place (up_of_nil up place rfl nil) treeColor settle
        rw [delBal_round represents up treeColor join_ne_leaf]
        simp only [ref_join] at across
        simp only [delBalRound, up, across, beside.color_item, if_true, Links.up_setColor, lifted, outcome]
        cases short with
        | false => exact ⟨_, rfl, painted rfl⟩
        | true =>
          have exits := delBal_exit held (held.up_ref fun empty => by simpa [empty] using root rfl)
            (.inl (color_settle settle)) (show 0 < path.length + 1 + rounds by omega)
          rw [root rfl] at exits
          exact exits
      | black =>
        rw [repairDelete_siblingBlack treeColor siblingColor] at repair
        obtain ⟨⟨settled, short⟩, settle, rest⟩ := Option.bind_eq_some_iff.mp repair
        have full : sibling ≠ .leaf := by
          rintro rfl
          cases settle
        have uncleColor : links.color sibling.ref = sibling.color :=
          Represents.color_far (show Represents links (path.plug _) from represents)
        obtain ⟨changed, outcome, held, root, painted⟩ :=
          delBalSettle_represents represents up treeColor settle
        rw [delBal_round represents up treeColor full]
        simp only [delBalRound, up, across, uncleColor, siblingColor, reduceCtorEq, if_false, outcome]
        cases short with
        | false =>
          cases rest
          exact ⟨_, rfl, painted rfl⟩
        | true =>
          have again := ih held (held.up_ref fun empty => by simpa [empty] using root rfl) rest
            (show path.length < path.length + 1 + rounds by omega)
          rw [root rfl] at again
          exact again

end WinOFED.Complib
