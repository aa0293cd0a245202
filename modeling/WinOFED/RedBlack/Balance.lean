import WinOFED.RedBlack.Tree

/-! The red-black invariant and its repair after an insertion or a removal.

`repairInsert` takes a tree with a red node at the end of the path, whose parent may be
red as well; `repairDelete` one whose subtree at the end of the path is short of one
black node. Both have no result on trees they cannot meet in a balanced one. -/
namespace WinOFED.RedBlack
open RbTree
variable {α : Type*} {tree : RbTree α}

namespace RbTree

/-- No red node has a red child, and every way down meets `height` black nodes. -/
def Balanced : RbTree α → Nat → Prop
  | leaf, height => height = 0
  | node .red left _ right, height =>
      left.Balanced height ∧ right.Balanced height ∧ left.color = .black ∧ right.color = .black
  | node .black _ _ _, 0 => False
  | node .black left _ right, height + 1 => left.Balanced height ∧ right.Balanced height

variable {height : Nat} {side : Side} {value : α}

@[simp] theorem balanced_join_red {near far : RbTree α} :
    (join side .red near value far).Balanced height ↔
      near.Balanced height ∧ far.Balanced height ∧ near.color = .black ∧ far.color = .black := by
  cases side
  · exact Iff.rfl
  · simp only [join, Balanced]
    tauto

@[simp] theorem balanced_join_black {near far : RbTree α} :
    (join side .black near value far).Balanced (height + 1) ↔
      near.Balanced height ∧ far.Balanced height := by
  cases side
  · exact Iff.rfl
  · simp only [join, Balanced]
    tauto

@[simp] theorem not_balanced_join_zero {near far : RbTree α} :
    ¬ (join side .black near value far).Balanced 0 := by
  cases side <;> simp [join, Balanced]

theorem Balanced.map {β : Type*} (f : α → β)
    (balanced : tree.Balanced height) : (tree.map f).Balanced height := by
  have color_map : ∀ tree : RbTree α, (tree.map f).color = tree.color := fun tree => by
    cases tree <;> rfl
  induction tree generalizing height with
  | leaf => exact balanced
  | node color left value right ihLeft ihRight =>
    cases color with
    | red =>
      obtain ⟨onLeft, onRight, leftBlack, rightBlack⟩ := balanced
      exact ⟨ihLeft onLeft, ihRight onRight, (color_map left).trans leftBlack,
        (color_map right).trans rightBlack⟩
    | black =>
      cases height with
      | zero => exact balanced
      | succ height => exact ⟨ihLeft balanced.1, ihRight balanced.2⟩

/-- Painting a red root black adds one to the height. -/
theorem Balanced.blacken (balanced : tree.Balanced height)
    (red : tree.color = .red) : (tree.recolor .black).Balanced (height + 1) := by
  obtain ⟨near, value, far, rfl⟩ := tree.eq_join_of_red .left red
  simp_all

/-- A red tree of a balanced one has black subtrees. -/
theorem Balanced.of_color_black {side : Side} {tree : RbTree α} {height : Nat}
    (balanced : tree.Balanced (height + 1)) (black : tree.color = .black) :
    ∃ near value far, tree = join side .black near value far ∧
      near.Balanced height ∧ far.Balanced height := by
  rcases tree.eq_leaf_or_join side with rfl | ⟨color, near, value, far, rfl⟩
  · cases balanced
  · obtain rfl : color = .black := by simpa using black
    exact ⟨near, value, far, rfl, by simpa using balanced⟩

end RbTree

namespace Path
open RbTree

/-- Filling the hole with a tree of this height, black if the hole is below a red node,
gives a balanced tree; the topmost node is black. -/
def Balanced : Path α → Nat → Prop
  | top, _ => True
  | step _ .red _ sibling path, height =>
      sibling.Balanced height ∧ sibling.color = .black ∧ path.Balanced height ∧
        path.color = .black ∧ path ≠ top
  | step _ .black _ sibling path, height =>
      sibling.Balanced height ∧ path.Balanced (height + 1)

variable {path : Path α} {height : Nat}

theorem Balanced.plug (balanced : path.Balanced height)
    (filled : tree.Balanced height) (alternate : path.color = .red → tree.color = .black) :
    ∃ height, (path.plug tree).Balanced height := by
  induction path generalizing tree height with
  | top => exact ⟨height, filled⟩
  | step side color value sibling path ih =>
    cases color with
    | red =>
      obtain ⟨beside, black, above, parent, _⟩ := balanced
      exact ih above (by simp [filled, beside, black, alternate rfl]) (by simp [parent])
    | black =>
      exact ih balanced.2 (balanced_join_black.mpr ⟨filled, balanced.1⟩) (by simp)

/-- Nothing below the top of a balanced path changes the color of the root. -/
theorem Balanced.color_plug (balanced : path.Balanced height)
    (inner : path ≠ top) (tree : RbTree α) : (path.plug tree).color = .black := by
  induction path generalizing tree height with
  | top => exact absurd rfl inner
  | step side color value sibling path ih =>
    by_cases last : path = top
    · subst last
      cases color with
      | red => exact absurd rfl balanced.2.2.2.2
      | black => simp [plug_step]
    · cases color with
      | red => exact ih balanced.2.2.1 last _
      | black => exact ih balanced.2 last _

/-- A balanced tree with a black root is balanced at every place. -/
theorem balanced_of_plug
    (balanced : (path.plug tree).Balanced height) (black : (path.plug tree).color = .black) :
    ∃ height, path.Balanced height ∧ tree.Balanced height ∧
      (path.color = .red → tree.color = .black) ∧ (path = top → tree.color = .black) := by
  induction path generalizing tree with
  | top => exact ⟨height, trivial, balanced, by simp [Path.color], fun _ => black⟩
  | step side color value sibling path ih =>
    obtain ⟨height, above, node, alternate, last⟩ := ih balanced black
    cases color with
    | red =>
      simp only [balanced_join_red, color_join] at node alternate last
      obtain ⟨filled, beside, treeBlack, siblingBlack⟩ := node
      have parent := Color.ne_red.mp fun shade => absurd (alternate shade) (by decide)
      have inner : path ≠ top := fun empty => absurd (last empty) (by decide)
      exact ⟨height, ⟨beside, siblingBlack, above, parent, inner⟩, filled, fun _ => treeBlack,
        fun empty => absurd empty (by simp)⟩
    | black =>
      cases height with
      | zero => exact absurd node (by simp)
      | succ height =>
        simp only [balanced_join_black] at node
        exact ⟨height, ⟨node.2, above⟩, node.1, by simp [Path.color], fun empty => absurd empty (by simp)⟩

end Path

/-! ### Insertion -/

/-- Repair a path that ends in a red node. A red parent is painted black if its sibling is
red too, which moves the trouble two nodes up; otherwise one or two rotations end it. -/
def repairInsert : Path α → RbTree α → Option (RbTree α)
  | .top, tree => some tree
  | .step side .black value sibling path, tree =>
      some ((Path.step side .black value sibling path).plug tree)
  | .step _ .red _ _ .top, _ => none
  | .step side .red value sibling (.step above _ grand uncle path), tree =>
      if uncle.color = .red then
        repairInsert path (.join above .red (.join side .black tree value sibling) grand
          (uncle.recolor .black))
      else if side = above then
        some (path.plug (.join above .black tree value (.join above .red sibling grand uncle)))
      else
        match tree.split above with
        | none => none
        | some (_, near, middle, far) =>
            some (path.plug (.join above .black (.join above .red sibling value near) middle
              (.join above .red far grand uncle)))

open RbTree RedBlack.Path in
/-- A red node may be put anywhere in a balanced tree. -/
theorem repairInsert_balanced (path : Path α) {height : Nat}
    (balanced : path.Balanced height) (filled : tree.Balanced height) (red : tree.color = .red) :
    ∃ repaired height, repairInsert path tree = some repaired ∧ repaired.Balanced height := by
  fun_induction repairInsert path tree generalizing height with
  | case1 tree => exact ⟨tree, height, rfl, filled⟩
  | case2 side value sibling path tree =>
    obtain ⟨height, whole⟩ := balanced.plug filled (by simp [Path.color])
    exact ⟨_, height, rfl, whole⟩
  | case3 side value sibling tree => exact absurd rfl balanced.2.2.2.2
  | case4 side value sibling above shade grand uncle path tree uncleRed ih =>
    obtain ⟨beside, black, higher, parent, _⟩ := balanced
    obtain rfl : shade = .black := parent
    refine ih higher.2 ?_ (by simp)
    have lifted := Balanced.blacken higher.1 uncleRed
    obtain ⟨near, item, far, rfl⟩ := uncle.eq_join_of_red .left uncleRed
    simp_all
  | case5 value sibling above shade grand uncle path tree uncleBlack =>
    obtain ⟨beside, black, higher, parent, _⟩ := balanced
    obtain rfl : shade = .black := parent
    have uncleBlack := Color.ne_red.mp uncleBlack
    have fixed : (join above .black tree value (join above .red sibling grand uncle)).Balanced
        (height + 1) := by simp [filled, beside, black, higher.1, uncleBlack]
    obtain ⟨height, whole⟩ := higher.2.plug fixed (by simp)
    exact ⟨_, height, rfl, whole⟩
  | case6 side value sibling above shade grand uncle path tree uncleBlack inner none =>
    obtain ⟨near, item, far, rfl⟩ := tree.eq_join_of_red above red
    simp at none
  | case7 side value sibling above shade grand uncle path tree uncleBlack inner color near middle far
      found =>
    obtain ⟨beside, black, higher, parent, _⟩ := balanced
    obtain rfl : shade = .black := parent
    have uncleBlack := Color.ne_red.mp uncleBlack
    obtain ⟨inside, item, outside, rfl⟩ := tree.eq_join_of_red above red
    simp only [split_join, Option.some.injEq, Prod.mk.injEq] at found
    obtain ⟨rfl, rfl, rfl, rfl⟩ := found
    have fixed : (join above .black (join above .red sibling value inside) item
        (join above .red outside grand uncle)).Balanced (height + 1) := by
      simp_all [higher.1]
    obtain ⟨height, whole⟩ := higher.2.plug fixed (by simp)
    exact ⟨_, height, rfl, whole⟩

theorem items_repairInsert (path : Path α) {repaired : RbTree α}
    (repair : repairInsert path tree = some repaired) :
    repaired.items = (path.plug tree).items := by
  fun_induction repairInsert path tree with
  | case1 tree =>
    cases repair
    rfl
  | case2 side value sibling path tree =>
    cases repair
    rfl
  | case3 side value sibling tree => cases repair
  | case4 side value sibling above shade grand uncle path tree uncleRed ih =>
    refine (ih repair).trans (Path.items_plug_congr ?_ path)
    cases side <;> cases above <;> simp [join, items]
  | case5 value sibling above shade grand uncle path tree uncleBlack =>
    cases repair
    refine Path.items_plug_congr ?_ path
    cases above <;> simp [join, items]
  | case6 side value sibling above shade grand uncle path tree uncleBlack inner none => cases repair
  | case7 side value sibling above shade grand uncle path tree uncleBlack inner color near middle far
      found =>
    cases repair
    rcases tree.eq_leaf_or_join above with rfl | ⟨shade, inside, item, outside, rfl⟩
    · cases found
    · simp only [split_join, Option.some.injEq, Prod.mk.injEq] at found
      obtain ⟨rfl, rfl, rfl, rfl⟩ := found
      obtain rfl : side = above.other := (side.eq_or_eq_other above).resolve_left inner
      refine Path.items_plug_congr ?_ path
      cases above <;> simp [join, items, Side.other]

/-! ### Removal -/

/-- Try to make up for a missing black node in `short` at the cost of its black sibling.
The flag says that the whole is now short instead. -/
def settle (side : Side) (color : Color) (value : α) (short sibling : RbTree α) :
    Option (RbTree α × Bool) :=
  match sibling.split side with
  | none => none
  | some (_, near, uncle, far) =>
      if far.color = .red then
        some (.join side color (.join side .black short value near) uncle (far.recolor .black), false)
      else
        match near.color, near.split side with
        | .red, some (_, inner, niece, outer) =>
            some (.join side color (.join side .black short value inner) niece
              (.join side .black outer uncle far), false)
        | _, _ => some (.join side color short value (sibling.recolor .red), true)

/-- Repair a path that ends in a tree short of one black node. -/
def repairDelete : Path α → RbTree α → Option (RbTree α)
  | .top, tree => some (tree.recolor .black)
  | .step side color value sibling path, tree =>
      if tree.color = .red then
        some ((Path.step side color value sibling path).plug (tree.recolor .black))
      else
        match sibling.split side with
        | some (.red, near, uncle, far) =>
            match settle side .red value tree near with
            | none => none
            | some (settled, short) =>
                some (path.plug (.join side .black
                  (if short then settled.recolor .black else settled) uncle far))
        | _ =>
            match settle side color value tree sibling with
            | none => none
            | some (settled, true) => repairDelete path settled
            | some (settled, false) => some (path.plug settled)

/-- A tree that takes the place of one of height `height + 1`: painting its root black
makes up for the missing node if it is red. -/
def RbTree.Short (tree : RbTree α) (height : Nat) : Prop :=
  tree.color = .red ∧ (tree.recolor .black).Balanced (height + 1) ∨
    tree.color = .black ∧ tree.Balanced height

theorem RbTree.Balanced.short {height : Nat} (balanced : tree.Balanced height) : tree.Short height := by
  cases color : tree.color with
  | red => exact .inl ⟨color, balanced.blacken color⟩
  | black => exact .inr ⟨color, balanced⟩

/-- The height of a node over subtrees of the given height. -/
def Color.height : Color → Nat → Nat
  | .red, height => height
  | .black, height => height + 1

section Settle
open RbTree
variable {side : Side} {color shade : Color} {value uncle niece : α} {short near far inner outer : RbTree α}

theorem settle_far (farRed : far.color = .red) :
    settle side color value short (join side shade near uncle far) =
      some (join side color (join side .black short value near) uncle (far.recolor .black), false) := by
  simp [settle, farRed]

theorem settle_near (farBlack : far.color = .black) :
    settle side color value short
        (join side shade (join side .red inner niece outer) uncle far) =
      some (join side color (join side .black short value inner) niece
        (join side .black outer uncle far), false) := by
  simp [settle, farBlack]

theorem settle_neither (farBlack : far.color = .black) (nearBlack : near.color = .black) :
    settle side color value short (join side shade near uncle far) =
      some (join side color short value (join side .red near uncle far), true) := by
  simp [settle, farBlack, nearBlack]

/-- Settling either restores the node's height or leaves it one short. -/
theorem settle_balanced {sibling : RbTree α} {height : Nat} (black : short.color = .black)
    (lacking : short.Balanced height) (siblingBlack : sibling.color = .black)
    (beside : sibling.Balanced (height + 1)) :
    (∃ settled, settle side color value short sibling = some (settled, false) ∧
        settled.color = color ∧ settled.Balanced (color.height (height + 1))) ∨
      ∃ settled, settle side color value short sibling = some (settled, true) ∧
        settled.color = color ∧ settled.Short (color.height height) := by
  obtain ⟨near, uncle, far, rfl, onNear, onFar⟩ := @Balanced.of_color_black _ side _ _ beside siblingBlack
  cases farColor : far.color with
  | red =>
    left
    refine ⟨_, settle_far farColor, by simp, ?_⟩
    have lifted := onFar.blacken farColor
    obtain ⟨first, item, second, rfl⟩ := far.eq_join_of_red .left farColor
    cases color <;> simp_all [Color.height]
  | black =>
    cases nearColor : near.color with
    | red =>
      left
      obtain ⟨inner, niece, outer, rfl⟩ := near.eq_join_of_red side nearColor
      refine ⟨_, settle_near farColor, by simp, ?_⟩
      cases color <;> simp_all [Color.height]
    | black =>
      right
      refine ⟨_, settle_neither farColor nearColor, by simp, ?_⟩
      cases color <;> simp_all [Short, Color.height]

theorem items_settle {sibling settled : RbTree α} {lacks : Bool}
    (settle : settle side color value short sibling = some (settled, lacks)) :
    settled.items = (join side color short value sibling).items := by
  rcases sibling.eq_leaf_or_join side with rfl | ⟨shade, near, uncle, far, rfl⟩
  · cases settle
  · cases farColor : far.color with
    | red =>
      rw [settle_far farColor] at settle
      cases settle
      cases side <;> simp [join, items]
    | black =>
      cases nearColor : near.color with
      | red =>
        obtain ⟨inner, niece, outer, rfl⟩ := near.eq_join_of_red side nearColor
        rw [settle_near farColor] at settle
        cases settle
        cases side <;> simp [join, items]
      | black =>
        rw [settle_neither farColor nearColor] at settle
        cases settle
        cases side <;> simp [join, items]

theorem color_settle {sibling settled : RbTree α} {lacks : Bool}
    (settle : settle side color value short sibling = some (settled, lacks)) :
    settled.color = color := by
  rcases sibling.eq_leaf_or_join side with rfl | ⟨shade, near, uncle, far, rfl⟩
  · cases settle
  · simp only [RedBlack.settle, split_join] at settle
    split at settle
    · cases settle
      simp
    · split at settle <;> cases settle <;> simp

end Settle

section RepairDelete
open RbTree RedBlack.Path
variable {side : Side} {color : Color} {value uncle : α} {tree near far sibling : RbTree α} {path : Path α}

theorem repairDelete_red (red : tree.color = .red) :
    repairDelete path tree = some (path.plug (tree.recolor .black)) := by
  cases path with
  | top => rfl
  | step => exact if_pos red

theorem repairDelete_siblingRed (black : tree.color = .black) :
    repairDelete (.step side color value (join side .red near uncle far) path) tree =
      (settle side .red value tree near).map fun settled =>
        path.plug (join side .black
          (if settled.2 then settled.1.recolor .black else settled.1) uncle far) := by
  simp only [repairDelete, black, reduceCtorEq, if_false, split_join]
  cases settle side .red value tree near <;> rfl

theorem repairDelete_siblingBlack (black : tree.color = .black)
    (siblingBlack : sibling.color = .black) :
    repairDelete (.step side color value sibling path) tree =
      (settle side color value tree sibling).bind fun settled =>
        if settled.2 then repairDelete path settled.1 else some (path.plug settled.1) := by
  rcases sibling.eq_leaf_or_join side with rfl | ⟨shade, near, uncle, far, rfl⟩
  · simp [repairDelete, black, settle]
  · obtain rfl : shade = .black := by simpa using siblingBlack
    simp only [repairDelete, black, reduceCtorEq, if_false, split_join]
    rcases settle side color value tree (join side .black near uncle far) with
      _ | ⟨settled, _ | _⟩ <;> rfl

/-- A removed black node can be made up for anywhere in a balanced tree. -/
theorem repairDelete_balanced {height : Nat} (balanced : path.Balanced (height + 1))
    (short : tree.Short height) :
    ∃ repaired height, repairDelete path tree = some repaired ∧ repaired.Balanced height ∧
      repaired.color = .black := by
  induction path generalizing tree height with
  | top =>
    have blackened : (tree.recolor .black).color = .black := by cases tree <;> rfl
    rcases short with ⟨_, lifted⟩ | ⟨black, lacking⟩
    · exact ⟨_, _, rfl, lifted, blackened⟩
    · refine ⟨_, height, rfl, ?_, blackened⟩
      rwa [← black, recolor_self]
  | step side color value sibling path ih =>
    rcases short with ⟨red, lifted⟩ | ⟨black, lacking⟩
    · have blackened : (tree.recolor .black).color = .black := by cases tree <;> rfl
      obtain ⟨whole, fits⟩ := balanced.plug lifted fun _ => blackened
      exact ⟨_, whole, if_pos red, fits, balanced.color_plug (by simp) _⟩
    -- A node built over the parent's place gives a balanced tree again.
    · have close : ∀ node : RbTree α, node.Balanced (color.height (height + 1)) →
          node.color = color → ∃ whole, (path.plug node).Balanced whole ∧
            (path.plug node).color = .black := by
        intro node fits shade
        cases color with
        | red =>
          obtain ⟨_, _, above, parent, inner⟩ := balanced
          obtain ⟨whole, done⟩ := above.plug fits (by simp [parent])
          exact ⟨whole, done, above.color_plug inner _⟩
        | black =>
          obtain ⟨whole, done⟩ := balanced.2.plug fits fun _ => shade
          refine ⟨whole, done, ?_⟩
          by_cases last : path = top
          · rw [last]
            exact shade
          · exact balanced.2.color_plug last _
      cases siblingColor : sibling.color with
      | red =>
        obtain rfl : color = .black := by
          rw [← Color.ne_red]
          rintro rfl
          exact absurd (siblingColor.symm.trans balanced.2.1) (by decide)
        obtain ⟨near, uncle, far, rfl⟩ := sibling.eq_join_of_red side siblingColor
        obtain ⟨onNear, onFar, nearBlack, farBlack⟩ := balanced_join_red.mp balanced.1
        rw [repairDelete_siblingRed black]
        rcases @settle_balanced _ side .red value _ near _ black lacking nearBlack onNear with
          ⟨settled, result, _, fits⟩ | ⟨settled, result, shade, lacks⟩
        · obtain ⟨whole, done⟩ := close (join side .black settled uncle far)
            (balanced_join_black.mpr ⟨fits, onFar⟩) (by simp)
          exact ⟨_, whole, by rw [result]; rfl, done⟩
        · obtain ⟨_, lifted⟩ := lacks.resolve_right fun other =>
            absurd (shade.symm.trans other.1) (by decide)
          obtain ⟨whole, done⟩ := close (join side .black (settled.recolor .black) uncle far)
            (balanced_join_black.mpr ⟨lifted, onFar⟩) (by simp)
          exact ⟨_, whole, by rw [result]; rfl, done⟩
      | black =>
        have beside : sibling.Balanced (height + 1) := by
          cases color with
          | red => exact balanced.1
          | black => exact balanced.1
        rw [repairDelete_siblingBlack black siblingColor]
        rcases @settle_balanced _ side color value _ sibling _ black lacking siblingColor beside with
          ⟨settled, result, shade, fits⟩ | ⟨settled, result, _, lacks⟩
        · obtain ⟨whole, done⟩ := close settled fits shade
          exact ⟨_, whole, by rw [result]; rfl, done⟩
        · rw [result]
          refine ih ?_ lacks
          cases color with
          | red => exact balanced.2.2.1
          | black => exact balanced.2

theorem items_repairDelete {repaired : RbTree α} (repair : repairDelete path tree = some repaired) :
    repaired.items = (path.plug tree).items := by
  induction path generalizing tree with
  | top =>
    cases repair
    exact items_recolor _ _
  | step side color value sibling path ih =>
    cases treeColor : tree.color with
    | red =>
      rw [repairDelete_red treeColor] at repair
      cases repair
      exact items_plug_congr (items_recolor _ _) _
    | black =>
      cases siblingColor : sibling.color with
      | red =>
        obtain ⟨near, uncle, far, rfl⟩ := sibling.eq_join_of_red side siblingColor
        rw [repairDelete_siblingRed treeColor] at repair
        obtain ⟨⟨settled, short⟩, settle, rfl⟩ := Option.map_eq_some_iff.mp repair
        have same := items_settle settle
        refine items_plug_congr ?_ path
        cases side <;> cases short <;> simp_all [join, items]
      | black =>
        rw [repairDelete_siblingBlack treeColor siblingColor] at repair
        obtain ⟨⟨settled, short⟩, settle, rest⟩ := Option.bind_eq_some_iff.mp repair
        have same := items_settle settle
        cases short with
        | true => exact (ih rest).trans (items_plug_congr same path)
        | false =>
          cases rest
          exact items_plug_congr same path

end RepairDelete
end WinOFED.RedBlack
