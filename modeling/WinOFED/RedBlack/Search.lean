import WinOFED.RedBlack.Tree

/-! Searching a tree by a probe that says of each value on which side to go on, or that
the search ends there. -/
namespace WinOFED.RedBlack
open RbTree RedBlack.Path List
variable {α : Type*} {probe : α → Option Side} {value : α}

/-- Go down until the probe ends the search or there is no further node. -/
def RbTree.descend (probe : α → Option Side) : RbTree α → Path α → Path α × RbTree α
  | leaf, path => (path, leaf)
  | node color left value right, path =>
      match probe value with
      | none => (path, node color left value right)
      | some .left => left.descend probe (.step .left color value right path)
      | some .right => right.descend probe (.step .right color value left path)

/-- The last node of the path is one whose side the probe gave. -/
def Path.Toward (probe : α → Option Side) : Path α → Prop
  | top => True
  | step side _ value _ _ => probe value = some side

/-- Along the values the probe first says right, then ends the search, then says left. -/
def Steers (probe : α → Option Side) (items : List α) : Prop :=
  items.Pairwise fun first second =>
    (probe first = some .left → probe second = some .left) ∧
      (probe second = some .right → probe first = some .right)

/-- A value goes into a list between what is before it and what is after it. -/
theorem pairwise_insert {order : α → α → Prop} {before after : List α}
    (sorted : (before ++ after).Pairwise order) (below : ∀ item ∈ before, order item value)
    (above : ∀ item ∈ after, order value item) : (before ++ value :: after).Pairwise order := by
  obtain ⟨early, late, across⟩ := pairwise_append.mp sorted
  refine pairwise_append.mpr ⟨early, pairwise_cons.mpr ⟨above, late⟩, ?_⟩
  exact fun first one => forall_mem_cons.mpr ⟨below first one, across first one⟩

theorem RbTree.plug_descend (tree : RbTree α) (path : Path α) :
    (tree.descend probe path).1.plug (tree.descend probe path).2 = path.plug tree := by
  fun_induction tree.descend probe path with
  | case1 => rfl
  | case2 => rfl
  | case3 path color left value right _ ih => exact ih
  | case4 path color left value right _ ih => exact ih

theorem RbTree.descend_toward (tree : RbTree α) {path : Path α} (toward : path.Toward probe) :
    (tree.descend probe path).1.Toward probe := by
  fun_induction tree.descend probe path with
  | case1 => exact toward
  | case2 => exact toward
  | case3 path color left value right said ih => exact ih said
  | case4 path color left value right said ih => exact ih said

/-- A search that ends at a node ends there because of the probe. -/
theorem RbTree.probe_of_descend {tree left right : RbTree α} {path place : Path α} {color : Color}
    (ended : tree.descend probe path = (place, node color left value right)) :
    value ∈ tree.items ∧ probe value = none := by
  fun_induction tree.descend probe path with
  | case1 => cases ended
  | case2 path _ _ _ _ said =>
    cases ended
    exact ⟨by simp [items], said⟩
  | case3 path color left value right _ ih =>
    obtain ⟨inside, said⟩ := ih ended
    exact ⟨by simp [items, inside], said⟩
  | case4 path color left value right _ ih =>
    obtain ⟨inside, said⟩ := ih ended
    exact ⟨by simp [items, inside], said⟩

theorem Steers.node {color : Color} {left right : RbTree α}
    (steers : Steers probe (RbTree.node color left value right).items) :
    Steers probe left.items ∧ Steers probe right.items ∧
      (probe value = some .right → ∀ item ∈ left.items, probe item = some .right) ∧
      (probe value = some .left → ∀ item ∈ right.items, probe item = some .left) := by
  obtain ⟨onLeft, rest, across⟩ := pairwise_append.mp steers
  obtain ⟨least, onRight⟩ := pairwise_cons.mp rest
  exact ⟨onLeft, onRight, fun said item inside => (across item inside value (by simp)).2 said,
    fun said item inside => (least item inside).1 said⟩

/-- A search that finds no node has passed every value on the side the probe gives. -/
theorem RbTree.sides_of_descend {tree : RbTree α} {path place : Path α}
    (steers : Steers probe tree.items) (ended : tree.descend probe path = (place, leaf)) :
    (∀ item ∈ place.before, item ∈ path.before ∨ probe item = some .right) ∧
      ∀ item ∈ place.after, item ∈ path.after ∨ probe item = some .left := by
  fun_induction tree.descend probe path with
  | case1 =>
    cases ended
    exact ⟨fun _ => .inl, fun _ => .inl⟩
  | case2 => cases ended
  | case3 path color left value right said ih =>
    obtain ⟨leftSteers, _, _, beyond⟩ := steers.node
    obtain ⟨before, after⟩ := ih leftSteers ended
    refine ⟨before, fun item listed => ?_⟩
    rcases after item listed with inside | passed
    · simp only [Path.after, cons_append, mem_cons, mem_append] at inside
      rcases inside with rfl | inside | outside
      · exact .inr said
      · exact .inr (beyond said item inside)
      · exact .inl outside
    · exact .inr passed
  | case4 path color left value right said ih =>
    obtain ⟨_, rightSteers, beyond, _⟩ := steers.node
    obtain ⟨before, after⟩ := ih rightSteers ended
    refine ⟨fun item listed => ?_, after⟩
    rcases before item listed with inside | passed
    · simp only [Path.before, mem_append, mem_singleton] at inside
      rcases inside with (outside | inside) | rfl
      · exact .inl outside
      · exact .inr (beyond said item inside)
      · exact .inr said
    · exact .inr passed

/-- A search of a whole tree ends at a node where the probe ends it, or at an empty place
with the values on both sides of it. -/
theorem RbTree.descend_cases (tree : RbTree α) (steers : Steers probe tree.items) :
    (∃ value ∈ tree.items, probe value = none ∧ ∃ place color left right,
        tree.descend probe .top = (place, node color left value right)) ∨
      ∃ place : Path α, tree.descend probe .top = (place, leaf) ∧ place.plug leaf = tree ∧
        (∀ item ∈ place.before, probe item = some .right) ∧
        ∀ item ∈ place.after, probe item = some .left := by
  have same := @plug_descend _ probe tree .top
  rcases ended : tree.descend probe .top with ⟨place, _ | ⟨color, left, value, right⟩⟩
  · rw [ended] at same
    obtain ⟨before, after⟩ := sides_of_descend steers ended
    exact .inr ⟨place, rfl, same, fun item listed => (before item listed).resolve_left (by
      simp [Path.before]), fun item listed => (after item listed).resolve_left (by
      simp [Path.after])⟩
  · obtain ⟨inside, said⟩ := probe_of_descend ended
    exact .inl ⟨value, inside, said, place, color, left, right, rfl⟩

end WinOFED.RedBlack
