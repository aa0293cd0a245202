import WinOFED.Complib.FMapRefine
import WinOFED.Transition.Machine

/-! The items of a flexi map after a key. -/
namespace WinOFED.Complib
open RedBlack RbTree List
variable {κ α : Type*} [DecidableEq α]

/-- The loop of `cl_fmap_get_next`, with the item found so far. -/
def fmapSeekNext (map : FMap κ α) (key : κ) : Nat → Ref α → Ref α → Option (Ref α)
  | 0, _, _ => none
  | rounds + 1, item, found =>
      if item = .nil then some found
      else if map.compare key (map.key item) < 0 then
        fmapSeekNext map key rounds (map.links.child .left item) item
      else fmapSeekNext map key rounds (map.links.child .right item) found

/-- `cl_fmap_get_next`. -/
def fmapGetNext (map : FMap κ α) (key : κ) : Option (Ref α) :=
  fmapSeekNext map key (map.count + 1) (map.links.child .left .root) .nil

/-- The items that calls of `cl_fmap_get_next` give, each with the key of the last one. -/
def fmapEnumerate (map : FMap κ α) : Nat → κ → Option (List α)
  | 0, _ => none
  | calls + 1, key => (fmapGetNext map key).bind fun
      | .item item => (fmapEnumerate map calls (map.key (.item item))).map (item :: ·)
      | _ => some []

/-- A map made by insertions and removals, with the items in it. -/
inductive FMap.Built (compare : κ → κ → Int) : FMap κ α → List α → Prop
  | init (memory : FMap κ α) : Built compare (fmapInit memory compare) []
  | insert {map after members item found} (built : Built compare map members)
      (outside : item ∉ members) (key : κ)
      (run : fmapInsert map key (.item item) = some (after, found)) :
      Built compare after (if found = .item item then item :: members else members)
  | remove {map after members item} (built : Built compare map members) (inside : item ∈ members)
      (run : fmapRemoveItem map (.item item) = some after) :
      Built compare after (members.erase item)

variable {compare : κ → κ → Int} {map : FMap κ α} {tree : RbTree α} {members : List α}

theorem FMap.Built.holds (built : FMap.Built compare map members) (lawful : LawfulCompare compare) :
    ∃ tree, map.Holds tree ∧ tree.items.Perm members ∧ map.compare = compare := by
  induction built with
  | init memory =>
    refine ⟨.leaf, ⟨⟨trivial, ?_, nodup_nil, ?_, ?_⟩, rfl, ⟨0, rfl⟩, ?_, Pairwise.nil, rfl⟩, .nil, rfl⟩
    all_goals simp [fmapInit, fmapRemoveAll, Memory.Ring.Segment]
  | @insert map after members item found _ outside key run ih =>
    obtain ⟨tree, holds, perm, rfl⟩ := ih
    have fresh : item ∉ tree.items := by rwa [perm.mem_iff]
    rcases holds.insert lawful key fresh with ⟨existing, inside, _, ran⟩ |
      ⟨_, linked, grown, before, after, ran, held, split, joined, _, compares⟩
    · cases run.symm.trans ran
      have other : (.item existing : Ref α) ≠ .item item := by
        rintro ⟨⟩
        exact fresh inside
      rw [if_neg other]
      exact ⟨tree, holds.prepare key fresh, perm, rfl⟩
    · cases run.symm.trans ran
      rw [if_pos rfl]
      refine ⟨grown, held, ?_, compares⟩
      rw [joined]
      rw [split] at perm
      exact perm_middle.trans (perm.cons item)
  | @remove map after members item _ inside run ih =>
    obtain ⟨tree, holds, perm, rfl⟩ := ih
    obtain ⟨shorter, rest, ran, held, items, _, compares⟩ := holds.removeItem (perm.mem_iff.mpr inside)
    cases run.symm.trans ran
    exact ⟨rest, held, items ▸ perm.erase item, compares⟩

/-- The key of the item is after the given one. -/
def FMap.after (map : FMap κ α) (key : κ) (item : α) : Bool :=
  map.compare key (map.key (.item item)) < 0

section
variable (lawful : LawfulCompare map.compare) {key : κ}
include lawful

/-- The descent ends at the first item after the key, or at what was found above. -/
theorem fmapSeekNext_eq {path : Path α} {rounds : Nat} (found : Ref α)
    (represents : Represents map.links (path.plug tree)) (sorted : map.Sorted tree.items)
    (enough : tree.items.length < rounds) :
    fmapSeekNext map key rounds tree.ref found =
      some ((tree.items.find? (map.after key)).elim found .item) := by
  induction rounds generalizing path tree found with
  | zero => cases enough
  | succ rounds ih =>
    cases tree with
    | leaf => rfl
    | node color left value right =>
      obtain ⟨_, _, onLeft, onRight, _, _⟩ := represents.inside
      obtain ⟨below, rest, across⟩ := pairwise_append.mp sorted
      simp only [items, length_append, length_cons] at enough
      simp only [fmapSeekNext, ref, reduceCtorEq, if_false, onLeft, onRight, items, find?_append]
      split_ifs with less
      · refine (@ih _ (.step .left color value right path) _ represents below (by omega)).trans ?_
        have said : map.after key value := decide_eq_true less
        rw [find?_cons_of_pos said]
        cases left.items.find? _ <;> rfl
      · -- No item on the left is after the key if this one is not.
        have none : left.items.find? (map.after key) = none := by
          refine find?_eq_none.mpr fun item inside after => less ?_
          have before := across item inside value (mem_cons_self ..)
          exact lawful.lt_trans (of_decide_eq_true after) (Int.le_of_lt before)
        refine (@ih _ (.step .right color value left path) _ represents
          (pairwise_cons.mp rest).2 (by omega)).trans ?_
        have said : ¬ map.after key value := mt of_decide_eq_true less
        rw [none, find?_cons_of_neg said]
        rfl

variable (holds : map.Holds tree)
include holds

theorem FMap.Holds.getNext :
    fmapGetNext map key = some ((tree.items.find? (map.after key)).elim .nil .item) := by
  rw [fmapGetNext, holds.represents.root]
  exact @fmapSeekNext_eq _ _ _ _ _ lawful _ .top _ _ holds.represents holds.sorted
    (by rw [holds.count]; exact Nat.lt_succ_self _)

/-- The calls give the items after the key, in order. -/
theorem FMap.Holds.enumerate {calls : Nat} {rest : List α}
    (listed : tree.items.filter (map.after key) = rest) (enough : rest.length < calls) :
    fmapEnumerate map calls key = some rest := by
  induction calls generalizing key rest with
  | zero => cases enough
  | succ calls ih =>
    have first := @getNext _ _ _ _ _ lawful key holds
    rw [← head?_filter, listed] at first
    cases rest with
    | nil => simp [fmapEnumerate, first]
    | cons item rest =>
      have sorted : map.Sorted (item :: rest) := listed ▸ holds.sorted.sublist filter_sublist
      have inside : item ∈ tree.items.filter (map.after key) := listed ▸ mem_cons_self ..
      have less := of_decide_eq_true (mem_filter.mp inside).2
      -- What is after the item is what is after the key, without the item.
      have further : tree.items.filter (map.after (map.key (.item item))) = rest := by
        have narrowed : tree.items.filter (map.after (map.key (.item item))) =
            (tree.items.filter (map.after key)).filter (map.after (map.key (.item item))) := by
          rw [filter_filter]
          refine filter_congr fun other _ => Bool.eq_self_and.mpr fun beyond => ?_
          exact decide_eq_true (lawful.lt_trans less (Int.le_of_lt (of_decide_eq_true beyond)))
        rw [narrowed, listed, filter_cons_of_neg (by simp [after, lawful.refl]), filter_eq_self]
        simpa [after] using (pairwise_cons.mp sorted).1
      simp [fmapEnumerate, first, ih further (Nat.lt_of_succ_lt_succ enough)]

end

/-- In a map that insertions and removals have made, `cl_fmap_get_next` gives the first item in
the order of the keys whose key is after the given one, or the end, and from a key before all
items repeated calls give every item once, in order. -/
theorem getNext_of_built (lawful : LawfulCompare compare) (built : FMap.Built compare map members) :
    ∃ items, items.Perm members ∧ items.Nodup ∧ map.compare = compare ∧ map.Sorted items ∧
      (∀ key, fmapGetNext map key = some ((items.find? (map.after key)).elim fmapEnd .item)) ∧
      ∀ key, (∀ item ∈ members, map.after key item) →
        fmapEnumerate map (members.length + 1) key = some items := by
  obtain ⟨tree, holds, perm, rfl⟩ := built.holds lawful
  refine ⟨tree.items, perm, holds.represents.nodup, rfl, holds.sorted,
    fun key => holds.getNext lawful, fun key before => ?_⟩
  refine holds.enumerate lawful (filter_eq_self.mpr ?_) (Nat.lt_succ_of_le perm.length_eq.le)
  simpa [perm.mem_iff] using before

/-- Insert an item under a key that the map does not have. -/
def addItem (map : FMap Int Nat) (pair : Int × Nat) : Option (FMap Int Nat) := do
  let (after, found) ← fmapInsert map pair.1 (.item pair.2)
  if found = .item pair.2 then some after else none

theorem FMap.Built.addItem {map after : FMap Int Nat} {members : List Nat} {pair : Int × Nat}
    {compare : Int → Int → Int} (built : FMap.Built compare map members) (outside : pair.2 ∉ members)
    (added : addItem map pair = some after) : FMap.Built compare after (pair.2 :: members) := by
  obtain ⟨⟨after, found⟩, run, kept⟩ := Option.bind_eq_some_iff.mp added
  obtain ⟨rfl, ⟨⟩⟩ := Option.ite_none_right_eq_some.mp kept
  have inserted := built.insert outside pair.1 run
  rwa [if_pos rfl] at inserted

/-- A map that gets three items, the last of which belongs between the others. -/
theorem threeItems_getNext : ∃ map : FMap Int Nat, FMap.Built (· - ·) map [6, 9, 7] ∧
    map.Sorted [7, 6, 9] ∧ fmapEnumerate map 4 4 = some [7, 6, 9] := by
  let memory : FMap Int Nat := ⟨⟨fun _ _ => .nil, fun _ => .nil, fun _ => .red⟩,
    ⟨fun _ => .nil, fun _ => .nil⟩, fun _ => 5, 0, fun _ _ => 0⟩
  obtain ⟨map, ended, listed, less⟩ : ∃ map, Transition.Machine.run addItem
      (fmapInit memory (· - ·)) [(5, 7), (8, 9), (6, 6)] = some map ∧
      fmapEnumerate map 4 4 = some [7, 6, 9] ∧ [6, 9, 7].all (map.after 4) = true :=
    Transition.Machine.run_of_any (by decide +kernel)
  obtain ⟨one, first, ended⟩ := Option.bind_eq_some_iff.mp ended
  obtain ⟨two, second, ended⟩ := Option.bind_eq_some_iff.mp ended
  obtain ⟨_, third, ⟨⟩⟩ := Option.bind_eq_some_iff.mp ended
  have built := (((FMap.Built.init memory).addItem not_mem_nil first).addItem (by decide)
    second).addItem (by decide) third
  have lawful : LawfulCompare fun first second : Int => first - second :=
    ⟨fun _ _ => by omega, fun _ _ _ _ _ => by omega⟩
  obtain ⟨items, -, -, -, sorted, -, all⟩ := getNext_of_built lawful built
  obtain rfl := Option.some.inj (listed.symm.trans (all 4 (all_eq_true.mp less)))
  exact ⟨_, built, sorted, listed⟩

end WinOFED.Complib
