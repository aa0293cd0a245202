import WinOFED.Complib.MapMerge

/-! Splitting two maps by their keys, and the results for both kinds of maps. -/
namespace WinOFED.Complib
open RedBlack List
variable {κ α : Type*} [DecidableEq α] {items : List α} (rounds : Nat)

/-! ### Splitting by the keys -/

section Dividing
variable {compare : κ → κ → Int} {keyOf : α → κ}

/-- What splitting two maps leaves in them, and puts in the others. -/
structure Divided (compare : κ → κ → Int) (keyOf : α → κ)
    (items1 items2 left1 left2 new old : List α) : Prop where
  left1_iff : ∀ item, item ∈ left1 ↔ item ∈ items1 ∧ Taken compare keyOf items2 item
  left2_iff : ∀ item, item ∈ left2 ↔ item ∈ items2 ∧ Taken compare keyOf items1 item
  new_iff : ∀ item, item ∈ new ↔ item ∈ items2 ∧ ¬ Taken compare keyOf items1 item
  old_iff : ∀ item, item ∈ old ↔ item ∈ items1 ∧ ¬ Taken compare keyOf items2 item
  once : ((left1 ++ old) ++ (left2 ++ new)).Perm (items1 ++ items2)

variable {items1 left2 items2 new left1 old : List α} {item : α}

section

omit [DecidableEq α]

theorem Divided.swap (divided : Divided compare keyOf items1 items2 left1 left2 new old) :
    Divided compare keyOf items2 items1 left2 left1 old new :=
  ⟨divided.left2_iff, divided.left1_iff, divided.old_iff, divided.new_iff,
    List.perm_append_comm.trans (divided.once.trans List.perm_append_comm)⟩

theorem taken_snoc {last : α} :
    Taken compare keyOf (items ++ [last]) item ↔
      Taken compare keyOf items item ∨ compare (keyOf item) (keyOf last) = 0 := by
  simp only [Taken, mem_append, mem_singleton, or_and_right, exists_or, exists_eq_left]

/-- A key above all others is new to them. -/
theorem not_taken_of_below (lawful : LawfulCompare compare)
    (below : ∀ other ∈ items, compare (keyOf other) (keyOf item) < 0) :
    ¬ Taken compare keyOf items item := by
  rintro ⟨other, listed, same⟩
  have less := lawful.neg_iff.mp (below other listed)
  omega

/-- A later item of the first map alone. -/
theorem Divided.snoc_old (lawful : LawfulCompare compare) {grown : List α}
    (divided : Divided compare keyOf items1 items2 left1 left2 new old)
    (below : ∀ other ∈ items1 ++ items2, compare (keyOf other) (keyOf item) < 0)
    (perm : grown.Perm (item :: old)) :
    Divided compare keyOf (items1 ++ [item]) items2 left1 left2 new grown := by
  have free : ¬ Taken compare keyOf items2 item := not_taken_of_below lawful (forall_mem_append.mp below).2
  have same : ∀ other ∈ items2, Taken compare keyOf (items1 ++ [item]) other ↔
      Taken compare keyOf items1 other := by
    intro other listed
    have less := below other (mem_append_right _ listed)
    rw [taken_snoc, or_iff_left]
    omega
  constructor
  · intro other
    rw [divided.left1_iff, mem_append, mem_singleton, or_and_right]
    refine (or_iff_left ?_).symm
    rintro ⟨rfl, taken⟩
    exact free taken
  · intro other
    rw [divided.left2_iff]
    exact and_congr_right fun listed => (same other listed).symm
  · intro other
    rw [divided.new_iff]
    exact and_congr_right fun listed => not_congr (same other listed).symm
  · intro other
    rw [perm.mem_iff, mem_cons, divided.old_iff, mem_append, mem_singleton, or_and_right, or_comm]
    refine or_congr_right (and_iff_left_of_imp ?_).symm
    rintro rfl
    exact free
  · classical
    refine perm_iff_count.mpr fun other => ?_
    have counted := divided.once.count_eq other
    have added := perm.count_eq other
    simp only [count_append, count_cons, count_nil] at counted added ⊢
    omega

/-- What later items with one key make of the parts of a map. -/
theorem snoc_iff {item1 item2 : α}
    (left_iff : ∀ item, item ∈ left1 ↔ item ∈ items1 ∧ Taken compare keyOf items2 item)
    (alone_iff : ∀ item, item ∈ old ↔ item ∈ items1 ∧ ¬ Taken compare keyOf items2 item)
    (below : ∀ other ∈ items1, compare (keyOf other) (keyOf item2) < 0)
    (equal : compare (keyOf item1) (keyOf item2) = 0) (other : α) :
    (other ∈ left1 ++ [item1] ↔
        other ∈ items1 ++ [item1] ∧ Taken compare keyOf (items2 ++ [item2]) other) ∧
      (other ∈ old ↔ other ∈ items1 ++ [item1] ∧ ¬ Taken compare keyOf (items2 ++ [item2]) other) := by
  have same : other ∈ items1 → (Taken compare keyOf (items2 ++ [item2]) other ↔
      Taken compare keyOf items2 other) := by
    intro listed
    have less := below other listed
    rw [taken_snoc, or_iff_left]
    omega
  have taken : other = item1 → Taken compare keyOf (items2 ++ [item2]) other := by
    rintro rfl
    exact taken_snoc.mpr (Or.inr equal)
  simp only [mem_append, mem_singleton, left_iff, alone_iff]
  constructor <;> tauto

/-- Later items of both maps with one key. -/
theorem Divided.snoc_both (lawful : LawfulCompare compare) {item1 item2 : α}
    (divided : Divided compare keyOf items1 items2 left1 left2 new old)
    (below1 : ∀ other ∈ items1 ++ items2, compare (keyOf other) (keyOf item1) < 0)
    (below2 : ∀ other ∈ items1 ++ items2, compare (keyOf other) (keyOf item2) < 0)
    (equal : compare (keyOf item1) (keyOf item2) = 0) :
    Divided compare keyOf (items1 ++ [item1]) (items2 ++ [item2]) (left1 ++ [item1])
      (left2 ++ [item2]) new old := by
  have first := snoc_iff divided.left1_iff divided.old_iff ((forall_mem_append.mp below2).1) equal
  have second := snoc_iff divided.left2_iff divided.new_iff
    ((forall_mem_append.mp below1).2) (lawful.zero_iff.mp equal)
  refine ⟨fun other => (first other).1, fun other => (second other).1, fun other => (second other).2,
    fun other => (first other).2, ?_⟩
  classical
  refine perm_iff_count.mpr fun other => ?_
  have counted := divided.once.count_eq other
  simp only [count_append, count_cons, count_nil] at counted ⊢
  omega

/-- Items that follow on what is behind. -/
theorem below_append {less : α → α → Prop} {past todo past' todo' : List α} (moved : List α)
    (below : ∀ item ∈ past, ∀ other ∈ todo, less item other)
    (ahead : ∀ item ∈ moved, ∀ other ∈ todo', less item other)
    (behind : ∀ item ∈ past', item ∈ moved ∨ item ∈ past) (later : todo' ⊆ todo) :
    ∀ item ∈ past', ∀ other ∈ todo', less item other := by
  intro item inPast other inTodo
  rcases behind item inPast with new | earlier
  · exact ahead item new other inTodo
  · exact below item earlier other (later inTodo)

end

/-- The maps in the course of `cl_fmap_delta`, with what is still to be looked at. What is
behind has smaller keys. -/
structure Dividing (compare : κ → κ → Int) (keyOf : α → κ) (items1 items2 todo1 todo2 : List α)
    (maps : FDelta κ α) (past1 past2 left1 left2 new old : List α) : Prop where
  first : items1 = past1 ++ todo1
  second : items2 = past2 ++ todo2
  map1 : maps.map1.Carries compare keyOf (left1 ++ todo1)
  map2 : maps.map2.Carries compare keyOf (left2 ++ todo2)
  newMap : maps.new.Carries compare keyOf new
  oldMap : maps.old.Carries compare keyOf old
  divided : Divided compare keyOf past1 past2 left1 left2 new old
  below : ∀ past ∈ past1 ++ past2, ∀ item ∈ todo1 ++ todo2, compare (keyOf past) (keyOf item) < 0

/-- The maps with the roles of the two inputs exchanged. -/
def FDelta.swap (maps : FDelta κ α) : FDelta κ α :=
  { map1 := maps.map2, map2 := maps.map1, new := maps.old, old := maps.new }

namespace Dividing
variable {items1 items2 todo1 todo2 past1 past2 left1 left2 new old : List α} {item item2 : α}
  {maps : FDelta κ α}

omit [DecidableEq α] in
theorem swap
    (dividing : Dividing compare keyOf items1 items2 todo1 todo2 maps past1 past2 left1 left2 new old) :
    Dividing compare keyOf items2 items1 todo2 todo1 maps.swap past2 past1 left2 left1 old new := by
  refine ⟨dividing.second, dividing.first, dividing.map2, dividing.map1, dividing.oldMap,
    dividing.newMap, dividing.divided.swap, ?_⟩
  intro past inPast item inTodo
  apply dividing.below past _ item
  · exact perm_append_comm.mem_iff.mp inTodo
  · exact perm_append_comm.mem_iff.mp inPast

omit [DecidableEq α] in
theorem ordered (dividing : Dividing compare keyOf items1 items2 (item :: todo1) todo2 maps past1
      past2 left1 left2 new old) : ∀ other ∈ todo1, compare (keyOf item) (keyOf other) < 0 :=
  (List.pairwise_cons.mp (dividing.map1.ascending.sublist (List.sublist_append_right _ _))).1

/-- The next item of the first map is in no other. -/
theorem moveOld (lawful : LawfulCompare compare)
    (dividing : Dividing compare keyOf items1 items2 (item :: todo1) todo2 maps past1 past2 left1
      left2 new old)
    (less : ∀ other ∈ todo2.head?, compare (keyOf item) (keyOf other) < 0) :
    ∃ oldAfter mapAfter oldItems,
      fmapDeltaMove maps.old maps.map1 (.item item) = some (oldAfter, mapAfter, firstItem todo1) ∧
      Dividing compare keyOf items1 items2 todo1 todo2
        { maps with old := oldAfter, map1 := mapAfter } (past1 ++ [item]) past2 left1 left2 new
        oldItems := by
  have behind : ∀ other ∈ past1 ++ past2, compare (keyOf other) (keyOf item) < 0 :=
    fun other listed => dividing.below other listed item (by simp)
  have oldBehind : ∀ other ∈ old, compare (keyOf other) (keyOf item) < 0 := fun other listed =>
    behind other (mem_append_left _ ((dividing.divided.old_iff other).mp listed).1)
  have outside : item ∉ old := by
    intro listed
    have less := oldBehind item listed
    rw [lawful.refl] at less
    omega
  obtain ⟨shorter, removed, shortCarries, key⟩ := dividing.map1.removeItem
  obtain ⟨grown, longer, inserted, grownCarries, perm⟩ := dividing.oldMap.insert_new lawful outside
    (not_taken.mp (not_taken_of_below lawful oldBehind))
  have alone : ∀ other ∈ todo2, compare (keyOf item) (keyOf other) < 0 := by
    cases todo2 with
    | nil => nofun
    | cons head tail =>
      intro other listed
      rcases mem_cons.mp listed with rfl | later
      · exact less other rfl
      · exact lawful.lt_trans (less head rfl) (Int.le_of_lt (dividing.swap.ordered other later))
  refine ⟨grown, shorter, longer, ?_, ?_, dividing.second, shortCarries, dividing.map2,
    dividing.newMap, grownCarries, dividing.divided.snoc_old lawful behind perm,
    below_append [item] dividing.below (forall_mem_singleton.mpr ?_) (by grind) (by grind)⟩
  · simp [fmapDeltaMove, removed, key, inserted, dividing.map1.next]
  · simpa using dividing.first
  · exact forall_mem_append.mpr ⟨dividing.ordered, alone⟩

omit [DecidableEq α] in
/-- The next items of both maps have one key. -/
theorem pass (lawful : LawfulCompare compare)
    (dividing : Dividing compare keyOf items1 items2 (item :: todo1) (item2 :: todo2) maps past1
      past2 left1 left2 new old)
    (equal : compare (keyOf item) (keyOf item2) = 0) :
    Dividing compare keyOf items1 items2 todo1 todo2 maps (past1 ++ [item]) (past2 ++ [item2])
      (left1 ++ [item]) (left2 ++ [item2]) new old := by
  have back := lawful.zero_iff.mp equal
  refine ⟨by simpa using dividing.first, by simpa using dividing.second,
    by simpa using dividing.map1, by simpa using dividing.map2, dividing.newMap, dividing.oldMap,
    dividing.divided.snoc_both lawful (fun other listed => dividing.below other listed item (by simp))
      (fun other listed => dividing.below other listed item2 (by simp)) equal,
    below_append [item, item2] dividing.below ?_ (by grind) (by grind)⟩
  have first := dividing.ordered
  have second := dividing.swap.ordered
  refine forall_mem_cons.mpr ⟨?_, forall_mem_singleton.mpr ?_⟩
  · exact forall_mem_append.mpr ⟨first, fun other listed =>
      lawful.trans_lt (Int.le_of_eq equal) (second other listed)⟩
  · exact forall_mem_append.mpr ⟨fun other listed =>
      lawful.trans_lt (Int.le_of_eq back) (first other listed), second⟩

section
variable (lawful : LawfulCompare compare)
  (dividing : Dividing compare keyOf items1 items2 todo1 todo2 maps past1 past2 left1 left2 new old)
include lawful dividing

/-- The first loop ends at the end of a map. -/
theorem loop {rounds : Nat} (enough : todo1.length + todo2.length < rounds) :
    ∃ after rest1 rest2 past1 past2 left1 left2 new old,
      fmapDeltaLoop rounds maps (firstItem todo1) (firstItem todo2) =
        some (after, firstItem rest1, firstItem rest2) ∧
      Dividing compare keyOf items1 items2 rest1 rest2 after past1 past2 left1 left2 new old ∧
      (rest1 = [] ∨ rest2 = []) := by
  induction rounds generalizing todo1 todo2 maps past1 past2 left1 left2 new old with
  | zero => omega
  | succ rounds ih =>
    cases todo1 with
    | nil =>
      exact ⟨maps, [], todo2, _, _, _, _, _, _, by simp [fmapDeltaLoop, firstItem, fmapEnd],
        dividing, Or.inl rfl⟩
    | cons item1 tail1 =>
      cases todo2 with
      | nil =>
        exact ⟨maps, item1 :: tail1, [], _, _, _, _, _, _,
          by simp [fmapDeltaLoop, firstItem, fmapEnd], dividing, Or.inr rfl⟩
      | cons item2 tail2 =>
        simp only [length_cons] at enough
        have key1 : fmapKey maps.map1 (.item item1) = keyOf item1 := dividing.map1.keys item1 (by simp)
        have key2 : fmapKey maps.map2 (.item item2) = keyOf item2 := dividing.map2.keys item2 (by simp)
        have unfolded : fmapDeltaLoop (rounds + 1) maps (.item item1) (.item item2) =
            if compare (keyOf item1) (keyOf item2) < 0 then
              (fmapDeltaMove maps.old maps.map1 (.item item1)).bind fun moved => fmapDeltaLoop rounds
                { maps with old := moved.1, map1 := moved.2.1 } moved.2.2 (.item item2)
            else if compare (keyOf item1) (keyOf item2) > 0 then
              (fmapDeltaMove maps.new maps.map2 (.item item2)).bind fun moved => fmapDeltaLoop rounds
                { maps with new := moved.1, map2 := moved.2.1 } (.item item1) moved.2.2
            else fmapDeltaLoop rounds maps (fmapNext maps.map1 (.item item1))
              (fmapNext maps.map2 (.item item2)) := by
          simp [fmapDeltaLoop, fmapEnd, key1, key2, dividing.map1.compares]
        simp only [firstItem]
        rw [unfolded]
        rcases Int.lt_trichotomy (compare (keyOf item1) (keyOf item2)) 0 with less | equal | more
        · obtain ⟨oldAfter, mapAfter, oldItems, moved, kept⟩ :=
            dividing.moveOld lawful (by simpa using less)
          rw [if_pos less, moved]
          exact ih kept (by simp only [length_cons]; omega)
        · rw [if_neg (by omega), if_neg (by omega), dividing.map1.next, dividing.map2.next]
          exact ih (dividing.pass lawful equal) (by omega)
        · obtain ⟨newAfter, mapAfter, newItems, moved, kept⟩ :=
            dividing.swap.moveOld lawful (by simpa using lawful.neg_iff.mpr more)
          simp only [FDelta.swap] at moved
          rw [if_neg (by omega), if_pos more, moved]
          exact ih kept.swap (by simp only [length_cons]; omega)

/-- The rest of the first map goes to the old items. -/
theorem moveRestOld {rounds : Nat} (ended : todo1 = [] ∨ todo2 = [])
    (enough : todo1.length < rounds) : ∃ oldAfter mapAfter past1 past2 left1 left2 new old,
      fmapMoveRest rounds maps.old maps.map1 (firstItem todo1) = some (oldAfter, mapAfter) ∧
      Dividing compare keyOf items1 items2 [] todo2 { maps with old := oldAfter, map1 := mapAfter }
        past1 past2 left1 left2 new old := by
  induction todo1 generalizing maps past1 past2 left1 left2 new old rounds with
  | nil =>
    obtain ⟨rounds, rfl⟩ := Nat.exists_eq_add_of_lt enough
    exact ⟨maps.old, maps.map1, _, _, _, _, _, _, by simp [fmapMoveRest, firstItem, fmapEnd], dividing⟩
  | cons item rest ih =>
    obtain rfl : todo2 = [] := by simpa using ended
    obtain ⟨rounds, rfl⟩ : ∃ more, rounds = more + 1 := ⟨rounds - 1, by omega⟩
    obtain ⟨oldAfter, mapAfter, oldItems, moved, kept⟩ := dividing.moveOld lawful (by simp)
    obtain ⟨oldDone, mapDone, past1, past2, left1, left2, new, old, run, done⟩ :=
      ih kept (Or.inr rfl) (Nat.lt_of_succ_lt_succ enough)
    refine ⟨oldDone, mapDone, past1, past2, left1, left2, new, old, ?_, done⟩
    simpa [fmapMoveRest, firstItem, fmapEnd, moved] using run

end
end Dividing

/-- `cl_fmap_delta` splits the maps by their keys. -/
theorem fmapDelta_divides (lawful : LawfulCompare compare) {maps : FDelta κ α}
    {items1 items2 : List α} (carries1 : maps.map1.Carries compare keyOf items1)
    (carries2 : maps.map2.Carries compare keyOf items2)
    (emptyNew : maps.new.Carries compare keyOf []) (emptyOld : maps.old.Carries compare keyOf []) :
    ∃ after left1 left2 new old, fmapDelta maps = some after ∧
      after.map1.Carries compare keyOf left1 ∧ after.map2.Carries compare keyOf left2 ∧
      after.new.Carries compare keyOf new ∧ after.old.Carries compare keyOf old ∧
      Divided compare keyOf items1 items2 left1 left2 new old := by
  have start : Dividing compare keyOf items1 items2 items1 items2 maps [] [] [] [] [] [] := by
    refine ⟨rfl, rfl, carries1, carries2, emptyNew, emptyOld, ⟨?_, ?_, ?_, ?_, List.Perm.refl _⟩, ?_⟩
    all_goals simp [Taken]
  have room : items1.length + items2.length < maps.map1.count + maps.map2.count + 1 := by
    rw [carries1.count, carries2.count]
    omega
  obtain ⟨between, rest1, rest2, past1, past2, left1, left2, new, old, ran, kept, ended⟩ :=
    start.loop lawful room
  have room2 : rest2.length < between.map2.count + 1 := by
    rw [kept.map2.count, length_append]
    omega
  obtain ⟨newAfter, map2After, past2, past1, left2, left1, old, new, ranNew, keptNew⟩ :=
    kept.swap.moveRestOld lawful ended.symm room2
  have room1 : rest1.length < between.map1.count + 1 := by
    rw [kept.map1.count, length_append]
    omega
  obtain ⟨oldAfter, map1After, past1, past2, left1, left2, new, old, ranOld, done⟩ :=
    keptNew.swap.moveRestOld lawful (Or.inr rfl) room1
  simp only [FDelta.swap] at ranNew ranOld
  refine ⟨{ map1 := map1After, map2 := map2After, new := newAfter, old := oldAfter }, left1, left2,
    new, old, ?_, ?_, ?_, done.newMap, done.oldMap, ?_⟩
  · simp [fmapDelta, carries1.head, carries2.head, ran, ranNew, ranOld]
  · have carried := done.map1
    rwa [append_nil] at carried
  · have carried := done.map2
    rwa [append_nil] at carried
  · have whole1 := done.first
    have whole2 := done.second
    rw [append_nil] at whole1 whole2
    rw [whole1, whole2]
    exact done.divided

end Dividing

/-! ### The quick map's functions -/

section
variable (dest src : QMap α) (item : Ref α)
include dest src item

theorem fmapMergeLoop_toFMap : fmapMergeLoop rounds dest.toFMap src.toFMap item =
      (qmapMergeLoop rounds dest src item).map fun maps => (maps.1.toFMap, maps.2.toFMap) := by
  induction rounds generalizing dest src item with
  | zero => rfl
  | succ rounds ih =>
    simp only [fmapMergeLoop, qmapMergeLoop, fmapEnd, qmapEnd]
    split_ifs
    · rfl
    · refine bind_eq_map (fmapRemoveItem_toFMap src item) fun shorter => ?_
      refine bind_eq_map (fmapInsert_toFMap dest _ item) fun inserted => ?_
      dsimp only
      split_ifs
      · exact bind_eq_map (fmapInsert_toFMap shorter _ item) fun _ => ih _ _ _
      · exact ih _ _ _

theorem fmapDeltaMove_toFMap : fmapDeltaMove dest.toFMap src.toFMap item =
      (qmapDeltaMove dest src item).map fun maps => (maps.1.toFMap, maps.2.1.toFMap, maps.2.2) := by
  refine bind_eq_map (fmapRemoveItem_toFMap src item) fun shorter => ?_
  exact bind_eq_map (fmapInsert_toFMap dest _ item) fun _ => rfl

theorem fmapMoveRest_toFMap : fmapMoveRest rounds dest.toFMap src.toFMap item =
      (qmapMoveRest rounds dest src item).map fun maps => (maps.1.toFMap, maps.2.toFMap) := by
  induction rounds generalizing dest src item with
  | zero => rfl
  | succ rounds ih =>
    unfold fmapMoveRest qmapMoveRest fmapEnd qmapEnd
    split_ifs with ended
    · rfl
    · exact bind_eq_map (fmapDeltaMove_toFMap dest src item) fun _ => ih _ _ _

end

/-- The maps of `cl_qmap_delta` as those of `cl_fmap_delta`. -/
def QDelta.toFDelta (maps : QDelta α) : FDelta UInt64 α :=
  { map1 := maps.map1.toFMap, map2 := maps.map2.toFMap, new := maps.new.toFMap
    old := maps.old.toFMap }

theorem fmapDeltaLoop_toFMap (maps : QDelta α) (item1 item2 : Ref α) :
    fmapDeltaLoop rounds maps.toFDelta item1 item2 =
      (qmapDeltaLoop rounds maps item1 item2).map fun result => (result.1.toFDelta, result.2) := by
  induction rounds generalizing maps item1 item2 with
  | zero => rfl
  | succ rounds ih =>
    have compared : maps.toFDelta.map1.compare (fmapKey maps.toFDelta.map1 item1)
        (fmapKey maps.toFDelta.map2 item2) =
        compareKeys (maps.map1.key item1) (maps.map2.key item2) := rfl
    simp only [fmapDeltaLoop, qmapDeltaLoop, fmapEnd, qmapEnd, compared, compareKeys_neg, gt_iff_lt,
      compareKeys_pos]
    split_ifs with ended less more
    · rfl
    · exact bind_eq_map (fmapDeltaMove_toFMap maps.old maps.map1 item1) fun moved =>
        ih { maps with old := moved.1, map1 := moved.2.1 } moved.2.2 item2
    · exact bind_eq_map (fmapDeltaMove_toFMap maps.new maps.map2 item2) fun moved =>
        ih { maps with new := moved.1, map2 := moved.2.1 } item1 moved.2.2
    · exact ih _ _ _

/-- `cl_qmap_merge` is `cl_fmap_merge`. -/
theorem fmapMerge_toFMap (dest src : QMap α) : fmapMerge dest.toFMap src.toFMap =
    (qmapMerge dest src).map fun maps => (maps.1.toFMap, maps.2.toFMap) :=
  fmapMergeLoop_toFMap _ _ _ _

/-- `cl_qmap_delta` is `cl_fmap_delta`. -/
theorem fmapDelta_toFMap (maps : QDelta α) :
    fmapDelta maps.toFDelta = (qmapDelta maps).map QDelta.toFDelta := by
  refine bind_eq_map (fmapDeltaLoop_toFMap _ maps _ _) fun (between, item1, item2) => ?_
  refine bind_eq_map (fmapMoveRest_toFMap _ between.new between.map2 item2) fun _ => ?_
  exact bind_eq_map (fmapMoveRest_toFMap _ between.old between.map1 item1) fun _ => rfl

/-- The quick map holds the items in that order, each with its key. -/
def QMap.Carries (map : QMap α) (keyOf : α → UInt64) (items : List α) : Prop :=
  map.toFMap.Carries compareKeys keyOf items

/-- `cl_fmap_merge` moves what the destination does not have. -/
theorem fmapMerge_merges {compare : κ → κ → Int} (lawful : LawfulCompare compare) {keyOf : α → κ}
    {dest src : FMap κ α} {destItems srcItems : List α}
    (destCarries : dest.Carries compare keyOf destItems)
    (srcCarries : src.Carries compare keyOf srcItems) (apart : ∀ item ∈ srcItems, item ∉ destItems) :
    ∃ destAfter srcAfter destLeft srcLeft, fmapMerge dest src = some (destAfter, srcAfter) ∧
      destAfter.Carries compare keyOf destLeft ∧ srcAfter.Carries compare keyOf srcLeft ∧
      Merged compare keyOf destItems srcItems destLeft srcLeft := by
  have room : srcItems.length < src.count + 1 := by
    rw [srcCarries.count]
    exact Nat.lt_succ_self _
  rw [fmapMerge, srcCarries.head]
  exact @fmapMergeLoop_merges _ _ _ _ _ lawful _ _ _ [] _ _ destCarries srcCarries apart room

/-- Merging and splitting end. Merging leaves an item of the source there if its key is in the
destination and moves it otherwise; splitting leaves the keys of both maps in them and moves
the others, from the second map to the new items and from the first one to the old items. All
maps are search trees with their lists and counts afterwards, and each item is in one of them.
This holds for flexi maps with any total order and for quick maps. -/
theorem merge_delta_correct :
    (∀ (compare : κ → κ → Int) (keyOf : α → κ), LawfulCompare compare →
      (∀ (dest src : FMap κ α) (destItems srcItems : List α),
        dest.Carries compare keyOf destItems → src.Carries compare keyOf srcItems →
        (∀ item ∈ srcItems, item ∉ destItems) →
        ∃ destAfter srcAfter destLeft srcLeft, fmapMerge dest src = some (destAfter, srcAfter) ∧
          destAfter.Carries compare keyOf destLeft ∧ srcAfter.Carries compare keyOf srcLeft ∧
          Merged compare keyOf destItems srcItems destLeft srcLeft) ∧
      ∀ (maps : FDelta κ α) (items1 items2 : List α),
        maps.map1.Carries compare keyOf items1 → maps.map2.Carries compare keyOf items2 →
        maps.new.Carries compare keyOf [] → maps.old.Carries compare keyOf [] →
        ∃ after left1 left2 new old, fmapDelta maps = some after ∧
          after.map1.Carries compare keyOf left1 ∧ after.map2.Carries compare keyOf left2 ∧
          after.new.Carries compare keyOf new ∧ after.old.Carries compare keyOf old ∧
          Divided compare keyOf items1 items2 left1 left2 new old) ∧
    ∀ keyOf : α → UInt64,
      (∀ (dest src : QMap α) (destItems srcItems : List α),
        dest.Carries keyOf destItems → src.Carries keyOf srcItems →
        (∀ item ∈ srcItems, item ∉ destItems) →
        ∃ destAfter srcAfter destLeft srcLeft, qmapMerge dest src = some (destAfter, srcAfter) ∧
          destAfter.Carries keyOf destLeft ∧ srcAfter.Carries keyOf srcLeft ∧
          Merged compareKeys keyOf destItems srcItems destLeft srcLeft) ∧
      ∀ (maps : QDelta α) (items1 items2 : List α),
        maps.map1.Carries keyOf items1 → maps.map2.Carries keyOf items2 →
        maps.new.Carries keyOf [] → maps.old.Carries keyOf [] →
        ∃ after left1 left2 new old, qmapDelta maps = some after ∧
          after.map1.Carries keyOf left1 ∧ after.map2.Carries keyOf left2 ∧
          after.new.Carries keyOf new ∧ after.old.Carries keyOf old ∧
          Divided compareKeys keyOf items1 items2 left1 left2 new old := by
  refine ⟨fun compare keyOf lawful => ⟨?_, ?_⟩, fun keyOf => ⟨?_, ?_⟩⟩
  · intro dest src destItems srcItems destCarries srcCarries apart
    exact fmapMerge_merges lawful destCarries srcCarries apart
  · intro maps items1 items2 carries1 carries2 emptyNew emptyOld
    exact fmapDelta_divides lawful carries1 carries2 emptyNew emptyOld
  · intro dest src destItems srcItems destCarries srcCarries apart
    obtain ⟨destAfter, srcAfter, destLeft, srcLeft, run, destDone, srcDone, merged⟩ :=
      fmapMerge_merges lawful_compareKeys destCarries srcCarries apart
    rw [fmapMerge_toFMap, Option.map_eq_some_iff] at run
    obtain ⟨⟨destMap, srcMap⟩, ran, same⟩ := run
    obtain ⟨rfl, rfl⟩ := Prod.mk.inj same
    exact ⟨destMap, srcMap, destLeft, srcLeft, ran, destDone, srcDone, merged⟩
  · intro maps items1 items2 carries1 carries2 emptyNew emptyOld
    obtain ⟨after, left1, left2, new, old, run, done1, done2, newDone, oldDone, divided⟩ :=
      @fmapDelta_divides _ _ _ _ _ lawful_compareKeys maps.toFDelta _ _ carries1 carries2 emptyNew
        emptyOld
    rw [fmapDelta_toFMap, Option.map_eq_some_iff] at run
    obtain ⟨quick, ran, rfl⟩ := run
    exact ⟨quick, left1, left2, new, old, ran, done1, done2, newDone, oldDone, divided⟩

theorem qmapInit_carries (memory : QMap α) (keyOf : α → UInt64) :
    (qmapInit memory).Carries keyOf [] :=
  ⟨rfl, ⟨.leaf, QMap.holds_iff.mp (qmapInit_holds memory), rfl⟩, by simp⟩

/-- Inserting the last item of a list in order. -/
theorem QMap.Carries.insert_last {map : QMap α} {keyOf : α → UInt64} {item : α}
    (carries : map.Carries keyOf items)
    (ascending : Ascending compareKeys keyOf (items ++ [item])) :
    ∃ grown, qmapInsert map (keyOf item) (.item item) = some (grown, .item item) ∧
      grown.Carries keyOf (items ++ [item]) := by
  have whole : map.toFMap.Carries compareKeys keyOf (items ++ []) := by
    rw [append_nil]
    exact carries
  obtain ⟨grown, run, carried⟩ := whole.putBack lawful_compareKeys ascending
  obtain ⟨quick, ran, rfl⟩ := qmapInsert_of_fmapInsert run
  exact ⟨quick, ran, carried⟩

/-- The items 3 and 13 have one key: of the source with 13 and 4 only 4 moves. -/
theorem merge_delta_correct_small :
    let keyOf : Nat → UInt64 := fun item => UInt64.ofNat (item % 10)
    ∃ dest src : QMap Nat, dest.Carries keyOf [3] ∧ src.Carries keyOf [13, 4] ∧
      ∃ destAfter srcAfter destLeft srcLeft, qmapMerge dest src = some (destAfter, srcAfter) ∧
        destAfter.Carries keyOf destLeft ∧ srcAfter.Carries keyOf srcLeft ∧
        4 ∈ destLeft ∧ 13 ∉ destLeft ∧ 13 ∈ srcLeft := by
  intro keyOf
  let memory : QMap Nat :=
    { links := ⟨fun _ _ => .nil, fun _ => .nil, fun _ => .red⟩
      ring := ⟨fun _ => .nil, fun _ => .nil⟩
      key := fun _ => 0
      count := 0 }
  have empty := qmapInit_carries memory keyOf
  have three : Ascending compareKeys keyOf ([] ++ [3]) := by decide
  have thirteen : Ascending compareKeys keyOf ([] ++ [13]) := by decide
  have four : Ascending compareKeys keyOf (([] ++ [13]) ++ [4]) := by decide
  obtain ⟨dest, -, destCarries⟩ := empty.insert_last three
  obtain ⟨one, -, oneCarries⟩ := empty.insert_last thirteen
  obtain ⟨src, -, srcCarries⟩ := oneCarries.insert_last four
  refine ⟨dest, src, destCarries, srcCarries, ?_⟩
  obtain ⟨destAfter, srcAfter, destLeft, srcLeft, run, destDone, srcDone, merged⟩ :=
    ((@merge_delta_correct Nat Nat _).2 keyOf).1 dest src [3] [13, 4] destCarries srcCarries (by decide)
  refine ⟨destAfter, srcAfter, destLeft, srcLeft, run, destDone, srcDone, ?_, ?_, ?_⟩
  · rw [merged.dest_iff]
    decide
  · rw [merged.dest_iff]
    decide
  · rw [merged.src_iff]
    decide

end WinOFED.Complib
