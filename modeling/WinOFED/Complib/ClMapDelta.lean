import WinOFED.Complib.ClMapMerge

/-! Splitting maps of objects by their keys, or leaving them as they were.

When memory is short in the course of `cl_map_delta`, what was moved is merged back. The items
that were moved out of a map are in its pool, so that the way back needs no memory. -/
namespace WinOFED.Complib
open RedBlack List Option
variable {α β : Type} [DecidableEq α] [DecidableEq β]

/-- The maps of `cl_map_delta`. -/
structure ClDelta (α β : Type) where
  map1 : ClMap α β
  map2 : ClMap α β
  new : ClMap α β
  old : ClMap α β

/-- `__cl_map_revert`. -/
def clMapRevert (maps : ClDelta α β) : Option (ClDelta α β) := do
  let (_, map1, old) ← clMapMerge maps.map1 maps.old
  let (_, map2, new) ← clMapMerge maps.map2 maps.new
  some { map1, map2, new, old }

omit [DecidableEq β] in
/-- `__cl_map_delta_move`: the status, the maps and the iterator. -/
def clMapDeltaMove (dest src : ClMap α β) (itor : Ref α) :
    Option (ClStatus × ClMap α β × ClMap α β × Ref α) := do
  let next := clMapNext src itor
  let object := src.object itor
  let key := src.map.key itor
  let src ← clMapRemoveItem src itor
  let (dest, object2) ← clMapInsert dest key object
  match object2 with
  | none =>
      let (src, _) ← clMapInsert src key object
      some (.insufficientMemory, dest, src, itor)
  | some _ => some (.success, dest, src, next)

/-- The first loop of `cl_map_delta`, with what it returns early or the iterators at its end. -/
def clMapDeltaLoop : Nat → ClDelta α β → Ref α → Ref α →
    Option (ClStatus × ClDelta α β × Ref α × Ref α)
  | 0, _, _, _ => none
  | rounds + 1, maps, itor1, itor2 =>
      if itor1 = clMapEnd ∨ itor2 = clMapEnd then some (.success, maps, itor1, itor2)
      else do
        let key1 := maps.map1.map.key itor1
        let key2 := maps.map2.map.key itor2
        if key1 < key2 then
          let (status, old, map1, itor1) ← clMapDeltaMove maps.old maps.map1 itor1
          if status ≠ .success then
            let maps ← clMapRevert { maps with old, map1 }
            some (status, maps, itor1, itor2)
          else clMapDeltaLoop rounds { maps with old, map1 } itor1 itor2
        else if key1 > key2 then
          let (status, new, map2, itor2) ← clMapDeltaMove maps.new maps.map2 itor2
          if status ≠ .success then
            let maps ← clMapRevert { maps with new, map2 }
            some (status, maps, itor1, itor2)
          else clMapDeltaLoop rounds { maps with new, map2 } itor1 itor2
        else
          clMapDeltaLoop rounds maps (clMapNext maps.map1 itor1) (clMapNext maps.map2 itor2)

/-- The loop of `cl_map_delta` for the rest of the second map. -/
def clMapRestNew : Nat → ClDelta α β → Ref α → Option (ClStatus × ClDelta α β)
  | 0, _, _ => none
  | rounds + 1, maps, itor2 =>
      if itor2 = clMapEnd then some (.success, maps)
      else do
        let (status, new, map2, itor2) ← clMapDeltaMove maps.new maps.map2 itor2
        if status ≠ .success then
          let maps ← clMapRevert { maps with new, map2 }
          some (status, maps)
        else clMapRestNew rounds { maps with new, map2 } itor2

/-- The loop of `cl_map_delta` for the rest of the first map. -/
def clMapRestOld : Nat → ClDelta α β → Ref α → Option (ClStatus × ClDelta α β)
  | 0, _, _ => none
  | rounds + 1, maps, itor1 =>
      if itor1 = clMapEnd then some (.success, maps)
      else do
        let (status, old, map1, itor1) ← clMapDeltaMove maps.old maps.map1 itor1
        if status ≠ .success then
          let maps ← clMapRevert { maps with old, map1 }
          some (status, maps)
        else clMapRestOld rounds { maps with old, map1 } itor1

/-- `cl_map_delta`. -/
def clMapDelta (maps : ClDelta α β) : Option (ClStatus × ClDelta α β) := do
  let (status, maps, itor1, itor2) ← clMapDeltaLoop
    (maps.map1.map.count + maps.map2.map.count + 1) maps (clMapHead maps.map1) (clMapHead maps.map2)
  if status ≠ .success then some (status, maps)
  else
    let (status, maps) ← clMapRestNew (maps.map2.map.count + 1) maps itor2
    if status ≠ .success then some (status, maps)
    else clMapRestOld (maps.map1.map.count + 1) maps itor1

/-! ### In the course of the split -/

/-- The maps with the roles of the two inputs exchanged. -/
def ClDelta.swap (maps : ClDelta α β) : ClDelta α β :=
  { map1 := maps.map2, map2 := maps.map1, new := maps.old, old := maps.new }

/-- What the maps hold in the course of `cl_map_delta`: what is behind has smaller keys, and
each pool has the items of the pairs that were moved away. If it is `roomy`, then the pools of the
new and the old map give an item for each pair that is left. -/
structure ClDividing (roomy : Prop) (pairs1 pairs2 todo1 todo2 : List (UInt64 × β)) (maps : ClDelta α β)
    (itor1 itor2 : Ref α) (past1 past2 left1 left2 new old : List (UInt64 × β)) : Prop where
  first : pairs1 = past1 ++ todo1
  second : pairs2 = past2 ++ todo2
  at1 : maps.map1.At itor1 left1 todo1
  at2 : maps.map2.At itor2 left2 todo2
  newShows : maps.new.Shows new
  oldShows : maps.old.Shows old
  divided : Divided compareKeys Prod.fst past1 past2 left1 left2 new old
  below : ∀ past ∈ past1 ++ past2, ∀ pair ∈ todo1 ++ todo2, past.1 < pair.1
  room1 : old.length ≤ maps.map1.free.length
  room2 : new.length ≤ maps.map2.free.length
  sorted1 : ClMap.ByKey pairs1
  sorted2 : ClMap.ByKey pairs2
  supply : roomy → todo1.length ≤ maps.old.supply ∧ todo2.length ≤ maps.new.supply

/-- All maps are as they were. -/
structure ClRestored (pairs1 pairs2 : List (UInt64 × β)) (maps : ClDelta α β) : Prop where
  map1 : maps.map1.Shows pairs1
  map2 : maps.map2.Shows pairs2
  new : maps.new.Shows []
  old : maps.old.Shows []

omit [DecidableEq β] in
theorem ClMap.ByKey.nodup {pairs : List (UInt64 × β)} (sorted : ClMap.ByKey pairs) : pairs.Nodup := by
  apply List.Pairwise.imp _ sorted
  rintro first second less rfl
  exact UInt64.lt_irrefl _ less

omit [DecidableEq β] in
/-- Pairs in order are told by what they are. -/
theorem ClMap.ByKey.eq_of_mem_iff {pairs others : List (UInt64 × β)} (sorted : ClMap.ByKey pairs)
    (also : ClMap.ByKey others) (same : ∀ pair, pair ∈ pairs ↔ pair ∈ others) : pairs = others := by
  have perm : pairs.Perm others := (perm_ext_iff_of_nodup sorted.nodup also.nodup).mpr same
  apply perm.eq_of_pairwise _ sorted also
  intro first second _ _ less more
  exact absurd (UInt64.lt_trans less more) (UInt64.lt_irrefl _)

/-- Merging back what was moved out of a map gives the map as it was, as there is room in its
pool. -/
theorem clMapMerge_restores {dest src : ClMap α β} {kept moved pairs : List (UInt64 × β)}
    (destShows : dest.Shows kept) (srcShows : src.Shows moved) (sorted : ClMap.ByKey pairs)
    (whole : ∀ pair, pair ∈ pairs ↔ pair ∈ kept ∨ pair ∈ moved)
    (apart : ∀ pair ∈ moved, pair ∉ kept) (room : moved.length ≤ dest.free.length) :
    ∃ destAfter srcAfter, clMapMerge dest src = some (.success, destAfter, srcAfter) ∧
      destAfter.Shows pairs ∧ srcAfter.Shows [] := by
  obtain ⟨status, destAfter, srcAfter, destLeft, srcLeft, run, destDone, srcDone, full, merged, -⟩ :=
    clMapMerge_result destShows srcShows
  obtain rfl := full room
  have free : ∀ pair ∈ moved, ¬ KeyIn kept pair := by
    rintro pair inMoved ⟨other, inKept, same⟩
    have one := sorted.eq_of_key ((whole other).mpr (Or.inl inKept))
      ((whole pair).mpr (Or.inr inMoved)) same
    exact apart pair inMoved (one ▸ inKept)
  have all : destLeft = pairs := by
    apply destDone.byKey.eq_of_mem_iff sorted
    intro pair
    rw [(merged rfl).dest_iff, whole]
    exact or_congr_right ⟨fun ⟨inMoved, _⟩ => inMoved, fun inMoved => ⟨inMoved, free pair inMoved⟩⟩
  have none : srcLeft = [] := by
    apply eq_nil_iff_forall_not_mem.mpr
    intro pair listed
    obtain ⟨inMoved, key, -⟩ := ((merged rfl).src_iff pair).mp listed
    exact free pair inMoved key
  rw [all] at destDone
  rw [none] at srcDone
  exact ⟨destAfter, srcAfter, run, destDone, srcDone⟩

/-- What was moved out of a map can be merged back. -/
structure ClMovedOut (pairs : List (UInt64 × β)) (map moved : ClMap α β) : Prop where
  sorted : ClMap.ByKey pairs
  parts : ∃ kept out, map.Shows kept ∧ moved.Shows out ∧
    (∀ pair, pair ∈ pairs ↔ pair ∈ kept ∨ pair ∈ out) ∧ (∀ pair ∈ out, pair ∉ kept) ∧
    out.length ≤ map.free.length

/-- `__cl_map_revert` restores all maps. -/
theorem clMapRevert_restores {pairs1 pairs2 : List (UInt64 × β)} {maps : ClDelta α β}
    (out1 : ClMovedOut pairs1 maps.map1 maps.old) (out2 : ClMovedOut pairs2 maps.map2 maps.new) :
    ∃ after, clMapRevert maps = some after ∧ ClRestored pairs1 pairs2 after := by
  obtain ⟨kept1, moved1, shows1, oldShows, whole1, apart1, room1⟩ := out1.parts
  obtain ⟨kept2, moved2, shows2, newShows, whole2, apart2, room2⟩ := out2.parts
  obtain ⟨map1, old, run1, done1, oldDone⟩ :=
    clMapMerge_restores shows1 oldShows out1.sorted whole1 apart1 room1
  obtain ⟨map2, new, run2, done2, newDone⟩ :=
    clMapMerge_restores shows2 newShows out2.sorted whole2 apart2 room2
  refine ⟨{ map1, map2, new, old }, ?_, done1, done2, newDone, oldDone⟩
  simp [clMapRevert, run1, run2]

namespace ClDividing
variable {roomy : Prop} {pairs1 pairs2 todo1 todo2 past1 past2 left1 left2 new old : List (UInt64 × β)}
  {pair pair2 : UInt64 × β} {maps : ClDelta α β} {itor1 itor2 : Ref α} {rounds : Nat}

section

omit [DecidableEq α] [DecidableEq β]

theorem ordered (dividing : ClDividing roomy pairs1 pairs2 (pair :: todo1) todo2 maps itor1 itor2 past1
      past2 left1 left2 new old) : ∀ other ∈ todo1, pair.1 < other.1 :=
  (List.pairwise_cons.mp (dividing.at1.shows.byKey.sublist (List.sublist_append_right _ _))).1

variable (dividing : ClDividing roomy pairs1 pairs2 todo1 todo2 maps itor1 itor2 past1 past2 left1 left2 new old)
include dividing

theorem swap :
    ClDividing roomy pairs2 pairs1 todo2 todo1 maps.swap itor2 itor1 past2 past1 left2 left1 old new := by
  refine ⟨dividing.second, dividing.first, dividing.at2, dividing.at1, dividing.oldShows,
    dividing.newShows, dividing.divided.swap, ?_, dividing.room2, dividing.room1, dividing.sorted2,
    dividing.sorted1, fun plenty => (dividing.supply plenty).symm⟩
  intro past inPast pair inTodo
  apply dividing.below past _ pair
  · exact perm_append_comm.mem_iff.mp inTodo
  · exact perm_append_comm.mem_iff.mp inPast

/-- A pair of the first map is left there, was moved out, or is still to be looked at. -/
theorem mem_pairs1 (any : UInt64 × β) :
    (any ∈ pairs1 ↔ any ∈ left1 ++ todo1 ∨ any ∈ old) ∧ (any ∈ old → any ∉ left1 ++ todo1) := by
  have inLeft := dividing.divided.left1_iff any
  have inOld := dividing.divided.old_iff any
  constructor
  · rw [dividing.first, mem_append, mem_append, inLeft, inOld]
    tauto
  · intro moved listed
    obtain ⟨past, alone⟩ := inOld.mp moved
    rcases mem_append.mp listed with kept | later
    · exact alone (inLeft.mp kept).2
    · have less := dividing.below any (mem_append_left _ past) any (mem_append_left _ later)
      exact UInt64.lt_irrefl _ less

theorem movedOut1 {map moved : ClMap α β} (shown : map.Shows (left1 ++ todo1))
    (movedShows : moved.Shows old) (room : old.length ≤ map.free.length) :
    ClMovedOut pairs1 map moved :=
  ⟨dividing.sorted1, left1 ++ todo1, old, shown, movedShows,
    fun any => (dividing.mem_pairs1 any).1, fun any => (dividing.mem_pairs1 any).2, room⟩

end

omit [DecidableEq β] in
/-- The next pair of the first map has a key of its own: it is moved, or put back for want of an
item. -/
theorem moveOld (dividing : ClDividing roomy pairs1 pairs2 (pair :: todo1) todo2 maps itor1 itor2 past1
      past2 left1 left2 new old)
    (less : ∀ other ∈ todo2.head?, pair.1 < other.1) :
    (∃ oldAfter mapAfter itor oldPairs,
      clMapDeltaMove maps.old maps.map1 itor1 = some (.success, oldAfter, mapAfter, itor) ∧
      ClDividing roomy pairs1 pairs2 todo1 todo2 { maps with old := oldAfter, map1 := mapAfter } itor
        itor2 (past1 ++ [pair]) past2 left1 left2 new oldPairs) ∨
    ∃ oldAfter mapAfter,
      clMapDeltaMove maps.old maps.map1 itor1 = some (.insufficientMemory, oldAfter, mapAfter, itor1) ∧
      ¬ roomy ∧ ClMovedOut pairs1 mapAfter oldAfter ∧ ClMovedOut pairs2 maps.map2 maps.new := by
  obtain ⟨key, object⟩ := pair
  obtain ⟨-, readKey, readObject⟩ := dividing.at1.read
  obtain ⟨shorter, removed, shortAt, more⟩ := dividing.at1.remove
  have alone : ∀ other ∈ todo2, key < other.1 := by
    cases todo2 with
    | nil => nofun
    | cons head tail =>
      intro other listed
      rcases mem_cons.mp listed with rfl | later
      · exact less other rfl
      · exact UInt64.lt_trans (less head rfl) (dividing.swap.ordered other later)
  have notShort : shorter.free ≠ [] := by
    rintro empty
    rw [empty] at more
    cases more
  obtain ⟨restored, back, restoredAt, same⟩ := shortAt.insertBack dividing.at1.shows.byKey notShort
  obtain ⟨changed, result, inserted, cases⟩ := dividing.oldShows.insert key object
  obtain ⟨given, used⟩ := ClMap.clMapInsert_supply inserted
  have behind : ∀ other ∈ past1 ++ past2, other.1 < key := fun other listed =>
    dividing.below other listed (key, object) (by simp)
  have room1 := dividing.room1
  have unfolded : clMapDeltaMove maps.old maps.map1 itor1 =
      match result with
      | none => some (.insufficientMemory, changed, restored, itor1)
      | some _ => some (.success, changed, shorter, clMapNext maps.map1 itor1) := by
    simp only [clMapDeltaMove, readKey, readObject, removed, inserted, back, bind_eq_bind, bind_some]
    cases result <;> rfl
  rw [unfolded]
  rcases cases with ⟨rfl, -, shown⟩ | ⟨existing, taken, -⟩ | ⟨-, rfl, -, longer, perm, shown⟩
  · refine Or.inr ⟨changed, restored, rfl, fun plenty => ?_, ?_, ?_⟩
    · have wanted := (dividing.supply plenty).1
      rw [given rfl, length_cons] at wanted
      omega
    · apply dividing.movedOut1 _ shown (by omega)
      simpa using restoredAt.shows
    · exact dividing.swap.movedOut1 dividing.at2.shows dividing.newShows dividing.room2
  · -- what was moved has smaller keys
    have past := ((dividing.divided.old_iff _).mp taken).1
    exact absurd (behind _ (mem_append_left _ past)) (UInt64.lt_irrefl _)
  · refine Or.inl ⟨changed, shorter, _, longer, rfl, by simpa using dividing.first,
      dividing.second, shortAt, dividing.at2, dividing.newShows, shown, ?_,
      below_append [(key, object)] dividing.below (forall_mem_singleton.mpr ?_) (by grind) (by grind), ?_,
      dividing.room2, dividing.sorted1, dividing.sorted2, fun plenty => ?_⟩
    · apply dividing.divided.snoc_old lawful_compareKeys _ perm
      exact fun other listed => compareKeys_neg.mpr (behind other listed)
    · exact forall_mem_append.mpr ⟨dividing.ordered, alone⟩
    · rw [perm.length_eq, length_cons]
      change _ ≤ shorter.free.length
      omega
    · obtain ⟨wanted, others⟩ := dividing.supply plenty
      rw [length_cons] at wanted
      exact ⟨Nat.le_of_succ_le_succ (wanted.trans used), others⟩

omit [DecidableEq α] [DecidableEq β] in
/-- The next pairs of both maps have one key. -/
theorem pass (dividing : ClDividing roomy pairs1 pairs2 (pair :: todo1) (pair2 :: todo2) maps itor1 itor2
      past1 past2 left1 left2 new old) (equal : pair.1 = pair2.1) :
    ClDividing roomy pairs1 pairs2 todo1 todo2 maps (clMapNext maps.map1 itor1)
      (clMapNext maps.map2 itor2) (past1 ++ [pair]) (past2 ++ [pair2]) (left1 ++ [pair])
      (left2 ++ [pair2]) new old := by
  refine ⟨by simpa using dividing.first, by simpa using dividing.second, dividing.at1.next,
    dividing.at2.next, dividing.newShows, dividing.oldShows, ?_,
    below_append [pair, pair2] dividing.below ?_ (by grind) (by grind), dividing.room1,
    dividing.room2, dividing.sorted1, dividing.sorted2, fun plenty =>
      (dividing.supply plenty).imp Nat.le_of_succ_le Nat.le_of_succ_le⟩
  · apply dividing.divided.snoc_both lawful_compareKeys _ _ (compareKeys_eq_zero.mpr equal)
    · exact fun other listed => compareKeys_neg.mpr (dividing.below other listed pair (by simp))
    · exact fun other listed => compareKeys_neg.mpr (dividing.below other listed pair2 (by simp))
  · have ahead := forall_mem_append.mpr ⟨dividing.ordered, equal ▸ dividing.swap.ordered⟩
    exact forall_mem_cons.mpr ⟨ahead, forall_mem_singleton.mpr (equal ▸ ahead)⟩

variable (dividing : ClDividing roomy pairs1 pairs2 todo1 todo2 maps itor1 itor2 past1 past2 left1 left2 new old)
include dividing

/-- The first loop ends at the end of a map, or with all maps restored. -/
theorem loop (enough : todo1.length + todo2.length < rounds) :
    ∃ status after end1 end2,
      clMapDeltaLoop rounds maps itor1 itor2 = some (status, after, end1, end2) ∧
      ((status = .success ∧ ∃ rest1 rest2 past1 past2 left1 left2 new old,
        ClDividing roomy pairs1 pairs2 rest1 rest2 after end1 end2 past1 past2 left1 left2 new old ∧
        (rest1 = [] ∨ rest2 = [])) ∨
      status = .insufficientMemory ∧ ¬ roomy ∧ ClRestored pairs1 pairs2 after) := by
  induction rounds generalizing todo1 todo2 maps itor1 itor2 past1 past2 left1 left2 new old with
  | zero => omega
  | succ rounds ih =>
    cases todo1 with
    | nil =>
      refine ⟨.success, maps, itor1, itor2, ?_, Or.inl ⟨rfl, [], todo2, _, _, _, _, _, _, dividing,
        Or.inl rfl⟩⟩
      simp [clMapDeltaLoop, dividing.at1.ended]
    | cons pair1 tail1 =>
      cases todo2 with
      | nil =>
        refine ⟨.success, maps, itor1, itor2, ?_, Or.inl ⟨rfl, pair1 :: tail1, [], _, _, _, _, _, _,
          dividing, Or.inr rfl⟩⟩
        simp [clMapDeltaLoop, dividing.at2.ended]
      | cons pair2 tail2 =>
        simp only [length_cons] at enough
        obtain ⟨notEnd1, key1, -⟩ := dividing.at1.read
        obtain ⟨notEnd2, key2, -⟩ := dividing.at2.read
        have going : ¬ (itor1 = clMapEnd ∨ itor2 = clMapEnd) := by
          rintro (ended | ended)
          · exact notEnd1 ended
          · exact notEnd2 ended
        simp only [clMapDeltaLoop, if_neg going, key1, key2]
        by_cases less : pair1.1 < pair2.1
        · rw [if_pos less]
          rcases dividing.moveOld (by simpa using less) with
            ⟨oldAfter, mapAfter, itor, oldPairs, moved, kept⟩ |
            ⟨oldAfter, mapAfter, failed, short, out1, out2⟩
          · simp only [moved, bind_eq_bind, bind_some, ne_eq, not_true_eq_false, if_false]
            exact ih kept (by simp only [length_cons]; omega)
          · obtain ⟨after, reverted, restored⟩ := @clMapRevert_restores _ _ _ _ _ _
              { maps with old := oldAfter, map1 := mapAfter } out1 out2
            refine ⟨.insufficientMemory, after, itor1, itor2, ?_, Or.inr ⟨rfl, short, restored⟩⟩
            simp [failed, reverted]
        · rw [if_neg less]
          split_ifs with more
          · rcases dividing.swap.moveOld (by simpa using more) with
              ⟨newAfter, mapAfter, itor, newPairs, moved, kept⟩ |
              ⟨newAfter, mapAfter, failed, short, out2, out1⟩
            · simp only [ClDelta.swap] at moved
              simp only [moved, bind_eq_bind, bind_some, ne_eq, not_true_eq_false, if_false]
              exact ih kept.swap (by simp only [length_cons]; omega)
            · simp only [ClDelta.swap] at failed
              obtain ⟨after, reverted, restored⟩ := @clMapRevert_restores _ _ _ _ _ _
                { maps with new := newAfter, map2 := mapAfter } out1 out2
              refine ⟨.insufficientMemory, after, itor1, itor2, ?_, Or.inr ⟨rfl, short, restored⟩⟩
              simp [failed, reverted]
          · have equal : pair1.1 = pair2.1 := by
              apply UInt64.le_antisymm
              · exact UInt64.not_lt.mp more
              · exact UInt64.not_lt.mp less
            exact ih (dividing.pass equal) (by omega)

/-- The rest of the second map goes to the new pairs. -/
theorem restNew (ended : todo1 = [] ∨ todo2 = []) (enough : todo2.length < rounds) :
    ∃ status after, clMapRestNew rounds maps itor2 = some (status, after) ∧
      ((status = .success ∧ ∃ itor2 past1 past2 left1 left2 new old,
        ClDividing roomy pairs1 pairs2 todo1 [] after itor1 itor2 past1 past2 left1 left2 new old) ∨
      status = .insufficientMemory ∧ ¬ roomy ∧ ClRestored pairs1 pairs2 after) := by
  induction todo2 generalizing maps itor2 past1 past2 left1 left2 new old rounds with
  | nil =>
    obtain ⟨rounds, rfl⟩ := Nat.exists_eq_add_of_lt enough
    refine ⟨.success, maps, ?_, Or.inl ⟨rfl, itor2, _, _, _, _, _, _, dividing⟩⟩
    simp [clMapRestNew, dividing.at2.ended]
  | cons pair rest ih =>
    obtain rfl : todo1 = [] := by simpa using ended
    obtain ⟨rounds, rfl⟩ : ∃ more, rounds = more + 1 := ⟨rounds - 1, by omega⟩
    have going := dividing.at2.read.1
    rcases dividing.swap.moveOld (by simp) with ⟨newAfter, mapAfter, itor, newPairs, moved, kept⟩ |
      ⟨newAfter, mapAfter, failed, short, out2, out1⟩
    · simp only [ClDelta.swap] at moved
      simp only [clMapRestNew, if_neg going, moved, bind_eq_bind, bind_some, ne_eq,
        not_true_eq_false, if_false]
      exact ih kept.swap (Or.inl rfl) (Nat.lt_of_succ_lt_succ enough)
    · simp only [ClDelta.swap] at failed
      obtain ⟨after, reverted, restored⟩ := @clMapRevert_restores _ _ _ _ _ _
        { maps with new := newAfter, map2 := mapAfter } out1 out2
      refine ⟨.insufficientMemory, after, ?_, Or.inr ⟨rfl, short, restored⟩⟩
      simp [clMapRestNew, going, failed, reverted]

omit dividing in
/-- The rest of the first map goes to the old pairs. -/
theorem restOld
    (dividing : ClDividing roomy pairs1 pairs2 todo1 [] maps itor1 itor2 past1 past2 left1 left2 new old)
    (enough : todo1.length < rounds) :
    ∃ status after, clMapRestOld rounds maps itor1 = some (status, after) ∧
      ((status = .success ∧ ∃ itor1 past1 past2 left1 left2 new old,
        ClDividing roomy pairs1 pairs2 [] [] after itor1 itor2 past1 past2 left1 left2 new old) ∨
      status = .insufficientMemory ∧ ¬ roomy ∧ ClRestored pairs1 pairs2 after) := by
  induction todo1 generalizing maps itor1 past1 past2 left1 left2 new old rounds with
  | nil =>
    obtain ⟨rounds, rfl⟩ := Nat.exists_eq_add_of_lt enough
    refine ⟨.success, maps, ?_, Or.inl ⟨rfl, itor1, _, _, _, _, _, _, dividing⟩⟩
    simp [clMapRestOld, dividing.at1.ended]
  | cons pair rest ih =>
    obtain ⟨rounds, rfl⟩ : ∃ more, rounds = more + 1 := ⟨rounds - 1, by omega⟩
    have going := dividing.at1.read.1
    rcases dividing.moveOld (by simp) with ⟨oldAfter, mapAfter, itor, oldPairs, moved, kept⟩ |
      ⟨oldAfter, mapAfter, failed, short, out1, out2⟩
    · simp only [clMapRestOld, if_neg going, moved, bind_eq_bind, bind_some, ne_eq,
        not_true_eq_false, if_false]
      exact ih kept (Nat.lt_of_succ_lt_succ enough)
    · obtain ⟨after, reverted, restored⟩ := @clMapRevert_restores _ _ _ _ _ _
        { maps with old := oldAfter, map1 := mapAfter } out1 out2
      refine ⟨.insufficientMemory, after, ?_, Or.inr ⟨rfl, short, restored⟩⟩
      simp [clMapRestOld, going, failed, reverted]

end ClDividing

/-- `cl_map_delta` ends, whatever the pools get from their growths. It succeeds with the keys of
both maps left in them, and the pairs that only the second or the first one had in the new and
the old map; or it fails and leaves all maps as they were, which it does only if the pool of the
old or the new map gives fewer items than the first or the second map has. -/
theorem clMapDelta_atomic {maps : ClDelta α β} {pairs1 pairs2 : List (UInt64 × β)}
    (shows1 : maps.map1.Shows pairs1) (shows2 : maps.map2.Shows pairs2)
    (emptyNew : maps.new.Shows []) (emptyOld : maps.old.Shows []) :
    ∃ status after, clMapDelta maps = some (status, after) ∧
      ((status = .success ∧ ∃ left1 left2 new old, after.map1.Shows left1 ∧
        after.map2.Shows left2 ∧ after.new.Shows new ∧ after.old.Shows old ∧
        Divided compareKeys Prod.fst pairs1 pairs2 left1 left2 new old) ∨
      status = .insufficientMemory ∧
        (maps.old.supply < pairs1.length ∨ maps.new.supply < pairs2.length) ∧
        after.map1.Shows pairs1 ∧ after.map2.Shows pairs2 ∧ after.new.Shows [] ∧ after.old.Shows []) := by
  have start : ClDividing (pairs1.length ≤ maps.old.supply ∧ pairs2.length ≤ maps.new.supply) pairs1
      pairs2 pairs1 pairs2 maps (clMapHead maps.map1) (clMapHead maps.map2) [] [] [] [] [] [] := by
    refine ⟨rfl, rfl, shows1.at_head, shows2.at_head, emptyNew, emptyOld,
      ⟨?_, ?_, ?_, ?_, List.Perm.refl _⟩, ?_, Nat.zero_le _, Nat.zero_le _, shows1.byKey,
      shows2.byKey, id⟩
    all_goals simp
  have lacking (short : ¬ (pairs1.length ≤ maps.old.supply ∧ pairs2.length ≤ maps.new.supply)) :
      maps.old.supply < pairs1.length ∨ maps.new.supply < pairs2.length := by omega
  have room : pairs1.length + pairs2.length < maps.map1.map.count + maps.map2.map.count + 1 := by
    rw [start.at1.length, start.at2.length]
    simp
  obtain ⟨status, between, end1, end2, ran, ended⟩ := start.loop room
  rcases ended with ⟨rfl, rest1, rest2, _, _, _, left2, _, _, kept, ended⟩ | ⟨rfl, short, restored⟩
  · have room2 : rest2.length < between.map2.map.count + 1 := by
      rw [kept.at2.length]
      omega
    obtain ⟨status, later, ranNew, endedNew⟩ := kept.restNew ended room2
    rcases endedNew with ⟨rfl, itor2, _, _, left1, _, _, _, keptNew⟩ | ⟨rfl, short, restored⟩
    · have room1 : rest1.length < later.map1.map.count + 1 := by
        rw [keptNew.at1.length]
        omega
      obtain ⟨status, after, ranOld, endedOld⟩ := keptNew.restOld room1
      refine ⟨status, after, by simp [clMapDelta, ran, ranNew, ranOld], ?_⟩
      rcases endedOld with ⟨rfl, itor1, past1, past2, left1, left2, new, old, done⟩ |
        ⟨rfl, short, restored⟩
      · have shown1 := done.at1.shows
        have shown2 := done.at2.shows
        have whole1 := done.first
        have whole2 := done.second
        rw [append_nil] at shown1 shown2 whole1 whole2
        refine Or.inl ⟨rfl, left1, left2, new, old, shown1, shown2, done.newShows, done.oldShows, ?_⟩
        rw [whole1, whole2]
        exact done.divided
      · exact Or.inr ⟨rfl, lacking short, restored.map1, restored.map2, restored.new, restored.old⟩
    · refine ⟨.insufficientMemory, later, by simp [clMapDelta, ran, ranNew], Or.inr ⟨rfl, lacking short, ?_⟩⟩
      exact ⟨restored.map1, restored.map2, restored.new, restored.old⟩
  · refine ⟨.insufficientMemory, between, by simp [clMapDelta, ran], Or.inr ⟨rfl, lacking short, ?_⟩⟩
    exact ⟨restored.map1, restored.map2, restored.new, restored.old⟩

omit [DecidableEq β] in
/-- A key after all others goes to the end. -/
theorem ClMap.Shows.snoc {map after : ClMap α β} {pairs : List (UInt64 × β)} {key : UInt64}
    {object given : β} (shows' : map.Shows pairs) (above : ∀ pair ∈ pairs, pair.1 < key)
    (run : clMapInsert map key object = some (after, some given)) :
    after.Shows (pairs ++ [(key, object)]) := by
  obtain ⟨changed, result, inserted, cases⟩ := shows'.insert key object
  cases run.symm.trans inserted
  rcases cases with ⟨none, -⟩ | ⟨existing, taken, -⟩ | ⟨-, -, -, longer, perm, shown⟩
  · cases none
  · exact absurd (above _ taken) (UInt64.lt_irrefl _)
  · have sorted : ClMap.ByKey (pairs ++ [(key, object)]) :=
      pairwise_append.mpr ⟨shows'.byKey, pairwise_singleton _ _, by simpa using above⟩
    rwa [shown.byKey.eq_of_mem_iff sorted fun pair => by simp [perm.mem_iff, or_comm]] at shown

/-- Keys 5 and 6 in the first map and key 9 in the second one; the pool of the old map has the
given items. -/
def deltaMaps (free : List Nat) : Option (ClDelta Nat Nat) := do
  let (one, some _) ← clMapInsert (emptyClMap [1, 2]) 5 7 | none
  let (map1, some _) ← clMapInsert one 6 8 | none
  let (map2, some _) ← clMapInsert (emptyClMap [1]) 9 1 | none
  some { map1, map2, new := emptyClMap [1], old := emptyClMap free }

theorem deltaMaps_shows {free : List Nat} {maps : ClDelta Nat Nat}
    (made : deltaMaps free = some maps) (distinct : free.Nodup) :
    maps.map1.Shows [(5, 7), (6, 8)] ∧ maps.map2.Shows [(9, 1)] ∧ maps.new.Shows [] ∧
      maps.old.Shows [] ∧ maps.new.supply = 1 ∧ maps.old.supply = free.length := by
  have empty (free : List Nat) (distinct : free.Nodup) : (emptyClMap free).Shows [] :=
    ClMap.clMapInit_shows _ (by simpa using distinct)
  unfold deltaMaps at made
  obtain ⟨⟨one, _ | _⟩, first, made⟩ := bind_eq_some_iff.mp made
  · cases made
  obtain ⟨⟨map1, _ | _⟩, second, made⟩ := bind_eq_some_iff.mp made
  · cases made
  obtain ⟨⟨map2, _ | _⟩, third, made⟩ := bind_eq_some_iff.mp made
  · cases made
  cases made
  have shows1 := ((empty [1, 2] (by decide)).snoc (by simp) first).snoc (by simp) second
  have shows2 := (empty [1] (by decide)).snoc (by simp) third
  exact ⟨shows1, shows2, empty [1] (by decide), empty free distinct, rfl, rfl⟩

/-- With one item for the old map the second pair cannot be moved, and the first one comes back;
with two items both are moved. -/
theorem clMapDelta_atomic_short :
    (∃ maps after, deltaMaps [3] = some maps ∧
      clMapDelta maps = some (.insufficientMemory, after) ∧
      after.map1.Shows [(5, 7), (6, 8)] ∧ after.map2.Shows [(9, 1)] ∧ after.new.Shows [] ∧
      after.old.Shows []) ∧
    ∃ maps after, deltaMaps [3, 4] = some maps ∧ clMapDelta maps = some (.success, after) ∧
      ∃ left1 left2 new old, after.map1.Shows left1 ∧ after.map2.Shows left2 ∧
        after.new.Shows new ∧ after.old.Shows old ∧
        Divided compareKeys Prod.fst [(5, 7), (6, 8)] [(9, 1)] left1 left2 new old := by
  constructor
  · have short : (deltaMaps [3]).bind (fun maps => (clMapDelta maps).map Prod.fst) =
        some .insufficientMemory := by decide +kernel
    obtain ⟨maps, made, short⟩ := bind_eq_some_iff.mp short
    obtain ⟨shows1, shows2, new, old, -⟩ := deltaMaps_shows made (by decide)
    obtain ⟨status, after, run, result⟩ := clMapDelta_atomic shows1 shows2 new old
    rw [run, map_some, some.injEq] at short
    subst short
    obtain ⟨impossible, -⟩ | ⟨-, -, restored⟩ := result
    · cases impossible
    · exact ⟨maps, after, made, run, restored⟩
  · obtain ⟨maps, made⟩ : ∃ maps, deltaMaps [3, 4] = some maps :=
      isSome_iff_exists.mp (by decide +kernel)
    obtain ⟨shows1, shows2, new, old, supplyNew, supplyOld⟩ := deltaMaps_shows made (by decide)
    obtain ⟨status, after, run, result⟩ := clMapDelta_atomic shows1 shows2 new old
    obtain ⟨rfl, done⟩ | ⟨-, short, -⟩ := result
    · exact ⟨maps, after, made, run, done⟩
    · rw [supplyNew, supplyOld] at short
      exact absurd short (by decide)

end WinOFED.Complib
