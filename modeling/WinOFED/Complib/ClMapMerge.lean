import WinOFED.Complib.ClMap

/-! Merging maps of objects.

`cl_map_merge` tells by the object that `cl_map_insert` returns whether the key was taken, and
so takes a pair that both maps have for one it has moved. -/
namespace WinOFED.Complib
open RedBlack List
variable {α β : Type} [DecidableEq α] [DecidableEq β]

/-- The loop of `cl_map_merge`. -/
def clMapMergeLoop : Nat → ClMap α β → ClMap α β → Ref α →
    Option (ClStatus × ClMap α β × ClMap α β)
  | 0, _, _, _ => none
  | rounds + 1, dest, src, itor =>
      if itor = clMapEnd then some (.success, dest, src)
      else do
        let next := clMapNext src itor
        let object := src.object itor
        let key := src.map.key itor
        let src ← clMapRemoveItem src itor
        let (dest, object2) ← clMapInsert dest key object
        if some object ≠ object2 then
          let status : ClStatus := if object2 = none then .insufficientMemory else .success
          let (src, _) ← clMapInsert src key object
          if status ≠ .success then some (status, dest, src)
          else clMapMergeLoop rounds dest src next
        else clMapMergeLoop rounds dest src next

/-- `cl_map_merge`. -/
def clMapMerge (dest src : ClMap α β) : Option (ClStatus × ClMap α β × ClMap α β) :=
  clMapMergeLoop (src.map.count + 1) dest src (clMapHead src)

/-- The key of the pair is one of the list's. -/
def KeyIn (pairs : List (UInt64 × β)) (pair : UInt64 × β) : Prop :=
  ∃ other ∈ pairs, other.1 = pair.1

/-- What merging leaves in the maps. A pair stays in the source if its key has another object in
the destination. -/
structure ClMerged (dest src destLeft srcLeft : List (UInt64 × β)) : Prop where
  dest_iff : ∀ pair, pair ∈ destLeft ↔ pair ∈ dest ∨ pair ∈ src ∧ ¬ KeyIn dest pair
  src_iff : ∀ pair, pair ∈ srcLeft ↔ pair ∈ src ∧ KeyIn dest pair ∧ pair ∉ dest

omit [DecidableEq β] in
/-- One key, one object. -/
theorem ClMap.ByKey.eq_of_key {pairs : List (UInt64 × β)} (sorted : ClMap.ByKey pairs)
    {first second : UInt64 × β} (one : first ∈ pairs) (two : second ∈ pairs)
    (same : first.1 = second.1) : first = second := by
  have ascending : Ascending compareKeys Prod.fst pairs := by
    simpa only [Ascending, compareKeys_neg, ClMap.ByKey] using sorted
  exact ascending.eq_of_same lawful_compareKeys one two (compareKeys_eq_zero.mpr same)

variable {srcLeft dest src destLeft destPairs : List (UInt64 × β)} {pair : UInt64 × β}

section

omit [DecidableEq β]

/-- The first pair of the source stays. -/
theorem ClMerged.cons_kept (merged : ClMerged dest src destLeft srcLeft) (taken : KeyIn dest pair)
    (other : pair ∉ dest) : ClMerged dest (pair :: src) destLeft (pair :: srcLeft) := by
  constructor
  · intro any
    rw [merged.dest_iff, mem_cons, or_and_right]
    refine or_congr_right (or_iff_right ?_).symm
    rintro ⟨rfl, free⟩
    exact free taken
  · intro any
    rw [mem_cons, mem_cons, merged.src_iff, or_and_right]
    refine or_congr_left (and_iff_left_of_imp ?_).symm
    rintro rfl
    exact ⟨taken, other⟩

/-- The first pair of the source is in the destination too, and is dropped. -/
theorem ClMerged.cons_dropped (merged : ClMerged dest src destLeft srcLeft) (both : pair ∈ dest) :
    ClMerged dest (pair :: src) destLeft srcLeft := by
  constructor
  · intro any
    rw [merged.dest_iff, mem_cons, or_and_right, @or_left_comm (any ∈ dest)]
    refine (or_iff_right_of_imp ?_).symm
    rintro ⟨rfl, -⟩
    exact Or.inl both
  · intro any
    rw [mem_cons, merged.src_iff, or_and_right]
    refine (or_iff_right ?_).symm
    rintro ⟨rfl, -, apart⟩
    exact apart both

/-- The first pair of the source moves. -/
theorem ClMerged.cons_moved {grown : List (UInt64 × β)}
    (merged : ClMerged grown src destLeft srcLeft) (perm : grown.Perm (pair :: dest))
    (free : ¬ KeyIn dest pair) (sorted : ClMap.ByKey (pair :: src)) :
    ClMerged dest (pair :: src) destLeft srcLeft := by
  have same : ∀ any ∈ src, (KeyIn grown any ↔ KeyIn dest any) ∧ (any ∈ grown ↔ any ∈ dest) := by
    intro any listed
    have apart : pair.1 ≠ any.1 := UInt64.ne_of_lt ((pairwise_cons.mp sorted).1 any listed)
    constructor
    · simp only [KeyIn, perm.mem_iff, mem_cons, exists_eq_or_imp]
      exact or_iff_right apart
    · rw [perm.mem_iff, mem_cons]
      apply or_iff_right
      rintro rfl
      exact apart rfl
  constructor
  · intro any
    rw [merged.dest_iff, perm.mem_iff, mem_cons, mem_cons, or_assoc, or_and_right,
      @or_left_comm (any ∈ dest)]
    refine or_congr (and_iff_left_of_imp ?_).symm
      (or_congr_right (and_congr_right fun inSrc => not_congr (same any inSrc).1))
    rintro rfl
    exact free
  · intro any
    rw [merged.src_iff, mem_cons, or_and_right, or_iff_right]
    · exact and_congr_right fun inSrc =>
        and_congr (same any inSrc).1 (not_congr (same any inSrc).2)
    · rintro ⟨rfl, key, -⟩
      exact free key

end

/-- How the merging of what is to do in the source ends, with room for so many pairs. -/
def MergeEnds (ran : Option (ClStatus × ClMap α β × ClMap α β)) (room : Nat)
    (dest done todo : List (UInt64 × β)) : Prop :=
  ∃ status destAfter srcAfter destLeft srcLeft, ran = some (status, destAfter, srcAfter) ∧
    destAfter.Shows destLeft ∧ srcAfter.Shows (done ++ srcLeft) ∧
    (todo.length ≤ room → status = .success) ∧
    (status = .success → ClMerged dest todo destLeft srcLeft) ∧
    ∀ pair ∈ dest ++ todo, pair ∈ destLeft ++ srcLeft

/-- The loop of `cl_map_merge` with the pairs before the iterator behind it. -/
theorem clMapMergeLoop_result {dest src : ClMap α β} {itor : Ref α} {done todo : List (UInt64 × β)}
    {rounds : Nat} (destShows : dest.Shows destPairs) (srcAt : src.At itor done todo)
    (enough : todo.length < rounds) :
    MergeEnds (clMapMergeLoop rounds dest src itor) dest.free.length destPairs done todo := by
  induction todo generalizing dest src itor destPairs done rounds with
  | nil =>
    obtain ⟨rounds, rfl⟩ := Nat.exists_eq_add_of_lt enough
    refine ⟨.success, dest, src, destPairs, [], ?_, destShows, srcAt.shows, fun _ => rfl,
      fun _ => ⟨by simp, by simp⟩, fun _ listed => listed⟩
    simp [clMapMergeLoop, srcAt.ended]
  | cons pair rest ih =>
    obtain ⟨rounds, rfl⟩ : ∃ more, rounds = more + 1 := ⟨rounds - 1, by omega⟩
    obtain ⟨key, object⟩ := pair
    have less : rest.length < rounds := Nat.lt_of_succ_lt_succ enough
    obtain ⟨notEnd, readKey, readObject⟩ := srcAt.read
    obtain ⟨shorter, removed, shortAt, room⟩ := srcAt.remove
    have sorted := srcAt.shows.byKey
    have ordered : ClMap.ByKey ((key, object) :: rest) := sorted.sublist (sublist_append_right _ _)
    have notShort : shorter.free ≠ [] := by
      rintro empty
      rw [empty] at room
      cases room
    obtain ⟨restored, back, restoredAt, -⟩ := shortAt.insertBack sorted notShort
    obtain ⟨changed, result, inserted, cases⟩ := destShows.insert key object
    have unfolded : clMapMergeLoop (rounds + 1) dest src itor =
        if some object ≠ result then
          if (if result = none then ClStatus.insufficientMemory else .success) ≠ .success then
            some (if result = none then .insufficientMemory else .success, changed, restored)
          else clMapMergeLoop rounds changed restored (clMapNext src itor)
        else clMapMergeLoop rounds changed shorter (clMapNext src itor) := by
      simp only [clMapMergeLoop, if_neg notEnd, readKey, readObject, removed, inserted, back,
        Option.bind_eq_bind, Option.bind_some]
    rw [unfolded]
    rcases cases with ⟨rfl, short, shown⟩ | ⟨existing, taken, rfl, shown, kept⟩ |
      ⟨free, rfl, fewer, longer, perm, shown⟩
    · -- memory is short
      refine ⟨.insufficientMemory, changed, restored, destPairs, (key, object) :: rest, by simp,
        shown, by simpa using restoredAt.shows, ?_, nofun, fun _ listed => listed⟩
      rw [short]
      simp
    · by_cases same : object = existing
      · -- both maps have the pair
        subst same
        obtain ⟨status, destAfter, srcAfter, destLeft, srcLeft, run, destDone, srcDone, full,
          merged, union⟩ := ih shown shortAt less
        refine ⟨status, destAfter, srcAfter, destLeft, srcLeft, ?_, destDone, srcDone, ?_, ?_, ?_⟩
        · rw [if_neg (by simp)]
          exact run
        · intro most
          simp only [length_cons] at most
          exact full (by omega)
        · exact fun done => (merged done).cons_dropped taken
        · intro pair listed
          apply union
          simp only [mem_append, mem_cons] at listed ⊢
          rcases listed with inDest | rfl | inRest
          · exact Or.inl inDest
          · exact Or.inl taken
          · exact Or.inr inRest
      · obtain ⟨status, destAfter, srcAfter, destLeft, srcLeft, run, destDone, srcDone, full,
          merged, union⟩ := ih shown restoredAt less
        have other : (key, object) ∉ destPairs := fun inside =>
          same (congrArg Prod.snd (destShows.byKey.eq_of_key inside taken rfl))
        refine ⟨status, destAfter, srcAfter, destLeft, (key, object) :: srcLeft, ?_, destDone,
          by simpa using srcDone, ?_, ?_, ?_⟩
        · rw [if_pos (by simpa using same), if_neg (by simp)]
          exact run
        · intro most
          simp only [length_cons] at most
          exact full (by omega)
        · exact fun done => (merged done).cons_kept ⟨_, taken, rfl⟩ other
        · intro pair listed
          have found := union pair
          simp only [mem_append, mem_cons] at listed found ⊢
          tauto
    · obtain ⟨status, destAfter, srcAfter, destLeft, srcLeft, run, destDone, srcDone, full,
        merged, union⟩ := ih shown shortAt less
      refine ⟨status, destAfter, srcAfter, destLeft, srcLeft, ?_, destDone, srcDone, ?_, ?_, ?_⟩
      · rw [if_neg (by simp)]
        exact run
      · intro most
        simp only [length_cons] at most
        exact full (by omega)
      · intro done
        apply (merged done).cons_moved perm _ ordered
        rintro ⟨other, inside, same⟩
        exact free other inside same
      · intro pair listed
        apply union
        rw [mem_append, perm.mem_iff]
        simp only [mem_append, mem_cons] at listed ⊢
        tauto

/-- `cl_map_merge` in any case. -/
theorem clMapMerge_result {dest src : ClMap α β} {srcPairs : List (UInt64 × β)}
    (destShows : dest.Shows destPairs) (srcShows : src.Shows srcPairs) :
    MergeEnds (clMapMerge dest src) dest.free.length destPairs [] srcPairs := by
  have srcAt := srcShows.at_head
  apply clMapMergeLoop_result destShows srcAt
  rw [srcAt.length]
  simp

/-- What the documentation says that merging leaves in the maps. -/
structure ClMergedDocumented (dest src destLeft srcLeft : List (UInt64 × β)) : Prop where
  dest_iff : ∀ pair, pair ∈ destLeft ↔ pair ∈ dest ∨ pair ∈ src ∧ ¬ KeyIn dest pair
  src_iff : ∀ pair, pair ∈ srcLeft ↔ pair ∈ src ∧ KeyIn dest pair

/-- `cl_map_merge` ends. If it succeeds, then it does what is documented if and only if no key
has the same object in both maps; and in any case no pair is lost. -/
theorem clMapMerge_documented_iff {dest src : ClMap α β} {destPairs srcPairs : List (UInt64 × β)}
    (destShows : dest.Shows destPairs) (srcShows : src.Shows srcPairs) :
    ∃ status destAfter srcAfter destLeft srcLeft,
      clMapMerge dest src = some (status, destAfter, srcAfter) ∧
      destAfter.Shows destLeft ∧ srcAfter.Shows srcLeft ∧
      (status = .success → (ClMergedDocumented destPairs srcPairs destLeft srcLeft ↔
        ∀ pair ∈ srcPairs, pair ∉ destPairs)) ∧
      ∀ pair ∈ destPairs ++ srcPairs, pair ∈ destLeft ++ srcLeft := by
  obtain ⟨status, destAfter, srcAfter, destLeft, srcLeft, run, destDone, srcDone, -, merged,
    union⟩ := clMapMerge_result destShows srcShows
  refine ⟨status, destAfter, srcAfter, destLeft, srcLeft, run, destDone, srcDone, fun done => ?_,
    union⟩
  have left := merged done
  constructor
  · intro documented pair inSrc inDest
    have stays := (documented.src_iff pair).mpr ⟨inSrc, pair, inDest, rfl⟩
    exact ((left.src_iff pair).mp stays).2.2 inDest
  · intro apart
    refine ⟨left.dest_iff, fun pair => ?_⟩
    rw [left.src_iff]
    constructor
    · rintro ⟨inSrc, key, -⟩
      exact ⟨inSrc, key⟩
    · rintro ⟨inSrc, key⟩
      exact ⟨inSrc, key, apart pair inSrc⟩

/-- An empty map of numbers whose pool starts with the items and cannot grow. -/
def emptyClMap (free : List Nat) : ClMap Nat Nat :=
  let quick : QMap Nat :=
    { links := ⟨fun _ _ => .nil, fun _ => .nil, fun _ => .red⟩
      ring := ⟨fun _ => .nil, fun _ => .nil⟩
      key := fun _ => 0
      count := 0 }
  clMapInit { map := quick, object := fun _ => 0, free := [], grows := [] } free []

/-- A map with one pair and a free item. -/
theorem exists_shows_singleton (key : UInt64) (object : Nat) :
    ∃ map : ClMap Nat Nat, map.Shows [(key, object)] ∧ 1 ≤ map.free.length := by
  have empty : (emptyClMap [1, 2]).Shows [] := ClMap.clMapInit_shows _ (by decide)
  obtain ⟨map, result, -, cases⟩ := empty.insert key object
  rcases cases with ⟨-, short, -⟩ | ⟨_, taken, -⟩ | ⟨-, -, room, longer, perm, shown⟩
  · cases short
  · cases taken
  · rw [perm_singleton.mp perm] at shown
    exact ⟨map, shown, Nat.le_of_succ_le_succ room⟩

/-- Objects 7 and 8 under one key: the pair of the source stays there. -/
theorem clMapMerge_documented_other_object :
    ∃ dest src destAfter srcAfter : ClMap Nat Nat, dest.Shows [(5, 7)] ∧ src.Shows [(5, 8)] ∧
      clMapMerge dest src = some (.success, destAfter, srcAfter) ∧ ∃ destLeft srcLeft,
        destAfter.Shows destLeft ∧ srcAfter.Shows srcLeft ∧
        ClMergedDocumented [(5, 7)] [(5, 8)] destLeft srcLeft := by
  obtain ⟨dest, destShows, room⟩ := exists_shows_singleton 5 7
  obtain ⟨src, srcShows, -⟩ := exists_shows_singleton 5 8
  obtain ⟨status, destAfter, srcAfter, destLeft, srcLeft, run, destDone, srcDone, documented, -⟩ :=
    clMapMerge_documented_iff destShows srcShows
  obtain ⟨result, _, _, _, _, again, -, -, full, -⟩ := clMapMerge_result destShows srcShows
  obtain rfl := full room
  cases run.symm.trans again
  exact ⟨dest, src, destAfter, srcAfter, destShows, srcShows, run, destLeft, srcLeft, destDone,
    srcDone, (documented rfl).mpr (by decide)⟩

/-- Object 7 under key 5 in both maps: the merge succeeds and the source has lost the pair, whose
key is in the destination. -/
theorem clMapMerge_same_object :
    ∃ dest src destAfter srcAfter : ClMap Nat Nat, dest.Shows [(5, 7)] ∧ src.Shows [(5, 7)] ∧
      clMapMerge dest src = some (.success, destAfter, srcAfter) ∧ srcAfter.Shows [] ∧
      clMapGet src 5 = some (some 7) ∧ clMapGet srcAfter 5 ≠ some (some 7) := by
  obtain ⟨dest, destShows, room⟩ := exists_shows_singleton 5 7
  obtain ⟨src, srcShows, -⟩ := exists_shows_singleton 5 7
  obtain ⟨status, destAfter, srcAfter, destLeft, srcLeft, run, -, srcDone, full, merged, -⟩ :=
    clMapMerge_result destShows srcShows
  obtain rfl := full room
  have empty : srcLeft = [] := by
    apply eq_nil_iff_forall_not_mem.mpr
    intro pair listed
    obtain ⟨inSrc, -, apart⟩ := ((merged rfl).src_iff pair).mp listed
    exact apart inSrc
  rw [empty] at srcDone
  refine ⟨dest, src, destAfter, srcAfter, destShows, srcShows, run, srcDone, ?_, ?_⟩
  · exact (srcShows.get 5 7).mpr (by simp)
  · rw [ne_eq, srcDone.get]
    simp

end WinOFED.Complib
