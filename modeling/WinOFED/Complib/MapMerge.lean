import WinOFED.Complib.QMapRefine

/-! Merging maps and splitting them by their keys.

`cl_qmap_merge`, `cl_qmap_delta` and their twins for the flexi map walk along the list of a
map while they move items to another one. An item is in one map at a time, so that its links
are looked at only through the map that it is in; its key goes with it. -/
namespace WinOFED.Complib
open RedBlack List
variable {κ α : Type*} [DecidableEq α]

/-! ### The source's functions -/

/-- The loop of `cl_fmap_merge`. -/
def fmapMergeLoop : Nat → FMap κ α → FMap κ α → Ref α → Option (FMap κ α × FMap κ α)
  | 0, _, _, _ => none
  | rounds + 1, dest, src, item =>
      if item = fmapEnd then some (dest, src)
      else
        let next := fmapNext src item
        (fmapRemoveItem src item).bind fun src =>
        (fmapInsert dest (fmapKey src item) item).bind fun (dest, item2) =>
        if item2 ≠ item then
          -- The key is in the destination: back to the source.
          (fmapInsert src (fmapKey src item) item).bind fun (src, _) =>
          fmapMergeLoop rounds dest src next
        else fmapMergeLoop rounds dest src next

/-- `cl_fmap_merge`. Each round is about another item of the source. -/
def fmapMerge (dest src : FMap κ α) : Option (FMap κ α × FMap κ α) :=
  fmapMergeLoop (src.count + 1) dest src (fmapHead src)

/-- `__cl_fmap_delta_move`: the maps after it and the next item. -/
def fmapDeltaMove (dest src : FMap κ α) (item : Ref α) : Option (FMap κ α × FMap κ α × Ref α) :=
  let next := fmapNext src item
  (fmapRemoveItem src item).bind fun src =>
  (fmapInsert dest (fmapKey src item) item).bind fun (dest, _) =>
  some (dest, src, next)

/-- The loops of `cl_fmap_delta` for the rest of a map. -/
def fmapMoveRest : Nat → FMap κ α → FMap κ α → Ref α → Option (FMap κ α × FMap κ α)
  | 0, _, _, _ => none
  | rounds + 1, dest, src, item =>
      if item = fmapEnd then some (dest, src)
      else (fmapDeltaMove dest src item).bind fun (dest, src, next) =>
        fmapMoveRest rounds dest src next

/-- The maps of `cl_fmap_delta`. -/
structure FDelta (κ α : Type*) where
  map1 : FMap κ α
  map2 : FMap κ α
  new : FMap κ α
  old : FMap κ α

/-- The first loop of `cl_fmap_delta`. -/
def fmapDeltaLoop : Nat → FDelta κ α → Ref α → Ref α → Option (FDelta κ α × Ref α × Ref α)
  | 0, _, _, _ => none
  | rounds + 1, maps, item1, item2 =>
      if item1 = fmapEnd ∨ item2 = fmapEnd then some (maps, item1, item2)
      else
        let cmp := maps.map1.compare (fmapKey maps.map1 item1) (fmapKey maps.map2 item2)
        if cmp < 0 then
          (fmapDeltaMove maps.old maps.map1 item1).bind fun (old, map1, item1) =>
          fmapDeltaLoop rounds { maps with old, map1 } item1 item2
        else if cmp > 0 then
          (fmapDeltaMove maps.new maps.map2 item2).bind fun (new, map2, item2) =>
          fmapDeltaLoop rounds { maps with new, map2 } item1 item2
        else
          fmapDeltaLoop rounds maps (fmapNext maps.map1 item1) (fmapNext maps.map2 item2)

/-- `cl_fmap_delta`. -/
def fmapDelta (maps : FDelta κ α) : Option (FDelta κ α) :=
  (fmapDeltaLoop (maps.map1.count + maps.map2.count + 1) maps (fmapHead maps.map1)
    (fmapHead maps.map2)).bind fun (maps, item1, item2) =>
  (fmapMoveRest (maps.map2.count + 1) maps.new maps.map2 item2).bind fun (new, map2) =>
  (fmapMoveRest (maps.map1.count + 1) maps.old maps.map1 item1).bind fun (old, map1) =>
  some { map1, map2, new, old }

/-- The loop of `cl_qmap_merge`. -/
def qmapMergeLoop : Nat → QMap α → QMap α → Ref α → Option (QMap α × QMap α)
  | 0, _, _, _ => none
  | rounds + 1, dest, src, item =>
      if item = qmapEnd then some (dest, src)
      else do
        let next := qmapNext src item
        let src ← qmapRemoveItem src item
        let (dest, item2) ← qmapInsert dest (src.key item) item
        if item2 ≠ item then
          let (src, _) ← qmapInsert src (src.key item) item
          qmapMergeLoop rounds dest src next
        else qmapMergeLoop rounds dest src next

/-- `cl_qmap_merge`. -/
def qmapMerge (dest src : QMap α) : Option (QMap α × QMap α) :=
  qmapMergeLoop (src.count + 1) dest src (qmapHead src)

/-- `__cl_qmap_delta_move`: the maps after it and the next item. -/
def qmapDeltaMove (dest src : QMap α) (item : Ref α) : Option (QMap α × QMap α × Ref α) := do
  let next := qmapNext src item
  let src ← qmapRemoveItem src item
  let (dest, _) ← qmapInsert dest (src.key item) item
  some (dest, src, next)

/-- The loops of `cl_qmap_delta` for the rest of a map. -/
def qmapMoveRest : Nat → QMap α → QMap α → Ref α → Option (QMap α × QMap α)
  | 0, _, _, _ => none
  | rounds + 1, dest, src, item =>
      if item = qmapEnd then some (dest, src)
      else do
        let (dest, src, next) ← qmapDeltaMove dest src item
        qmapMoveRest rounds dest src next

/-- The maps of `cl_qmap_delta`. -/
structure QDelta (α : Type*) where
  map1 : QMap α
  map2 : QMap α
  new : QMap α
  old : QMap α

/-- The first loop of `cl_qmap_delta`. -/
def qmapDeltaLoop : Nat → QDelta α → Ref α → Ref α → Option (QDelta α × Ref α × Ref α)
  | 0, _, _, _ => none
  | rounds + 1, maps, item1, item2 =>
      if item1 = qmapEnd ∨ item2 = qmapEnd then some (maps, item1, item2)
      else do
        let key1 := maps.map1.key item1
        let key2 := maps.map2.key item2
        if key1 < key2 then
          let (old, map1, item1) ← qmapDeltaMove maps.old maps.map1 item1
          qmapDeltaLoop rounds { maps with old, map1 } item1 item2
        else if key1 > key2 then
          let (new, map2, item2) ← qmapDeltaMove maps.new maps.map2 item2
          qmapDeltaLoop rounds { maps with new, map2 } item1 item2
        else
          qmapDeltaLoop rounds maps (qmapNext maps.map1 item1) (qmapNext maps.map2 item2)

/-- `cl_qmap_delta`. -/
def qmapDelta (maps : QDelta α) : Option (QDelta α) := do
  let (maps, item1, item2) ← qmapDeltaLoop (maps.map1.count + maps.map2.count + 1) maps
    (qmapHead maps.map1) (qmapHead maps.map2)
  let (new, map2) ← qmapMoveRest (maps.map2.count + 1) maps.new maps.map2 item2
  let (old, map1) ← qmapMoveRest (maps.map1.count + 1) maps.old maps.map1 item1
  some { map1, map2, new, old }

/-! ### A map as the list of its items -/

/-- The map is in order, compares keys with the function, and holds the items in that order,
each with its key. -/
structure FMap.Carries (map : FMap κ α) (compare : κ → κ → Int) (keyOf : α → κ) (items : List α) :
    Prop where
  compares : map.compare = compare
  held : ∃ tree, map.Holds tree ∧ tree.items = items
  keys : ∀ item ∈ items, map.key (.item item) = keyOf item

/-- The first item, or the end. -/
def firstItem : List α → Ref α
  | [] => .nil
  | item :: _ => .item item

/-- The keys of the items increase. -/
def Ascending (compare : κ → κ → Int) (keyOf : α → κ) (items : List α) : Prop :=
  items.Pairwise fun first second => compare (keyOf first) (keyOf second) < 0

instance (compare : κ → κ → Int) (keyOf : α → κ) (items : List α) :
    Decidable (Ascending compare keyOf items) :=
  inferInstanceAs (Decidable (List.Pairwise _ items))

section Ascending
variable {compare : κ → κ → Int} {keyOf : α → κ} {items : List α}

omit [DecidableEq α]

section
variable (ascending : Ascending compare keyOf items) (lawful : LawfulCompare compare)
include ascending lawful

theorem Ascending.nodup : items.Nodup := by
  apply List.Pairwise.imp _ ascending
  rintro first second less rfl
  rw [lawful.refl] at less
  omega

/-- The key tells the item. -/
theorem Ascending.eq_of_same {first second : α} (one : first ∈ items) (two : second ∈ items)
    (same : compare (keyOf first) (keyOf second) = 0) : first = second := by
  induction items with
  | nil => cases one
  | cons item rest ih =>
    obtain ⟨less, ordered⟩ := pairwise_cons.mp ascending
    rcases mem_cons.mp one with rfl | early <;> rcases mem_cons.mp two with rfl | late
    · rfl
    · have below := less second late
      omega
    · have below := lawful.neg_iff.mp (less first early)
      omega
    · exact ih ordered early late

/-- The keys tell the order. -/
theorem Ascending.eq_of_perm {others : List α} (also : Ascending compare keyOf others)
    (perm : items.Perm others) : items = others := by
  apply perm.eq_of_pairwise _ ascending also
  intro first second _ _ less more
  have back := lawful.neg_iff.mp less
  omega

end
end Ascending

namespace FMap.Carries
variable {map : FMap κ α} {compare : κ → κ → Int} {keyOf : α → κ} {items before after : List α} {item : α}

section

omit [DecidableEq α]

section
variable (carries : map.Carries compare keyOf items)
include carries

theorem ascending : Ascending compare keyOf items := by
  obtain ⟨tree, holds, rfl⟩ := carries.held
  apply holds.sorted.imp_of_mem
  intro first second one two less
  rwa [carries.keys first one, carries.keys second two, carries.compares] at less

theorem count : map.count = items.length := by
  obtain ⟨tree, holds, rfl⟩ := carries.held
  exact holds.count

theorem head : fmapHead map = firstItem items := by
  obtain ⟨tree, holds, rfl⟩ := carries.held
  have ring := holds.ring
  cases list : tree.items with
  | nil =>
    rw [list] at ring
    exact ring.1
  | cons item rest =>
    rw [list] at ring
    exact ring.1

end

theorem next (carries : map.Carries compare keyOf (before ++ item :: after)) :
    fmapNext map (.item item) = firstItem after := by
  obtain ⟨tree, holds, list⟩ := carries.held
  have ring := holds.ring
  rw [list, map_append, map_cons, Memory.Ring.segment_append] at ring
  cases after with
  | nil => exact ring.2.1
  | cons _ _ => exact ring.2.1

end

/-- An item is taken out; its key stays with it. -/
theorem removeItem (carries : map.Carries compare keyOf (before ++ item :: after)) :
    ∃ shorter, fmapRemoveItem map (.item item) = some shorter ∧
      shorter.Carries compare keyOf (before ++ after) ∧ fmapKey shorter (.item item) = keyOf item := by
  obtain ⟨tree, holds, list⟩ := carries.held
  have inside : item ∈ tree.items := by
    rw [list]
    simp
  obtain ⟨shorter, rest, run, held, items, keys, compares⟩ := holds.removeItem inside
  rw [erase_middle holds.represents.nodup list] at items
  refine ⟨shorter, run, ⟨compares.trans carries.compares, ⟨rest, held, items⟩, ?_⟩, ?_⟩
  · intro other listed
    rw [keys]
    apply carries.keys
    rcases mem_append.mp listed with first | second
    · exact mem_append_left _ first
    · exact mem_append_right _ (mem_cons_of_mem _ second)
  · rw [fmapKey, keys]
    exact carries.keys item (by simp)

section
variable (carries : map.Carries compare keyOf items) (lawful : LawfulCompare compare)
  (outside : item ∉ items)
include carries lawful outside

/-- An item whose key is in the map is not inserted. -/
theorem insert_taken (taken : ∃ other ∈ items, compare (keyOf item) (keyOf other) = 0) :
    ∃ changed found, fmapInsert map (keyOf item) (.item item) = some (changed, .item found) ∧
      found ∈ items ∧ compare (keyOf item) (keyOf found) = 0 ∧
      changed.Carries compare keyOf items := by
  obtain ⟨rfl, ⟨tree, holds, rfl⟩, keys⟩ := carries
  rcases holds.insert lawful (keyOf item) outside with
    ⟨existing, inside, same, run⟩ | ⟨absent, _⟩
  · refine ⟨_, existing, run, inside, ?_, rfl, ⟨tree, holds.prepare _ outside, rfl⟩, ?_⟩
    · rwa [keys existing inside] at same
    · intro other listed
      have distinct : other ≠ item := by
        rintro rfl
        exact outside listed
      simpa [FMap.prepare, distinct] using keys other listed
  · obtain ⟨other, listed, same⟩ := taken
    rw [← keys other listed] at same
    exact absurd same (absent other listed)

/-- An item whose key is not in the map is inserted where its key belongs. -/
theorem insert_new (absent : ∀ other ∈ items, compare (keyOf item) (keyOf other) ≠ 0) :
    ∃ grown longer, fmapInsert map (keyOf item) (.item item) = some (grown, .item item) ∧
      grown.Carries compare keyOf longer ∧ longer.Perm (item :: items) := by
  obtain ⟨rfl, ⟨tree, holds, rfl⟩, keys⟩ := carries
  rcases holds.insert lawful (keyOf item) outside with
    ⟨existing, inside, same, run⟩ | ⟨_, linked, grown, before, after, run, held, split, joined,
      linkedKeys, compares⟩
  · rw [keys existing inside] at same
    exact absurd same (absent existing inside)
  · have perm : grown.items.Perm (item :: tree.items) := by
      rw [joined, split]
      exact perm_middle
    refine ⟨linked, grown.items, run, ⟨compares, ⟨grown, held, rfl⟩, ?_⟩, perm⟩
    intro other listed
    rw [linkedKeys]
    rcases mem_cons.mp (perm.mem_iff.mp listed) with rfl | inside
    · simp [FMap.prepare]
    · have distinct : other ≠ item := by
        rintro rfl
        exact outside inside
      simpa [FMap.prepare, distinct] using keys other inside

end

/-- An item that was taken out is put back in its place. -/
theorem putBack (carries : map.Carries compare keyOf (before ++ after))
    (lawful : LawfulCompare compare) (ascending : Ascending compare keyOf (before ++ item :: after)) :
    ∃ grown, fmapInsert map (keyOf item) (.item item) = some (grown, .item item) ∧
      grown.Carries compare keyOf (before ++ item :: after) := by
  have fresh := ascending.nodup lawful
  rw [nodup_middle, nodup_cons] at fresh
  have absent : ∀ other ∈ before ++ after, compare (keyOf item) (keyOf other) ≠ 0 := by
    obtain ⟨-, late, across⟩ := pairwise_append.mp ascending
    intro other listed
    rcases mem_append.mp listed with early | after
    · have less := lawful.neg_iff.mp (across other early item (mem_cons_self ..))
      omega
    · have less := (pairwise_cons.mp late).1 other after
      omega
  obtain ⟨grown, longer, run, carried, perm⟩ := carries.insert_new lawful fresh.1 absent
  have place : longer = before ++ item :: after :=
    carried.ascending.eq_of_perm lawful ascending (perm.trans perm_middle.symm)
  exact ⟨grown, run, place ▸ carried⟩

end FMap.Carries

/-! ### Merging -/

section Merging
variable {compare : κ → κ → Int} {keyOf : α → κ} {item : α}

/-- The key of the item is one of the list's. -/
def Taken (compare : κ → κ → Int) (keyOf : α → κ) (items : List α) (item : α) : Prop :=
  ∃ other ∈ items, compare (keyOf item) (keyOf other) = 0

instance (compare : κ → κ → Int) (keyOf : α → κ) (items : List α) (item : α) :
    Decidable (Taken compare keyOf items item) :=
  inferInstanceAs (Decidable (∃ other ∈ items, compare (keyOf item) (keyOf other) = 0))

omit [DecidableEq α] in
theorem not_taken {items : List α} : ¬ Taken compare keyOf items item ↔
    ∀ other ∈ items, compare (keyOf item) (keyOf other) ≠ 0 := by
  simp [Taken]

/-- What merging leaves in the maps. -/
structure Merged (compare : κ → κ → Int) (keyOf : α → κ) (dest src destLeft srcLeft : List α) :
    Prop where
  dest_iff : ∀ item, item ∈ destLeft ↔
    item ∈ dest ∨ item ∈ src ∧ ¬ Taken compare keyOf dest item
  src_iff : ∀ item, item ∈ srcLeft ↔ item ∈ src ∧ Taken compare keyOf dest item
  once : (destLeft ++ srcLeft).Perm (dest ++ src)

omit [DecidableEq α] in
/-- The first item of the source stays. -/
theorem Merged.cons_taken {dest src destLeft srcLeft : List α}
    (merged : Merged compare keyOf dest src destLeft srcLeft) (taken : Taken compare keyOf dest item) :
    Merged compare keyOf dest (item :: src) destLeft (item :: srcLeft) := by
  constructor
  · intro other
    rw [merged.dest_iff, mem_cons, or_and_right]
    refine or_congr_right (or_iff_right ?_).symm
    rintro ⟨rfl, free⟩
    exact free taken
  · intro other
    rw [mem_cons, mem_cons, merged.src_iff, or_and_right]
    refine or_congr_left (and_iff_left_of_imp ?_).symm
    rintro rfl
    exact taken
  · exact perm_middle.trans ((merged.once.cons item).trans perm_middle.symm)

omit [DecidableEq α] in
/-- The first item of the source moves. -/
theorem Merged.cons_moved {dest src grown destLeft srcLeft : List α}
    (merged : Merged compare keyOf grown src destLeft srcLeft) (perm : grown.Perm (item :: dest))
    (free : ¬ Taken compare keyOf dest item) (lawful : LawfulCompare compare)
    (ascending : Ascending compare keyOf (item :: src)) :
    Merged compare keyOf dest (item :: src) destLeft srcLeft := by
  have same : ∀ other ∈ src, Taken compare keyOf grown other ↔ Taken compare keyOf dest other := by
    intro other listed
    have less := lawful.neg_iff.mp ((pairwise_cons.mp ascending).1 other listed)
    simp only [Taken, perm.mem_iff, mem_cons, exists_eq_or_imp]
    exact or_iff_right (by omega)
  constructor
  · intro other
    rw [merged.dest_iff, perm.mem_iff, mem_cons, mem_cons, or_assoc, or_and_right,
      @or_left_comm (other ∈ dest)]
    refine or_congr (and_iff_left_of_imp ?_).symm
      (or_congr_right (and_congr_right fun inSrc => not_congr (same other inSrc)))
    rintro rfl
    exact free
  · intro other
    rw [merged.src_iff, mem_cons, or_and_right, or_iff_right, and_congr_right (same other)]
    rintro ⟨rfl, taken⟩
    exact free taken
  · have moved := merged.once.trans (perm.append_right src)
    exact moved.trans perm_middle.symm

/-- The loop of `cl_fmap_merge` with the items before the current one behind it. -/
theorem fmapMergeLoop_merges (lawful : LawfulCompare compare) {dest src : FMap κ α}
    {destItems done todo : List α} {rounds : Nat}
    (destCarries : dest.Carries compare keyOf destItems)
    (srcCarries : src.Carries compare keyOf (done ++ todo))
    (apart : ∀ item ∈ todo, item ∉ destItems) (enough : todo.length < rounds) :
    ∃ destAfter srcAfter destLeft srcLeft,
      fmapMergeLoop rounds dest src (firstItem todo) = some (destAfter, srcAfter) ∧
      destAfter.Carries compare keyOf destLeft ∧
      srcAfter.Carries compare keyOf (done ++ srcLeft) ∧
      Merged compare keyOf destItems todo destLeft srcLeft := by
  induction todo generalizing dest src destItems done rounds with
  | nil =>
    obtain ⟨rounds, rfl⟩ := Nat.exists_eq_add_of_lt enough
    refine ⟨dest, src, destItems, [], by simp [fmapMergeLoop, firstItem, fmapEnd], destCarries,
      srcCarries, ?_, ?_, List.Perm.refl _⟩
    · simp
    · simp
  | cons item rest ih =>
    obtain ⟨rounds, rfl⟩ : ∃ more, rounds = more + 1 := ⟨rounds - 1, by omega⟩
    have ascending := srcCarries.ascending
    have outside := apart item (mem_cons_self ..)
    have others : ∀ other ∈ rest, other ∉ destItems := fun other listed =>
      apart other (mem_cons_of_mem _ listed)
    obtain ⟨shorter, removed, shortCarries, key⟩ := srcCarries.removeItem
    have following := srcCarries.next
    by_cases taken : Taken compare keyOf destItems item
    · obtain ⟨changed, found, inserted, inDest, -, changedCarries⟩ :=
        destCarries.insert_taken lawful outside taken
      have different : found ≠ item := by
        rintro rfl
        exact outside inDest
      obtain ⟨restored, back, restoredCarries⟩ := shortCarries.putBack lawful ascending
      have behind : restored.Carries compare keyOf ((done ++ [item]) ++ rest) := by
        simpa using restoredCarries
      obtain ⟨destAfter, srcAfter, destLeft, srcLeft, run, destDone, srcDone, merged⟩ :=
        ih changedCarries behind others (Nat.lt_of_succ_lt_succ enough)
      refine ⟨destAfter, srcAfter, destLeft, item :: srcLeft, ?_, destDone, by simpa using srcDone,
        merged.cons_taken taken⟩
      simpa [fmapMergeLoop, firstItem, fmapEnd, removed, key, inserted, different, back, following]
        using run
    · obtain ⟨grown, longer, inserted, grownCarries, perm⟩ :=
        destCarries.insert_new lawful outside (not_taken.mp taken)
      have stillApart : ∀ other ∈ rest, other ∉ longer := by
        intro other listed inside
        rcases mem_cons.mp (perm.mem_iff.mp inside) with rfl | inDest
        · have nodup := (ascending.nodup lawful).sublist (sublist_append_right _ _)
          exact (nodup_cons.mp nodup).1 listed
        · exact others other listed inDest
      obtain ⟨destAfter, srcAfter, destLeft, srcLeft, run, destDone, srcDone, merged⟩ :=
        ih grownCarries shortCarries stillApart (Nat.lt_of_succ_lt_succ enough)
      refine ⟨destAfter, srcAfter, destLeft, srcLeft, ?_, destDone, srcDone,
        merged.cons_moved perm taken lawful (ascending.sublist (sublist_append_right _ _))⟩
      simpa [fmapMergeLoop, firstItem, fmapEnd, removed, key, inserted, following] using run

end Merging
end WinOFED.Complib
