import WinOFED.Complib.QMap

/-! The flexi map, `cl_fmap_t`: the quick map with keys of any kind and a function of the
user that compares them. -/
namespace WinOFED.Complib
open RedBlack Option

/-- A map together with the memory of all items, in the map or not. -/
structure FMap (κ α : Type*) where
  links : Links α
  ring : Memory.Ring (Ref α)
  key : Ref α → κ
  count : Nat
  /-- `pfn_compare`. -/
  compare : κ → κ → Int

variable {κ α : Type*} [DecidableEq α]

/-- `cl_fmap_remove_all`. -/
def fmapRemoveAll (map : FMap κ α) : FMap κ α :=
  { map with
    links := map.links.setChild .left .root .nil
    ring :=
      { next := fun ref => if ref = .nil then .nil else map.ring.next ref
        prev := fun ref => if ref = .nil then .nil else map.ring.prev ref }
    count := 0 }

/-- `cl_fmap_init`, whatever was in the memory before. -/
def fmapInit (map : FMap κ α) (compare : κ → κ → Int) : FMap κ α :=
  let links := map.links.setUp .root .root
  let links := (links.setChild .left .root .nil).setChild .right .root .nil
  let links := (links.setColor .root .black).setUp .nil .nil
  let links := (links.setChild .left .nil .nil).setChild .right .nil .nil
  fmapRemoveAll { map with links := links.setColor .nil .black, compare := compare }

/-- `cl_fmap_end`. -/
def fmapEnd : Ref α := .nil

/-- `cl_fmap_head`. -/
def fmapHead (map : FMap κ α) : Ref α := map.ring.next .nil

/-- `cl_fmap_next`. -/
def fmapNext (map : FMap κ α) (item : Ref α) : Ref α := map.ring.next item

/-- `cl_fmap_key`. -/
def fmapKey (map : FMap κ α) (item : Ref α) : κ := map.key item

/-- The loop of `cl_fmap_get`. -/
def fmapSeek (map : FMap κ α) (key : κ) : Nat → Ref α → Option (Ref α)
  | 0, _ => none
  | rounds + 1, item =>
      if item = .nil then some item
      else
        let cmp := map.compare key (map.key item)
        if cmp = 0 then some item
        else if cmp < 0 then fmapSeek map key rounds (map.links.child .left item)
        else fmapSeek map key rounds (map.links.child .right item)

/-- `cl_fmap_get`. Each round goes one node down, so the number of items bounds them. -/
def fmapGet (map : FMap κ α) (key : κ) : Option (Ref α) :=
  fmapSeek map key (map.count + 1) (map.links.child .left .root)

/-- What the search of `cl_fmap_insert` ends with: an item with the key, or the item to insert
at with the result of the comparison with it. -/
inductive FPlace (α : Type*)
  | existing (item : Ref α)
  | insertAt (item : Ref α) (cmp : Int)
deriving DecidableEq, Repr

/-- The search loop of `cl_fmap_insert`. -/
def fmapPlace (map : FMap κ α) (key : κ) : Nat → Ref α → Int → Ref α → Option (FPlace α)
  | 0, _, _, _ => none
  | rounds + 1, insertAt, cmp, compItem =>
      if compItem = .nil then some (.insertAt insertAt cmp)
      else
        let cmp := map.compare key (map.key compItem)
        if cmp = 0 then some (.existing compItem)
        else if cmp < 0 then fmapPlace map key rounds compItem cmp (map.links.child .left compItem)
        else fmapPlace map key rounds compItem cmp (map.links.child .right compItem)

/-- The part of `cl_fmap_insert` after the search. -/
def fmapLinkItem (map : FMap κ α) (item insertAt : Ref α) (cmp : Int) : Option (FMap κ α) :=
  let (side, place) :=
    if insertAt = .root then (Side.left, Ref.nil)
    else if cmp < 0 then (Side.left, insertAt)
    else (Side.right, map.ring.next insertAt)
  (balanceItem (map.count + 1) (hangItem map.links side insertAt item) item).map fun links =>
    { map with links, ring := map.ring.insertBefore place item, count := map.count + 1 }

/-- `cl_fmap_insert`. The fields of the item are set before it is known whether the key is
in the map. -/
def fmapInsert (map : FMap κ α) (key : κ) (item : Ref α) : Option (FMap κ α × Ref α) :=
  let map := { map with
    links := initItem map.links item
    key := fun ref => if ref = item then key else map.key ref }
  match fmapPlace map key (map.count + 1) .root 0 (map.links.child .left .root) with
  | none => none
  | some (.existing found) => some (map, found)
  | some (.insertAt insertAt cmp) =>
      (fmapLinkItem map item insertAt cmp).map fun map => (map, item)

/-- `cl_fmap_remove_item`. -/
def fmapRemoveItem (map : FMap κ α) (item : Ref α) : Option (FMap κ α) :=
  if item = fmapEnd then some map
  else
    let delItem :=
      if map.links.child .right item = .nil ∨ map.links.child .left item = .nil then item
      else fmapNext map item
    let child :=
      if map.links.child .left delItem ≠ .nil then map.links.child .left delItem
      else map.links.child .right delItem
    let count := map.count - 1
    (unlinkItem (count + 1) map.links item delItem child).map fun links =>
      { map with links, ring := map.ring.remove item, count }

/-! ### The quick map as a flexi map -/

/-- The comparison of the quick map's keys. -/
def compareKeys (key other : UInt64) : Int :=
  if key = other then 0 else if key < other then -1 else 1

/-- The quick map with its comparison. -/
def QMap.toFMap (map : QMap α) : FMap UInt64 α :=
  { links := map.links, ring := map.ring, key := map.key, count := map.count
    compare := compareKeys }

section Fields
variable (map : QMap α)

omit [DecidableEq α]

@[simp] theorem QMap.toFMap_ring : map.toFMap.ring = map.ring := rfl
@[simp] theorem QMap.toFMap_key : map.toFMap.key = map.key := rfl
@[simp] theorem QMap.toFMap_count : map.toFMap.count = map.count := rfl
@[simp] theorem QMap.toFMap_compare : map.toFMap.compare = compareKeys := rfl

end Fields

theorem compareKeys_eq_zero {key other : UInt64} : compareKeys key other = 0 ↔ key = other := by
  unfold compareKeys
  split_ifs with same <;> simp [same]

theorem compareKeys_neg {key other : UInt64} : compareKeys key other < 0 ↔ key < other := by
  unfold compareKeys
  split_ifs with same below
  · simp [same]
  · simp [below]
  · simp [below]

theorem compareKeys_pos {key other : UInt64} : 0 < compareKeys key other ↔ other < key := by
  unfold compareKeys
  split_ifs with same below
  · simp [same]
  · simp only [Int.reduceNeg, Int.reduceLT, false_iff]
    exact fun above => UInt64.lt_irrefl _ (UInt64.lt_trans below above)
  · simp only [Int.zero_lt_one, true_iff]
    exact UInt64.lt_of_le_of_ne (UInt64.not_lt.mp below) fun equal => same equal.symm

/-- Two calls that follow each other are mapped if both of them are. -/
theorem bind_eq_map {β γ δ ε : Type*} {first : Option β} {next : β → Option γ} {image : β → δ}
    {other : δ → Option ε} {last : γ → ε} {mapped : Option δ} (one : mapped = first.map image)
    (two : ∀ result, other (image result) = (next result).map last) :
    mapped.bind other = (first.bind next).map last := by
  subst one
  cases first with
  | none => rfl
  | some result => exact two result

section
variable (map : QMap α) (key : UInt64)
include map key

theorem fmapSeek_toFMap (rounds : Nat) (item : Ref α) :
    fmapSeek map.toFMap key rounds item = qmapSeek map key rounds item := by
  induction rounds generalizing item with
  | zero => rfl
  | succ rounds ih =>
    simp only [fmapSeek, qmapSeek, ih, QMap.toFMap_compare, compareKeys_eq_zero, compareKeys_neg]
    rfl

/-- `cl_qmap_get` is `cl_fmap_get`. -/
theorem fmapGet_toFMap : fmapGet map.toFMap key = qmapGet map key := fmapSeek_toFMap map key _ _

/-- What `cl_qmap_insert` keeps of the place. -/
def FPlace.toPlace : FPlace α → Place α
  | .existing item => .existing item
  | .insertAt item _ => .insertAt item

/-- The search of `cl_qmap_insert` is that of `cl_fmap_insert`, which keeps the comparison with
the item to insert at. -/
theorem fmapPlace_toFMap (rounds : Nat) (insertAt compItem : Ref α) (cmp : Int)
    (compared : insertAt = .root ∨ cmp = compareKeys key (map.key insertAt)) :
    (∃ place, fmapPlace map.toFMap key rounds insertAt cmp compItem = some place ∧
        qmapPlace map key rounds insertAt compItem = some place.toPlace ∧
        ∀ item cmp, place = .insertAt item cmp → item = .root ∨ cmp = compareKeys key (map.key item)) ∨
      fmapPlace map.toFMap key rounds insertAt cmp compItem = none ∧
        qmapPlace map key rounds insertAt compItem = none := by
  induction rounds generalizing insertAt cmp compItem with
  | zero => exact Or.inr ⟨rfl, rfl⟩
  | succ rounds ih =>
    simp only [fmapPlace, qmapPlace, QMap.toFMap_compare, QMap.toFMap_key, compareKeys_eq_zero,
      compareKeys_neg]
    split_ifs with ended same below
    · refine Or.inl ⟨_, rfl, rfl, ?_⟩
      rintro item cmp ⟨⟩
      exact compared
    · exact Or.inl ⟨_, rfl, rfl, nofun⟩
    · exact ih _ _ _ (Or.inr rfl)
    · exact ih _ _ _ (Or.inr rfl)

theorem fmapLinkItem_toFMap (item insertAt : Ref α) (cmp : Int)
    (compared : insertAt = .root ∨ cmp = compareKeys key (map.key insertAt)) :
    fmapLinkItem map.toFMap item insertAt cmp = (qmapLinkItem map key item insertAt).map QMap.toFMap := by
  have place : (if insertAt = .root then (Side.left, Ref.nil)
      else if cmp < 0 then (Side.left, insertAt)
      else (Side.right, map.ring.next insertAt)) =
      (if insertAt = .root then (Side.left, Ref.nil)
      else if key < map.key insertAt then (Side.left, insertAt)
      else (Side.right, map.ring.next insertAt)) := by
    rcases compared with root | compared
    · simp only [root, if_true]
    · simp only [compared, compareKeys_neg]
  simp only [fmapLinkItem, qmapLinkItem, QMap.toFMap_ring, place, bind_eq_bind]
  rw [map_bind, map_eq_bind]
  rfl

/-- `cl_qmap_insert` is `cl_fmap_insert`. -/
theorem fmapInsert_toFMap (item : Ref α) : fmapInsert map.toFMap key item =
      (qmapInsert map key item).map fun result => (result.1.toFMap, result.2) := by
  let prepared := { map with
    links := initItem map.links item
    key := fun ref => if ref = item then key else map.key ref }
  have search := fmapPlace_toFMap prepared key (prepared.count + 1) .root
    (prepared.links.child .left .root) 0 (Or.inl rfl)
  have flexible : fmapInsert map.toFMap key item =
      match fmapPlace prepared.toFMap key (prepared.count + 1) .root 0
        (prepared.links.child .left .root) with
      | none => none
      | some (.existing found) => some (prepared.toFMap, found)
      | some (.insertAt insertAt cmp) =>
          (fmapLinkItem prepared.toFMap item insertAt cmp).map fun map => (map, item) := rfl
  rw [flexible]
  change _ = ((qmapPlace prepared key (prepared.count + 1) .root
    (prepared.links.child .left .root)).bind _).map _
  rcases search with ⟨place, found, same, compared⟩ | ⟨none, same⟩
  · rw [found, same]
    cases place with
    | existing _ => rfl
    | insertAt insertAt cmp =>
      simp only [FPlace.toPlace, bind_some, bind_eq_bind]
      rw [fmapLinkItem_toFMap prepared key item insertAt cmp (compared _ _ rfl), map_bind,
        map_map, map_eq_bind]
      rfl
  · rw [none, same]
    rfl

end

/-- `cl_qmap_remove_item` is `cl_fmap_remove_item`. -/
theorem fmapRemoveItem_toFMap (map : QMap α) (item : Ref α) :
    fmapRemoveItem map.toFMap item = (qmapRemoveItem map item).map QMap.toFMap := by
  unfold fmapRemoveItem qmapRemoveItem fmapEnd qmapEnd
  by_cases ended : item = .nil
  · rw [if_pos ended, if_pos ended]
    rfl
  · rw [if_neg ended, if_neg ended, map_eq_bind, bind_eq_bind, map_bind]
    rfl

end WinOFED.Complib
