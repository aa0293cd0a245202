import WinOFED.Complib.MapEdit
import WinOFED.Memory.Ring

/-! The quick map, `cl_qmap_t`: a red-black tree on 64-bit keys whose items are also on a
linked list in key order. -/
namespace WinOFED.Complib
open RedBlack

/-- A map together with the memory of all items, in the map or not. -/
structure QMap (α : Type*) where
  links : Links α
  ring : Memory.Ring (Ref α)
  key : Ref α → UInt64
  count : Nat

variable {α : Type*} [DecidableEq α]

variable (map : QMap α)

/-- `cl_qmap_remove_all`. -/
def qmapRemoveAll : QMap α :=
  { map with
    links := map.links.setChild .left .root .nil
    ring :=
      { next := fun ref => if ref = .nil then .nil else map.ring.next ref
        prev := fun ref => if ref = .nil then .nil else map.ring.prev ref }
    count := 0 }

/-- `cl_qmap_init`, whatever was in the memory before. -/
def qmapInit : QMap α :=
  let links := map.links.setUp .root .root
  let links := (links.setChild .left .root .nil).setChild .right .root .nil
  let links := (links.setColor .root .black).setUp .nil .nil
  let links := (links.setChild .left .nil .nil).setChild .right .nil .nil
  qmapRemoveAll { map with links := links.setColor .nil .black }

/-- `cl_qmap_end`. -/
def qmapEnd : Ref α := .nil

/-- `cl_qmap_head`. -/
def qmapHead : Ref α := map.ring.next .nil

/-- `cl_qmap_next`. -/
def qmapNext (item : Ref α) : Ref α := map.ring.next item

/-- The loop of `cl_qmap_get`. -/
def qmapSeek (map : QMap α) (key : UInt64) : Nat → Ref α → Option (Ref α)
  | 0, _ => none
  | rounds + 1, item =>
      if item = .nil then some item
      else if key = map.key item then some item
      else if key < map.key item then qmapSeek map key rounds (map.links.child .left item)
      else qmapSeek map key rounds (map.links.child .right item)

/-- `cl_qmap_get`. Each round goes one node down, so the number of items bounds them. -/
def qmapGet (key : UInt64) : Option (Ref α) :=
  qmapSeek map key (map.count + 1) (map.links.child .left .root)

/-- What the search of `cl_qmap_insert` ends with. -/
inductive Place (α : Type*)
  | existing (item : Ref α)
  | insertAt (item : Ref α)
deriving DecidableEq, Repr

/-- The search loop of `cl_qmap_insert`. -/
def qmapPlace (map : QMap α) (key : UInt64) : Nat → Ref α → Ref α → Option (Place α)
  | 0, _, _ => none
  | rounds + 1, insertAt, compItem =>
      if compItem = .nil then some (.insertAt insertAt)
      else if key = map.key compItem then some (.existing compItem)
      else if key < map.key compItem then
        qmapPlace map key rounds compItem (map.links.child .left compItem)
      else qmapPlace map key rounds compItem (map.links.child .right compItem)

/-- The part of `cl_qmap_insert` after the search. -/
def qmapLinkItem (key : UInt64) (item insertAt : Ref α) : Option (QMap α) := do
  let (side, place) :=
    if insertAt = .root then (Side.left, Ref.nil)
    else if key < map.key insertAt then (Side.left, insertAt)
    else (Side.right, map.ring.next insertAt)
  let links ← balanceItem (map.count + 1) (hangItem map.links side insertAt item) item
  -- `__cl_primitive_insert` puts the item in front of `place`.
  some { map with links, ring := map.ring.insertBefore place item, count := map.count + 1 }

/-- `cl_qmap_insert`. The fields of the item are set before it is known whether the key is
in the map. -/
def qmapInsert (key : UInt64) (item : Ref α) : Option (QMap α × Ref α) := do
  let map := { map with
    links := initItem map.links item
    key := fun ref => if ref = item then key else map.key ref }
  match ← qmapPlace map key (map.count + 1) .root (map.links.child .left .root) with
  | .existing found => some (map, found)
  | .insertAt insertAt => do
      let map ← qmapLinkItem map key item insertAt
      some (map, item)

/-- `cl_qmap_remove_item`. -/
def qmapRemoveItem (item : Ref α) : Option (QMap α) :=
  if item = qmapEnd then some map
  else do
    let delItem :=
      if map.links.child .right item = .nil ∨ map.links.child .left item = .nil then item
      else qmapNext map item
    let child :=
      if map.links.child .left delItem ≠ .nil then map.links.child .left delItem
      else map.links.child .right delItem
    let count := map.count - 1
    let links ← unlinkItem (count + 1) map.links item delItem child
    some { map with links, ring := map.ring.remove item, count }

/-- `cl_qmap_remove`. -/
def qmapRemove (key : UInt64) : Option (QMap α × Ref α) := do
  let item ← qmapGet map key
  let map ← qmapRemoveItem map item
  some (map, item)

/-- The calls that change a map. -/
inductive QMapCall (α : Type*)
  | insert (key : UInt64) (item : α)
  | remove (key : UInt64)
  | removeItem (item : Ref α)
deriving DecidableEq, Repr

/-- A call with the item it returns; `cl_qmap_remove_item` returns nothing. -/
def qmapCall : QMapCall α → Option (QMap α × Option (Ref α))
  | .insert key item => (qmapInsert map key (.item item)).map fun result => (result.1, some result.2)
  | .remove key => (qmapRemove map key).map fun result => (result.1, some result.2)
  | .removeItem item => (qmapRemoveItem map item).map fun map => (map, none)

end WinOFED.Complib
