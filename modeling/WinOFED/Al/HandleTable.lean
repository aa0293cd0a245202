import WinOFED.Memory.FreeList
import WinOFED.Transition.Machine

/-! The handle table of an access layer instance.

User processes name kernel objects by an index into `hdl_vector`. Free entries are
threaded through the very words that hold the object pointers of used ones.
`Tabled` relates the vector to the handles that are live, call by call. -/
namespace WinOFED.Al
open List Option
open Function (iterate_succ_apply' update update_of_ne update_self)

/-- The object types of the access layer. -/
inductive AlObjType
  | unknown | hAl | hQp | hAv | hMr | hMw | hPd | hCa | hCq | hConn | hListen | hIoc | hSvcEntry
  | hPnp | hSaReq | hMcast | hAttach | hMad | hMadPool | hPoolKey | hMadSvc | ciCa | cm | smi | dm
  | iou | loader | madPool | madDisp | alMgr | pnpMgr | iocPnpMgr | iocPnpSvc | querySvc | mcastSvc
  | saReqSvc | resMgr | hCaAttr | hPnpEvent | hSaReg | hFmr | hSrq | hFmrPool | ndi
deriving DecidableEq, Repr

/-- An entry of the handle vector. The word is an object's address while the entry is in
use, and the index of the next free entry otherwise. -/
structure AlHandle where
  type : AlObjType
  pObj : UInt64
deriving DecidableEq, Repr

/-- What `al_hdl_ref` reads and changes of an object. -/
structure AlObj where
  hdlValid : Bool
  refCnt : Int
deriving DecidableEq, Repr

/-- An access layer instance: its handle vector, and the objects by address. -/
structure IbAl where
  hdlVector : List AlHandle
  freeHdl : UInt64
  objs : UInt64 → AlObj

/-- `AL_INVALID_HANDLE`. -/
def alInvalidHandle : UInt64 := 0

/-- `AL_HDL_VECTOR_MIN`. -/
def alHdlVectorMin : Nat := 64

/-- `AL_HDL_VECTOR_GROW`. -/
def alHdlVectorGrow : Nat := 64

variable (al : IbAl)

/-- `__init_hdl` on an entry added to the vector. -/
def initHdl : IbAl :=
  let freeHdl := al.freeHdl + 1
  { al with hdlVector := al.hdlVector ++ [⟨.unknown, freeHdl⟩], freeHdl }

/-- `cl_vector_set_size` to `added` entries more, once it has the memory. -/
def growVector (added : Nat) (al : IbAl) : IbAl := initHdl^[added] al

/-- The table part of `__ib_open_al`. -/
def ibOpenAl (objs : UInt64 → AlObj) : IbAl :=
  { growVector alHdlVectorMin ⟨[], 0, objs⟩ with freeHdl := 1 }

/-- The entry at an index; there is none beyond the vector. -/
def IbAl.entry (hdl : UInt64) : Option AlHandle := al.hdlVector[hdl.toNat]?

def IbAl.setEntry (hdl : UInt64) (entry : AlHandle) : IbAl :=
  { al with hdlVector := al.hdlVector.set hdl.toNat entry }

/-- Take the first free entry for an object. -/
def takeEntry (pObj : UInt64) (type : AlObjType) : Option (UInt64 × IbAl) := do
  let hdl := al.freeHdl
  let entry ← al.entry hdl
  some (hdl, { al with freeHdl := entry.pObj }.setEntry hdl ⟨type, pObj⟩)

/-- The grown pointer array has a size in bytes, so `cl_vector_set_capacity` cannot get
it otherwise. -/
def canGrow (grown : Bool) : Bool :=
  grown && decide ((al.hdlVector.length + alHdlVectorGrow) * 8 < 2 ^ 64)

/-- `al_hdl_insert`. `grown` tells whether there is memory for a larger vector. -/
def alHdlInsert (pObj : UInt64) (type : AlObjType) (grown : Bool) : Option (UInt64 × IbAl) :=
  if al.freeHdl.toNat = al.hdlVector.length then
    if canGrow al grown then
      -- The initializer incremented the start of the free list.
      takeEntry { growVector alHdlVectorGrow al with freeHdl := al.freeHdl } pObj type
    else some (alInvalidHandle, al)
  else takeEntry al pObj type

/-- Put an entry in front of the free list. -/
def IbAl.freeEntry (hdl : UInt64) : IbAl :=
  { al.setEntry hdl ⟨.unknown, al.freeHdl⟩ with freeHdl := hdl }

/-- `al_hdl_free`; undefined beyond the vector. -/
def alHdlFree (hdl : UInt64) : Option IbAl := do
  let _ ← al.entry hdl
  some (al.freeEntry hdl)

/-- The types `al_hdl_ref` would accept for a lookup of unknown type. -/
def anyTypeAllowed (type : AlObjType) : Bool :=
  type ∈ [.hPd, .hCq, .hAv, .hQp, .hMr, .hMw, .hSrq]

/-- `ref_al_obj`. -/
def IbAl.refAlObj (pObj : UInt64) : IbAl :=
  let obj := al.objs pObj
  { al with objs := update al.objs pObj { obj with refCnt := obj.refCnt + 1 } }

/-- `al_hdl_ref`; the result is a null pointer or the object. -/
def alHdlRef (hdl : UInt64) (type : AlObjType) : UInt64 × IbAl :=
  match al.entry hdl with
  | none => (0, al)
  | some entry =>
      if type = .unknown ∧ !anyTypeAllowed entry.type then (0, al)
      else if entry.type ≠ type then (0, al)
      else if !(al.objs entry.pObj).hdlValid then (0, al)
      else (entry.pObj, al.refAlObj entry.pObj)

/-- `al_hdl_get`. -/
def alHdlGet (hdl : UInt64) (type : AlObjType) : UInt64 × IbAl :=
  match al.entry hdl with
  | none => (0, al)
  | some entry =>
      if entry.type ≠ type then (0, al)
      else (entry.pObj, al.freeEntry hdl)

/-- The word of an entry as the index of another. -/
def IbAl.link (index : Nat) : Nat := ((al.hdlVector[index]?).elim 0 (·.pObj)).toNat

/-- The free list: at most every entry is on it. -/
def IbAl.freeList : List Nat :=
  Memory.walkLinks al.link al.hdlVector.length al.hdlVector.length al.freeHdl.toNat

/-! ### Runs -/

/-- A call on the table, or another part of the kernel marking an object's handle as
valid or not. -/
inductive HdlEvent
  | insert (pObj : UInt64) (type : AlObjType) (grown : Bool)
  | free (hdl : UInt64)
  | ref (hdl : UInt64) (type : AlObjType)
  | get (hdl : UInt64) (type : AlObjType)
  | mark (pObj : UInt64) (valid : Bool)

/-- An instance together with the handles given out and not taken back, each with its type
and object. -/
structure HdlState where
  al : IbAl
  live : UInt64 → Option (AlObjType × UInt64)

/-- The instance after a call. -/
def HdlState.next (state : HdlState) : HdlEvent → Option HdlState
  | .insert pObj type grown => do
      let (hdl, al) ← alHdlInsert state.al pObj type grown
      if hdl = alInvalidHandle then some { state with al }
      else some ⟨al, update state.live hdl (some (type, pObj))⟩
  | .free hdl => do
      let al ← alHdlFree state.al hdl
      some ⟨al, update state.live hdl none⟩
  | .ref hdl type => some { state with al := (alHdlRef state.al hdl type).2 }
  | .get hdl type =>
      let (pObj, al) := alHdlGet state.al hdl type
      if pObj = 0 then some { state with al }
      else some ⟨al, update state.live hdl none⟩
  | .mark pObj valid =>
      let objs := update state.al.objs pObj { state.al.objs pObj with hdlValid := valid }
      some { state with al := { state.al with objs } }

/-- A new instance with the calls that are made on it. -/
def hdlMachine : Transition.Machine HdlState HdlEvent :=
  .ofNext (fun state => ∃ objs, state = ⟨ibOpenAl objs, fun _ => none⟩) HdlState.next

/-- How the kernel uses the table: it inserts objects under their type, gets handles by
type, and frees handles it holds. The handle of a lookup is any number. -/
def LawfulCall (state : HdlState) : HdlEvent → Prop
  | .insert pObj type _ => pObj ≠ 0 ∧ type ≠ .unknown
  | .free hdl => (state.live hdl).isSome
  | .ref _ _ => True
  | .get _ type => type ≠ .unknown
  | .mark _ _ => True

/-! ### The vector against the live handles -/

/-- The vector stores the live handles, and threads `free` through the other entries.
Entry 0 stands for the invalid handle and is never used. -/
structure Tabled (state : HdlState) (free : List Nat) : Prop where
  threaded : Memory.Threaded state.al.link state.al.hdlVector.length state.al.freeHdl.toNat free
  nodup : free.Nodup
  small : state.al.hdlVector.length < 2 ^ 64
  reserved : ∃ word, state.al.hdlVector[0]? = some ⟨.unknown, word⟩
  unused : ∀ index, index ∈ free ↔
    index ≠ 0 ∧ ∃ word, state.al.hdlVector[index]? = some ⟨.unknown, word⟩
  live : ∀ hdl type pObj, state.live hdl = some (type, pObj) ↔
    type ≠ .unknown ∧ state.al.entry hdl = some ⟨type, pObj⟩
  objects : ∀ hdl type pObj, state.live hdl = some (type, pObj) → pObj ≠ 0

variable (added : Nat) (al : IbAl)

theorem growVector_eq :
    growVector added al =
      { al with
        hdlVector := al.hdlVector ++
          (List.range added).map fun index => ⟨.unknown, al.freeHdl + (index + 1).toUInt64⟩
        freeHdl := al.freeHdl + added.toUInt64 } := by
  induction added with
  | zero => simp [growVector]
  | succ added ih =>
    rw [growVector, iterate_succ_apply', ← growVector, ih, initHdl]
    simp [range_succ, UInt64.add_assoc]

/-- Entries of a grown vector: the old ones, then unused ones. -/
theorem getElem?_growVector (index : Nat) :
    (growVector added al).hdlVector[index]? =
      if index < al.hdlVector.length then al.hdlVector[index]?
      else if index < al.hdlVector.length + added then
        some ⟨.unknown, al.freeHdl + (index - al.hdlVector.length + 1).toUInt64⟩
      else none := by
  rw [growVector_eq]
  split_ifs with old new
  · exact List.getElem?_append_left old
  · rw [List.getElem?_append_right (Nat.le_of_not_lt old), List.getElem?_map,
      List.getElem?_range (by omega)]
    rfl
  · exact List.getElem?_eq_none (by simp; omega)

theorem length_growVector : (growVector added al).hdlVector.length = al.hdlVector.length + added := by
  simp [growVector_eq]

/-- New entries are chained one after another. -/
theorem link_growVector {added : Nat} {al : IbAl} (full : al.freeHdl.toNat = al.hdlVector.length)
    (small : al.hdlVector.length + added < 2 ^ 64) {index : Nat}
    (low : al.hdlVector.length ≤ index) (high : index < al.hdlVector.length + added) :
    (growVector added al).link index = index + 1 := by
  rw [IbAl.link, getElem?_growVector, if_neg (Nat.not_lt.mpr low), if_pos high]
  simp only [elim_some, UInt64.toNat_add, full, UInt64.toNat_ofNat', Nat.toUInt64_eq]
  omega

variable (al : IbAl) (hdl : UInt64)

theorem IbAl.link_set (entry : AlHandle) {index : Nat}
    (other : index ≠ hdl.toNat) : (al.setEntry hdl entry).link index = al.link index := by
  simp [IbAl.link, IbAl.setEntry, List.getElem?_set_ne other.symm]

namespace Tabled
variable {state : HdlState} {free : List Nat}

section
variable (tabled : Tabled state free)
include tabled

theorem lt_of_mem {index : Nat} (member : index ∈ free) : index < state.al.hdlVector.length := by
  obtain ⟨-, word, entry⟩ := (tabled.unused index).mp member
  exact (List.getElem?_eq_some_iff.mp entry).1

/-- The walk of the free list finds it. -/
theorem freeList_eq : state.al.freeList = free := by
  refine tabled.threaded.walkLinks_eq ?_
  have within : free ⊆ range state.al.hdlVector.length := by
    intro index member
    exact mem_range.mpr (tabled.lt_of_mem member)
  simpa using (subperm_of_subset tabled.nodup within).length_le

/-- A live handle has a used entry. -/
theorem live_entry {hdl : UInt64} (live : (state.live hdl).isSome) :
    ∃ type pObj, type ≠ .unknown ∧ state.al.entry hdl = some ⟨type, pObj⟩ := by
  obtain ⟨⟨type, pObj⟩, here⟩ := isSome_iff_exists.mp live
  exact ⟨type, pObj, (tabled.live hdl type pObj).mp here⟩

/-- The first free entry is unused, and is not entry 0. -/
theorem head_unused (available : state.al.freeHdl.toNat ≠ state.al.hdlVector.length) :
    ∃ rest word, free = state.al.freeHdl.toNat :: rest ∧ state.al.freeHdl ≠ 0 ∧
      state.al.entry state.al.freeHdl = some ⟨.unknown, word⟩ := by
  obtain ⟨rest, rfl, -⟩ := tabled.threaded.pop available
  obtain ⟨nonzero, word, entry⟩ := (tabled.unused _).mp mem_cons_self
  exact ⟨rest, word, rfl, fun zero => nonzero (by simp [zero]), entry⟩

/-- No live handle has an unused entry. -/
theorem not_live {hdl word : UInt64} (entry : state.al.entry hdl = some ⟨.unknown, word⟩) :
    state.live hdl = none := by
  cases live : state.live hdl with
  | none => rfl
  | some record =>
    obtain ⟨known, used⟩ := (tabled.live hdl record.1 record.2).mp live
    rw [entry, some.injEq] at used
    exact absurd (congrArg AlHandle.type used).symm known

end
end Tabled

/-- Lookups of the entries after one has changed. -/
theorem IbAl.entry_setEntry {hdl : UInt64} {entry old : AlHandle}
    (inside : al.entry hdl = some old) (other : UInt64) :
    (al.setEntry hdl entry).entry other = if other = hdl then some entry else al.entry other := by
  have below : hdl.toNat < al.hdlVector.length := (List.getElem?_eq_some_iff.mp inside).1
  by_cases same : other = hdl
  · subst same
    simp [IbAl.entry, IbAl.setEntry, below]
  · have apart : hdl.toNat ≠ other.toNat := fun equal => same (UInt64.toNat_inj.mp equal).symm
    simp [IbAl.entry, IbAl.setEntry, same, List.getElem?_set_ne apart]

namespace Tabled
variable {state : HdlState} {free : List Nat} {type : AlObjType}

section
variable (tabled : Tabled state free)
include tabled

/-- The unused entries after one entry has changed. -/
theorem unused_setEntry {hdl : UInt64} {entry old : AlHandle}
    (inside : state.al.entry hdl = some old) (index : Nat) :
    (index ≠ 0 ∧ ∃ word, (state.al.setEntry hdl entry).hdlVector[index]? =
        some ⟨.unknown, word⟩) ↔
      if index = hdl.toNat then index ≠ 0 ∧ entry.type = .unknown else index ∈ free := by
  have below : hdl.toNat < state.al.hdlVector.length := (List.getElem?_eq_some_iff.mp inside).1
  by_cases same : index = hdl.toNat
  · subst same
    obtain ⟨type, pObj⟩ := entry
    simp [IbAl.setEntry, below]
  · simp only [IbAl.setEntry, List.getElem?_set_ne (Ne.symm same), same, if_false]
    exact (tabled.unused index).symm

/-- The table after one entry and the head of the free list have changed. -/
theorem change {hdl head : UInt64} {entry old : AlHandle} {after : List Nat}
    (inside : state.al.entry hdl = some old) (nonzero : hdl ≠ 0)
    (threaded : Memory.Threaded (state.al.setEntry hdl entry).link state.al.hdlVector.length head.toNat after)
    (nodup : after.Nodup)
    (members : ∀ index, index ∈ after ↔ if index = hdl.toNat then entry.type = .unknown else index ∈ free)
    (object : entry.type ≠ .unknown → entry.pObj ≠ 0) : Tabled
      ⟨{ state.al.setEntry hdl entry with freeHdl := head }, update state.live hdl
        (if entry.type = .unknown then none else some (entry.type, entry.pObj))⟩ after := by
  have length : (state.al.setEntry hdl entry).hdlVector.length = state.al.hdlVector.length := length_set
  have apart : hdl.toNat ≠ 0 := fun zero => nonzero (UInt64.toNat_inj.mp zero)
  refine ⟨?_, nodup, ?_, ?_, fun index => ?_, fun other type pObj => ?_, fun other type pObj now => ?_⟩
  · rw [← length] at threaded
    exact threaded
  · exact length.trans_lt tabled.small
  · obtain ⟨word, reserved⟩ := tabled.reserved
    exact ⟨word, by rw [← reserved]; exact List.getElem?_set_ne apart⟩
  · rw [members index]
    refine Iff.trans ?_ (tabled.unused_setEntry inside index).symm
    by_cases same : index = hdl.toNat
    · simp [same, apart]
    · simp [same]
  · change update _ _ _ _ = _ ↔ _ ∧ (state.al.setEntry hdl entry).entry other = _
    rw [state.al.entry_setEntry inside]
    obtain ⟨entryType, word⟩ := entry
    by_cases same : other = hdl
    · subst same
      by_cases free : entryType = .unknown
      · simp only [free, update_self, if_true, some.injEq, AlHandle.mk.injEq]
        exact iff_of_false (by simp) fun ⟨known, equal, _⟩ => known equal.symm
      · simp only [free, update_self, if_true, if_false, some.injEq, AlHandle.mk.injEq, Prod.mk.injEq]
        exact ⟨fun ⟨equal, word⟩ => ⟨equal ▸ free, equal, word⟩, fun ⟨_, equal⟩ => equal⟩
    · simp only [update_of_ne same, same, if_false]
      exact tabled.live other type pObj
  · obtain ⟨-, stored⟩ | ⟨-, old⟩ := Transition.update_cases now
    · split at stored
      next => cases stored
      next known =>
        cases stored
        exact object known
    · exact tabled.objects other type pObj old

/-- An object takes the first free entry. -/
theorem take (available : state.al.freeHdl.toNat ≠ state.al.hdlVector.length) {pObj : UInt64}
    (object : pObj ≠ 0) (known : type ≠ .unknown) :
    ∃ al rest, takeEntry state.al pObj type = some (state.al.freeHdl, al) ∧
      state.al.freeHdl ≠ alInvalidHandle ∧ state.live state.al.freeHdl = none ∧
      Tabled ⟨al, update state.live state.al.freeHdl (some (type, pObj))⟩ rest := by
  obtain ⟨rest, word, rfl, nonzero, entry⟩ := tabled.head_unused available
  obtain ⟨notMember, nodup⟩ := nodup_cons.mp tabled.nodup
  obtain ⟨-, -, later⟩ := tabled.threaded
  have linked : state.al.link state.al.freeHdl.toNat = word.toNat := by
    have found : state.al.hdlVector[state.al.freeHdl.toNat]? = some ⟨.unknown, word⟩ := entry
    simp [IbAl.link, found]
  rw [linked] at later
  have apart : ∀ index ∈ rest, index ≠ state.al.freeHdl.toNat := by
    rintro index member rfl
    exact notMember member
  have changed := @change state _ tabled state.al.freeHdl word ⟨type, pObj⟩ _ rest entry nonzero
    (later.congr fun index member => state.al.link_set _ _ (apart index member)) nodup
    (fun index => by
      by_cases same : index = state.al.freeHdl.toNat
      · simp [same, known, notMember]
      · simp [same])
    fun _ => object
  simp only [known, if_false] at changed
  refine ⟨_, rest, ?_, nonzero, tabled.not_live entry, changed⟩
  simp only [takeEntry, entry, bind_eq_bind, bind_some]
  rfl

/-- A live handle's entry goes back to the front of the free list. -/
theorem release {hdl : UInt64} (live : (state.live hdl).isSome) :
    Tabled ⟨state.al.freeEntry hdl, update state.live hdl none⟩ (hdl.toNat :: free) := by
  obtain ⟨type, pObj, known, entry⟩ := tabled.live_entry live
  have used : hdl.toNat ∉ free := by
    intro member
    obtain ⟨-, word, unused⟩ := (tabled.unused _).mp member
    have same := entry.symm.trans unused
    rw [some.injEq, AlHandle.mk.injEq] at same
    exact known same.1
  have nonzero : hdl ≠ 0 := by
    rintro rfl
    obtain ⟨word, reserved⟩ := tabled.reserved
    have same := entry.symm.trans reserved
    rw [some.injEq, AlHandle.mk.injEq] at same
    exact known same.1
  have below : hdl.toNat < state.al.hdlVector.length := (List.getElem?_eq_some_iff.mp entry).1
  have linked : (state.al.setEntry hdl ⟨.unknown, state.al.freeHdl⟩).link hdl.toNat =
      state.al.freeHdl.toNat := by
    simp [IbAl.link, IbAl.setEntry, below]
  refine @change state _ tabled hdl hdl ⟨.unknown, state.al.freeHdl⟩ _ _ entry nonzero ?_
    (nodup_cons.mpr ⟨used, tabled.nodup⟩) (fun index => ?_) (fun known => absurd rfl known)
  · refine tabled.threaded.push linked below.ne fun index member => ?_
    exact state.al.link_set _ _ fun same => used (same ▸ member)
  · by_cases same : index = hdl.toNat
    · simp [same]
    · simp [same]

/-- A vector without free entries grows. -/
theorem grow (full : state.al.freeHdl.toNat = state.al.hdlVector.length)
    (room : (state.al.hdlVector.length + alHdlVectorGrow) * 8 < 2 ^ 64) : Tabled
      { state with
        al := { growVector alHdlVectorGrow state.al with freeHdl := state.al.freeHdl } }
      (List.range' state.al.hdlVector.length alHdlVectorGrow) := by
  obtain rfl := tabled.threaded.eq_nil_iff.mpr full
  have small : state.al.hdlVector.length + alHdlVectorGrow < 2 ^ 64 := by omega
  have entries := getElem?_growVector alHdlVectorGrow state.al
  have length := length_growVector alHdlVectorGrow state.al
  have links := Memory.Threaded.range' fun index low high => link_growVector full small low high
  rw [← length] at links small
  generalize growVector alHdlVectorGrow state.al = grown at *
  have positive : 0 < state.al.hdlVector.length := by
    obtain ⟨word, reserved⟩ := tabled.reserved
    exact (List.getElem?_eq_some_iff.mp reserved).1
  refine ⟨full ▸ links, nodup_range', small, ?_, fun index => ?_, fun hdl type pObj => ?_, tabled.objects⟩
  · obtain ⟨word, reserved⟩ := tabled.reserved
    exact ⟨word, (entries 0).trans ((if_pos positive).trans reserved)⟩
  · have before := tabled.unused index
    simp only [not_mem_nil, false_iff] at before
    rw [mem_range'_1, entries]
    split_ifs with below inside
    · exact iff_of_false (fun inside => absurd below (Nat.not_lt.mpr inside.1)) before
    · exact iff_of_true ⟨Nat.le_of_not_lt below, inside⟩ ⟨by omega, _, rfl⟩
    · exact iff_of_false (fun within => inside within.2) fun ⟨_, _, impossible⟩ => nomatch impossible
  · rw [tabled.live]
    refine and_congr_right fun known => ?_
    rw [IbAl.entry, IbAl.entry, entries]
    split
    · rfl
    next below =>
      rw [List.getElem?_eq_none (Nat.le_of_not_lt below)]
      split
      · simp [known.symm]
      · rfl

end

/-- The table of a new instance. -/
theorem initial (objs : UInt64 → AlObj) : Tabled ⟨ibOpenAl objs, fun _ => none⟩ (List.range' 1 63) := by
  have entries := getElem?_growVector alHdlVectorMin ⟨[], 0, objs⟩
  have length := length_growVector alHdlVectorMin ⟨[], 0, objs⟩
  have fits : 0 + alHdlVectorMin < 2 ^ 64 := by decide
  have links := @Memory.Threaded.range' (growVector alHdlVectorMin ⟨[], 0, objs⟩).link 1 63
    fun index low high => @link_growVector alHdlVectorMin ⟨[], 0, objs⟩ rfl fits index (Nat.zero_le _) high
  rw [ibOpenAl]
  generalize growVector alHdlVectorMin ⟨[], 0, objs⟩ = grown at *
  simp only [length_nil, Nat.zero_add, alHdlVectorMin, Nat.not_lt_zero, if_false] at length entries
  refine ⟨length ▸ links, nodup_range', length.trans_lt (by decide),
    ⟨_, (entries 0).trans (if_pos (by decide))⟩, fun index => ?_, fun hdl type pObj => ?_,
    fun _ _ _ impossible => nomatch impossible⟩
  · rw [mem_range'_1, entries]
    split_ifs with inside
    · exact ⟨fun within => ⟨by omega, _, rfl⟩, fun used => by omega⟩
    · exact iff_of_false (fun within => inside within.2) fun ⟨_, _, impossible⟩ => nomatch impossible
  · rw [IbAl.entry, entries]
    refine iff_of_false (fun impossible => nomatch impossible) ?_
    rintro ⟨known, entry⟩
    split at entry
    · rw [some.injEq, AlHandle.mk.injEq] at entry
      exact known entry.1.symm
    · cases entry

/-! #### Steps -/

/-- A changed object leaves the table as it is. -/
theorem objs (tabled : Tabled state free) (objs : UInt64 → AlObj) :
    Tabled { state with al := { state.al with objs } } free :=
  ⟨tabled.threaded, tabled.nodup, tabled.small, tabled.reserved, tabled.unused, tabled.live, tabled.objects⟩

theorem alHdlRef_snd (type : AlObjType) : ∃ objs, (alHdlRef al hdl type).2 = { al with objs } := by
  unfold alHdlRef
  split
  · exact ⟨_, rfl⟩
  · split_ifs <;> exact ⟨_, rfl⟩

/-- What `al_hdl_insert` returns: the invalid handle and the same table, or a handle that
is not live. -/
theorem alHdlInsert_cases (tabled : Tabled state free) {pObj : UInt64}
    (object : pObj ≠ 0) (known : type ≠ .unknown) (grown : Bool) :
    alHdlInsert state.al pObj type grown = some (alInvalidHandle, state.al) ∨
      ∃ hdl al rest, alHdlInsert state.al pObj type grown = some (hdl, al) ∧
        hdl ≠ alInvalidHandle ∧ state.live hdl = none ∧
        Tabled ⟨al, update state.live hdl (some (type, pObj))⟩ rest := by
  unfold alHdlInsert
  by_cases full : state.al.freeHdl.toNat = state.al.hdlVector.length
  · rw [if_pos full]
    cases room : canGrow state.al grown with
    | false => exact .inl rfl
    | true =>
      simp only [canGrow, Bool.and_eq_true, decide_eq_true_eq] at room
      have larger := tabled.grow full room.2
      have available : state.al.freeHdl.toNat ≠ (growVector alHdlVectorGrow state.al).hdlVector.length := by
        rw [length_growVector, full]
        exact (Nat.lt_add_of_pos_right (by decide)).ne
      obtain ⟨al, rest, taken, nonzero, dead, after⟩ := larger.take available object known
      exact .inr ⟨_, al, rest, taken, nonzero, dead, after⟩
  · rw [if_neg full]
    obtain ⟨al, rest, taken, nonzero, dead, after⟩ := tabled.take full object known
    exact .inr ⟨_, al, rest, taken, nonzero, dead, after⟩

/-- Every lawful call is defined and keeps the table. -/
theorem step (tabled : Tabled state free) {event : HdlEvent} (lawful : LawfulCall state event) :
    ∃ after rest, state.next event = some after ∧ Tabled after rest := by
  cases event with
  | insert pObj type grown =>
    obtain ⟨object, known⟩ := lawful
    obtain refused | ⟨hdl, al, rest, inserted, nonzero, -, after⟩ :=
      tabled.alHdlInsert_cases object known grown
    · exact ⟨state, free, by simp [HdlState.next, refused], tabled⟩
    · exact ⟨_, rest, by simp [HdlState.next, inserted, nonzero], after⟩
  | free hdl =>
    obtain ⟨type, pObj, -, entry⟩ := tabled.live_entry lawful
    exact ⟨_, _, by simp [HdlState.next, alHdlFree, entry], tabled.release lawful⟩
  | ref hdl type =>
    obtain ⟨objs, eq⟩ := alHdlRef_snd state.al hdl type
    exact ⟨_, free, rfl, by rw [eq]; exact tabled.objs objs⟩
  | get hdl type =>
    cases found : state.al.entry hdl with
    | none => exact ⟨state, free, by simp [HdlState.next, alHdlGet, found], tabled⟩
    | some entry =>
      by_cases same : entry.type = type
      · subst same
        have live := (tabled.live hdl entry.type entry.pObj).mpr ⟨lawful, found⟩
        have object := tabled.objects hdl entry.type entry.pObj live
        refine ⟨⟨state.al.freeEntry hdl, update state.live hdl none⟩, _, ?_,
          tabled.release (by simp [live])⟩
        simp [HdlState.next, alHdlGet, found, object]
      · exact ⟨state, free, by simp [HdlState.next, alHdlGet, found, same], tabled⟩
  | mark pObj valid => exact ⟨_, free, rfl, tabled.objs _⟩

end Tabled

/-- Every state of a run of lawful calls is tabled. -/
theorem tabled_of_reachable {state : HdlState}
    (reachable : hdlMachine.Reachable LawfulCall state) : ∃ free, Tabled state free := by
  refine @Transition.Machine.Reachable.invariant _ _ _ _ (fun state => ∃ free, Tabled state free)
    ?_ ?_ _ reachable
  · rintro _ ⟨objs, rfl⟩
    exact ⟨_, Tabled.initial objs⟩
  · rintro before event after ⟨free, tabled⟩ lawful next
    obtain ⟨known, rest, eq, kept⟩ := tabled.step lawful
    rw [show before.next event = some after from next, some.injEq] at eq
    exact ⟨rest, eq ▸ kept⟩

/-- The object a handle stands for, if it is live and of the type. -/
def HdlState.object (state : HdlState) (hdl : UInt64) (type : AlObjType) : UInt64 :=
  match state.live hdl with
  | some (liveType, pObj) => if liveType = type then pObj else 0
  | none => 0

/-- The event is an insertion that gives out the handle. -/
def Issues (state : HdlState) (hdl : UInt64) : HdlEvent → Prop
  | .insert pObj type grown => (alHdlInsert state.al pObj type grown).map (·.1) = some hdl
  | _ => False

/-- What user processes can rely on in a state of the table. -/
structure Isolated (state : HdlState) : Prop where
  /-- Every lawful call is defined. -/
  defined : ∀ event, LawfulCall state event → (state.next event).isSome
  /-- A new handle is not live, so live handles stay distinct. -/
  fresh : ∀ hdl event, LawfulCall state event → Issues state hdl event →
    hdl ≠ alInvalidHandle → state.live hdl = none
  /-- No entry is on the free list twice. -/
  nodup : state.al.freeList.Nodup
  /-- The free list holds the entries that are not live, except entry 0. -/
  free : ∀ index, index ∈ state.al.freeList ↔
    0 < index ∧ index < state.al.hdlVector.length ∧ state.live index.toUInt64 = none
  /-- `al_hdl_get` returns the object of a live handle of the type, and null otherwise. -/
  get : ∀ hdl type, type ≠ .unknown → (alHdlGet state.al hdl type).1 = state.object hdl type
  /-- So does `al_hdl_ref` for objects that are marked valid. -/
  ref : ∀ hdl type, type ≠ .unknown → (alHdlRef state.al hdl type).1 =
    if (state.al.objs (state.object hdl type)).hdlValid then state.object hdl type else 0
  /-- A handle that has been freed is not live. -/
  freed : ∀ hdl after, LawfulCall state (.free hdl) → state.next (.free hdl) = some after →
    after.live hdl = none
  /-- A handle that has been got is not live. -/
  gotten : ∀ hdl type after, LawfulCall state (.get hdl type) →
    state.next (.get hdl type) = some after → state.object hdl type ≠ 0 → after.live hdl = none
  /-- A handle that is not live stays so until it is issued again. -/
  dead : ∀ hdl event after, LawfulCall state event → state.next event = some after →
    state.live hdl = none → ¬ Issues state hdl event → after.live hdl = none

namespace Tabled
variable {state : HdlState} {free : List Nat}

section
variable (tabled : Tabled state free)
include tabled

/-- The object of a handle is what its entry says. -/
theorem object_eq (hdl : UInt64) {type : AlObjType} (known : type ≠ .unknown) :
    state.object hdl type =
      match state.al.entry hdl with
      | none => 0
      | some entry => if entry.type = type then entry.pObj else 0 := by
  unfold HdlState.object
  cases live : state.live hdl with
  | none =>
    cases found : state.al.entry hdl with
    | none => rfl
    | some entry =>
      refine (if_neg ?_).symm
      rintro rfl
      exact nomatch live.symm.trans ((tabled.live hdl _ _).mpr ⟨known, found⟩)
  | some record => rw [((tabled.live hdl record.1 record.2).mp live).2]

/-- `al_hdl_get` finds the live handles of the type. -/
theorem alHdlGet_object (hdl : UInt64) {type : AlObjType}
    (known : type ≠ .unknown) : (alHdlGet state.al hdl type).1 = state.object hdl type := by
  rw [tabled.object_eq hdl known, alHdlGet]
  split
  · rfl
  · split_ifs <;> first | rfl | contradiction

/-- `al_hdl_ref` finds those whose object is marked valid. -/
theorem alHdlRef_object (hdl : UInt64) {type : AlObjType}
    (known : type ≠ .unknown) : (alHdlRef state.al hdl type).1 =
      if (state.al.objs (state.object hdl type)).hdlValid then state.object hdl type else 0 := by
  rw [tabled.object_eq hdl known, alHdlRef]
  split
  · simp
  · simp only [known, false_and, if_false]
    split_ifs <;> simp_all

/-- Handles are indices, so an entry is unused exactly when its handle is not live. -/
theorem mem_free_iff (index : Nat) :
    index ∈ free ↔ 0 < index ∧ index < state.al.hdlVector.length ∧ state.live index.toUInt64 = none := by
  rw [tabled.unused, Nat.pos_iff_ne_zero]
  refine and_congr_right fun _ => ?_
  by_cases inside : index < state.al.hdlVector.length
  · have same : index.toUInt64.toNat = index := Nat.mod_eq_of_lt (Nat.lt_trans inside tabled.small)
    have entry : state.al.entry index.toUInt64 = some state.al.hdlVector[index] := by
      rw [IbAl.entry, same, List.getElem?_eq_getElem inside]
    rw [List.getElem?_eq_getElem inside]
    constructor
    · rintro ⟨word, unused⟩
      exact ⟨inside, tabled.not_live (entry.trans unused)⟩
    · rintro ⟨-, dead⟩
      by_contra used
      have known : state.al.hdlVector[index].type ≠ .unknown := fun unknown =>
        used ⟨state.al.hdlVector[index].pObj, by rw [← unknown]⟩
      rw [(tabled.live _ _ _).mpr ⟨known, entry⟩] at dead
      cases dead
  · refine iff_of_false ?_ fun within => inside within.1
    rintro ⟨word, entry⟩
    exact inside (List.getElem?_eq_some_iff.mp entry).1

/-- Only an insertion makes a handle live. -/
theorem stays_dead {hdl : UInt64} {event : HdlEvent}
    {after : HdlState} (lawful : LawfulCall state event) (next : state.next event = some after)
    (dead : state.live hdl = none) (other : ¬ Issues state hdl event) : after.live hdl = none := by
  have cleared (freed : UInt64) : update state.live freed none hdl = none := by
    rw [Function.update_apply, dead, ite_self]
  cases event with
  | insert pObj type grown =>
    obtain refused | ⟨issued, al, rest, inserted, nonzero, -, -⟩ :=
      tabled.alHdlInsert_cases lawful.1 lawful.2 grown
    · simp [HdlState.next, refused] at next
      rw [← next, dead]
    · simp [HdlState.next, inserted, nonzero] at next
      have apart : hdl ≠ issued := fun same => other (by simp [Issues, inserted, same])
      rw [← next]
      exact (update_of_ne apart ..).trans dead
  | free freed =>
    obtain ⟨al, -, ended⟩ := bind_eq_some_iff.mp next
    cases ended
    exact cleared freed
  | ref looked type =>
    cases next
    exact dead
  | get got type =>
    simp only [HdlState.next] at next
    split at next
    · cases next
      exact dead
    · cases next
      exact cleared got
  | mark pObj valid =>
    cases next
    exact dead

end
end Tabled

/-- In every state that lawful calls reach, whatever handles lookups are made with, the table
keeps the objects of user processes apart. -/
theorem isolated_of_reachable {state : HdlState}
    (reachable : hdlMachine.Reachable LawfulCall state) : Isolated state := by
  obtain ⟨free, tabled⟩ := tabled_of_reachable reachable
  refine ⟨fun event lawful => ?_, fun hdl event lawful issues valid => ?_, ?_, fun index => ?_,
    fun hdl type known => tabled.alHdlGet_object hdl known,
    fun hdl type known => tabled.alHdlRef_object hdl known, fun hdl after lawful next => ?_,
    fun hdl type after lawful next object => ?_,
    fun hdl event after lawful next dead other => tabled.stays_dead lawful next dead other⟩
  · obtain ⟨after, rest, eq, -⟩ := tabled.step lawful
    simp [eq]
  · cases event with
    | insert pObj type grown =>
      obtain refused | ⟨issued, al, rest, inserted, -, dead, -⟩ :=
        tabled.alHdlInsert_cases lawful.1 lawful.2 grown
      · simp only [Issues, refused, map_some, some.injEq] at issues
        exact absurd issues.symm valid
      · simp only [Issues, inserted, map_some, some.injEq] at issues
        exact issues ▸ dead
    | _ => exact issues.elim
  · exact tabled.freeList_eq ▸ tabled.nodup
  · rw [tabled.freeList_eq]
    exact tabled.mem_free_iff index
  · obtain ⟨al, -, ended⟩ := bind_eq_some_iff.mp next
    cases ended
    exact update_self ..
  · have found : (alHdlGet state.al hdl type).1 ≠ 0 := by
      rwa [tabled.alHdlGet_object hdl lawful]
    simp only [HdlState.next, found, if_false] at next
    cases next
    exact update_self ..

/-- A new instance in which a protection domain is given a handle. -/
def sampleEvents : List HdlEvent := [.insert 0x1000 .hPd true]

def sampleOpen : HdlState := ⟨ibOpenAl fun _ => ⟨false, 1⟩, fun _ => none⟩

instance (state : HdlState) (event : HdlEvent) : Decidable (LawfulCall state event) := by
  cases event <;> unfold LawfulCall <;> infer_instance

theorem sampleOpen_reachable {events : List HdlEvent} {state : HdlState}
    (lawful : Transition.Machine.Guarded HdlState.next LawfulCall sampleOpen events)
    (ended : Transition.Machine.run HdlState.next sampleOpen events = some state) :
    hdlMachine.Reachable LawfulCall state :=
  .run (.initial ⟨_, rfl⟩) lawful ended

/-- The handle of the protection domain is taken back and given to a queue pair, which is then
referenced; the handle of a completion queue is freed. -/
def reissueEvents : List HdlEvent :=
  sampleEvents ++ [.insert 0x2000 .hCq true, .get 1 .hPd, .insert 0x3000 .hQp true,
    .mark 0x3000 true, .ref 1 .hQp, .free 2]

/-- The table is isolated, and the handle names the queue pair only. -/
theorem sampleTable_isolated : ∃ state,
    Transition.Machine.run HdlState.next sampleOpen reissueEvents = some state ∧
      state.live 1 = some (.hQp, 0x3000) ∧ state.live 2 = none ∧
      (state.al.objs 0x3000).refCnt = 2 ∧ Isolated state :=
  ⟨_, rfl, by decide +kernel, by decide +kernel, by decide +kernel,
    isolated_of_reachable (@sampleOpen_reachable reissueEvents _ (by decide +kernel) rfl)⟩

/-- Entry 0 is unused but not on the free list, and a live handle whose object is not
marked valid cannot be referenced. -/
theorem sampleTable_reserved : ∃ state,
    Transition.Machine.run HdlState.next sampleOpen sampleEvents = some state ∧
      hdlMachine.Reachable LawfulCall state ∧
      0 < state.al.hdlVector.length ∧ state.live 0 = none ∧ 0 ∉ state.al.freeList ∧
      state.live 1 = some (.hPd, 0x1000) ∧ (alHdlRef state.al 1 .hPd).1 = 0 :=
  ⟨_, rfl, @sampleOpen_reachable sampleEvents _ (by decide +kernel) rfl, by decide +kernel,
    by decide +kernel, by decide +kernel, rfl, by decide +kernel⟩

end WinOFED.Al
