import WinOFED.Transition.Machine

/-! The attribute cache of a port.

Locally routed SMPs are answered from what the channel adapter has accepted before, and are
forwarded to it otherwise, one at a time. The adapter answers with the header of the
request. -/
namespace WinOFED.Al

inductive SmpClass
  | subnDir | subnLid
deriving DecidableEq, Repr

inductive SmpMethod
  | get | set | getResp
deriving DecidableEq, Repr

inductive SmpAttr
  | nodeInfo | nodeDesc | guidInfo | pkeyTable | slvlTable | vlArbitration | portInfo | other
deriving DecidableEq, Repr

/-- The bytes of an attribute. -/
abbrev SmpData := Fin 64 → UInt8

/-- `ib_smp_t`. -/
structure Smp where
  mgmtClass : SmpClass
  method : SmpMethod
  status : UInt16
  hopCount : UInt8
  attrId : SmpAttr
  attrMod : UInt32
  mKey : Fin 8 → UInt8
  data : SmpData

/-- `ib_smp_get_status`. -/
def Smp.getStatus (smp : Smp) : UInt16 := smp.status &&& 0x7fff

/-- The arrays of `spl_qp_cache_t`. -/
inductive SmaTable
  | guidBlock | pkeyTbl | slVl | vlArb
deriving DecidableEq, Repr

namespace SmaTable

def length : SmaTable → Nat
  | .guidBlock => 32
  | .pkeyTbl => 2048
  | .slVl => 1
  | .vlArb => 4

/-- The size of a block. -/
def width : SmaTable → Nat
  | .slVl => 8
  | .guidBlock | .pkeyTbl | .vlArb => 64

end SmaTable

/-- A block that is inside its array. -/
abbrev SmaBlock := (table : SmaTable) × Fin table.length

/-- `cl_memcpy` of the first bytes. -/
def memcpy (width : Nat) (dest src : SmpData) : SmpData :=
  fun byte => if byte < width then src byte else dest byte

/-- `cl_memcmp` of the first bytes finds no difference. -/
def Agree (width : Nat) (first second : SmpData) : Prop :=
  ∀ byte : Fin 64, byte < width → first byte = second byte

instance (width : Nat) (first second : SmpData) : Decidable (Agree width first second) :=
  inferInstanceAs (Decidable (∀ _, _))

/-- A block of a table and whether it is valid. -/
structure CacheBlock where
  valid : Bool := false
  tbl : SmpData := fun _ => 0

/-- The service of a port, as far as the cache goes. -/
structure SplQpSvc where
  mKey : Fin 8 → UInt8 := fun _ => 0
  cacheEn : Bool := false
  cache : SmaBlock → CacheBlock := fun _ => {}
  /-- A block outside of its array was written. -/
  strayed : Bool := false
  /-- What the adapter has last answered to a Set of a block of its tables, with success. -/
  latest : SmaTable × Nat → Option SmpData := fun _ => none

/-- What `__process_subn_mad` makes of an SMP. -/
inductive SubnOutcome
  /-- `IB_NOT_DONE`: the adapter gets it. -/
  | notDone
  | answered (response : Smp)
  /-- It is completed without the cached tables. -/
  | completed

namespace SplQpSvc

variable (svc : SplQpSvc) (smp : Smp)

/-- The part that the four updates share. -/
def updateTable (table : SmaTable) (idx : Nat) (smp : Smp) : SplQpSvc :=
  if inside : idx < table.length then
    let tbl := memcpy table.width (svc.cache ⟨table, idx, inside⟩).tbl smp.data
    { svc with cache := Function.update svc.cache ⟨table, idx, inside⟩ ⟨true, tbl⟩ }
  else { svc with strayed := true }

def updateGuidInfo : SplQpSvc :=
  svc.updateTable .guidBlock smp.attrMod.toNat smp

def updatePkeyTable : SplQpSvc :=
  svc.updateTable .pkeyTbl smp.attrMod.toUInt16.toNat smp

def updateSlVlTable : SplQpSvc := svc.updateTable .slVl 0 smp

/-- The blocks of the arbitration table are counted from one. -/
def vlArbIdx (smp : Smp) : Nat := ((smp.attrMod >>> 16).toUInt16 - 1).toNat

def updateVlArbTable : SplQpSvc :=
  svc.updateTable .vlArb (vlArbIdx smp) smp

/-- `spl_qp_svc_update_cache`, and what a Set of the port info changes. -/
def updateCache : SplQpSvc :=
  match smp.attrId with
  | .guidInfo => svc.updateGuidInfo smp
  | .pkeyTable => svc.updatePkeyTable smp
  | .slvlTable => svc.updateSlVlTable smp
  | .vlArbitration => svc.updateVlArbTable smp
  | .portInfo =>
    let mKey : Fin 8 → UInt8 := fun byte => smp.data (byte.castLE (by decide))
    if mKey = fun _ => 0 then svc else { svc with mKey }
  | .nodeInfo | .nodeDesc | .other => svc

/-- The part that the four requests share: a valid block is copied from `source`. A Set is
answered if it changes nothing. -/
def processTable (table source : SmaTable) (larger : table.length ≤ source.length)
    (idx : Nat) (smp : Smp) (pool : Bool) : SubnOutcome :=
  if inside : idx < table.length then
    let cached := svc.cache ⟨table, idx, inside⟩
    if cached.valid = false then .notDone
    else if smp.method = .set ∧ ¬ Agree table.width smp.data cached.tbl then .notDone
    else if pool then .answered
      { smp with
        method := .getResp
        status := if smp.mgmtClass = .subnDir then 0x8000 else 0
        data := memcpy table.width smp.data
          (svc.cache ⟨source, idx, Nat.lt_of_lt_of_le inside larger⟩).tbl }
    else .completed
  else .notDone

def processGuidInfo : Bool → SubnOutcome :=
  svc.processTable .guidBlock .guidBlock (by decide) smp.attrMod.toUInt16.toNat smp

def processPkeyTable : Bool → SubnOutcome :=
  svc.processTable .pkeyTbl .pkeyTbl (by decide) smp.attrMod.toUInt16.toNat smp

def processSlvlTable : Bool → SubnOutcome :=
  svc.processTable .slVl .slVl (by decide) 0 smp

/-- The block is looked up among those of the arbitration table, and copied from the P_Keys. -/
def processVlArbTable : Bool → SubnOutcome :=
  svc.processTable .vlArb .pkeyTbl (by decide) (vlArbIdx smp) smp

/-- `__process_subn_mad`; `pool` is whether `get_resp_mad` gets a MAD. -/
def processSubnMad (pool : Bool) : SplQpSvc × SubnOutcome :=
  if smp.mKey ≠ svc.mKey then ({ svc with cacheEn := false }, .notDone)
  else if svc.cacheEn = false then ({ svc with cacheEn := true }, .notDone)
  else (svc, match smp.attrId with
    | .nodeInfo | .nodeDesc => .completed
    | .guidInfo => svc.processGuidInfo smp pool
    | .pkeyTable => svc.processPkeyTable smp pool
    | .slvlTable => svc.processSlvlTable smp pool
    | .vlArbitration => svc.processVlArbTable smp pool
    | .portInfo | .other => .notDone)

end SplQpSvc

/-- The block of the adapter's tables that an SMP is about: the modifier of the P_Keys and of
the arbitration table also has a port number, which adapters ignore. -/
def Smp.block (smp : Smp) : Option (SmaTable × Nat) :=
  match smp.attrId with
  | .guidInfo => some (.guidBlock, smp.attrMod.toNat)
  | .pkeyTable => some (.pkeyTbl, smp.attrMod.toUInt16.toNat)
  | .slvlTable => some (.slVl, 0)
  | .vlArbitration => some (.vlArb, (smp.attrMod >>> 16).toUInt16.toNat)
  | .nodeInfo | .nodeDesc | .portInfo | .other => none

/-- A locally routed SMP, with what the adapter answers if it gets it: the status and the
payload, or nothing if `al_local_mad` fails. -/
structure LocalSmp where
  smp : Smp
  respExpected : Bool
  pool : Bool
  answer : Option (UInt16 × SmpData)

/-- The answer of the adapter, in the header of the request. -/
def LocalSmp.response (event : LocalSmp) : Option Smp :=
  event.answer.map fun (status, data) => { event.smp with method := .getResp, status, data }

namespace SplQpSvc

/-- The adapter has done a Set. -/
def note (svc : SplQpSvc) (response : Smp) : SplQpSvc :=
  match response.block with
  | none => svc
  | some block => { svc with latest := Function.update svc.latest block (some response.data) }

/-- The status that is tested depends on the class. -/
def Successful (smp : Smp) : Prop :=
  match smp.mgmtClass with
  | .subnDir => smp.getStatus = 0
  | .subnLid => smp.status = 0

instance (smp : Smp) : Decidable (Successful smp) := by
  unfold Successful
  split <;> infer_instance

/-- The end of `fwd_local_mad` for a Set. A directed route with hops leaves `p_smp` at the
request. -/
def setDone (svc : SplQpSvc) (event : LocalSmp) (response : Smp) : SplQpSvc :=
  let svc := if Successful response then svc.note response else svc
  let smp := if event.smp.mgmtClass = .subnDir ∧ event.smp.hopCount ≠ 0 then event.smp else response
  if event.respExpected ∧ Successful smp then svc.updateCache smp else svc

/-- `fwd_local_mad`. -/
def fwdLocalMad (svc : SplQpSvc) (event : LocalSmp) : SplQpSvc :=
  if event.respExpected ∧ event.pool = false then svc
  else match event.response with
    | none => svc
    | some response => if event.smp.method = .set then svc.setDone event response else svc

/-- The service after an SMP. -/
def next (svc : SplQpSvc) (event : LocalSmp) : SplQpSvc :=
  match svc.processSubnMad event.smp event.pool with
  | (svc, .notDone) => svc.fwdLocalMad event
  | (svc, .answered _) | (svc, .completed) => svc

/-- A service that starts with an empty cache. -/
def machine : Transition.Machine SplQpSvc LocalSmp :=
  .ofNext (· = {}) fun svc event => some (svc.next event)

/-- A response has what the adapter has last answered to a Set of that block. -/
def IsLatest (svc : SplQpSvc) (smp response : Smp) : Prop :=
  ∃ block data, smp.block = some block ∧ svc.latest block = some data ∧
    Agree block.1.width response.data data

/-- The block of the adapter's table, with the number it has there. -/
def number (block : SmaBlock) : SmaTable × Nat :=
  (block.1, if block.1 = .vlArb then block.2 + 1 else block.2)

/-- Sets go directly to the port and are answered, the adapter refuses blocks that its tables
do not have, no GUID block number has more than 16 bits, and an arbitration block that is
to be answered from the cache has the contents of the P_Key block with its index. -/
structure Careful (svc : SplQpSvc) (event : LocalSmp) : Prop where
  direct : event.smp.method = .set → event.respExpected = true ∧
    (event.smp.mgmtClass = .subnDir → event.smp.hopCount = 0)
  refused : ∀ place, event.smp.block = some place → (∃ block, number block = place) ∨
    ∀ response, event.response = some response → ¬ Successful response
  short : event.smp.attrId = .guidInfo → event.smp.attrMod.toNat < 65536
  arbitration : event.smp.attrId = .vlArbitration → event.smp.mKey = svc.mKey →
    svc.cacheEn = true → ∀ idx : Fin 4, idx = vlArbIdx event.smp →
    (svc.cache ⟨.vlArb, idx⟩).valid = true →
    (event.smp.method = .set →
      Agree SmaTable.vlArb.width event.smp.data (svc.cache ⟨.vlArb, idx⟩).tbl) →
      (svc.cache ⟨.pkeyTbl, idx.castLE (by decide)⟩).tbl = (svc.cache ⟨.vlArb, idx⟩).tbl

/-- What is cached is what the adapter has last answered. -/
structure Coherent (svc : SplQpSvc) : Prop where
  inside : svc.strayed = false
  cached : ∀ block, (svc.cache block).valid = true →
    ∃ data, svc.latest (number block) = some data ∧ Agree block.1.width (svc.cache block).tbl data

variable {svc : SplQpSvc} {smp response : Smp} {event : LocalSmp} {block : SmaBlock}
  {table source : SmaTable} {idx : Nat} {pool : Bool}

theorem agree_memcpy {width : Nat} {dest src data : SmpData} (agree : Agree width src data) :
    Agree width (memcpy width dest src) data := by
  intro byte inside
  rw [memcpy, if_pos inside]
  exact agree byte inside

theorem number_injective : Function.Injective number := by
  rintro ⟨table, idx⟩ ⟨other, place⟩ same
  obtain ⟨rfl, same⟩ := Prod.mk.inj same
  congr 1
  grind

/-- A block of the table is cached at its index. -/
theorem updateCache_of_block (located : smp.block = some (number block)) :
    svc.updateCache smp = svc.updateTable block.1 block.2 smp := by
  obtain ⟨table, idx⟩ := block
  unfold Smp.block at located
  unfold updateCache
  split at located <;> rename_i attr <;> try contradiction
  all_goals
    obtain ⟨rfl, found⟩ := Prod.mk.inj (Option.some.inj located)
    simp only [attr]
  · rw [updateGuidInfo, found]
    rfl
  · rw [updatePkeyTable, found]
    rfl
  · rw [updateSlVlTable, found]
    rfl
  · rw [updateVlArbTable, vlArbIdx, UInt16.toNat_sub_of_le, found]
    · rfl
    · simp [UInt16.le_iff_toNat_le, found]

theorem answered_of_processTable {larger : table.length ≤ source.length}
    (answered : svc.processTable table source larger idx smp pool = .answered response) :
    ∃ inside : idx < table.length, (svc.cache ⟨table, idx, inside⟩).valid = true ∧
      (smp.method = .set → Agree table.width smp.data (svc.cache ⟨table, idx, inside⟩).tbl) ∧
      response.data = memcpy table.width smp.data
        (svc.cache ⟨source, idx, Nat.lt_of_lt_of_le inside larger⟩).tbl := by
  unfold processTable at answered
  dsimp only at answered
  split_ifs at answered with inside invalid differs
  all_goals
    cases answered
    exact ⟨inside, by simpa using invalid, fun isSet => by_contra fun other => differs ⟨isSet, other⟩, rfl⟩

/-- An answer has what is cached of the block that was asked for. -/
theorem Careful.answered (careful : Careful svc event)
    (answered : (svc.processSubnMad event.smp pool).2 = .answered response) :
    ∃ block, event.smp.block = some (number block) ∧ (svc.cache block).valid = true ∧
      response.data = memcpy block.1.width event.smp.data (svc.cache block).tbl := by
  unfold processSubnMad at answered
  split_ifs at answered with key disabled
  dsimp only at answered
  unfold Smp.block
  split at answered <;> rename_i attr <;> try cases answered
  all_goals
    obtain ⟨inside, valid, noop, data⟩ := answered_of_processTable answered
    rw [attr]
  · refine ⟨_, ?_, valid, data⟩
    simp only [UInt32.toNat_toUInt16, Nat.mod_eq_of_lt (careful.short attr)]
    rfl
  · exact ⟨_, rfl, valid, data⟩
  · exact ⟨_, rfl, valid, data⟩
  · have same := careful.arbitration attr (not_not.mp key) (Bool.of_not_eq_false disabled)
      ⟨_, inside⟩ rfl valid noop
    refine ⟨_, ?_, valid, data.trans (congrArg _ same)⟩
    have found : (event.smp.attrMod >>> 16).toUInt16.toNat = vlArbIdx event.smp + 1 := by
      have bound := (event.smp.attrMod >>> 16).toUInt16.toNat_lt
      simp only [vlArbIdx, SmaTable.length, UInt16.toNat_sub, UInt16.reduceToNat] at inside ⊢
      omega
    rw [found]
    rfl

section
variable (coherent : Coherent svc)
include coherent

theorem Coherent.isLatest (careful : Careful svc event)
    (answered : (svc.processSubnMad event.smp pool).2 = .answered response) :
    svc.IsLatest event.smp response := by
  obtain ⟨block, located, valid, copied⟩ := careful.answered answered
  obtain ⟨data, latest, agree⟩ := coherent.cached block valid
  refine ⟨_, data, located, latest, ?_⟩
  rw [copied]
  exact agree_memcpy agree

/-- A block that the adapter has taken is cached. -/
theorem Coherent.update (located : response.block = some (number block)) :
    Coherent ((svc.note response).updateTable block.1 block.2 response) := by
  rw [note, located, updateTable, dif_pos block.2.isLt]
  refine ⟨coherent.inside, fun other valid => ?_⟩
  dsimp only at valid ⊢
  by_cases own : other = block
  · subst own
    refine ⟨response.data, Function.update_self .., ?_⟩
    rw [Function.update_self]
    exact agree_memcpy fun _ _ => rfl
  · rw [Function.update_of_ne own] at valid ⊢
    rw [Function.update_of_ne (number_injective.ne own)]
    exact coherent.cached other valid

/-- What is not in a table does not change the cache. -/
theorem Coherent.update_none (block : response.block = none) :
    Coherent ((svc.note response).updateCache response) := by
  rw [note, block]
  unfold Smp.block at block
  unfold updateCache
  split at block <;> rename_i attr <;> try cases block
  all_goals simp only [attr]
  · exact coherent
  · exact coherent
  · split_ifs
    · exact coherent
    · exact ⟨coherent.inside, coherent.cached⟩
  · exact coherent

theorem Coherent.setDone {before : SplQpSvc} (careful : Careful before event)
    (isSet : event.smp.method = .set) (answer : event.response = some response) :
    Coherent (svc.setDone event response) := by
  obtain ⟨expected, direct⟩ := careful.direct isSet
  have near : ¬ (event.smp.mgmtClass = .subnDir ∧ event.smp.hopCount ≠ 0) :=
    fun ⟨dir, far⟩ => far (direct dir)
  have same : response.block = event.smp.block := by
    obtain ⟨_, -, rfl⟩ := Option.map_eq_some_iff.mp answer
    rfl
  simp only [SplQpSvc.setDone, if_neg near, expected, true_and]
  split_ifs with success
  · cases block : response.block with
    | none => exact coherent.update_none block
    | some place =>
      rcases careful.refused place (same.symm.trans block) with ⟨_, rfl⟩ | refused
      · rw [updateCache_of_block block]
        exact coherent.update block
      · exact absurd success (refused response answer)
  · exact coherent

theorem Coherent.next (careful : Careful svc event) : Coherent (svc.next event) := by
  have forwarded (mKey : Fin 8 → UInt8) (cacheEn : Bool) :
      Coherent ({ svc with mKey, cacheEn }.fwdLocalMad event) := by
    have kept : Coherent { svc with mKey, cacheEn } := ⟨coherent.inside, coherent.cached⟩
    unfold SplQpSvc.fwdLocalMad
    split
    · exact kept
    split
    · exact kept
    · split
      · exact kept.setDone careful ‹_› ‹_›
      · exact kept
  unfold SplQpSvc.next SplQpSvc.processSubnMad
  split_ifs
  · exact forwarded svc.mKey false
  · exact forwarded svc.mKey true
  · split <;> rename_i same <;> rw [← (Prod.mk.inj same).1]
    · exact forwarded svc.mKey svc.cacheEn
    · exact coherent
    · exact coherent

end

/-- No block outside of its array is written, as none is read, and an SMP that is answered from
the cache gets what the adapter has last answered to a Set of its block. -/
theorem cache_latest_of_reachable (run : machine.Reachable Careful svc) :
    svc.strayed = false ∧ ∀ event response, Careful svc event →
      (svc.processSubnMad event.smp event.pool).2 = .answered response →
        svc.IsLatest event.smp response := by
  have coherent : Coherent svc := by
    refine run.invariant ?_ ?_
    · rintro _ rfl
      exact ⟨rfl, nofun⟩
    · intro before event after kept careful step
      cases step
      exact kept.next careful
  exact ⟨coherent.inside, fun event response careful => coherent.isLatest careful⟩

/-- An SMP whose Set the adapter takes. -/
def sample (method : SmpMethod) (attrId : SmpAttr) (attrMod : UInt32) : LocalSmp :=
  ⟨⟨.subnLid, method, 0, 0, attrId, attrMod, fun _ => 0, fun _ => 1⟩, true, true,
    some (0, fun _ => 1)⟩

/-- A Get of the first arbitration block is answered with P_Keys. -/
theorem getVlArb_answered_pkeys :
    ∃ svc response, machine.Reachable (fun _ _ => True) svc ∧
      (svc.processSubnMad (sample .get .vlArbitration 0x10000).smp true).2 = .answered response ∧
        ¬ svc.IsLatest (sample .get .vlArbitration 0x10000).smp response := by
  refine ⟨next {} (sample .set .vlArbitration 0x10000), _, .step (.initial rfl) trivial rfl, rfl, ?_⟩
  rintro ⟨block, data, located, latest, agree⟩
  cases located
  cases latest
  exact absurd (agree 0 (by decide)) (by decide)

/-- A Get of a GUID block after its Set. -/
theorem getGuidInfo_answered :
    ∃ svc response, machine.Reachable Careful svc ∧
      (svc.processSubnMad (sample .get .guidInfo 3).smp true).2 = .answered response ∧
        svc.IsLatest (sample .get .guidInfo 3).smp response := by
  have careful (svc : SplQpSvc) (method : SmpMethod) : Careful svc (sample method .guidInfo 3) := by
    refine ⟨fun _ => ⟨rfl, nofun⟩, ?_, fun _ => (by decide : 3 < 65536), nofun⟩
    rintro block ⟨⟩
    exact .inl ⟨⟨.guidBlock, 3, by decide⟩, rfl⟩
  have run : machine.Reachable Careful (next {} (sample .set .guidInfo 3)) :=
    .step (.initial rfl) (careful {} .set) rfl
  exact ⟨_, _, run, rfl, (cache_latest_of_reachable run).2 _ _ (careful _ .get) rfl⟩

end SplQpSvc
end WinOFED.Al
