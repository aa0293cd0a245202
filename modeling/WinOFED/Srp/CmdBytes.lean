import WinOFED.Srp.Cmd

/-! What a built SRP_CMD says about the data of its request.

The bytes a target reaches through the descriptors are compared with the bytes of the
scatter/gather list, and the counts and lengths of the command with the number and the
lengths of the descriptors. -/
namespace WinOFED.Srp
open Memory List Nat
open UInt32 (le_iff_toNat_le lt_iff_toNat_lt not_le ofNat ofNat_add toNat toNat_add toNat_mul toNat_ofNat' toNat_toUInt64)

/-- The physical addresses of the bytes of a list, in order. -/
def sgBytes (list : List SgElement) : List UInt64 :=
  list.flatMap fun element => bytesFrom element.physicalAddress element.length.toNat

def sgLength (list : List SgElement) : Nat := (list.map (·.length.toNat)).sum

/-- The physical byte at an address of the region with a key: a fast memory region maps its
pages from address 0 on, the registration of physical memory covers all of it. -/
def region (mr : PhysMr) (mapped : MapFmr) (handle : UInt32) (address : UInt64) :
    Option UInt64 :=
  let physical := if handle = mr.rkey then some (address - mr.vaddr) else none
  match mapped with
  | .mapped descriptor pages =>
    if handle = descriptor.memoryHandle then pageLookup fmrPageSize.toNat pages address.toNat
    else physical
  | _ => physical

/-- The physical bytes a target reaches through a descriptor. -/
def MemoryDescriptor.bytes (region : UInt32 → UInt64 → Option UInt64)
    (descriptor : MemoryDescriptor) : List (Option UInt64) :=
  (List.range descriptor.dataLength.toNat).map fun index =>
    region descriptor.memoryHandle (descriptor.virtualAddress + UInt64.ofNat index)

def SrpCmd.fmt (cmd : SrpCmd) (out : Bool) : UInt8 :=
  if out then cmd.dataOutFmt else cmd.dataInFmt

def SrpCmd.count (cmd : SrpCmd) (out : Bool) : UInt8 :=
  if out then cmd.dataOutBufferDescCount else cmd.dataInBufferDescCount

/-- A command describes a list to the target, in the format of the connection. -/
structure Describes (connection : SrpConnection) (mr : PhysMr) (mapped : MapFmr)
    (list : List SgElement) (out : Bool) (cmd : SrpCmd) : Prop where
  /-- There is a buffer of the negotiated format in the direction of the transfer only. -/
  format : cmd.fmt out = connection.format ∧ cmd.fmt (!out) = 0 ∧ cmd.count (!out) = 0
  /-- The count field is the number of descriptors. -/
  count : (cmd.count out).toNat = cmd.descriptors.length
  /-- The descriptors reach exactly the bytes of the list, in order. -/
  bytes : cmd.descriptors.flatMap (·.bytes (region mr mapped)) = (sgBytes list).map some
  /-- Their lengths add up to the length of the list. -/
  lengths : (cmd.descriptors.map (·.dataLength.toNat)).sum = sgLength list
  /-- There is a table descriptor for indirect buffers; it has the length of the table and
  of the data. -/
  table : match cmd.table with
    | none => connection.format ≠ dbdfIndirect
    | some table => connection.format = dbdfIndirect ∧
        table.descriptor.dataLength.toNat = cmd.descriptors.length * memoryDescriptorSize ∧
        table.totalLength.toNat = sgLength list
  /-- The posted length is what was written, -/
  posted : cmd.length = cmd.written
  /-- and the target has room for it. -/
  fits : cmd.length ≤ connection.initToTargIuSz.toNat

/-- The direction a request transfers data in, if it is one direction. -/
def ScsiDirection.out : ScsiDirection → Option Bool
  | .dataIn => some false
  | .dataOut => some true
  | .none | .unspecified => Option.none

/-- The command is built and describes the data of its request. -/
def BuildsRight (srb : Srb) (connection : SrpConnection) (mr : PhysMr) (tableAddress : UInt64)
    (service : FmrService) : Prop :=
  ∃ out cmd, srb.scsiDirection.out = some out ∧
    srpBuildCmd srb connection mr tableAddress service = some cmd ∧
    Describes connection mr (tryMapFmr service srb.scatterGatherList) srb.scatterGatherList out cmd

/-- The lists that suit the way they are described: a region for all entries needs the first
one to end below the top of the address space, descriptors of their own need the number of
entries in 8 bits and their length in 32. -/
def MapFmr.Suits (list : List SgElement) : MapFmr → Prop
  | .stuck => False
  | .mapped _ _ =>
    (list.headD ⟨0, 0⟩).physicalAddress.toNat + (list.headD ⟨0, 0⟩).length.toNat < 2 ^ 64
  | .refused => list.length < 256 ∧ sgLength list < 2 ^ 32

instance (list : List SgElement) (mapped : MapFmr) : Decidable (mapped.Suits list) := by
  unfold MapFmr.Suits
  cases mapped <;> infer_instance

/-- The target has room for the fixed part of a command, and the list suits its
description. -/
def Describable (connection : SrpConnection) (service : FmrService) (list : List SgElement) :
    Prop :=
  if connection.format = dbdfIndirect then
    68 ≤ connection.initToTargIuSz.toNat ∧ (tryMapFmr service list).Suits list
  else 64 ≤ connection.initToTargIuSz.toNat

instance (connection : SrpConnection) (service : FmrService) (list : List SgElement) :
    Decidable (Describable connection service list) := by
  unfold Describable
  infer_instance

/-! ### Page masks -/

theorem fmrPageMask_eq : fmrPageMask = 0xFFFFF000 := by decide

variable (address : UInt64)

/-- The mask keeps the page number of a 32-bit address and nothing above. -/
theorem toNat_and_fmrPageMask : (address &&& fmrPageMask).toNat = address.toNat % 2 ^ 32 / 4096 * 4096 := by
  rw [fmrPageMask_eq, UInt64.toNat_and]
  have mask : (0xFFFFF000 : UInt64).toNat = (2 ^ 20 - 1) <<< 12 := by decide
  have pages (value : Nat) : value / 4096 * 4096 = value >>> 12 <<< 12 := by
    rw [shiftLeft_eq, shiftRight_eq_div_pow]
  rw [mask, pages]
  apply eq_of_testBit_eq
  intro bit
  simp only [testBit_and, testBit_shiftLeft, testBit_two_pow_sub_one,
    testBit_shiftRight, testBit_mod_two_pow]
  by_cases low : 12 ≤ bit
  · have back : 12 + (bit - 12) = bit := by omega
    have bound : bit - 12 < 20 ↔ bit < 32 := by omega
    simp [low, back, bound, Bool.and_comm]
  · simp [low]

/-- A mask and its complement split a number. -/
theorem and_add_and_not (mask : UInt64) : (address &&& mask) + (address &&& ~~~mask) = address := by
  rw [← UInt64.toBitVec_inj]
  simp only [UInt64.toBitVec_add, UInt64.toBitVec_and, UInt64.toBitVec_not]
  rw [BitVec.add_eq_or_of_and_eq_zero]
  · ext bit inside
    grind
  · ext bit inside
    grind

/-- The complement keeps the offset in the page, and all above 32 bits. -/
theorem toNat_and_not_fmrPageMask :
    (address &&& ~~~fmrPageMask).toNat = address.toNat / 2 ^ 32 * 2 ^ 32 + address.toNat % 4096 := by
  have sum := congrArg UInt64.toNat (and_add_and_not address fmrPageMask)
  have most : (address &&& ~~~fmrPageMask).toNat ≤ address.toNat := by
    rw [UInt64.toNat_and]
    exact and_le_left
  rw [UInt64.toNat_add, toNat_and_fmrPageMask] at sum
  have top := address.toNat_lt
  omega

/-- What the alignment checks accept. -/
theorem and_not_fmrPageMask_eq_zero_iff :
    address &&& ~~~fmrPageMask = 0 ↔ address.toNat < 2 ^ 32 ∧ address.toNat % 4096 = 0 := by
  rw [← UInt64.toNat_inj, toNat_and_not_fmrPageMask]
  simp only [UInt64.toNat_zero]
  omega

/-! ### Page lists -/

/-- The pages an entry needs when it starts at a page. -/
def SgElement.pageCount (element : SgElement) : Nat := (element.length.toNat + 4095) / 4096

/-- The inner loop from page `first` on, for an entry whose last page start is below the
wrap of the counter. -/
theorem pageLoop_eq {base : UInt64} {dmaLen : UInt32} {fuel first count : Nat}
    (enough : count < fuel) (below : (first + count) * 4096 < 2 ^ 32)
    (ends : dmaLen.toNat ≤ (first + count) * 4096)
    (needed : count = 0 ∨ (first + count) * 4096 < dmaLen.toNat + 4096) :
    pageLoop base dmaLen fuel (ofNat (first * 4096)) = some ((List.range count).map fun index =>
        base + UInt64.ofNat ((first + index) * 4096)) := by
  induction count generalizing first fuel with
  | zero =>
    obtain ⟨fuel, rfl⟩ := exists_eq_succ_of_ne_zero (ne_of_gt enough)
    have exceeds : ¬ ofNat (first * 4096) < dmaLen := by
      rw [lt_iff_toNat_lt, toNat_ofNat']
      omega
    rw [pageLoop, if_neg exceeds]
    rfl
  | succ count ih =>
    obtain ⟨fuel, rfl⟩ := exists_eq_succ_of_ne_zero (ne_of_gt (zero_lt_of_lt enough))
    have inside : ofNat (first * 4096) < dmaLen := by
      rw [lt_iff_toNat_lt, toNat_ofNat']
      omega
    have following : ofNat (first * 4096) + fmrPageSize = ofNat ((first + 1) * 4096) := by
      rw [add_mul, ofNat_add]
      rfl
    have wide : (ofNat (first * 4096)).toUInt64 = UInt64.ofNat (first * 4096) := by
      rw [← UInt64.toNat_inj, toNat_toUInt64, toNat_ofNat', UInt64.toNat_ofNat']
      omega
    have shift : first + (count + 1) = first + 1 + count := by omega
    rw [shift] at below ends needed
    have rest := ih (lt_of_succ_lt_succ enough) below ends (.inr (by omega))
    simp only [pageLoop, inside, if_true, following, rest, Option.map_some, wide]
    rw [range_succ_eq_map]
    simp [Function.comp_def, add_assoc, add_comm 1]

/-- The counter of the inner loop does not reach an entry's end that lies behind the last
page start. -/
theorem pageLoop_eq_none {base : UInt64} {dmaLen : UInt32} (long : 0xFFFFF000 < dmaLen.toNat)
    (fuel : Nat) {j : UInt32} (aligned : j.toNat % 4096 = 0) :
    pageLoop base dmaLen fuel j = none := by
  induction fuel generalizing j with
  | zero => rfl
  | succ fuel ih =>
    have inside : j < dmaLen := by
      rw [lt_iff_toNat_lt]
      have := j.toNat_lt
      omega
    have again : (j + fmrPageSize).toNat % 4096 = 0 := by
      have size : fmrPageSize.toNat = 4096 := rfl
      rw [toNat_add, size]
      omega
    simp [pageLoop, inside, ih again]

variable {element : SgElement} {pages : List UInt64} {list : List SgElement}
  {descriptor : MemoryDescriptor} {service : FmrService} {mr : PhysMr} {size : UInt32}
  {connection : SrpConnection} {fmt : UInt8}

/-- Listing the pages of an entry ends for entries up to the last page start, and lists
consecutive pages. -/
theorem pagesOf_eq_some_iff : pagesOf element = some pages ↔
    element.length.toNat ≤ 0xFFFFF000 ∧
      pages = pageRun 4096 (element.physicalAddress &&& fmrPageMask) element.pageCount := by
  by_cases long : 0xFFFFF000 < element.length.toNat
  · rw [pagesOf, pageLoop_eq_none long _ (by decide)]
    simp [Nat.not_le.mpr long]
  · have count : element.pageCount ≤ 0xFFFFF := by
      rw [SgElement.pageCount]
      omega
    have loop := @pageLoop_eq (element.physicalAddress &&& fmrPageMask) element.length (2 ^ 20 + 1) 0
      element.pageCount (by omega) (by omega) (by rw [SgElement.pageCount]; omega)
      (by rw [SgElement.pageCount]; omega)
    simp only [zero_mul, zero_add] at loop
    have listed : pagesOf element =
        some (pageRun 4096 (element.physicalAddress &&& fmrPageMask) element.pageCount) := loop
    rw [listed, Option.some.injEq, eq_comm]
    exact (and_iff_right (Nat.not_lt.mp long)).symm

/-- The pages of a list, entry by entry. -/
def sgPages (list : List SgElement) : List UInt64 :=
  list.flatMap fun element =>
    pageRun 4096 (element.physicalAddress &&& fmrPageMask) element.pageCount

/-- The pages of a list are listed unless an entry is longer than the last page start. -/
theorem addrList_eq_some_iff : addrList list = some pages ↔
    (∀ element ∈ list, element.length.toNat ≤ 0xFFFFF000) ∧ pages = sgPages list := by
  induction list generalizing pages with
  | nil =>
    rw [addrList, Option.some.injEq, eq_comm]
    simp [sgPages]
  | cons element rest ih =>
    simp only [addrList, Option.bind_eq_bind, Option.bind_eq_some_iff, pagesOf_eq_some_iff, ih,
      forall_mem_cons, Option.some.injEq]
    constructor
    · rintro ⟨_, ⟨short, rfl⟩, _, ⟨others, rfl⟩, rfl⟩
      exact ⟨⟨short, others⟩, rfl⟩
    · rintro ⟨⟨short, others⟩, rfl⟩
      exact ⟨_, ⟨short, rfl⟩, _, ⟨others, rfl⟩, rfl⟩

@[simp] theorem sgBytes_cons (element : SgElement) (rest : List SgElement) :
    sgBytes (element :: rest) =
      bytesFrom element.physicalAddress element.length.toNat ++ sgBytes rest := rfl

@[simp] theorem sgLength_cons (element : SgElement) (rest : List SgElement) :
    sgLength (element :: rest) = element.length.toNat + sgLength rest := by
  simp [sgLength]

theorem length_sgBytes (list : List SgElement) : (sgBytes list).length = sgLength list := by
  induction list with
  | nil => rfl
  | cons element rest ih => simp [ih]

theorem toNat_totalLength (list : List SgElement) : (totalLength list).toNat = sgLength list % 2 ^ 32 := by
  have fold (total : UInt32) : (list.foldl (fun total element => total + element.length)
      total).toNat = (total.toNat + sgLength list) % 2 ^ 32 := by
    induction list generalizing total with
    | nil => simp [sgLength, mod_eq_of_lt total.toNat_lt]
    | cons element rest ih =>
      rw [foldl_cons, ih, toNat_add, sgLength_cons]
      omega
  simpa [totalLength] using fold 0

/-- The bytes of an entry that starts at a page are the first ones of its pages, and all of
them if it also ends at one. -/
theorem pageBytes_entry (start : element.physicalAddress &&& ~~~fmrPageMask = 0) :
    pageBytes 4096
        (pageRun 4096 (element.physicalAddress &&& fmrPageMask) element.pageCount) =
      bytesFrom element.physicalAddress (element.pageCount * 4096) := by
  have aligned := (and_not_fmrPageMask_eq_zero_iff _).mp start
  have same : element.physicalAddress &&& fmrPageMask = element.physicalAddress := by
    rw [← UInt64.toNat_inj, toNat_and_fmrPageMask]
    omega
  rw [pageBytes_pageRun, same]

/-- Entries behind the first one start at a page; only the last one may end within one. -/
theorem sgPages_eq_sgBytes_append (aligned : pageAligned false list = true) :
    ∃ pad, pageBytes 4096 (sgPages list) = sgBytes list ++ pad := by
  induction list with
  | nil => exact ⟨[], rfl⟩
  | cons element rest ih =>
    simp only [pageAligned, Bool.or_false, Bool.and_eq_true, Bool.or_eq_true, beq_iff_eq] at aligned
    obtain ⟨⟨start, ended⟩, others⟩ := aligned
    obtain ⟨pad, tail⟩ := ih others
    rw [sgPages, flatMap_cons, pageBytes_append, pageBytes_entry start, ← sgPages, tail, sgBytes_cons]
    have covered : element.length.toNat ≤ element.pageCount * 4096 := by
      rw [SgElement.pageCount]
      omega
    obtain ⟨more, room⟩ := Nat.exists_eq_add_of_le covered
    rw [room, bytesFrom_add]
    rcases ended with ended | last
    · obtain ⟨low, startAligned⟩ := (and_not_fmrPageMask_eq_zero_iff _).mp start
      have endAligned := ((and_not_fmrPageMask_eq_zero_iff _).mp ended).2
      have small := element.length.toNat_lt
      rw [UInt64.toNat_add, toNat_toUInt64] at endAligned
      have full : more = 0 := by
        rw [SgElement.pageCount] at room
        omega
      exact ⟨pad, by simp [full]⟩
    · obtain rfl := isEmpty_iff.mp last
      refine ⟨bytesFrom (element.physicalAddress + UInt64.ofNat element.length.toNat) more ++ pad, ?_⟩
      simp [sgBytes]

/-- A list that the alignment checks accept and whose first entry does not wrap: its bytes
are those of its pages behind the offset of the first entry. -/
theorem sgPages_eq {rest : List SgElement} (several : rest ≠ [])
    (aligned : pageAligned true (element :: rest) = true)
    (below : element.physicalAddress.toNat + element.length.toNat < 2 ^ 64) :
    ∃ before pad, pageBytes 4096 (sgPages (element :: rest)) =
        before ++ (sgBytes (element :: rest) ++ pad) ∧
      before.length = (element.physicalAddress &&& ~~~fmrPageMask).toNat := by
  have more : rest.isEmpty = false := by simpa using several
  simp only [pageAligned, Bool.or_true, Bool.true_and, more, Bool.or_false, Bool.and_eq_true,
    beq_iff_eq] at aligned
  obtain ⟨ended, others⟩ := aligned
  obtain ⟨pad, tail⟩ := sgPages_eq_sgBytes_append others
  obtain ⟨low, endAligned⟩ := (and_not_fmrPageMask_eq_zero_iff _).mp ended
  rw [UInt64.toNat_add, toNat_toUInt64, mod_eq_of_lt below] at low endAligned
  have offset := toNat_and_not_fmrPageMask element.physicalAddress
  have pages : element.pageCount * 4096 =
      (element.physicalAddress &&& ~~~fmrPageMask).toNat + element.length.toNat := by
    rw [SgElement.pageCount, offset]
    omega
  have start : (element.physicalAddress &&& fmrPageMask) +
      UInt64.ofNat (element.physicalAddress &&& ~~~fmrPageMask).toNat = element.physicalAddress := by
    rw [UInt64.ofNat_toNat]
    exact and_add_and_not ..
  refine ⟨bytesFrom (element.physicalAddress &&& fmrPageMask) _, pad, ?_, length_bytesFrom ..⟩
  rw [sgPages, flatMap_cons, pageBytes_append, ← sgPages, pageBytes_pageRun, pages, bytesFrom_add,
    start, tail, sgBytes_cons, append_assoc, append_assoc]

/-! ### Descriptors -/

/-- The code does not come back exactly if it tries a region for a list with an entry that is
longer than the last page start. -/
theorem tryMapFmr_eq_stuck_iff : tryMapFmr service list = .stuck ↔
    (1 < list.length ∧ service.available ∧ pageAligned true list ∧ service.allocated) ∧
      ∃ element ∈ list, 0xFFFFF000 < element.length.toNat := by
  have ends : addrList list = none ↔ ∃ element ∈ list, 0xFFFFF000 < element.length.toNat := by
    rw [Option.eq_none_iff_forall_ne_some]
    simp [addrList_eq_some_iff]
  rw [← ends]
  unfold tryMapFmr srpMapFmr
  split
  case isFalse single => simp [single]
  case isTrue several =>
    split
    case isFalse refused =>
      simp only [Bool.and_eq_true] at refused
      simp only [reduceCtorEq, false_iff]
      rintro ⟨⟨-, available, aligned, allocated⟩, -⟩
      exact refused ⟨⟨available, aligned⟩, allocated⟩
    case isTrue tried =>
      simp only [Bool.and_eq_true] at tried
      obtain ⟨⟨available, aligned⟩, allocated⟩ := tried
      split
      case h_1 endless => simp [endless, several, available, aligned, allocated]
      case h_2 listed _ => simp [listed]
      case h_3 listed _ => split <;> simp [listed]

section
variable (mapped : tryMapFmr service list = .mapped descriptor pages)
include mapped

/-- How a list comes to be mapped by one region. -/
theorem tryMapFmr_eq_mapped :
    ∃ element rest, list = element :: rest ∧ rest ≠ [] ∧ pageAligned true list = true ∧
      pages = sgPages list ∧ pages.length ≤ srpMaxSgInIndirectDataBuffer ∧
      descriptor.virtualAddress = element.physicalAddress &&& ~~~fmrPageMask ∧
      descriptor.dataLength = totalLength list := by
  unfold tryMapFmr srpMapFmr at mapped
  split at mapped
  next several =>
    split at mapped
    next accepted =>
      simp only [Bool.and_eq_true] at accepted
      split at mapped
      next => contradiction
      next => contradiction
      next listed rkey pagesListed _ =>
        split at mapped
        next => contradiction
        next room =>
          simp only [MapFmr.mapped.injEq] at mapped
          obtain ⟨rfl, rfl⟩ := mapped
          obtain ⟨element, rest, rfl⟩ := exists_cons_of_length_pos (zero_lt_of_lt several)
          refine ⟨element, rest, rfl, ?_, accepted.1.2, (addrList_eq_some_iff.mp pagesListed).2, ?_, rfl, rfl⟩
          · rintro rfl
            simp at several
          · omega
    next => contradiction
  next => contradiction

/-- One region for all entries reaches their bytes. -/
theorem mapped_bytes
    (below : (list.headD ⟨0, 0⟩).physicalAddress.toNat + (list.headD ⟨0, 0⟩).length.toNat < 2 ^ 64) :
    descriptor.bytes (region mr (.mapped descriptor pages)) = (sgBytes list).map some ∧
      descriptor.dataLength.toNat = sgLength list := by
  obtain ⟨element, rest, rfl, several, aligned, rfl, few, start, length⟩ := tryMapFmr_eq_mapped mapped
  obtain ⟨before, pad, split, offset⟩ := sgPages_eq several aligned below
  have total := congrArg List.length split
  rw [length_pageBytes, length_append, length_append, length_sgBytes, offset] at total
  have bound : (sgPages (element :: rest)).length ≤ 257 := few
  have dataLength : descriptor.dataLength.toNat = sgLength (element :: rest) := by
    rw [length, toNat_totalLength]
    omega
  refine ⟨?_, dataLength⟩
  have within : before.length + sgLength (element :: rest) ≤
      (sgPages (element :: rest)).length * 4096 := by omega
  have reached := map_pageLookup (by decide : 0 < 4096) _ within
  rw [split, drop_left, take_left' (length_sgBytes _)] at reached
  rw [← reached, MemoryDescriptor.bytes, dataLength]
  apply map_congr_left
  intro index inside
  have small : index < sgLength (element :: rest) := mem_range.mp inside
  have address : (descriptor.virtualAddress + UInt64.ofNat index).toNat = before.length + index := by
    rw [UInt64.toNat_add, UInt64.toNat_ofNat', start, ← offset]
    omega
  simp only [region, if_true, address]
  rfl

/-- A first entry that wraps is not where the region has it. -/
theorem mapped_bytes_ne
    (wraps : 2 ^ 64 ≤ (list.headD ⟨0, 0⟩).physicalAddress.toNat + (list.headD ⟨0, 0⟩).length.toNat) :
    descriptor.bytes (region mr (.mapped descriptor pages)) ≠ (sgBytes list).map some := by
  obtain ⟨element, rest, rfl, -, -, rfl, few, start, -⟩ := tryMapFmr_eq_mapped mapped
  simp only [headD_cons] at wraps
  have top := element.physicalAddress.toNat_lt
  have small := element.length.toNat_lt
  -- the offset keeps the high half of the address, which no page of the region has
  have offset := toNat_and_not_fmrPageMask element.physicalAddress
  have beyond : pageLookup 4096 (sgPages (element :: rest)) descriptor.virtualAddress.toNat = none := by
    have bound : (sgPages (element :: rest)).length ≤ 257 := few
    rw [pageLookup_eq (by decide), getElem?_eq_none_iff, length_pageBytes, start, offset]
    omega
  intro equal
  have head : (sgBytes (element :: rest)).head? = some element.physicalAddress := by
    have some : 0 < element.length.toNat := by omega
    rw [sgBytes_cons, head?_append, head?_eq_getElem?, getElem?_bytesFrom some]
    simp
  have first := congrArg head? equal
  rw [head?_map, head, MemoryDescriptor.bytes, head?_map] at first
  cases range : (range descriptor.dataLength.toNat).head? with
  | none => simp [range] at first
  | some index =>
    have zero : index = 0 := by
      cases size : descriptor.dataLength.toNat <;> simp_all [range_succ_eq_map]
    subst zero
    rw [range] at first
    have size : fmrPageSize.toNat = 4096 := rfl
    simp [region, size, beyond] at first

end

/-- An entry of its own descriptor in the registration of physical memory. -/
theorem descriptor_bytes (element : SgElement) (mr : PhysMr) :
    (element.descriptor mr).bytes (region mr .refused) =
      (bytesFrom element.physicalAddress element.length.toNat).map some := by
  simp only [MemoryDescriptor.bytes, SgElement.descriptor, region, bytesFrom, map_map, if_true]
  apply map_congr_left
  intro index _
  simp only [Function.comp, Option.some.injEq]
  rw [UInt64.add_assoc, UInt64.add_comm, UInt64.add_sub_cancel]

/-- All entries by their own descriptors. -/
theorem descriptors_bytes (list : List SgElement) (mr : PhysMr) :
    (list.map (·.descriptor mr)).flatMap (·.bytes (region mr .refused)) = (sgBytes list).map some := by
  induction list with
  | nil => rfl
  | cons element rest ih =>
    rw [map_cons, flatMap_cons, ih, descriptor_bytes, sgBytes_cons, map_append]

theorem descriptors_length (list : List SgElement) (mr : PhysMr) :
    ((list.map (·.descriptor mr)).map (·.dataLength.toNat)).sum = sgLength list := by
  simp [sgLength, SgElement.descriptor, Function.comp_def]

/-! ### Commands -/

/-- The entries an indirect IU has room for, when it has room for the table descriptor. -/
theorem indirectRoom_eq (room : 68 ≤ size.toNat) :
    (((min srpMaxIuSize size).toUInt64 - 48 - 20) / 16).toUInt32.toNat =
      (min 4196 size.toNat - 68) / 16 := by
  have limit : srpMaxIuSize.toNat = 4196 := by decide
  have smaller : (min srpMaxIuSize size).toNat = min 4196 size.toNat := by
    rw [← limit]
    show (if srpMaxIuSize ≤ size then srpMaxIuSize else size).toNat = _
    split
    next le => rw [min_eq_left (le_iff_toNat_le.mp le)]
    next gt =>
      have less := lt_iff_toNat_lt.mp (not_le.mp gt)
      rw [min_eq_right (le_of_lt less)]
  have table : UInt64.toNat 20 = 20 := rfl
  have header : UInt64.toNat 48 = 48 := rfl
  have entry : UInt64.toNat 16 = 16 := rfl
  rw [UInt64.toNat_toUInt32, UInt64.toNat_div, UInt64.toNat_sub, UInt64.toNat_sub,
    toNat_toUInt64, smaller, table, header, entry]
  omega

/-- What a login response that is not rejected allows. -/
theorem srpCmReplyCb_eq_some {flags : UInt8} (accepted : srpCmReplyCb flags size = some connection) :
    (connection.format = dbdfIndirect ∧ (68 ≤ connection.initToTargIuSz.toNat →
        68 + 16 * connection.maxScatterGatherEntries.toNat ≤ connection.initToTargIuSz.toNat)) ∨
      (connection.format = dbdfDirect ∧ connection.maxScatterGatherEntries.toNat ≤ 1) := by
  unfold srpCmReplyCb supportedDataBufferFormats at accepted
  split at accepted
  · cases accepted
    refine .inr ⟨?_, ?_⟩
    · simp only [SrpConnection.format]
      decide
    · dsimp only
      split <;> decide
  -- the target takes indirect buffers, alone or with direct ones
  iterate 2 next =>
      cases accepted
      refine .inl ⟨?_, fun room => ?_⟩
      · simp only [SrpConnection.format]
        decide
      · rw [indirectRoom_eq room]
        omega
  · cases accepted

/-- The format fields, of which one is set. -/
theorem setFmt_fmts (srb : Srb) (valid : fmt = dbdfDirect ∨ fmt = dbdfIndirect) :
    ((setupSrpCommand srb).setDataOutFmt fmt).dataOutFmt = fmt ∧
      ((setupSrpCommand srb).setDataOutFmt fmt).dataInFmt = 0 ∧
      ((setupSrpCommand srb).setDataInFmt fmt).dataInFmt = fmt ∧
      ((setupSrpCommand srb).setDataInFmt fmt).dataOutFmt = 0 := by
  simp only [setupSrpCommand, SrpCmd.setDataOutFmt, SrpCmd.setDataInFmt, SrpCmd.dataOutFmt,
    SrpCmd.dataInFmt]
  rcases valid with rfl | rfl <;> decide

/-- The fields of a command with one buffer. -/
theorem setBuffer_fields (srb : Srb) (out : Bool) (count : UInt8)
    (table : Option MemoryTableDescriptor) (descriptors : List MemoryDescriptor)
    (valid : fmt = dbdfDirect ∨ fmt = dbdfIndirect) :
    let cmd := { (setupSrpCommand srb).setBuffer out fmt count with table, descriptors }
    cmd.fmt out = fmt ∧ cmd.fmt (!out) = 0 ∧ cmd.count out = count ∧ cmd.count (!out) = 0 ∧
      cmd.length = 48 + SrpCmd.bufferLength fmt count := by
  obtain ⟨outFmt, noIn, inFmt, noOut⟩ := setFmt_fmts srb valid
  have none : SrpCmd.bufferLength 0 0 = 0 := by decide
  have length {cmd : SrpCmd} (short : cmd.flags2 = 0) : cmd.length =
      48 + SrpCmd.bufferLength cmd.dataOutFmt cmd.dataOutBufferDescCount +
        SrpCmd.bufferLength cmd.dataInFmt cmd.dataInBufferDescCount := by
    simp [SrpCmd.length, SrpCmd.additionalCdbLength, short, srpCmdSize]
  cases out with
  | false =>
    refine ⟨inFmt, noOut, rfl, rfl, (length rfl).trans ?_⟩
    refine (congrArg₂ (48 + SrpCmd.bufferLength · 0 + SrpCmd.bufferLength · count) noOut inFmt).trans ?_
    rw [none]
  | true =>
    refine ⟨outFmt, noIn, rfl, rfl, (length rfl).trans ?_⟩
    refine (congrArg₂ (48 + SrpCmd.bufferLength · count + SrpCmd.bufferLength · 0) outFmt noIn).trans ?_
    rw [none, add_zero]

theorem setCount_setBuffer (cmd : SrpCmd) (out : Bool) (fmt before count : UInt8) :
    (cmd.setBuffer out fmt before).setCount out count = cmd.setBuffer out fmt count := by
  cases out <;> rfl

/-- The count variable, for a list within the advertised number of entries. -/
theorem toNat_scatterGatherCount
    (advertised : list.length ≤ connection.maxScatterGatherEntries.toNat) :
    (scatterGatherCount connection list).toNat = list.length % 256 := by
  have count : (UInt8.ofNat list.length).toNat = list.length % 256 := UInt8.toNat_ofNat'
  have capped : ¬ connection.maxScatterGatherEntries < (UInt8.ofNat list.length).toUInt32 := by
    rw [lt_iff_toNat_lt, UInt8.toNat_toUInt32, count]
    omega
  rw [scatterGatherCount, if_neg capped, count]

/-- A command with one descriptor for all entries. -/
theorem mapped_describes_iff (indirect : connection.format = dbdfIndirect)
    (mapped : tryMapFmr service list = .mapped descriptor pages)
    (room : 68 ≤ connection.initToTargIuSz.toNat → 84 ≤ connection.initToTargIuSz.toNat) (srb : Srb)
    (out : Bool) (table : MemoryDescriptor) :
    Describes connection mr (.mapped descriptor pages) list out
        { (setupSrpCommand srb).setBuffer out connection.format 1 with
          table := some ⟨{ table with dataLength := 16 }, descriptor.dataLength⟩,
          descriptors := [descriptor] } ↔
      68 ≤ connection.initToTargIuSz.toNat ∧
        (list.headD ⟨0, 0⟩).physicalAddress.toNat + (list.headD ⟨0, 0⟩).length.toNat < 2 ^ 64 := by
  obtain ⟨fmt, otherFmt, count, otherCount, length⟩ := setBuffer_fields srb out 1
    (some ⟨{ table with dataLength := 16 }, descriptor.dataLength⟩) [descriptor] (.inr indirect)
  have size : SrpCmd.bufferLength connection.format 1 = 36 := by
    rw [indirect]
    decide
  rw [size] at length
  constructor
  · intro describes
    have fits := describes.fits
    have bytes := describes.bytes
    rw [length] at fits
    refine ⟨by omega, ?_⟩
    by_contra wraps
    apply mapped_bytes_ne mapped (not_lt.mp wraps)
    simpa using bytes
  · rintro ⟨small, below⟩
    obtain ⟨bytes, dataLength⟩ := mapped_bytes mapped below
    exact {
      format := ⟨fmt, otherFmt, otherCount⟩
      count := by rw [count]; rfl
      bytes := by simpa using bytes
      lengths := by simpa using dataLength
      table := ⟨indirect, rfl, dataLength⟩
      posted := by rw [length]; rfl
      fits := by rw [length]; exact room small }

/-- A command with a table of one descriptor for each entry. -/
theorem entries_describe_iff (indirect : connection.format = dbdfIndirect)
    (room : 68 ≤ connection.initToTargIuSz.toNat →
      68 + 16 * list.length ≤ connection.initToTargIuSz.toNat) {count : UInt8}
    (counted : count.toNat = list.length % 256) (srb : Srb) (out : Bool) (table : MemoryDescriptor)
    :
    Describes connection mr .refused list out
        { (setupSrpCommand srb).setBuffer out connection.format count with
          table := some ⟨{ table with dataLength := 16 * ofNat list.length },
            totalLength (list.take count.toNat)⟩,
          descriptors := (list.take count.toNat).map (·.descriptor mr) } ↔
      68 ≤ connection.initToTargIuSz.toNat ∧ list.length < 256 ∧ sgLength list < 2 ^ 32 := by
  obtain ⟨fmt, otherFmt, countField, otherCount, length⟩ := setBuffer_fields srb out count
    (some ⟨{ table with dataLength := 16 * ofNat list.length }, totalLength (list.take count.toNat)⟩)
    ((list.take count.toNat).map (·.descriptor mr)) (.inr indirect)
  rw [show SrpCmd.bufferLength connection.format count = 20 + count.toNat * 16 by
    rw [indirect, SrpCmd.bufferLength, if_neg (by decide), if_pos rfl]; rfl] at length
  have written : ((list.take count.toNat).map (·.descriptor mr)).length = count.toNat := by
    rw [length_map, length_take]
    omega
  have tableLength : (16 * ofNat list.length : UInt32).toNat = 16 * list.length % 2 ^ 32 := by
    rw [toNat_mul, toNat_ofNat']
    have entry : toNat 16 = 16 := rfl
    rw [entry]
    omega
  have all (short : list.length < 256) : list.take count.toNat = list := by
    rw [take_of_length_le]
    omega
  constructor
  · intro describes
    have fits := describes.fits
    obtain ⟨-, sized, total⟩ := describes.table
    simp only [written, tableLength, memoryDescriptorSize] at sized
    rw [length] at fits
    have enough : 68 ≤ connection.initToTargIuSz.toNat := by omega
    have short : list.length < 256 := by
      have := room enough
      have := connection.initToTargIuSz.toNat_lt
      omega
    simp only [all short, toNat_totalLength] at total
    refine ⟨enough, short, ?_⟩
    omega
  · rintro ⟨enough, short, total⟩
    have same : count.toNat = list.length := by omega
    have all := all short
    exact {
      format := ⟨fmt, otherFmt, otherCount⟩
      count := by rw [countField, written]
      bytes := by
        simp only [all]
        exact descriptors_bytes list mr
      lengths := by
        simp only [all]
        exact descriptors_length list mr
      table := by
        simp only [all, tableLength, toNat_totalLength, length_map, memoryDescriptorSize]
        refine ⟨indirect, ?_, mod_eq_of_lt total⟩
        omega
      posted := by
        rw [length, SrpCmd.written, written]
        exact (add_assoc ..).symm
      fits := by
        rw [length]
        have := room enough
        omega }

/-- A command with the descriptor of its only entry. -/
theorem entry_describes_iff (direct : connection.format = dbdfDirect) (srb : Srb) (out : Bool) :
    Describes connection mr .refused [element] out
        { (setupSrpCommand srb).setBuffer out connection.format 1 with
          table := none, descriptors := [element.descriptor mr] } ↔
      64 ≤ connection.initToTargIuSz.toNat := by
  obtain ⟨fmt, otherFmt, count, otherCount, length⟩ := setBuffer_fields srb out 1 none
    [element.descriptor mr] (.inl direct)
  rw [show SrpCmd.bufferLength connection.format 1 = 16 by rw [direct]; decide] at length
  constructor
  · intro describes
    have fits := describes.fits
    rwa [length] at fits
  · intro room
    exact {
      format := ⟨fmt, otherFmt, otherCount⟩
      count := by rw [count]; rfl
      bytes := descriptors_bytes [element] mr
      lengths := descriptors_length [element] mr
      table := by
        simp only [direct]
        decide
      posted := by rw [length]; rfl
      fits := by rw [length]; exact room }

/-- The descriptors that a direction gets. -/
theorem fillBuffer_describes_iff {flags : UInt8}
    (accepted : srpCmReplyCb flags size = some connection) (nonempty : 1 ≤ list.length)
    (advertised : list.length ≤ connection.maxScatterGatherEntries.toNat) (mr : PhysMr)
    (tableAddress : UInt64) (service : FmrService) (srb : Srb) (out : Bool) :
    (∃ cmd, fillBuffer (setupSrpCommand srb) out connection mr tableAddress service list =
        some cmd ∧ Describes connection mr (tryMapFmr service list) list out cmd) ↔
      Describable connection service list := by
  have counted := toNat_scatterGatherCount advertised
  unfold fillBuffer Describable
  simp only
  rcases srpCmReplyCb_eq_some accepted with ⟨indirect, room⟩ | ⟨direct, one⟩
  · simp only [if_pos indirect]
    cases tried : tryMapFmr service list with
    | stuck => simp [MapFmr.Suits]
    | mapped descriptor pages =>
      obtain ⟨element, rest, rfl, several, -⟩ := tryMapFmr_eq_mapped tried
      have more := length_pos_of_ne_nil several
      have larger : 68 ≤ connection.initToTargIuSz.toNat → 84 ≤ connection.initToTargIuSz.toNat := by
        intro enough
        have := room enough
        simp only [length_cons] at advertised
        omega
      simp only [Option.some.injEq, exists_eq_left', setCount_setBuffer]
      exact mapped_describes_iff indirect tried larger srb out ⟨tableAddress, mr.rkey, 16⟩
    | refused =>
      have larger : 68 ≤ connection.initToTargIuSz.toNat →
          68 + 16 * list.length ≤ connection.initToTargIuSz.toNat := by
        intro enough
        have := room enough
        omega
      simp only [Option.some.injEq, exists_eq_left']
      exact entries_describe_iff indirect larger counted srb out ⟨tableAddress, mr.rkey, 0⟩
  · -- a direct buffer has room for one entry, for which no region is tried
    have single : list.length = 1 := by omega
    obtain ⟨element, rfl⟩ := length_eq_one_iff.mp single
    have notIndirect : connection.format ≠ dbdfIndirect := by
      rw [direct]
      decide
    have count : scatterGatherCount connection [element] = 1 := by
      rw [← UInt8.toNat_inj, counted]
      rfl
    have tried : tryMapFmr service [element] = .refused := rfl
    simp only [if_neg notIndirect, tried, Option.some.injEq, exists_eq_left', count]
    exact entry_describes_iff direct srb out

/-- A command is built and describes the data of its request exactly if the widths of the
code suffice for the list. -/
theorem buildsRight_iff {flags : UInt8} {size : UInt32} {connection : SrpConnection}
    (accepted : srpCmReplyCb flags size = some connection) {srb : Srb}
    (nonempty : 1 ≤ srb.scatterGatherList.length)
    (advertised : srb.scatterGatherList.length ≤ connection.maxScatterGatherEntries.toNat)
    (mr : PhysMr) (tableAddress : UInt64) (service : FmrService) :
    BuildsRight srb connection mr tableAddress service ↔
      srb.scsiDirection.out.isSome ∧ Describable connection service srb.scatterGatherList := by
  have filled := fillBuffer_describes_iff accepted nonempty advertised mr tableAddress service srb
  unfold BuildsRight srpBuildCmd
  cases srb.scsiDirection with
  | none => simp [ScsiDirection.out]
  | unspecified => simp [ScsiDirection.out]
  | dataIn => simpa [ScsiDirection.out] using filled false
  | dataOut => simpa [ScsiDirection.out] using filled true

/-- A connection with indirect buffers and the largest IU. -/
def sampleConnection : SrpConnection := ⟨3, 4196, 258⟩

/-- Without a pool of fast memory regions. -/
def noFmr : FmrService := ⟨false, true, none⟩

def sampleSrb (list : List SgElement) : Srb := ⟨.dataIn, 1, 0, [0x28], list⟩

/-- A read of two pieces, one of which starts within a page, mapped by one region. -/
theorem sampleSrb_right :
    BuildsRight (sampleSrb [⟨0x1200, 0xE00⟩, ⟨0x5000, 0x300⟩]) sampleConnection ⟨0, 7⟩ 0x9000
      ⟨true, true, some 9⟩ := by
  have accepted : srpCmReplyCb 0x06 4196 = some sampleConnection := by decide
  rw [buildsRight_iff accepted (by decide) (by decide)]
  exact ⟨rfl, by decide +kernel⟩

/-- More entries than an 8-bit count has values. -/
theorem sampleSrb_wrong (long : 256 ≤ list.length) (advertised : list.length ≤ 258) :
    ¬ BuildsRight (sampleSrb list) sampleConnection ⟨0, 7⟩ 0x9000 noFmr := by
  have accepted : srpCmReplyCb 0x06 4196 = some sampleConnection := by decide
  rintro ⟨out, cmd, direction, built, describes⟩
  cases direction
  have describable := (fillBuffer_describes_iff accepted (le_trans (by decide) long) advertised
    ⟨0, 7⟩ 0x9000 noFmr (sampleSrb list) false).mp ⟨cmd, built, describes⟩
  have refused : tryMapFmr noFmr list = .refused := by
    simp [tryMapFmr, srpMapFmr, noFmr]
  rw [Describable, if_pos (by decide), refused] at describable
  exact not_lt.mpr long describable.2.1

/-- A read of 256 pieces, which the connection allows: the 8-bit count is 0, no descriptor is
written, and the table claims 256. -/
theorem fullSrb_empty : srpCmReplyCb 0x06 4196 = some sampleConnection ∧
    256 ≤ sampleConnection.maxScatterGatherEntries.toNat ∧
      ¬ BuildsRight (sampleSrb (List.replicate 256 ⟨0x1000, 512⟩)) sampleConnection ⟨0, 7⟩ 0x9000
        noFmr := by
  refine ⟨by decide, by decide, ?_⟩
  apply sampleSrb_wrong
  · rw [length_replicate]
  · rw [length_replicate]
    decide

end WinOFED.Srp
