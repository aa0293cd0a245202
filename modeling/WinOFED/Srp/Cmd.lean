import WinOFED.Memory.Pages

/-! The SRP_CMD that the SCSI RDMA initiator builds for a request block.

A request names its data by a scatter/gather list. The command describes it to the target
by memory descriptors: one for each entry of the list, or a single one for a fast memory
region that maps the pages of all entries. Descriptor fields are the values the target
reads, so the swaps to network order are not written out. -/
namespace WinOFED.Srp

/-- `STOR_SCATTER_GATHER_ELEMENT`. -/
structure SgElement where
  physicalAddress : UInt64
  length : UInt32
deriving DecidableEq, Repr

/-- `srp_memory_descriptor_t`. -/
structure MemoryDescriptor where
  virtualAddress : UInt64
  memoryHandle : UInt32
  dataLength : UInt32
deriving DecidableEq, Repr

/-- `srp_memory_table_descriptor_t`. -/
structure MemoryTableDescriptor where
  descriptor : MemoryDescriptor
  totalLength : UInt32
deriving DecidableEq, Repr

/-- `srp_cmd_t`, and the descriptors that are written behind its CDB. -/
structure SrpCmd where
  dataOutInBufferDescFmt : UInt8
  dataOutBufferDescCount : UInt8
  dataInBufferDescCount : UInt8
  tag : UInt64
  logicalUnitNumber : UInt64
  flags1 : UInt8
  flags2 : UInt8
  cdb : List UInt8
  table : Option MemoryTableDescriptor
  descriptors : List MemoryDescriptor
deriving DecidableEq, Repr

/-- `DBDF_DIRECT_DATA_BUFFER_DESCRIPTOR`. -/
def dbdfDirect : UInt8 := 1

/-- `DBDF_INDIRECT_DATA_BUFFER_DESCRIPTORS`. -/
def dbdfIndirect : UInt8 := 2

/-- `sizeof(srp_memory_descriptor_t)`. -/
def memoryDescriptorSize : Nat := 16

/-- `sizeof(srp_memory_table_descriptor_t)`. -/
def memoryTableDescriptorSize : Nat := 20

/-- `offsetof(srp_cmd_t, additional_cdb)`. -/
def srpCmdSize : Nat := 48

/-- `SRP_MAX_SG_IN_INDIRECT_DATA_BUFFER`. -/
def srpMaxSgInIndirectDataBuffer : Nat := 257

/-- `SRP_MAX_IU_SIZE`. -/
def srpMaxIuSize : UInt32 := 64 + 20 + 16 * 257

/-- `get_srp_login_response_supported_data_buffer_formats`. -/
def supportedDataBufferFormats (flags : UInt8) : UInt8 :=
  match flags &&& 0x06 with
  | 0x02 => dbdfDirect
  | 0x04 => dbdfIndirect
  | 0x06 => dbdfDirect ||| dbdfIndirect
  | _ => 0

/-- What a login response leaves in the connection for building commands. -/
structure SrpConnection where
  descriptorFormat : UInt8
  initToTargIuSz : UInt32
  maxScatterGatherEntries : UInt32
deriving DecidableEq, Repr

/-- `__srp_cm_reply_cb` on the format flags and the IU size of a login response. Without a
valid format the connection is rejected. Sizes are `size_t`, so the differences are
64-bit ones. -/
def srpCmReplyCb (flags : UInt8) (initToTargIuSz : UInt32) : Option SrpConnection :=
  let descriptorFormat := supportedDataBufferFormats flags
  if descriptorFormat &&& dbdfIndirect = dbdfIndirect then
    let room := (min srpMaxIuSize initToTargIuSz).toUInt64 - 48 - 20
    some ⟨descriptorFormat, initToTargIuSz, (room / 16).toUInt32⟩
  else if descriptorFormat &&& dbdfDirect = dbdfDirect then
    let room := initToTargIuSz.toUInt64 - 48
    some ⟨descriptorFormat, initToTargIuSz, if room / 16 ≠ 0 then 1 else 0⟩
  else none

/-- The data transfer flags of a request block. -/
inductive ScsiDirection
  | none | dataIn | dataOut
  /-- Both flags. -/
  | unspecified
deriving DecidableEq, Repr

/-- What `__srp_build_cmd` reads of a request block. -/
structure Srb where
  scsiDirection : ScsiDirection
  tag : UInt64
  lun : UInt8
  cdb : List UInt8
  scatterGatherList : List SgElement

/-- The registration of all physical memory: where it starts and its key. -/
structure PhysMr where
  vaddr : UInt64
  rkey : UInt32
deriving DecidableEq, Repr

/-- What `__srp_map_fmr` depends on besides the list: whether there is a pool and a
session, whether there is memory for the page list, and the pool's key for a list it can
map. -/
structure FmrService where
  available : Bool
  allocated : Bool
  rkey : Option UInt32
deriving DecidableEq, Repr

/-- `fmr_page_size` and `PAGE_SIZE`. -/
def fmrPageSize : UInt32 := 4096

/-- `fmr_page_mask`. The complement is taken of a 32-bit size and then widened. -/
def fmrPageMask : UInt64 := (~~~(fmrPageSize - 1)).toUInt64

/-- The first loop of `__srp_map_fmr`: only the list as a whole may start or end within a
page. -/
def pageAligned (isFirst : Bool) : List SgElement → Bool
  | [] => true
  | element :: rest =>
    (element.physicalAddress &&& ~~~fmrPageMask == 0 || isFirst) &&
      ((element.physicalAddress + element.length.toUInt64) &&& ~~~fmrPageMask == 0 ||
        rest.isEmpty) &&
      pageAligned false rest

/-- `total_len`. -/
def totalLength (list : List SgElement) : UInt32 :=
  list.foldl (fun total element => total + element.length) 0

/-- The inner loop that lists the pages of an entry. `j` is a 32-bit counter: for an entry
longer than the last page start it wraps and the loop does not end. -/
def pageLoop (base : UInt64) (dmaLen : UInt32) : Nat → UInt32 → Option (List UInt64)
  | 0, _ => none
  | fuel + 1, j =>
    if j < dmaLen then
      (pageLoop base dmaLen fuel (j + fmrPageSize)).map ((base + j.toUInt64) :: ·)
    else some []

/-- There are `2 ^ 20` page starts in 32 bits; a loop that has not ended after them never
does. -/
def pagesOf (element : SgElement) : Option (List UInt64) :=
  pageLoop (element.physicalAddress &&& fmrPageMask) element.length (2 ^ 20 + 1) 0

/-- `p_addr_list`. -/
def addrList : List SgElement → Option (List UInt64)
  | [] => some []
  | element :: rest => do
    let pages ← pagesOf element
    let others ← addrList rest
    some (pages ++ others)

/-- How `__srp_map_fmr` ends, if it does. -/
inductive MapFmr
  | refused
  | stuck
  | mapped (descriptor : MemoryDescriptor) (pages : List UInt64)
deriving DecidableEq, Repr

/-- `__srp_map_fmr`. The pool takes lists of 1 to `max_pages_per_fmr` pages. -/
def srpMapFmr (service : FmrService) (list : List SgElement) : MapFmr :=
  if service.available && pageAligned true list && service.allocated then
    match addrList list, service.rkey with
    | none, _ => .stuck
    | some _, none => .refused
    | some pages, some rkey =>
      if pages.length < 1 ∨ pages.length > srpMaxSgInIndirectDataBuffer then .refused
      else
        let start := (list.headD ⟨0, 0⟩).physicalAddress
        .mapped ⟨start &&& ~~~fmrPageMask, rkey, totalLength list⟩ pages
  else .refused

/-- A region is only tried for more than one entry. -/
def tryMapFmr (service : FmrService) (list : List SgElement) : MapFmr :=
  if list.length > 1 then srpMapFmr service list else .refused

namespace SrpCmd

variable (cmd : SrpCmd)

/-- `get_srp_command_data_out_buffer_desc_fmt`. -/
def dataOutFmt : UInt8 := cmd.dataOutInBufferDescFmt >>> 4

/-- `get_srp_command_data_in_buffer_desc_fmt`. -/
def dataInFmt : UInt8 := cmd.dataOutInBufferDescFmt &&& 0x0F

/-- `set_srp_command_data_out_buffer_desc_fmt`. -/
def setDataOutFmt (fmt : UInt8) : SrpCmd :=
  { cmd with dataOutInBufferDescFmt := (cmd.dataOutInBufferDescFmt &&& (0x0F : UInt8)) ||| (fmt <<< 4) }

/-- `set_srp_command_data_in_buffer_desc_fmt`. -/
def setDataInFmt (fmt : UInt8) : SrpCmd :=
  { cmd with dataOutInBufferDescFmt := (cmd.dataOutInBufferDescFmt &&& (0xF0 : UInt8)) ||| fmt }

/-- `get_srp_command_additional_cdb_length`, in words. -/
def additionalCdbLength : UInt8 := (cmd.flags2 &&& (0xFC : UInt8)) >>> 2

/-- What the descriptors of one direction add to the length of a command. -/
def bufferLength (fmt count : UInt8) : Nat :=
  if fmt = dbdfDirect then
    if count = 0 then memoryDescriptorSize else count.toNat * memoryDescriptorSize
  else if fmt = dbdfIndirect then
    memoryTableDescriptorSize + count.toNat * memoryDescriptorSize
  else 0

/-- `get_srp_command_length`. -/
def length : Nat :=
  srpCmdSize + cmd.additionalCdbLength.toNat * 4 +
    bufferLength cmd.dataOutFmt cmd.dataOutBufferDescCount +
    bufferLength cmd.dataInFmt cmd.dataInBufferDescCount

/-- The bytes of the command that were written. -/
def written : Nat :=
  srpCmdSize + (if cmd.table.isSome then memoryTableDescriptorSize else 0) +
    cmd.descriptors.length * memoryDescriptorSize

/-- The count and format setters of a direction together. -/
def setBuffer (out : Bool) (fmt count : UInt8) : SrpCmd :=
  if out then { cmd.setDataOutFmt fmt with dataOutBufferDescCount := count }
  else { cmd.setDataInFmt fmt with dataInBufferDescCount := count }

def setCount (out : Bool) (count : UInt8) : SrpCmd :=
  if out then { cmd with dataOutBufferDescCount := count }
  else { cmd with dataInBufferDescCount := count }

end SrpCmd

/-- `setup_srp_command` as `__srp_build_cmd` calls it, with the CDB copied in. The LUN is
what the swap at the end leaves on the wire. -/
def setupSrpCommand (srb : Srb) : SrpCmd where
  dataOutInBufferDescFmt := 0
  dataOutBufferDescCount := 0
  dataInBufferDescCount := 0
  tag := srb.tag
  logicalUnitNumber := srb.lun.toUInt64 <<< 48
  flags1 := 0
  flags2 := 0
  cdb := srb.cdb
  table := none
  descriptors := []

/-- The format `__srp_build_cmd` uses on a connection. -/
def SrpConnection.format (connection : SrpConnection) : UInt8 :=
  if connection.descriptorFormat &&& dbdfIndirect = 0 then dbdfDirect
  else connection.descriptorFormat &&& dbdfIndirect

/-- `scatter_gather_count`, an 8-bit variable, capped to what the IU has room for. -/
def scatterGatherCount (connection : SrpConnection) (list : List SgElement) : UInt8 :=
  let count := UInt8.ofNat list.length
  if connection.maxScatterGatherEntries < count.toUInt32 then
    connection.maxScatterGatherEntries.toUInt8
  else count

/-- The descriptor of an entry in the registration of physical memory. -/
def SgElement.descriptor (element : SgElement) (mr : PhysMr) : MemoryDescriptor :=
  ⟨mr.vaddr + element.physicalAddress, mr.rkey, element.length⟩

/-- The descriptor part of `__srp_build_cmd` for a direction. `tableAddress` is where the
descriptor table is in physical memory. -/
def fillBuffer (cmd : SrpCmd) (out : Bool) (connection : SrpConnection) (mr : PhysMr)
    (tableAddress : UInt64) (service : FmrService) (list : List SgElement) : Option SrpCmd :=
  let count := scatterGatherCount connection list
  let cmd := cmd.setBuffer out connection.format count
  let entries := list.take count.toNat
  let table (length totalLength : UInt32) : Option MemoryTableDescriptor :=
    if connection.format = dbdfIndirect then some ⟨⟨tableAddress, mr.rkey, length⟩, totalLength⟩
    else none
  match tryMapFmr service list with
  | .stuck => none
  | .mapped descriptor _ =>
    some { cmd.setCount out 1 with
      table := table 16 descriptor.dataLength, descriptors := [descriptor] }
  | .refused =>
    some { cmd with
      table := table (16 * UInt32.ofNat list.length) (totalLength entries),
      descriptors := entries.map (·.descriptor mr) }

/-- `__srp_build_cmd`. A request with both data flags gets no descriptors. -/
def srpBuildCmd (srb : Srb) (connection : SrpConnection) (mr : PhysMr) (tableAddress : UInt64)
    (service : FmrService) : Option SrpCmd :=
  let cmd := setupSrpCommand srb
  match srb.scsiDirection with
  | .none | .unspecified => some cmd
  | .dataIn => fillBuffer cmd false connection mr tableAddress service srb.scatterGatherList
  | .dataOut => fillBuffer cmd true connection mr tableAddress service srb.scatterGatherList

end WinOFED.Srp
