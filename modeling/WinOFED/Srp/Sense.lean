import WinOFED.Wire.Net

/-! What the handler of a response takes from the data segment for the SRB of a command: residual
counts, and the sense data that follow the response data. -/
namespace WinOFED.Srp
open Wire

/-- A receive data segment, with the memory from its start on as the adapter left it. -/
structure RecvSegment where
  recvDataSegmentSize : Nat
  memory : Nat → Byte

namespace RecvSegment
variable (rsp : RecvSegment)

/-- A word of the `srp_rsp_t` in the segment, which comes in network order. -/
def word (offset : Nat) : BitVec 32 :=
  ntoh32 ⟨rsp.memory offset, rsp.memory (offset + 1), rsp.memory (offset + 2),
    rsp.memory (offset + 3)⟩

def flags : Byte := rsp.memory 18

def status : Byte := rsp.memory 19

def dataOutResidualCount : BitVec 32 := rsp.word 20

def dataInResidualCount : BitVec 32 := rsp.word 24

def senseDataListLength : BitVec 32 := rsp.word 28

def responseDataListLength : BitVec 32 := rsp.word 32

def diUnder : Bool := rsp.flags &&& 0x20 ≠ 0

def doUnder : Bool := rsp.flags &&& 0x08 ≠ 0

def snsValid : Bool := rsp.flags &&& 0x02 ≠ 0

def rspValid : Bool := rsp.flags &&& 0x01 ≠ 0

/-- `get_srp_response_sense_data`, as an offset in the segment. -/
def senseData : Nat := 36 + if rsp.rspValid then rsp.responseDataListLength.toNat else 0

/-- The bytes of `p_sense_data` that are looked at: the sense key, then the additional code and
its qualifier as long as they are those of a lost link. A trace message shows all three. -/
def inspected (traced : Bool) : List Nat :=
  if traced then [2, 12, 13]
  else if rsp.memory (rsp.senseData + 2) &&& 0xF ≠ 0x0B then [2]
  else if rsp.memory (rsp.senseData + 12) ≠ 0x08 then [2, 12]
  else [2, 12, 13]

/-- What underruns take off the length of a transfer, as 32 bits hold it. -/
def residual : BitVec 32 :=
  (if rsp.diUnder then rsp.dataInResidualCount else 0) +
    if rsp.doUnder then rsp.dataOutResidualCount else 0

theorem inspected_lt_iff (traced : Bool) (size : Nat) :
    (∀ index ∈ rsp.inspected traced, index < size) ↔ (rsp.inspected traced).getLastD 0 < size := by
  unfold inspected
  split_ifs <;> simp <;> omega

end RecvSegment

/-- What the handler uses of an SRB. -/
structure RecvSrb where
  dataTransferLength : BitVec 32
  senseInfoBufferLength : Byte

/-- The length that is reported for an SRB, how much of `p_sense_data` is copied into its sense
buffer, and the bytes that are looked at. -/
structure CmdDone where
  dataTransferLength : BitVec 32
  copied : Nat
  inspected : List Nat

/-- `SCSISTAT_CHECK_CONDITION`. -/
def scsistatCheckCondition : Byte := 0x02

/-- `__srp_process_recv_completion` for an `SRP_CMD`, from its test of the flags on. -/
def processCmd (rsp : RecvSegment) (srb : RecvSrb) (traced : Bool) : CmdDone :=
  let length := srb.dataTransferLength
  if rsp.flags ≠ 0 then
    let length := if rsp.status ≠ scsistatCheckCondition ∧ rsp.diUnder then
      length - rsp.dataInResidualCount else length
    let length := if rsp.status ≠ scsistatCheckCondition ∧ rsp.doUnder then
      length - rsp.dataOutResidualCount else length
    if rsp.snsValid then
      ⟨length, min rsp.senseDataListLength.toNat srb.senseInfoBufferLength.toNat,
        rsp.inspected traced⟩
    else ⟨length, 0, []⟩
  else ⟨length, 0, []⟩

/-- Sense data are read in the segment and written in the sense buffer, and no more is reported
than was to be transferred. -/
structure CmdDone.Bounded (done : CmdDone) (rsp : RecvSegment) (srb : RecvSrb) : Prop where
  read : ∀ index, index < done.copied ∨ index ∈ done.inspected →
    rsp.senseData + index < rsp.recvDataSegmentSize
  written : done.copied ≤ srb.senseInfoBufferLength.toNat
  transferred : done.dataTransferLength ≤ srb.dataTransferLength

variable (rsp : RecvSegment) (srb : RecvSrb) (traced : Bool)

theorem processCmd_eq : processCmd rsp srb traced =
    { dataTransferLength := srb.dataTransferLength -
        if rsp.status ≠ scsistatCheckCondition then rsp.residual else 0
      copied := if rsp.snsValid then
        min rsp.senseDataListLength.toNat srb.senseInfoBufferLength.toNat else 0
      inspected := if rsp.snsValid then rsp.inspected traced else [] } := by
  unfold processCmd RecvSegment.residual
  by_cases none : rsp.flags = 0
  · simp [none, RecvSegment.diUnder, RecvSegment.doUnder, RecvSegment.snsValid]
  · rw [if_pos none]
    by_cases status : rsp.status = scsistatCheckCondition
    · cases rsp.snsValid <;> simp [status]
    · cases rsp.snsValid <;> cases rsp.diUnder <;> cases rsp.doUnder <;> simp [status, sub_sub]

/-- The handler keeps to its bounds just when the sense data that it copies and looks at are in
the segment, and the residual counts do not exceed the length of the transfer. -/
theorem processCmd_bounded_iff : (processCmd rsp srb traced).Bounded rsp srb ↔
    (rsp.snsValid = true → rsp.senseData + max ((rsp.inspected traced).getLastD 0 + 1)
      (min rsp.senseDataListLength.toNat srb.senseInfoBufferLength.toNat) ≤
        rsp.recvDataSegmentSize) ∧
    (rsp.status ≠ scsistatCheckCondition → rsp.residual ≤ srb.dataTransferLength) := by
  have within := rsp.inspected_lt_iff traced (rsp.recvDataSegmentSize - rsp.senseData)
  have length (resid : BitVec 32) :
      srb.dataTransferLength - resid ≤ srb.dataTransferLength ↔ resid ≤ srb.dataTransferLength := by
    bv_omega
  rw [processCmd_eq]
  constructor
  · rintro ⟨read, -, transferred⟩
    constructor
    · intro valid
      simp only [valid, if_true] at read
      have looked := within.mp fun index mem => Nat.lt_sub_iff_add_lt'.mpr (read index (.inr mem))
      have copied := read (min rsp.senseDataListLength.toNat srb.senseInfoBufferLength.toNat - 1)
      omega
    · intro status
      rwa [if_pos status, length] at transferred
  · rintro ⟨sense, residual⟩
    constructor
    · intro index used
      cases valid : rsp.snsValid with
      | false => simp [valid] at used
      | true =>
        simp only [valid, if_true] at used
        have room := sense valid
        rcases used with copied | mem
        · omega
        · have looked := within.mpr (by omega) index mem
          omega
    · dsimp only
      split <;> omega
    · rw [length]
      split
      case isTrue status => exact residual status
      case isFalse => exact Nat.zero_le _

/-- A response that underran, with more response data than there is room for in any segment. -/
def underrunRsp : RecvSegment where
  recvDataSegmentSize := 64
  memory offset := if offset = 18 then 0x23 else if 24 ≤ offset ∧ offset < 36 then 0xFF else 0

/-- The sense data are taken from beyond the segment, and a byte more is reported than asked. -/
theorem underrunRsp_unbounded :
    (processCmd underrunRsp ⟨512, 18⟩ false).copied = 18 ∧
      underrunRsp.recvDataSegmentSize < underrunRsp.senseData ∧
      (processCmd underrunRsp ⟨512, 18⟩ false).dataTransferLength = 513 := by
  decide +kernel

end WinOFED.Srp
