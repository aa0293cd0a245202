import WinOFED.Mad.Element
import WinOFED.Memory.Buffer

/-! The sending half of RMPP: how a MAD buffer is cut into segments.

Sizes and segment numbers are 32-bit as in `al_mad_send_t`; where the code mixes
them with `IB_SA_MAD_HDR_SIZE`, a `size_t`, the arithmetic is 64-bit. -/
namespace WinOFED.Mad
open RmppMad

/-- `MAX_TIME`: the retry time of a send whose work request is posted. -/
def maxTime : UInt64 := 0xFFFFFFFFFFFFFFFF

/-- `DEFAULT_RMPP_VERSION`. -/
def defaultRmppVersion : UInt8 := 1

/-- `AL_REASSEMBLY_TIMEOUT`, in milliseconds. -/
def alReassemblyTimeout : UInt32 := 5000

/-- `AL_RMPP_RETRIES`. -/
def alRmppRetries : UInt32 := 5

/-- An outstanding send request, `al_mad_send_t`. The address vector and the work
request carry nothing that the modelled functions read back. -/
structure SendHandle where
  pSendMad : MadElement
  pRespMad : Option MadElement
  retryTime : UInt64
  delay : UInt32
  retryCnt : UInt32
  canceled : Bool
  usesRmpp : Bool
  ackSeg : UInt32
  curSeg : UInt32
  segLimit : UInt32
  totalSeg : UInt32
deriving DecidableEq, Repr

/-- `get_mad_send` for the given element. The segment fields of the recycled tracking
structure are not cleared. -/
def getMadSend (recycled : SendHandle) (element : MadElement) : SendHandle :=
  { recycled with pSendMad := element, pRespMad := none, retryTime := 0, delay := 0, retryCnt := 0,
                  canceled := false }

/-- `__is_internal_send`: RMPP control MADs that the access layer issues itself. -/
def isInternalSend (svcType : MadSvcType) (element : MadElement) : Bool :=
  let mad := element.buf
  match svcType with
  | .default =>
      (mad.isSa || classIsVendorSpecificHigh mad.commonHdr.mgmtClass) &&
        (mad.rmppType != 0 && mad.rmppType != ibRmppTypeData)
  | .rmpp => mad.rmppType != 0 && mad.rmppType != ibRmppTypeData
  | .raw => false

/-- `__does_send_req_rmpp`: the RMPP version to send with, if RMPP is used at all. -/
def doesSendReqRmpp (svcType : MadSvcType) (element : MadElement) : Option UInt8 :=
  match svcType with
  | .default | .rmpp =>
      if isInternalSend svcType element then none
      else if element.rmppVersion != 0 then some element.rmppVersion
      else if element.buf.isSa then
        if element.buf.commonHdr.method == ibMadMethodGettableResp ||
            element.buf.commonHdr.method == ibMadMethodGetmulti ||
            element.buf.commonHdr.method == ibMadMethodGetmultiResp then
          some defaultRmppVersion
        else none
      else if classIsVendorSpecificHigh element.buf.commonHdr.mgmtClass &&
          element.buf.isFlagSet ibRmppFlagActive then
        some defaultRmppVersion
      else none
  | .raw => none

/-- The quotient `__init_send_mad` takes of an element's payload and its class's
segment size. -/
def segmentQuotient (element : MadElement) : UInt32 :=
  if element.buf.isSa then
    (((element.size.toUInt64 - ibSaMadHdrSize.toUInt64) + (ibSaDataSize.toUInt64 - 1)) /
      ibSaDataSize.toUInt64).toUInt32
  else
    ((element.size - madRmppHdrSize.toUInt32) + (madRmppDataSize.toUInt32 - 1)) /
      madRmppDataSize.toUInt32

/-- The number of segments `__init_send_mad` plans: one even when there is no data. -/
def countSegments (element : MadElement) : UInt32 :=
  if segmentQuotient element != 0 then segmentQuotient element else 1

/-- `__init_send_mad`. `avStatus` is the result of `__create_send_av`, success
when the element brings its own address vector. -/
def initSendMad (svcType : MadSvcType) (handle : SendHandle) (avStatus : IbStatus) :
    Except IbStatus SendHandle :=
  let element := handle.pSendMad
  let handle := { handle with retryTime := maxTime, retryCnt := element.retryCnt }
  let finish (handle : SendHandle) : Except IbStatus SendHandle :=
    if avStatus = .success then .ok handle else .error avStatus
  match doesSendReqRmpp svcType element with
  | none => finish { handle with usesRmpp := false }
  | some version =>
      if version != defaultRmppVersion then .error .invalidSetting
      else
        let mad := { element.buf with rmppVersion := version, rmppType := ibRmppTypeData }
        let mad := { mad.setRespTime ibRmppNoRespTime with rmppStatus := ibRmppStatusSuccess }
        let timeoutMs := if element.timeoutMs != 0 then element.timeoutMs else alReassemblyTimeout
        finish
          { handle with
            usesRmpp := true
            retryCnt := if handle.retryCnt != 0 then handle.retryCnt else alRmppRetries
            pSendMad := { element with buf := mad, timeoutMs := timeoutMs }
            ackSeg := 0
            segLimit := 1
            curSeg := 1
            totalSeg := countSegments element }

variable (handle : SendHandle)

/-- The RMPP flags `__queue_rmpp_seg` sets for the current segment. -/
def segFlags : UInt8 :=
  let flags := ibRmppFlagActive
  let flags := if handle.curSeg == 1 then flags ||| ibRmppFlagFirst else flags
  if handle.curSeg == handle.totalSeg then flags ||| ibRmppFlagLast else flags

/-- The payload length `__queue_rmpp_seg` sets for the current segment: that of a
last segment overrides that of a first one. -/
def segPaylen : UInt32 :=
  let size := handle.pSendMad.size
  let sa := handle.pSendMad.buf.isSa
  if handle.curSeg == handle.totalSeg then
    if sa then size - (handle.curSeg - 1) * ibSaDataSize.toUInt32 - madRmppHdrSize.toUInt32
    else size - (handle.curSeg - 1) * madRmppDataSize.toUInt32
  else if handle.curSeg == 1 then
    if sa then
      -- Every segment after the first repeats the SA extension of the header.
      ((size - madRmppHdrSize.toUInt32).toUInt64 + (handle.totalSeg - 1).toUInt64 *
        (ibSaMadHdrSize.toUInt64 - madRmppHdrSize.toUInt64)).toUInt32
    else size - madRmppHdrSize.toUInt32
  else 0

/-- The buffer of the MAD once `__queue_rmpp_seg` has set the current segment's
RMPP header in it. -/
def rmppSegHdr : RmppMad :=
  { handle.pSendMad.buf with
    segNum := handle.curSeg, rmppFlags := segFlags handle, paylenNewwin := segPaylen handle }

/-- `__queue_rmpp_seg` up to the posting of the work request. -/
def queueRmppSeg : SendHandle :=
  { handle with
    retryTime := maxTime
    pSendMad := { handle.pSendMad with buf := rmppSegHdr handle }
    curSeg := handle.curSeg + 1 }

/-- The block that the work request of `__queue_mad_wr` sends. `registered` is
what the element's registered block held before; it is sent as it stands only
when a separately allocated buffer is not segmented. -/
def queueMadWr (registered : RmppMad) : Option RmppMad :=
  let src := handle.pSendMad.buf
  let size := handle.pSendMad.size.toUInt64
  if handle.usesRmpp && handle.pSendMad.alMadBuf then do
    let hdrLen := src.hdrLen.toUInt64
    let maxLen := madBlockSize.toUInt64 - hdrLen
    let offset := hdrLen + maxLen * (src.segNum - 1).toUInt64
    let copied := if size - offset < maxLen then size - offset else maxLen
    let hdr ← Memory.read src.data 0 (src.hdrLen - madRmppHdrSize)
    let payload ← Memory.read src.data (offset.toNat - madRmppHdrSize) copied.toNat
    -- The rest of the block is cleared.
    some { src with data := hdr ++ payload ++ List.replicate (maxLen - copied).toNat 0 }
  else if handle.pSendMad.alMadBuf then some registered
  else some src

/-- The blocks of the next `count` segments, in the order they are queued. -/
def queueSegments (registered : RmppMad) : Nat → SendHandle → Option (List RmppMad)
  | 0, _ => some []
  | count + 1, handle => do
      let handle := queueRmppSeg handle
      let block ← queueMadWr handle registered
      let rest ← queueSegments registered count handle
      some (block :: rest)

/-! ### What the segments of one MAD carry -/

theorem countSegments_toNat (element : MadElement) :
    (countSegments element).toNat = max 1 (segmentQuotient element).toNat := by
  unfold countSegments
  by_cases empty : segmentQuotient element = 0
  · simp [empty]
  · have nonzero : (segmentQuotient element).toNat ≠ 0 := fun zero => empty (UInt32.toNat.inj zero)
    simp [empty]
    omega

variable {element : MadElement} {handle : SendHandle}

/-- For subnet administration the quotient is the payload size over the segment
size, rounded up. -/
theorem segmentQuotient_of_isSa (sa : element.buf.isSa = true)
    (header : ibSaMadHdrSize ≤ element.size.toNat) :
    (segmentQuotient element).toNat =
      (element.size.toNat - ibSaMadHdrSize + (ibSaDataSize - 1)) / ibSaDataSize := by
  have small : element.size.toNat < 2 ^ 32 := element.size.toNat_lt
  unfold segmentQuotient
  rw [if_pos sa]
  simp [UInt64.toNat_sub, UInt64.toNat_add] at *
  omega

/-- In the other classes the 32-bit sum may wrap, which only lowers the quotient. -/
theorem segmentQuotient_le (header : element.buf.hdrLen ≤ element.size.toNat) :
    (segmentQuotient element).toNat ≤ (element.size.toNat - element.buf.hdrLen +
      (element.buf.dataLen - 1)) / element.buf.dataLen := by
  unfold hdrLen dataLen at *
  split_ifs at * with sa
  · exact (segmentQuotient_of_isSa sa header).le
  · have small : element.size.toNat < 2 ^ 32 := element.size.toNat_lt
    rw [segmentQuotient, if_neg sa]
    simp [UInt32.toNat_sub, UInt32.toNat_add] at *
    omega

/-- Exactly the planned last segment carries the LAST flag. -/
theorem rmppSegHdr_isFlagSet_last (handle : SendHandle) :
    (rmppSegHdr handle).isFlagSet ibRmppFlagLast = (handle.curSeg == handle.totalSeg) := by
  unfold rmppSegHdr segFlags isFlagSet
  by_cases first : handle.curSeg == 1 <;> by_cases last : handle.curSeg == handle.totalSeg <;>
    simp [first, last] <;> decide

/-- The bytes after the RMPP header that the segments of an element carry: a
separately allocated buffer is cut at the element's size and padded with zeros. -/
def segmentImage (element : MadElement) : List UInt8 :=
  if element.alMadBuf then
    element.buf.data.take (element.size.toNat - madRmppHdrSize) ++
      List.replicate element.buf.dataLen 0
  else element.buf.data

/-- Offset past the RMPP header at which segment `seg`, counted from 1, starts. -/
def segmentOffset (mad : RmppMad) (seg : Nat) : Nat :=
  mad.hdrLen - madRmppHdrSize + mad.dataLen * (seg - 1)

/-- The bytes after the RMPP header of segment `seg`, counted from 1. -/
def segmentData (element : MadElement) (seg : Nat) : List UInt8 :=
  (segmentImage element).take (element.buf.hdrLen - madRmppHdrSize) ++
    ((segmentImage element).drop (segmentOffset element.buf seg)).take element.buf.dataLen

private theorem dataLen_toUInt64 (mad : RmppMad) :
    madBlockSize.toUInt64 - mad.hdrLen.toUInt64 = mad.dataLen.toUInt64 := by
  unfold hdrLen dataLen
  split <;> rfl

private theorem segment_offset_toNat {mad : RmppMad} (positive : 0 < mad.segNum.toNat) :
    (mad.hdrLen.toUInt64 + mad.dataLen.toUInt64 * (mad.segNum - 1).toUInt64).toNat =
      mad.hdrLen + mad.dataLen * (mad.segNum.toNat - 1) := by
  have small : mad.segNum.toNat < 2 ^ 32 := mad.segNum.toNat_lt
  have previous : (mad.segNum - 1).toUInt64.toNat = mad.segNum.toNat - 1 := by
    rw [UInt32.toNat_toUInt64, toNat_pred positive]
  generalize (mad.segNum - 1).toUInt64 = index at *
  unfold hdrLen dataLen
  split
  all_goals
    simp [UInt64.toNat_add, UInt64.toNat_mul] at *
    omega

theorem queueMadWr_of_alMadBuf (registered : RmppMad) (rmpp : handle.usesRmpp = true)
    (apart : handle.pSendMad.alMadBuf = true)
    (pool : handle.pSendMad.size.toNat ≤ handle.pSendMad.buf.bytes)
    (positive : 0 < handle.pSendMad.buf.segNum.toNat) (start : handle.pSendMad.buf.hdrLen +
      handle.pSendMad.buf.dataLen * (handle.pSendMad.buf.segNum.toNat - 1) ≤ handle.pSendMad.size.toNat) :
    queueMadWr handle registered =
      some { handle.pSendMad.buf with
        data := segmentData handle.pSendMad handle.pSendMad.buf.segNum.toNat } := by
  have offset := segment_offset_toNat positive
  unfold queueMadWr segmentData segmentImage
  simp only [rmpp, apart, Bool.and_self, if_true, dataLen_toUInt64]
  generalize handle.pSendMad.size = size at *
  generalize handle.pSendMad.buf = mad at *
  have header := mad.madRmppHdrSize_le_hdrLen
  have block := mad.hdrLen_add_dataLen
  simp only [bytes] at pool
  have payload : mad.dataLen.toUInt64.toNat = mad.dataLen := by
    simp at *
    omega
  generalize mad.hdrLen.toUInt64 + mad.dataLen.toUInt64 * (mad.segNum - 1).toUInt64 = position at *
  have inside : position ≤ size.toUInt64 := by
    rw [UInt64.le_iff_toNat_le, offset]
    simpa using start
  have remaining : (size.toUInt64 - position).toNat =
      size.toNat - madRmppHdrSize - segmentOffset mad mad.segNum.toNat := by
    rw [UInt64.toNat_sub_of_le _ _ inside]
    simp [offset, segmentOffset] at *
    omega
  have copied : (if size.toUInt64 - position < mad.dataLen.toUInt64 then
      size.toUInt64 - position else mad.dataLen.toUInt64).toNat =
      min (size.toNat - madRmppHdrSize - segmentOffset mad mad.segNum.toNat) mad.dataLen := by
    simp only [UInt64.lt_iff_toNat_lt, payload]
    split_ifs <;> omega
  generalize (if size.toUInt64 - position < mad.dataLen.toUInt64 then
      size.toUInt64 - position else mad.dataLen.toUInt64) = count at *
  have extension : mad.hdrLen - madRmppHdrSize ≤ size.toNat - madRmppHdrSize := by
    omega
  have position_eq : position.toNat - madRmppHdrSize = segmentOffset mad mad.segNum.toNat := by
    simp only [offset, segmentOffset]
    omega
  have cleared : (mad.dataLen.toUInt64 - count).toNat = mad.dataLen - count.toNat := by
    rw [UInt64.toNat_sub_of_le _ _ (by rw [UInt64.le_iff_toNat_le]; omega), payload]
  have padded := Memory.take_drop_padded mad.data (size.toNat - madRmppHdrSize)
    (segmentOffset mad mad.segNum.toNat) mad.dataLen 0
    (by omega) (by simp only [segmentOffset]; omega)
  rw [Memory.read_eq_some (by omega), Memory.read_eq_some (by omega), cleared, copied, position_eq,
    padded, List.take_append_of_le_length (by simp only [List.length_take]; omega), List.take_take,
    Nat.min_eq_left extension]
  simp

/-- An element in its registered block is sent as it is, in one segment. -/
theorem segmentData_of_inline (inline : element.alMadBuf = false)
    (block : element.buf.bytes = madBlockSize) : segmentData element 1 = element.buf.data := by
  have header := element.buf.madRmppHdrSize_le_hdrLen
  have sum := element.buf.hdrLen_add_dataLen
  have whole : element.buf.data.length = element.buf.hdrLen - madRmppHdrSize + element.buf.dataLen := by
    simp only [bytes] at block
    omega
  simp only [segmentData, segmentImage, segmentOffset, inline, Bool.false_eq_true, if_false,
    Nat.sub_self, Nat.mul_zero, Nat.add_zero]
  rw [← List.take_add, List.take_of_length_le (by omega)]

/-- A send request as `__init_send_mad` leaves it for an RMPP MAD taken from the
pool: its size lies in its buffer, a buffer that was not allocated apart is the
registered block, and the planned segments are those of its size. -/
structure Planned (handle : SendHandle) : Prop where
  usesRmpp : handle.usesRmpp = true
  size_le_bytes : handle.pSendMad.size.toNat ≤ handle.pSendMad.buf.bytes
  inline_block : handle.pSendMad.alMadBuf = false → handle.pSendMad.buf.bytes = madBlockSize
  header : handle.pSendMad.buf.hdrLen ≤ handle.pSendMad.size.toNat
  totalSeg : handle.totalSeg = countSegments handle.pSendMad

/-- Segment `seg` of a planned send, counted from 1. -/
def segmentBlock (handle : SendHandle) (seg : Nat) : RmppMad :=
  { rmppSegHdr { handle with curSeg := seg.toUInt32 } with data := segmentData handle.pSendMad seg }

namespace Planned
variable {handle : SendHandle}

theorem totalSeg_pos (planned : Planned handle) : 0 < handle.totalSeg.toNat := by
  rw [planned.totalSeg, countSegments_toNat]
  omega

/-- Every planned segment starts inside the MAD. -/
theorem segment_start_le (planned : Planned handle) {seg : Nat}
    (within : seg < handle.totalSeg.toNat) :
    handle.pSendMad.buf.hdrLen + handle.pSendMad.buf.dataLen * seg ≤ handle.pSendMad.size.toNat := by
  have header := planned.header
  have bounded := segmentQuotient_le header
  rw [planned.totalSeg, countSegments_toNat] at within
  unfold hdrLen dataLen at *
  split_ifs at * <;> simp at * <;> omega

theorem totalSeg_eq_one_of_inline (planned : Planned handle)
    (inline : handle.pSendMad.alMadBuf = false) : handle.totalSeg.toNat = 1 := by
  have block := planned.inline_block inline
  have small := planned.size_le_bytes
  have header := planned.header
  rw [planned.totalSeg, countSegments_toNat]
  have bounded := segmentQuotient_le header
  unfold hdrLen dataLen at *
  split_ifs at * <;> simp at * <;> omega

end Planned

/-- The segments of a send do not depend on the segments queued before them. -/
theorem segmentBlock_queueRmppSeg (handle : SendHandle) :
    segmentBlock (queueRmppSeg handle) = segmentBlock handle := rfl

theorem Planned.queueRmppSeg (planned : Planned handle) : Planned (queueRmppSeg handle) :=
  ⟨planned.usesRmpp, planned.size_le_bytes, planned.inline_block, planned.header, planned.totalSeg⟩

/-- The work request of a planned segment sends that segment's block. -/
theorem Planned.queueMadWr_eq (planned : Planned handle) (registered : RmppMad)
    (positive : 0 < handle.curSeg.toNat) (last : handle.curSeg.toNat ≤ handle.totalSeg.toNat) :
    queueMadWr (Mad.queueRmppSeg handle) registered = some (segmentBlock handle handle.curSeg.toNat) := by
  have queued := planned.queueRmppSeg
  have current : (Mad.queueRmppSeg handle).pSendMad.buf.segNum = handle.curSeg := rfl
  have block : segmentBlock handle handle.curSeg.toNat =
      { (Mad.queueRmppSeg handle).pSendMad.buf with
        data := segmentData (Mad.queueRmppSeg handle).pSendMad handle.curSeg.toNat } := by
    have same : handle.curSeg.toNat.toUInt32 = handle.curSeg := UInt32.ofNat_toNat
    simp only [segmentBlock, same]
    rfl
  cases apart : handle.pSendMad.alMadBuf with
  | true =>
    have start := planned.segment_start_le (show handle.curSeg.toNat - 1 < _ by omega)
    rw [queueMadWr_of_alMadBuf registered queued.usesRmpp apart queued.size_le_bytes
      (by rw [current]; exact positive) (by rw [current]; exact start), current, block]
  | false =>
    have only := planned.totalSeg_eq_one_of_inline apart
    have first : handle.curSeg.toNat = 1 := by omega
    have unsegmented : segmentData (Mad.queueRmppSeg handle).pSendMad 1 =
        (Mad.queueRmppSeg handle).pSendMad.buf.data :=
      segmentData_of_inline apart (queued.inline_block apart)
    rw [block, first, unsegmented]
    simp [queueMadWr, Mad.queueRmppSeg, apart]

/-- Queuing a planned send yields its segments in order. -/
theorem Planned.queueSegments_eq (registered : RmppMad) (count : Nat) (planned : Planned handle)
    (positive : 0 < handle.curSeg.toNat)
    (last : handle.curSeg.toNat + count ≤ handle.totalSeg.toNat + 1) :
    queueSegments registered count handle =
      some ((List.range' handle.curSeg.toNat count).map (segmentBlock handle)) := by
  induction count generalizing handle with
  | zero => rfl
  | succ count ih =>
    have small : handle.totalSeg.toNat < 2 ^ 32 := handle.totalSeg.toNat_lt
    have next : 0 < count → (Mad.queueRmppSeg handle).curSeg.toNat = handle.curSeg.toNat + 1 := by
      intro more
      simp [Mad.queueRmppSeg, UInt32.toNat_add]
      omega
    have rest : queueSegments registered count (Mad.queueRmppSeg handle) =
        some ((List.range' (handle.curSeg.toNat + 1) count).map (segmentBlock handle)) := by
      cases count with
      | zero => rfl
      | succ more =>
        have advanced := next (Nat.succ_pos more)
        rw [ih planned.queueRmppSeg (by omega) (by rw [advanced]; simp only [Mad.queueRmppSeg]; omega),
          advanced, segmentBlock_queueRmppSeg]
    simp [queueSegments, planned.queueMadWr_eq registered positive (by omega), rest, List.range'_succ]

end WinOFED.Mad
