import Mathlib

/-! Management datagrams as the access layer sees them.

The header of an RMPP MAD is a record and the bytes after it a list, so offsets
into a MAD buffer that the code takes past the RMPP header become offsets into
`RmppMad.data`. Fields in network order hold their host value. -/
namespace WinOFED.Mad

/-- `MAD_BLOCK_SIZE`: bytes of one MAD on the wire. -/
@[simp] def madBlockSize : Nat := 256

/-- `MAD_RMPP_HDR_SIZE`: common header and RMPP header. -/
@[simp] def madRmppHdrSize : Nat := 36

/-- `MAD_RMPP_DATA_SIZE`: payload bytes of one RMPP segment. -/
@[simp] def madRmppDataSize : Nat := madBlockSize - madRmppHdrSize

/-- `IB_SA_DATA_SIZE`: payload bytes of one subnet administration segment. -/
@[simp] def ibSaDataSize : Nat := 200

/-- `IB_SA_MAD_HDR_SIZE`: `sizeof(ib_sa_mad_t) - IB_SA_DATA_SIZE`. -/
@[simp] def ibSaMadHdrSize : Nat := 256 - ibSaDataSize

/-- `IB_MCLASS_SUBN_ADM`. -/
def ibMclassSubnAdm : UInt8 := 0x03

/-- `IB_MAD_METHOD_RESP_MASK`. -/
def ibMadMethodRespMask : UInt8 := 0x80

/-- `IB_MAD_METHOD_TRAP_REPRESS`. -/
def ibMadMethodTrapRepress : UInt8 := 0x07

/-- `IB_MAD_METHOD_GETTABLE_RESP`. -/
def ibMadMethodGettableResp : UInt8 := 0x92

/-- `IB_MAD_METHOD_GETMULTI`. -/
def ibMadMethodGetmulti : UInt8 := 0x14

/-- `IB_MAD_METHOD_GETMULTI_RESP`. -/
def ibMadMethodGetmultiResp : UInt8 := 0x94

/-- `IB_RMPP_TYPE_DATA`. -/
def ibRmppTypeData : UInt8 := 1

/-- `IB_RMPP_TYPE_ACK`. -/
def ibRmppTypeAck : UInt8 := 2

/-- `IB_RMPP_NO_RESP_TIME`. -/
def ibRmppNoRespTime : UInt8 := 0x1F

/-- `IB_RMPP_FLAG_ACTIVE`. -/
def ibRmppFlagActive : UInt8 := 0x01

/-- `IB_RMPP_FLAG_FIRST`. -/
def ibRmppFlagFirst : UInt8 := 0x02

/-- `IB_RMPP_FLAG_LAST`. -/
def ibRmppFlagLast : UInt8 := 0x04

/-- `IB_RMPP_STATUS_SUCCESS`. -/
def ibRmppStatusSuccess : UInt8 := 0

/-- The common MAD header, `ib_mad_t`. -/
structure MadHdr where
  baseVer : UInt8
  mgmtClass : UInt8
  classVer : UInt8
  method : UInt8
  status : UInt16
  classSpec : UInt16
  transId : UInt64
  attrId : UInt16
  resv : UInt16
  attrMod : UInt32
deriving DecidableEq, Repr

/-- An RMPP MAD buffer: `ib_rmpp_mad_t` and the bytes that follow it. -/
structure RmppMad where
  commonHdr : MadHdr
  rmppVersion : UInt8
  rmppType : UInt8
  rmppFlags : UInt8
  rmppStatus : UInt8
  segNum : UInt32
  paylenNewwin : UInt32
  data : List UInt8
deriving DecidableEq, Repr

namespace RmppMad

variable (mad : RmppMad)

/-- Bytes of the whole buffer, header included. -/
def bytes : Nat := madRmppHdrSize + mad.data.length

/-- `ib_rmpp_is_flag_set`. -/
def isFlagSet (flag : UInt8) : Bool := mad.rmppFlags &&& flag == flag

/-- `ib_rmpp_set_resp_time`. -/
def setRespTime (respTime : UInt8) : RmppMad :=
  { mad with rmppFlags := mad.rmppFlags ||| (respTime <<< 3) }

/-- The management class is subnet administration, whose segments repeat a
longer header. -/
def isSa : Bool := mad.commonHdr.mgmtClass == ibMclassSubnAdm

/-- Header bytes repeated in every segment of this MAD's class. -/
def hdrLen : Nat := if mad.isSa then ibSaMadHdrSize else madRmppHdrSize

/-- Payload bytes of one segment of this MAD's class. -/
def dataLen : Nat := if mad.isSa then ibSaDataSize else madRmppDataSize

/-- Header and payload of a segment fill one block in every class. -/
theorem hdrLen_add_dataLen : mad.hdrLen + mad.dataLen = madBlockSize := by
  unfold hdrLen dataLen
  split <;> rfl

theorem madRmppHdrSize_le_hdrLen : madRmppHdrSize ≤ mad.hdrLen := by
  unfold hdrLen
  split <;> decide

theorem toNat_pred {seg : UInt32} (positive : 0 < seg.toNat) : (seg - 1).toNat = seg.toNat - 1 :=
  UInt32.toNat_sub_of_le _ _ (UInt32.le_iff_toNat_le.mpr positive)

/-- The 32-bit product of the code for the payload before a segment. -/
theorem toNat_dataLen_mul {seg : UInt32} (positive : 0 < seg.toNat) :
    (mad.dataLen.toUInt32 * (seg - 1)).toNat = mad.dataLen * (seg.toNat - 1) % 2 ^ 32 := by
  have length : mad.dataLen.toUInt32.toNat = mad.dataLen := by
    unfold dataLen
    split <;> rfl
  rw [UInt32.toNat_mul, length, toNat_pred positive]

theorem hdrLen_of_isSa {first second : RmppMad} (same : first.isSa = second.isSa) :
    first.hdrLen = second.hdrLen := by
  simp [hdrLen, same]

theorem dataLen_of_isSa {first second : RmppMad} (same : first.isSa = second.isSa) :
    first.dataLen = second.dataLen := by
  simp [dataLen, same]

end RmppMad

/-- `ib_mad_is_response`. -/
def MadHdr.isResponse (hdr : MadHdr) : Bool :=
  hdr.method &&& ibMadMethodRespMask != 0 || hdr.method == ibMadMethodTrapRepress

/-- `ib_class_is_vendor_specific_high`. -/
def classIsVendorSpecificHigh (classCode : UInt8) : Bool :=
  0x30 ≤ classCode && classCode ≤ 0x4f

/-- `ib_mad_element_t` with the buffer it points to. `alMadBuf` tells whether the
buffer was allocated apart from the element's registered block (`p_al_mad_buf`
is not null). Fields the MAD services never read are left out. -/
structure MadElement where
  buf : RmppMad
  size : UInt32
  alMadBuf : Bool
  remoteLid : UInt16
  remoteQp : UInt32
  rmppVersion : UInt8
  timeoutMs : UInt32
  retryCnt : UInt32
  respExpected : Bool
deriving DecidableEq, Repr

/-- A MAD as `ib_get_mad` hands it out and its owner may fill it: the size lies in
the buffer, and a buffer that was not allocated apart is the registered block. -/
structure PoolMad where
  element : MadElement
  size_le_bytes : element.size.toNat ≤ element.buf.bytes
  inline_block : element.alMadBuf = false → element.buf.bytes = madBlockSize

/-- `ib_mad_svc_type_t`. -/
inductive MadSvcType
  | default
  | rmpp
  | raw
deriving DecidableEq, Repr

/-- The `ib_api_status_t` values the MAD services return. -/
inductive IbStatus
  | success
  | invalidSetting
  | insufficientMemory
  | invalidState
  | notFound
  | timeout
  | canceled
deriving DecidableEq, Repr

/-- The `cl_status_t` values of RMPP receive processing. -/
inductive ClStatus
  | success
  | notDone
  | notFound
  | insufficientMemory
  | duplicate
  | overrun
deriving DecidableEq, Repr

end WinOFED.Mad
