import WinOFED.Mad.Element
import WinOFED.Memory.Buffer

/-! The receiving half of RMPP: tracking and reassembling a segmented MAD.

Every copy into the reassembly buffer goes through the bounds-checked copies of
`Memory`, so a result of `none` is a copy that left its buffer. The assertions of
the source hold only in its debug builds and guard nothing here. -/
namespace WinOFED.Mad
open Memory

/-- `AL_RMPP_WINDOW`. -/
def alRmppWindow : UInt32 := 16

/-- Bytes by which the reassembly buffer grows for each window. -/
def windowBytes : UInt32 := alRmppWindow * madRmppDataSize.toUInt32

theorem windowBytes_toNat : windowBytes.toNat = 3520 := by decide

/-- A receive being reassembled, `al_mad_rmpp_t`. -/
structure Rmpp where
  inactive : Bool
  expectedSeg : UInt32
  segLimit : UInt32
  pMadElement : MadElement
deriving DecidableEq, Repr

/-- What the environment answers while one segment is processed: whether
`cl_malloc` in `al_resize_mad` succeeds, whether `ib_get_mad` finds an element for
the ACK, and whether `get_mad_rmpp` finds a tracking structure. -/
structure RecvEnv where
  mallocOk : Bool
  ackOk : Bool
  trackOk : Bool
deriving DecidableEq, Repr

/-- `al_resize_mad`. The outer option is the memory fault of its copy, the inner
one a failure that leaves the element as it was. -/
def alResizeMad (element : MadElement) (bufSize : Nat) (mallocOk : Bool) :
    Option (Option MadElement) :=
  if bufSize ≥ 0xFFFFFFFF then some none
  else if !mallocOk then some none
  else do
    -- The header is copied with the `size` bytes of the old buffer.
    let old ← read element.buf.data 0 (element.size.toNat - madRmppHdrSize)
    let new ← write (List.replicate (bufSize - madRmppHdrSize) 0) 0 old
    some (some { element with
      buf := { element.buf with data := new }, size := bufSize.toUInt32, alMadBuf := true })

/-- The window `__get_rmpp_ack` offers. -/
def ackWindow (rmpp : Rmpp) : UInt32 :=
  if rmpp.segLimit == rmpp.expectedSeg - 1 &&
      !rmpp.pMadElement.buf.isFlagSet ibRmppFlagLast then
    1 + rmpp.segLimit
  else rmpp.segLimit

/-- `__get_rmpp_ack`: the header of the ACK, when an element for it can be had. -/
def getRmppAck (rmpp : Rmpp) (ackOk : Bool) : Option RmppMad :=
  if ackOk then
    let data := rmpp.pMadElement.buf
    let ack : RmppMad :=
      { commonHdr := { data.commonHdr with
          status := 0, method := data.commonHdr.method ^^^ ibMadMethodRespMask }
        rmppVersion := data.rmppVersion
        rmppType := ibRmppTypeAck
        rmppFlags := 0
        rmppStatus := ibRmppStatusSuccess
        segNum := rmpp.expectedSeg - 1
        paylenNewwin := ackWindow rmpp
        data := List.replicate madRmppDataSize 0 }
    let ack := ack.setRespTime ibRmppNoRespTime
    some { ack with rmppFlags := ack.rmppFlags ||| ibRmppFlagActive }
  else none

/-- The tracked receive with other bytes in its reassembly buffer. -/
def Rmpp.withData (rmpp : Rmpp) (data : List UInt8) : Rmpp :=
  { rmpp with pMadElement := { rmpp.pMadElement with buf := { rmpp.pMadElement.buf with data } } }

/-- What `__process_segment` leaves behind. -/
structure SegmentResult where
  status : ClStatus
  rmpp : Rmpp
  ack : Option RmppMad
deriving DecidableEq, Repr

/-- The copy of a later segment's payload into the reassembly buffer. The offset
of the segment is computed in 32 bits, the header size is added to a pointer. -/
def copySegment (rmpp : Rmpp) (arrival : MadElement) : Option Rmpp := do
  let curSeg := arrival.buf.segNum
  let hdrLen := arrival.buf.hdrLen
  let dataLen := arrival.buf.dataLen
  let src ← read arrival.buf.data (hdrLen - madRmppHdrSize) dataLen
  let data ← write rmpp.pMadElement.buf.data
    (hdrLen - madRmppHdrSize + (dataLen.toUInt32 * (curSeg - 1)).toNat) src
  some (rmpp.withData data)

/-- The size reported for a receive whose last segment is `curSeg`. -/
def reassembledSize (target : MadElement) (curSeg paylen : UInt32) : UInt32 :=
  madRmppHdrSize.toUInt32 + target.buf.dataLen.toUInt32 * (curSeg - 1) + paylen

/-- `__process_segment` once the segment's data is in the reassembly buffer: the
size of a complete MAD, the next expected segment, and the window. -/
def advanceSegment (destroying : Bool) (rmpp : Rmpp) (mad : RmppMad) (env : RecvEnv) :
    Option SegmentResult :=
  let curSeg := mad.segNum
  let status := if mad.isFlagSet ibRmppFlagLast then ClStatus.success else ClStatus.notDone
  let element := if status = .success then
      { rmpp.pMadElement with size := reassembledSize rmpp.pMadElement curSeg mad.paylenNewwin }
    else rmpp.pMadElement
  -- The expected segment moves on even when no larger buffer can be had below.
  let rmpp := { rmpp with
    pMadElement := element, expectedSeg := rmpp.expectedSeg + 1, inactive := destroying }
  if status = .notDone ∧ curSeg = rmpp.segLimit then do
    let bufSize := rmpp.pMadElement.size + windowBytes
    match ← alResizeMad rmpp.pMadElement bufSize.toNat env.mallocOk with
    | some resized =>
        let rmpp := { rmpp with
          pMadElement := resized, segLimit := rmpp.segLimit + alRmppWindow }
        some ⟨status, rmpp, getRmppAck rmpp env.ackOk⟩
    | none => some ⟨status, rmpp, none⟩
  else if status = .success then
    some ⟨status, rmpp, getRmppAck rmpp env.ackOk⟩
  else some ⟨status, rmpp, none⟩

/-- `__process_segment`. `arrival` is the received element, or `none` when that
element is itself the one which starts the reassembly. `destroying` tells that
the service is in `CL_DESTROYING`. -/
def processSegment (destroying : Bool) (rmpp : Rmpp) (arrival : Option MadElement)
    (env : RecvEnv) : Option SegmentResult :=
  match arrival with
  | none => advanceSegment destroying rmpp rmpp.pMadElement.buf env
  | some segment => do
      let rmpp ← copySegment rmpp segment
      advanceSegment destroying rmpp segment.buf env

/-- The tracking structure `__get_mad_rmpp` starts for a first segment. -/
def getMadRmpp (element : MadElement) : Rmpp :=
  { inactive := false, expectedSeg := 1, segLimit := 1, pMadElement := element }

/-- The test `__find_rmpp` makes on one tracked receive. -/
def Rmpp.tracks (rmpp : Rmpp) (element : MadElement) : Bool :=
  let hdr := element.buf.commonHdr
  let tracked := rmpp.pMadElement.buf.commonHdr
  hdr.transId == tracked.transId && hdr.classVer == tracked.classVer &&
    hdr.mgmtClass == tracked.mgmtClass && hdr.method == tracked.method &&
    element.remoteLid == rmpp.pMadElement.remoteLid &&
    element.remoteQp == rmpp.pMadElement.remoteQp

/-- The receive side of a MAD service: its `recv_list` and whether it is being
destroyed. -/
structure RecvSvc where
  recvList : List Rmpp
  destroying : Bool
deriving DecidableEq, Repr

/-- `__find_rmpp`: the first tracked receive that matches. -/
def findRmpp (svc : RecvSvc) (element : MadElement) : Option Nat :=
  svc.recvList.findIdx? (·.tracks element)

/-- What `__process_rmpp_data` leaves behind: the service, the status, the
response MAD and the tracked receive the response speaks for. -/
structure DataResult where
  svc : RecvSvc
  status : ClStatus
  ack : Option RmppMad
  rmpp : Option Rmpp
deriving DecidableEq, Repr

/-- The part of `__process_rmpp_data` after the tracked receive at `index` of the
`recv_list` is known. `arrival` is as for `processSegment`. -/
def processTracked (svc : RecvSvc) (index : Nat) (rmpp : Rmpp) (curSeg : UInt32)
    (arrival : Option MadElement) (env : RecvEnv) : Option DataResult :=
  if curSeg = rmpp.expectedSeg then do
    let result ← processSegment svc.destroying rmpp arrival env
    let recvList := if result.status = .success then svc.recvList.eraseIdx index
      else svc.recvList.set index result.rmpp
    some ⟨{ svc with recvList }, result.status, result.ack, some result.rmpp⟩
  else if curSeg < rmpp.expectedSeg then
    -- An old segment: the last ACK is sent again.
    some ⟨svc, .duplicate, getRmppAck rmpp env.ackOk, some rmpp⟩
  else some ⟨svc, .overrun, none, some rmpp⟩

/-- `__process_rmpp_data`. -/
def processRmppData (svc : RecvSvc) (element : MadElement) (env : RecvEnv) : Option DataResult :=
  let curSeg := element.buf.segNum
  match findRmpp svc element with
  | some index => do
      let rmpp ← svc.recvList[index]?
      processTracked svc index rmpp curSeg (some element) env
  | none =>
      if curSeg != 1 then some ⟨svc, .notFound, none, none⟩
      else if !env.trackOk then some ⟨svc, .insufficientMemory, none, none⟩
      else
        let rmpp := getMadRmpp element
        let tracking := { svc with recvList := svc.recvList ++ [rmpp] }
        processTracked tracking svc.recvList.length rmpp curSeg none env

/-- `__recv_timer_cb`: drop the receives that stayed inactive and mark the rest. -/
def recvTimerCb (svc : RecvSvc) : RecvSvc :=
  { svc with recvList := (svc.recvList.filter (!·.inactive)).map ({ · with inactive := true }) }

/-! ### What one segment does -/

/-- A resize that fits in 32 bits keeps the buffer's bytes and clears the rest. -/
theorem alResizeMad_grow {element : MadElement} {bufSize : Nat}
    (whole : element.size.toNat = element.buf.bytes) (grows : element.size.toNat ≤ bufSize)
    (small : bufSize < 0xFFFFFFFF) :
    alResizeMad element bufSize true = some (some { element with
      buf := { element.buf with
        data := element.buf.data ++ List.replicate (bufSize - element.buf.bytes) 0 }
      size := bufSize.toUInt32
      alMadBuf := true }) := by
  simp only [RmppMad.bytes] at whole ⊢
  have capped : ¬ bufSize ≥ 0xFFFFFFFF := by omega
  have length : element.size.toNat - madRmppHdrSize = element.buf.data.length := by omega
  have copied : read element.buf.data 0 element.buf.data.length = some element.buf.data := by
    rw [read_eq_some (by omega), List.drop_zero, List.take_length]
  have written : write (List.replicate (bufSize - madRmppHdrSize) 0) 0 element.buf.data =
      some (element.buf.data ++
        List.replicate (bufSize - (madRmppHdrSize + element.buf.data.length)) 0) := by
    rw [write_eq_some (by simp only [List.length_replicate]; omega)]
    simp [Nat.sub_add_eq]
  simp [alResizeMad, capped, length, copied, written, - madRmppHdrSize]

/-- A resize to a smaller buffer overruns it. -/
theorem alResizeMad_shrink {element : MadElement} {bufSize : Nat}
    (shrinks : bufSize < element.size.toNat) (header : madRmppHdrSize < element.size.toNat)
    (small : bufSize < 0xFFFFFFFF) : alResizeMad element bufSize true = none := by
  have capped : ¬ bufSize ≥ 0xFFFFFFFF := by omega
  simp only [alResizeMad, capped]
  cases copied : read element.buf.data 0 (element.size.toNat - madRmppHdrSize) with
  | none => simp
  | some old =>
    have length := length_of_read copied
    have overrun : write (List.replicate (bufSize - madRmppHdrSize) 0) 0 old = none := by
      simp only [write, List.length_replicate]
      rw [if_neg (by omega)]
    simp [overrun, - madRmppHdrSize]

variable {destroying : Bool} {rmpp : Rmpp} {mad : RmppMad} {env : RecvEnv}

theorem processSegment_of_copy {copied : Rmpp} {segment : MadElement}
    (copy : copySegment rmpp segment = some copied) :
    processSegment destroying rmpp (some segment) env =
      advanceSegment destroying copied segment.buf env := by
  simp [processSegment, copy]

/-- The tracked receive after a segment that leaves its window as it is. -/
def Rmpp.advanced (rmpp : Rmpp) (destroying : Bool) : Rmpp :=
  { rmpp with inactive := destroying, expectedSeg := rmpp.expectedSeg + 1 }

/-- The tracked receive after its last segment. -/
def Rmpp.completed (rmpp : Rmpp) (destroying : Bool) (mad : RmppMad) : Rmpp :=
  { rmpp.advanced destroying with
    pMadElement := { rmpp.pMadElement with
      size := reassembledSize rmpp.pMadElement mad.segNum mad.paylenNewwin } }

/-- The tracked receive after a segment that made its buffer grow by a window. -/
def Rmpp.enlarged (rmpp : Rmpp) (destroying : Bool) : Rmpp :=
  { rmpp.advanced destroying with
    segLimit := rmpp.segLimit + alRmppWindow
    pMadElement := { rmpp.pMadElement with
      buf := { rmpp.pMadElement.buf with
        data := rmpp.pMadElement.buf.data ++ List.replicate windowBytes.toNat 0 }
      size := rmpp.pMadElement.size + windowBytes
      alMadBuf := true } }

/-- The last segment completes the receive and fixes its size. -/
theorem advanceSegment_last (last : mad.isFlagSet ibRmppFlagLast = true) :
    advanceSegment destroying rmpp mad env =
      some ⟨.success, rmpp.completed destroying mad,
        getRmppAck (rmpp.completed destroying mad) env.ackOk⟩ := by
  simp [advanceSegment, last, Rmpp.completed, Rmpp.advanced]

/-- A segment inside the window only moves the expected segment. -/
theorem advanceSegment_inside (more : mad.isFlagSet ibRmppFlagLast = false)
    (inside : mad.segNum ≠ rmpp.segLimit) :
    advanceSegment destroying rmpp mad env = some ⟨.notDone, rmpp.advanced destroying, none⟩ := by
  simp [advanceSegment, more, inside, Rmpp.advanced]

section
variable (more : mad.isFlagSet ibRmppFlagLast = false) (limit : mad.segNum = rmpp.segLimit)
include more limit

/-- A segment at the end of the window opens the next one when the buffer can be
enlarged. -/
theorem advanceSegment_resize (allocated : env.mallocOk = true)
    (whole : rmpp.pMadElement.size.toNat = rmpp.pMadElement.buf.bytes)
    (small : rmpp.pMadElement.size.toNat + windowBytes.toNat < 2 ^ 32 - 1) :
    advanceSegment destroying rmpp mad env =
      some ⟨.notDone, rmpp.enlarged destroying, getRmppAck (rmpp.enlarged destroying) env.ackOk⟩ := by
  have grown : (rmpp.pMadElement.size + windowBytes).toNat =
      rmpp.pMadElement.size.toNat + windowBytes.toNat := by
    rw [UInt32.toNat_add, Nat.mod_eq_of_lt (by omega)]
  have resized := alResizeMad_grow whole
    (show _ ≤ (rmpp.pMadElement.size + windowBytes).toNat by omega) (by omega)
  have enlarged : (rmpp.pMadElement.size + windowBytes).toNat - rmpp.pMadElement.buf.bytes =
      windowBytes.toNat := by
    omega
  have same : (rmpp.pMadElement.size + windowBytes).toNat.toUInt32 =
      rmpp.pMadElement.size + windowBytes := UInt32.ofNat_toNat
  rw [enlarged, same] at resized
  simp [advanceSegment, more, limit, allocated, resized, Rmpp.enlarged, Rmpp.advanced, - UInt32.toNat_add]

/-- Without memory for a larger buffer the window stays as it is, but the expected
segment still moves on. -/
theorem advanceSegment_refused (refused : env.mallocOk = false) :
    advanceSegment destroying rmpp mad env = some ⟨.notDone, rmpp.advanced destroying, none⟩ := by
  have failed (bufSize : Nat) : alResizeMad rmpp.pMadElement bufSize false = some none := by
    simp [alResizeMad]
  simp [advanceSegment, more, limit, refused, failed, Rmpp.advanced]

/-- At the end of the window a buffer whose new size does not fit in 32 bits is
overrun by its own resize. -/
theorem advanceSegment_overrun (allocated : env.mallocOk = true)
    (wraps : 2 ^ 32 ≤ rmpp.pMadElement.size.toNat + windowBytes.toNat) :
    advanceSegment destroying rmpp mad env = none := by
  have window := windowBytes_toNat
  have bounded : rmpp.pMadElement.size.toNat < 2 ^ 32 := rmpp.pMadElement.size.toNat_lt
  have wrapped : (rmpp.pMadElement.size + windowBytes).toNat =
      rmpp.pMadElement.size.toNat + windowBytes.toNat - 2 ^ 32 := by
    rw [UInt32.toNat_add]
    omega
  have overrun : alResizeMad rmpp.pMadElement (rmpp.pMadElement.size + windowBytes).toNat true =
      none := alResizeMad_shrink (by omega) (by simp; omega) (by omega)
  simp [advanceSegment, more, limit, allocated, overrun, - UInt32.toNat_add]

end
end WinOFED.Mad
