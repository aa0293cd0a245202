import WinOFED.Mad.RmppSend
import WinOFED.Mad.RmppRecv

/-! Sending a MAD in segments and reassembling it.

`Reassembling` is the invariant that joins the two halves: after some segments of
a planned send the reassembly buffer is one window ahead of them and starts with
the bytes they carried. -/
namespace WinOFED.Mad
open Memory Option

/-- The element in which a block arrives at the receiver. -/
def receivedElement (remoteLid : UInt16) (remoteQp : UInt32) (block : RmppMad) : MadElement :=
  { buf := block, size := madBlockSize.toUInt32, alMadBuf := false, remoteLid, remoteQp
    rmppVersion := 0, timeoutMs := 0, retryCnt := 0, respExpected := false }

/-- Feed later segments to `processSegment`; the statuses it returns and the
tracked receive it leaves. `env` answers by segment number. -/
def feedSegments (destroying : Bool) (env : UInt32 → RecvEnv) :
    Rmpp → List MadElement → Option (List ClStatus × Rmpp)
  | rmpp, [] => some ([], rmpp)
  | rmpp, segment :: rest => do
      let result ← processSegment destroying rmpp (some segment) (env segment.buf.segNum)
      let (statuses, final) ← feedSegments destroying env result.rmpp rest
      some (result.status :: statuses, final)

variable {rmpp : Rmpp} {env : UInt32 → RecvEnv} {segment : MadElement} {seg : Nat}
  {handle : SendHandle} (mad : RmppMad)

theorem feedSegments_cons {destroying : Bool} {result : SegmentResult}
    (processed : processSegment destroying rmpp (some segment) (env segment.buf.segNum) =
      some result) (rest : List MadElement) :
    feedSegments destroying env rmpp (segment :: rest) =
      (feedSegments destroying env result.rmpp rest).map
        fun (statuses, final) => (result.status :: statuses, final) := by
  simp only [feedSegments, processed, bind_eq_bind, bind_some]
  cases feedSegments destroying env result.rmpp rest <;> rfl

theorem feedSegments_overrun_cons {destroying : Bool} {rest : List MadElement}
    (overrun : processSegment destroying rmpp (some segment) (env segment.buf.segNum) = none) :
    feedSegments destroying env rmpp (segment :: rest) = none := by
  simp only [feedSegments, overrun, bind_eq_bind, bind_none]

/-- Feed all segments of a MAD; the first one starts the reassembly. -/
def reassemble (destroying : Bool) (env : UInt32 → RecvEnv) :
    List MadElement → Option (List ClStatus × Rmpp)
  | [] => none
  | first :: rest => do
      let result ← processSegment destroying (getMadRmpp first) none (env first.buf.segNum)
      let (statuses, final) ← feedSegments destroying env result.rmpp rest
      some (result.status :: statuses, final)

theorem reassemble_cons {destroying : Bool} {first : MadElement}
    {result : SegmentResult}
    (processed : processSegment destroying (getMadRmpp first) none (env first.buf.segNum) =
      some result) (rest : List MadElement) :
    reassemble destroying env (first :: rest) =
      (feedSegments destroying env result.rmpp rest).map
        fun (statuses, final) => (result.status :: statuses, final) := by
  simp only [reassemble, processed, bind_eq_bind, bind_some]
  cases feedSegments destroying env result.rmpp rest <;> rfl

/-- The bytes of an element beyond the header of its class. -/
def payload (element : MadElement) : List UInt8 :=
  (element.buf.data.drop (element.buf.hdrLen - madRmppHdrSize)).take
    (element.size.toNat - element.buf.hdrLen)

/-- The receiver completes exactly at the last segment, with the sender's size and
payload. -/
def RoundTrips (registered : RmppMad) (remoteLid : UInt16) (remoteQp : UInt32)
    (destroying : Bool) (env : UInt32 → RecvEnv) (handle : SendHandle) : Prop :=
  ∃ blocks statuses final,
    queueSegments registered handle.totalSeg.toNat handle = some blocks ∧
    reassemble destroying env (blocks.map (receivedElement remoteLid remoteQp)) =
      some (statuses, final) ∧
    statuses = List.replicate (handle.totalSeg.toNat - 1) .notDone ++ [.success] ∧
    final.pMadElement.size = handle.pSendMad.size ∧
    payload final.pMadElement = payload handle.pSendMad

/-! ### Segments against the image they cut up -/

theorem segmentOffset_one : segmentOffset mad 1 = mad.hdrLen - madRmppHdrSize := by
  simp [segmentOffset]

theorem segmentOffset_succ (positive : 0 < seg) :
    segmentOffset mad (seg + 1) = segmentOffset mad seg + mad.dataLen := by
  obtain ⟨previous, rfl⟩ : ∃ previous, seg = previous + 1 := ⟨seg - 1, by omega⟩
  simp only [segmentOffset, Nat.add_sub_cancel, Nat.mul_add, Nat.mul_one]
  omega

namespace Planned
variable {handle : SendHandle}

/-- Every planned segment finds a full payload in the image. -/
theorem segment_end_le_image (planned : Planned handle) (positive : 0 < seg)
    (last : seg ≤ handle.totalSeg.toNat) :
    segmentOffset handle.pSendMad.buf (seg + 1) ≤ (segmentImage handle.pSendMad).length := by
  have pool := planned.size_le_bytes
  have header := handle.pSendMad.buf.madRmppHdrSize_le_hdrLen
  rw [segmentOffset_succ _ positive]
  simp only [RmppMad.bytes] at pool
  cases apart : handle.pSendMad.alMadBuf with
  | true =>
    have start := planned.segment_start_le (show seg - 1 < _ by omega)
    simp only [segmentImage, apart, if_true, List.length_append, List.length_take,
      List.length_replicate, segmentOffset]
    omega
  | false =>
    have only := planned.totalSeg_eq_one_of_inline apart
    have block := planned.inline_block apart
    have sum := handle.pSendMad.buf.hdrLen_add_dataLen
    obtain rfl : seg = 1 := by omega
    simp only [RmppMad.bytes] at block
    simp only [segmentImage, apart, Bool.false_eq_true, if_false, segmentOffset_one]
    omega

/-- Up to the size of the MAD the image is the MAD. -/
theorem take_segmentImage (planned : Planned handle) :
    (segmentImage handle.pSendMad).take (handle.pSendMad.size.toNat - madRmppHdrSize) =
      handle.pSendMad.buf.data.take (handle.pSendMad.size.toNat - madRmppHdrSize) := by
  have pool := planned.size_le_bytes
  simp only [RmppMad.bytes] at pool
  cases apart : handle.pSendMad.alMadBuf with
  | true =>
    simp only [segmentImage, apart, if_true]
    rw [List.take_append_of_le_length (by simp only [List.length_take]; omega), List.take_take,
      Nat.min_self]
  | false => simp [segmentImage, apart]

end Planned

/-! ### The reassembly invariant -/

/-- Last segment of the window that is open once `received` segments are in. -/
def windowEnd (received : Nat) : Nat := 1 + 16 * ((received + 15) / 16)

/-- The receiver after the first `received` segments of a planned send. -/
structure Reassembling (handle : SendHandle) (received : Nat) (rmpp : Rmpp) : Prop where
  commonHdr : rmpp.pMadElement.buf.commonHdr = handle.pSendMad.buf.commonHdr
  expected : rmpp.expectedSeg.toNat = received + 1
  limit : rmpp.segLimit.toNat = windowEnd received
  size_eq_bytes : rmpp.pMadElement.size.toNat = rmpp.pMadElement.buf.bytes
  bytes_eq : rmpp.pMadElement.buf.bytes = madRmppHdrSize + madRmppDataSize * windowEnd received
  carried : rmpp.pMadElement.buf.data.take (segmentOffset handle.pSendMad.buf (received + 1)) =
    (segmentImage handle.pSendMad).take (segmentOffset handle.pSendMad.buf (received + 1))

/-- The receiver once all segments of a planned send are in: the size is what the
last segment's header makes it. -/
structure Reassembled (handle : SendHandle) (rmpp : Rmpp) : Prop where
  commonHdr : rmpp.pMadElement.buf.commonHdr = handle.pSendMad.buf.commonHdr
  size_eq : rmpp.pMadElement.size = reassembledSize handle.pSendMad handle.totalSeg
    (segPaylen { handle with curSeg := handle.totalSeg })
  carried : rmpp.pMadElement.buf.data.take
      (segmentOffset handle.pSendMad.buf (handle.totalSeg.toNat + 1)) =
    (segmentImage handle.pSendMad).take
      (segmentOffset handle.pSendMad.buf (handle.totalSeg.toNat + 1))

theorem hdrLen_of_commonHdr {first second : RmppMad} (same : first.commonHdr = second.commonHdr) :
    first.hdrLen = second.hdrLen :=
  RmppMad.hdrLen_of_isSa (congrArg (·.mgmtClass == ibMclassSubnAdm) same)

theorem dataLen_of_commonHdr {first second : RmppMad} (same : first.commonHdr = second.commonHdr) :
    first.dataLen = second.dataLen :=
  RmppMad.dataLen_of_isSa (congrArg (·.mgmtClass == ibMclassSubnAdm) same)

/-- The window that is open always holds the next segment, in every class. -/
theorem segmentOffset_le_window (received : Nat) :
    segmentOffset mad (received + 2) ≤ madRmppDataSize * windowEnd received := by
  have next : received + 1 ≤ windowEnd received := by
    simp only [windowEnd]
    omega
  have grow : madRmppDataSize * (received + 1) ≤ madRmppDataSize * windowEnd received :=
    Nat.mul_le_mul_left _ next
  refine Nat.le_trans ?_ grow
  simp only [segmentOffset, RmppMad.hdrLen, RmppMad.dataLen]
  split
  · simp
    omega
  · simp

/-- The payload of a segment as it stands in the segment's own block. -/
theorem Planned.read_segmentData (planned : Planned handle) (positive : 0 < seg)
    (last : seg ≤ handle.totalSeg.toNat) :
    read (segmentData handle.pSendMad seg)
        (handle.pSendMad.buf.hdrLen - madRmppHdrSize) handle.pSendMad.buf.dataLen =
      some (((segmentImage handle.pSendMad).drop (segmentOffset handle.pSendMad.buf seg)).take
        handle.pSendMad.buf.dataLen) := by
  have room := planned.segment_end_le_image positive last
  rw [segmentOffset_succ _ positive] at room
  have start : handle.pSendMad.buf.hdrLen - madRmppHdrSize ≤ segmentOffset handle.pSendMad.buf seg := by
    simp [segmentOffset]
  unfold segmentData
  generalize segmentImage handle.pSendMad = image at *
  generalize handle.pSendMad.buf.hdrLen - madRmppHdrSize = extension at *
  have length : (image.take extension).length = extension := by
    simp only [List.length_take]
    omega
  rw [read_eq_some (by simp only [List.length_append, List.length_take, List.length_drop]; omega),
    List.drop_append_of_le_length (by omega), List.drop_of_length_le (by omega), List.nil_append,
    List.take_take, Nat.min_self]

/-- A planned segment is marked as the last one exactly when it is. -/
theorem segmentBlock_isFlagSet_last (handle : SendHandle) (planned : seg ≤ handle.totalSeg.toNat) :
    (segmentBlock handle seg).isFlagSet ibRmppFlagLast = decide (seg = handle.totalSeg.toNat) := by
  have total := handle.totalSeg.toNat_lt
  have flag : (segmentBlock handle seg).isFlagSet ibRmppFlagLast =
      (seg.toUInt32 == handle.totalSeg) :=
    rmppSegHdr_isFlagSet_last { handle with curSeg := seg.toUInt32 }
  rw [flag, beq_eq_decide, decide_eq_decide, ← UInt32.toNat_inj, UInt32.toNat_ofNat',
    Nat.mod_eq_of_lt (by omega)]

theorem segmentBlock_more (handle : SendHandle) (more : seg < handle.totalSeg.toNat) :
    (segmentBlock handle seg).isFlagSet ibRmppFlagLast = false := by
  rw [segmentBlock_isFlagSet_last handle more.le]
  simp
  omega

theorem segmentBlock_segNum (handle : SendHandle) (planned : seg ≤ handle.totalSeg.toNat) :
    (segmentBlock handle seg).segNum.toNat = seg := by
  have total := handle.totalSeg.toNat_lt
  simp [segmentBlock, rmppSegHdr]
  omega

theorem windowEnd_succ (received : Nat) : windowEnd (received + 1) =
    windowEnd received + if received + 1 = windowEnd received then 16 else 0 := by
  unfold windowEnd
  split <;> omega

namespace Reassembling
variable {handle : SendHandle} {received : Nat} {rmpp : Rmpp}
  (remoteLid : UInt16) (remoteQp : UInt32) (destroying : Bool) (env : RecvEnv)

section
variable (planned : Planned handle) (state : Reassembling handle received rmpp) (started : 0 < received)
include planned state started

/-- The next segment is copied behind the bytes already carried. -/
theorem copySegment_eq (more : received < handle.totalSeg.toNat) : ∃ data, copySegment rmpp
        (receivedElement remoteLid remoteQp (segmentBlock handle (received + 1))) =
        some (rmpp.withData data) ∧
      data.length = rmpp.pMadElement.buf.data.length ∧
      data.take (segmentOffset handle.pSendMad.buf (received + 2)) =
        (segmentImage handle.pSendMad).take (segmentOffset handle.pSendMad.buf (received + 2)) := by
  have next : 0 < received + 1 := Nat.succ_pos received
  have image := planned.segment_end_le_image next more
  have window := segmentOffset_le_window handle.pSendMad.buf received
  have small := handle.pSendMad.size.toNat_lt
  have start := planned.segment_start_le more
  have total := handle.totalSeg.toNat_lt
  have copied := planned.read_segmentData next more
  -- The 32-bit product of the code is the segment's offset.
  have offset : handle.pSendMad.buf.hdrLen - madRmppHdrSize +
      (handle.pSendMad.buf.dataLen.toUInt32 * ((received + 1).toUInt32 - 1)).toNat =
      segmentOffset handle.pSendMad.buf (received + 1) := by
    have wide : (received + 1).toUInt32.toNat = received + 1 := by
      simp only [UInt32.toNat_ofNat']
      omega
    rw [RmppMad.toNat_dataLen_mul _ (by omega), wide, Nat.add_sub_cancel, Nat.mod_eq_of_lt (by omega)]
    rfl
  have sameHdr : (segmentBlock handle (received + 1)).commonHdr = handle.pSendMad.buf.commonHdr := rfl
  rw [segmentOffset_succ _ next] at image window ⊢
  have length := state.bytes_eq
  simp only [RmppMad.bytes] at length
  set chunk := ((segmentImage handle.pSendMad).drop
    (segmentOffset handle.pSendMad.buf (received + 1))).take handle.pSendMad.buf.dataLen with chunk_eq
  have chunkLength : chunk.length = handle.pSendMad.buf.dataLen := by
    simp only [chunk_eq, List.length_take, List.length_drop]
    omega
  obtain ⟨data, written⟩ : ∃ data, write rmpp.pMadElement.buf.data
      (segmentOffset handle.pSendMad.buf (received + 1)) chunk = some data :=
    ⟨_, write_eq_some (by omega)⟩
  refine ⟨data, ?_, length_of_write written, ?_⟩
  · simp only [copySegment, receivedElement, hdrLen_of_commonHdr sameHdr, dataLen_of_commonHdr sameHdr]
    simp only [segmentBlock, rmppSegHdr, copied, offset, written, bind_eq_bind, bind_some]
  · have carried := take_of_write written
    rw [state.carried, chunkLength, chunk_eq, ← List.take_add] at carried
    exact carried

section
variable (more : received + 1 < handle.totalSeg.toNat) (allocated : env.mallocOk = true)
include more allocated

/-- A segment that is not the last leaves the receiver waiting for the next one. -/
theorem processSegment_more
    (room : received + 1 = windowEnd received → rmpp.pMadElement.size.toNat + windowBytes.toNat < 2 ^ 32 - 1) :
    ∃ result, processSegment destroying rmpp
        (some (receivedElement remoteLid remoteQp (segmentBlock handle (received + 1)))) env =
        some result ∧
      result.status = .notDone ∧ Reassembling handle (received + 1) result.rmpp := by
  obtain ⟨data, copied, length, carried⟩ :=
    state.copySegment_eq remoteLid remoteQp planned started (by omega)
  have total := handle.totalSeg.toNat_lt
  have last := segmentBlock_more handle more
  have number := segmentBlock_segNum handle more.le
  have expected : (rmpp.expectedSeg + 1).toNat = received + 1 + 1 := by
    rw [UInt32.toNat_add, state.expected]
    simp
    omega
  have whole : rmpp.pMadElement.size.toNat = madRmppHdrSize + data.length := by
    rw [length]
    exact state.size_eq_bytes
  have bytes := state.bytes_eq
  by_cases limit : received + 1 = windowEnd received
  · have atLimit : (segmentBlock handle (received + 1)).segNum = rmpp.segLimit := by
      rw [← UInt32.toNat_inj, number, state.limit, limit]
    have advanced := @advanceSegment_resize destroying (rmpp.withData data) _ env
      last atLimit allocated whole (room limit)
    have window := windowBytes_toNat
    have enlarged := windowEnd_succ received
    rw [if_pos limit] at enlarged
    have size := room limit
    refine ⟨_, (processSegment_of_copy copied).trans advanced, rfl, ?_⟩
    refine ⟨state.commonHdr, expected, ?_, ?_, ?_, ?_⟩
    · change (rmpp.segLimit + alRmppWindow).toNat = _
      rw [UInt32.toNat_add, state.limit, enlarged]
      have filled := state.size_eq_bytes
      simp [alRmppWindow] at bytes size ⊢
      omega
    · change (rmpp.pMadElement.size + windowBytes).toNat =
        madRmppHdrSize + (data ++ List.replicate windowBytes.toNat 0).length
      rw [UInt32.toNat_add, List.length_append, List.length_replicate]
      omega
    · change madRmppHdrSize + (data ++ List.replicate windowBytes.toNat 0).length = _
      rw [List.length_append, List.length_replicate, length, enlarged]
      simp only [RmppMad.bytes, madRmppDataSize, madBlockSize, madRmppHdrSize] at bytes ⊢
      omega
    · have inside : segmentOffset handle.pSendMad.buf (received + 1 + 1) ≤ _ :=
        segmentOffset_le_window handle.pSendMad.buf received
      change (data ++ List.replicate windowBytes.toNat 0).take _ = _
      rw [List.take_append_of_le_length (by simp only [RmppMad.bytes] at bytes; omega)]
      exact carried
  · have inside : (segmentBlock handle (received + 1)).segNum ≠ rmpp.segLimit := by
      rw [ne_eq, ← UInt32.toNat_inj, number, state.limit]
      exact limit
    have advanced := @advanceSegment_inside destroying (rmpp.withData data) _ env last inside
    have window := windowEnd_succ received
    rw [if_neg limit, add_zero] at window
    refine ⟨_, (processSegment_of_copy copied).trans advanced, rfl, ?_⟩
    refine ⟨state.commonHdr, expected, ?_, whole, ?_, carried⟩
    · rw [window]
      exact state.limit
    · rw [window, ← bytes]
      simp only [RmppMad.bytes, Rmpp.withData, Rmpp.advanced, length]

/-- A segment at the end of the window overruns the buffer when the next window
would not fit in 32 bits. -/
theorem processSegment_overrun (limit : received + 1 = windowEnd received)
    (wraps : 2 ^ 32 ≤ rmpp.pMadElement.size.toNat + windowBytes.toNat) :
    processSegment destroying rmpp
      (some (receivedElement remoteLid remoteQp (segmentBlock handle (received + 1)))) env =
      none := by
  obtain ⟨data, copied, -, -⟩ := state.copySegment_eq remoteLid remoteQp planned started (by omega)
  have last := segmentBlock_more handle more
  have atLimit : (segmentBlock handle (received + 1)).segNum = rmpp.segLimit := by
    rw [← UInt32.toNat_inj, segmentBlock_segNum handle more.le, state.limit, limit]
  exact (processSegment_of_copy copied).trans
    (@advanceSegment_overrun destroying (rmpp.withData data) _ env last atLimit allocated wraps)

end

/-- The last segment completes the receive with all the bytes carried. -/
theorem processSegment_last (last : received + 1 = handle.totalSeg.toNat) :
    ∃ result, processSegment destroying rmpp
        (some (receivedElement remoteLid remoteQp (segmentBlock handle (received + 1)))) env =
        some result ∧
      result.status = .success ∧ Reassembled handle result.rmpp := by
  obtain ⟨data, copied, length, carried⟩ :=
    state.copySegment_eq remoteLid remoteQp planned started (by omega)
  have flag : (segmentBlock handle (received + 1)).isFlagSet ibRmppFlagLast = true := by
    rw [segmentBlock_isFlagSet_last handle (by omega)]
    simpa using last
  have advanced := @advanceSegment_last destroying (rmpp.withData data) _ env flag
  refine ⟨_, (processSegment_of_copy copied).trans advanced, rfl, ?_⟩
  refine ⟨state.commonHdr, ?_, ?_⟩
  · have number : (received + 1).toUInt32 = handle.totalSeg := by
      rw [last]
      exact UInt32.ofNat_toNat
    have segment : (rmpp.withData data).pMadElement.buf.dataLen = handle.pSendMad.buf.dataLen :=
      dataLen_of_commonHdr state.commonHdr
    change reassembledSize (rmpp.withData data).pMadElement (received + 1).toUInt32
      (segPaylen { handle with curSeg := (received + 1).toUInt32 }) = _
    simp only [reassembledSize, segment, number]
  · rw [← last]
    exact carried

end
end Reassembling

/-! ### Whole transfers -/

/-- The segments a receive can have before its buffer needs 32 bits or more: one
and as many windows as fit. -/
def maxSegments : Nat := 1 + 16 * ((2 ^ 32 - 1 - madBlockSize) / 3520)

/-- The planned segments from `seg` on, as the receiver gets them. -/
def arrivals (handle : SendHandle) (remoteLid : UInt16) (remoteQp : UInt32) (seg count : Nat) :
    List MadElement :=
  (List.range' seg count).map (receivedElement remoteLid remoteQp ∘ segmentBlock handle)

theorem arrivals_succ (handle : SendHandle) (remoteLid : UInt16) (remoteQp : UInt32)
    (seg count : Nat) :
    arrivals handle remoteLid remoteQp seg (count + 1) =
      receivedElement remoteLid remoteQp (segmentBlock handle seg) ::
        arrivals handle remoteLid remoteQp (seg + 1) count := by
  simp [arrivals, List.range'_succ]

section Transfer
variable {handle : SendHandle} {rmpp : Rmpp} {env : UInt32 → RecvEnv}
  {received : Nat} (remoteLid : UInt16) (remoteQp : UInt32) (destroying : Bool)

/-- While the windows stay below the limit a resize fits in 32 bits. -/
theorem Reassembling.room (state : Reassembling handle received rmpp)
    (below : windowEnd received < maxSegments) :
    rmpp.pMadElement.size.toNat + windowBytes.toNat < 2 ^ 32 - 1 := by
  have size := state.size_eq_bytes
  have bytes := state.bytes_eq
  simp [windowBytes_toNat, windowEnd, maxSegments] at *
  omega

section
variable (planned : Planned handle) (allocated : ∀ seg, (env seg).mallocOk = true)
include planned allocated

/-- Feeding the remaining segments completes the receive at the last of them. -/
theorem feedSegments_eq (few : handle.totalSeg.toNat ≤ maxSegments) (count : Nat)
    (state : Reassembling handle received rmpp) (started : 0 < received)
    (all : received + (count + 1) = handle.totalSeg.toNat) :
    ∃ final, feedSegments destroying env rmpp
        (arrivals handle remoteLid remoteQp (received + 1) (count + 1)) =
        some (List.replicate count .notDone ++ [.success], final) ∧
      Reassembled handle final := by
  induction count generalizing received rmpp with
  | zero =>
    obtain ⟨result, processed, status, done⟩ := state.processSegment_last remoteLid remoteQp
      destroying (env (received + 1).toUInt32) planned started all
    refine ⟨result.rmpp, ?_, done⟩
    rw [arrivals_succ, feedSegments_cons processed]
    simp [arrivals, feedSegments, status]
  | succ count ih =>
    obtain ⟨result, processed, status, next⟩ := state.processSegment_more remoteLid remoteQp
      destroying (env (received + 1).toUInt32) planned started (by omega) (allocated _)
      (fun limit => state.room (by omega))
    obtain ⟨final, fed, done⟩ := ih next (Nat.succ_pos received) (by omega)
    refine ⟨final, ?_, done⟩
    rw [arrivals_succ, feedSegments_cons processed, fed]
    simp [status, List.replicate_succ]

/-- With more segments than that the receive overruns its buffer at the resize
after segment `maxSegments`. -/
theorem feedSegments_overrun (many : maxSegments < handle.totalSeg.toNat) (ahead : Nat)
    (state : Reassembling handle received rmpp) (started : 0 < received)
    (short : received + 1 + ahead = maxSegments) (count : Nat) (reaches : ahead < count) :
    feedSegments destroying env rmpp (arrivals handle remoteLid remoteQp (received + 1) count) = none := by
  induction ahead generalizing received rmpp count with
  | zero =>
    obtain ⟨count, rfl⟩ : ∃ more, count = more + 1 := ⟨count - 1, by omega⟩
    have limit : received + 1 = windowEnd received := by
      simp only [windowEnd, maxSegments] at *
      omega
    have wraps : 2 ^ 32 ≤ rmpp.pMadElement.size.toNat + windowBytes.toNat := by
      have size := state.size_eq_bytes
      have bytes := state.bytes_eq
      simp [windowBytes_toNat, ← limit, maxSegments] at *
      omega
    have overrun := state.processSegment_overrun remoteLid remoteQp destroying
      (env (received + 1).toUInt32) planned started (by omega) (allocated _) limit wraps
    rw [arrivals_succ, feedSegments_overrun_cons overrun]
  | succ ahead ih =>
    obtain ⟨count, rfl⟩ : ∃ more, count = more + 1 := ⟨count - 1, by omega⟩
    obtain ⟨result, processed, status, next⟩ := state.processSegment_more remoteLid remoteQp
      destroying (env (received + 1).toUInt32) planned started (by omega) (allocated _)
      (fun limit => state.room (by omega))
    rw [arrivals_succ, feedSegments_cons processed,
      ih next (Nat.succ_pos received) (by omega) count (by omega)]
    rfl

end

/-- The tracked receive that the first segment of a planned send starts. -/
def firstTracked (handle : SendHandle) : Rmpp :=
  getMadRmpp (receivedElement remoteLid remoteQp (segmentBlock handle 1))

/-- The first block holds the start of the image. -/
theorem segmentData_one (element : MadElement) :
    segmentData element 1 = (segmentImage element).take (segmentOffset element.buf 2) := by
  rw [segmentData, segmentOffset_one, ← List.take_add, ← segmentOffset_one,
    ← segmentOffset_succ _ Nat.one_pos]

theorem Planned.length_segmentData_one (planned : Planned handle) :
    (segmentData handle.pSendMad 1).length = madRmppDataSize := by
  have image := planned.segment_end_le_image Nat.one_pos planned.totalSeg_pos
  have header := handle.pSendMad.buf.madRmppHdrSize_le_hdrLen
  have sum := handle.pSendMad.buf.hdrLen_add_dataLen
  rw [segmentData_one, List.length_take, Nat.min_eq_left image, segmentOffset_succ _ Nat.one_pos,
    segmentOffset_one]
  simp only [madRmppDataSize]
  omega

/-- A single segment completes the receive at once. -/
theorem processSegment_only (only : handle.totalSeg.toNat = 1)
    (answers : RecvEnv) :
    ∃ result, processSegment destroying (firstTracked remoteLid remoteQp handle) none answers =
        some result ∧
      result.status = .success ∧ Reassembled handle result.rmpp := by
  have flag : (segmentBlock handle 1).isFlagSet ibRmppFlagLast = true := by
    rw [segmentBlock_isFlagSet_last handle only.ge]
    simpa using only.symm
  have number : Nat.toUInt32 1 = handle.totalSeg := by
    rw [← UInt32.toNat_inj, only]
    rfl
  have advanced := @advanceSegment_last destroying (firstTracked remoteLid remoteQp handle) _ answers flag
  refine ⟨_, advanced, rfl, rfl, ?_, ?_⟩
  · change reassembledSize _ (Nat.toUInt32 1) (segPaylen { handle with curSeg := Nat.toUInt32 1 }) = _
    rw [number]
    rfl
  · rw [only]
    change (segmentData handle.pSendMad 1).take _ = _
    rw [segmentData_one, List.take_take, Nat.min_self]

/-- A first segment with more to come opens the first window. -/
theorem processSegment_first (planned : Planned handle) (more : 1 < handle.totalSeg.toNat)
    {answers : RecvEnv} (allocated : answers.mallocOk = true) :
    ∃ result, processSegment destroying (firstTracked remoteLid remoteQp handle) none answers =
        some result ∧
      result.status = .notDone ∧ Reassembling handle 1 result.rmpp := by
  have last := segmentBlock_more handle more
  have length := planned.length_segmentData_one
  have whole : (firstTracked remoteLid remoteQp handle).pMadElement.size.toNat =
      (firstTracked remoteLid remoteQp handle).pMadElement.buf.bytes := by
    change madBlockSize.toUInt32.toNat = madRmppHdrSize + (segmentData handle.pSendMad 1).length
    rw [length]
    rfl
  have advanced := @advanceSegment_resize destroying
    (firstTracked remoteLid remoteQp handle) _ answers last rfl allocated whole
    (show madBlockSize.toUInt32.toNat + windowBytes.toNat < 2 ^ 32 - 1 by decide)
  refine ⟨_, advanced, rfl, rfl, rfl, rfl, ?_, ?_, ?_⟩
  · change (madBlockSize.toUInt32 + windowBytes).toNat = madRmppHdrSize +
      (segmentData handle.pSendMad 1 ++ List.replicate windowBytes.toNat 0).length
    rw [List.length_append, List.length_replicate, length]
    rfl
  · change madRmppHdrSize + (segmentData handle.pSendMad 1 ++ List.replicate windowBytes.toNat 0).length = _
    rw [List.length_append, List.length_replicate, length]
    rfl
  · change (segmentData handle.pSendMad 1 ++ List.replicate windowBytes.toNat 0).take
        (segmentOffset handle.pSendMad.buf 2) = _
    have inside : segmentOffset handle.pSendMad.buf 2 ≤ _ :=
      planned.segment_end_le_image Nat.one_pos planned.totalSeg_pos
    rw [segmentData_one, List.take_append_of_le_length (by simp only [List.length_take]; omega),
      List.take_take, Nat.min_self]

section
variable (planned : Planned handle) (allocated : ∀ seg, (env seg).mallocOk = true)
include planned allocated

/-- All segments of a planned send are reassembled while its windows fit in 32 bits. -/
theorem reassemble_eq (few : handle.totalSeg.toNat ≤ maxSegments) :
    ∃ final, reassemble destroying env
        (arrivals handle remoteLid remoteQp 1 handle.totalSeg.toNat) =
        some (List.replicate (handle.totalSeg.toNat - 1) .notDone ++ [.success], final) ∧
      Reassembled handle final := by
  have positive := planned.totalSeg_pos
  by_cases only : handle.totalSeg.toNat = 1
  · obtain ⟨result, processed, status, done⟩ :=
      processSegment_only remoteLid remoteQp destroying only (env (Nat.toUInt32 1))
    refine ⟨result.rmpp, ?_, done⟩
    rw [only, arrivals_succ, reassemble_cons processed]
    simp [arrivals, feedSegments, status]
  · obtain ⟨count, total⟩ : ∃ count, handle.totalSeg.toNat = count + 2 :=
      ⟨handle.totalSeg.toNat - 2, by omega⟩
    obtain ⟨result, processed, status, state⟩ := processSegment_first remoteLid remoteQp destroying
      planned (by omega) (allocated (Nat.toUInt32 1))
    obtain ⟨final, fed, done⟩ := feedSegments_eq remoteLid remoteQp destroying planned allocated
      few count state Nat.one_pos (by omega)
    refine ⟨final, ?_, done⟩
    rw [total, arrivals_succ, reassemble_cons processed, fed]
    simp [status, List.replicate_succ]

/-- Beyond that the receive overruns its buffer. -/
theorem reassemble_overrun (many : maxSegments < handle.totalSeg.toNat) :
    reassemble destroying env (arrivals handle remoteLid remoteQp 1 handle.totalSeg.toNat) = none := by
  obtain ⟨count, total⟩ : ∃ count, handle.totalSeg.toNat = count + 1 :=
    ⟨handle.totalSeg.toNat - 1, by omega⟩
  have bound : 2 ≤ maxSegments := by decide
  obtain ⟨result, processed, -, state⟩ := processSegment_first remoteLid remoteQp destroying
    planned (by omega) (allocated (Nat.toUInt32 1))
  have fed := feedSegments_overrun remoteLid remoteQp destroying planned allocated many
    (maxSegments - 2) state Nat.one_pos (by omega) count (by omega)
  rw [total, arrivals_succ, reassemble_cons processed, fed]
  rfl

end
end Transfer

/-! ### The sizes that survive the round trip -/

/-- The receiver reports the sender's size for subnet administration. In the other classes it
reports the RMPP header on top: the sender's last payload length still counts it. -/
theorem reassembledSize_eq (handle : SendHandle) : reassembledSize handle.pSendMad handle.totalSeg
      (segPaylen { handle with curSeg := handle.totalSeg }) = handle.pSendMad.size +
        if handle.pSendMad.buf.isSa then 0 else madRmppHdrSize.toUInt32 := by
  simp only [reassembledSize, segPaylen, RmppMad.dataLen, beq_self_eq_true, if_true]
  split <;> grind

/-- The largest subnet administration MAD that fits the segments of a receive. -/
def maxSaSize : Nat := ibSaMadHdrSize + ibSaDataSize * maxSegments

theorem Planned.totalSeg_le_iff (planned : Planned handle) (sa : handle.pSendMad.buf.isSa = true) :
    handle.totalSeg.toNat ≤ maxSegments ↔ handle.pSendMad.size.toNat ≤ maxSaSize := by
  have header := planned.header
  simp only [RmppMad.hdrLen, sa, if_true] at header
  rw [planned.totalSeg, countSegments_toNat, segmentQuotient_of_isSa sa header]
  simp [maxSaSize, maxSegments] at *
  omega

/-- A complete receive of the sender's size holds the sender's payload. -/
theorem Reassembled.payload_eq (planned : Planned handle) (done : Reassembled handle rmpp)
    (size : rmpp.pMadElement.size = handle.pSendMad.size)
    (covered : handle.pSendMad.size.toNat - madRmppHdrSize ≤
      segmentOffset handle.pSendMad.buf (handle.totalSeg.toNat + 1)) :
    payload rmpp.pMadElement = payload handle.pSendMad := by
  have cut := congrArg (List.take (handle.pSendMad.size.toNat - madRmppHdrSize)) done.carried
  rw [List.take_take, List.take_take, Nat.min_eq_left covered, planned.take_segmentImage] at cut
  have header := handle.pSendMad.buf.madRmppHdrSize_le_hdrLen
  have span : handle.pSendMad.size.toNat - handle.pSendMad.buf.hdrLen =
      handle.pSendMad.size.toNat - madRmppHdrSize - (handle.pSendMad.buf.hdrLen - madRmppHdrSize) := by
    omega
  simp only [payload, hdrLen_of_commonHdr done.commonHdr, size, span]
  rw [← List.drop_take, cut, List.drop_take]

/-- `__init_send_mad` plans an RMPP send without touching its size, its class or
its bytes. -/
theorem initSendMad_planned {svcType : MadSvcType} {source : PoolMad} {recycled : SendHandle}
    {avStatus : IbStatus}
    (initialized : initSendMad svcType (getMadSend recycled source.element) avStatus = .ok handle)
    (rmpp : handle.usesRmpp = true) (header : source.element.buf.hdrLen ≤ source.element.size.toNat)
    :
    Planned handle ∧ handle.curSeg = 1 ∧ handle.pSendMad.size = source.element.size ∧
      handle.pSendMad.buf.isSa = source.element.buf.isSa := by
  have pool := source.size_le_bytes
  have inline := source.inline_block
  simp only [initSendMad, getMadSend] at initialized
  split at initialized
  · split_ifs at initialized
    cases initialized
    cases rmpp
  · split at initialized
    · cases initialized
    · split at initialized
      · cases initialized
        exact ⟨⟨rfl, pool, inline, header, rfl⟩, rfl, rfl, rfl⟩
      · cases initialized

/-- A MAD survives segmentation and reassembly exactly when it is a subnet
administration MAD whose reassembly windows stay below 32-bit sizes: in every
other class the reported size is too large by the RMPP header. -/
theorem roundTrips_iff (svcType : MadSvcType) (source : PoolMad) (avStatus : IbStatus)
    (recycled handle : SendHandle) (registered : RmppMad) (remoteLid : UInt16) (remoteQp : UInt32)
    (destroying : Bool) (env : UInt32 → RecvEnv)
    (initialized : initSendMad svcType (getMadSend recycled source.element) avStatus = .ok handle)
    (rmpp : handle.usesRmpp = true)
    (header : source.element.buf.hdrLen ≤ source.element.size.toNat)
    (allocated : ∀ seg, (env seg).mallocOk = true) :
    RoundTrips registered remoteLid remoteQp destroying env handle ↔
      source.element.buf.isSa = true ∧ source.element.size.toNat ≤ maxSaSize := by
  obtain ⟨planned, first, sameSize, sameClass⟩ := initSendMad_planned initialized rmpp header
  have firstNat : handle.curSeg.toNat = 1 := by
    rw [first]
    rfl
  have queued := planned.queueSegments_eq registered handle.totalSeg.toNat (by omega) (by omega)
  have arrived : ((List.range' handle.curSeg.toNat handle.totalSeg.toNat).map
      (segmentBlock handle)).map (receivedElement remoteLid remoteQp) =
      arrivals handle remoteLid remoteQp 1 handle.totalSeg.toNat := by
    rw [firstNat, arrivals, List.map_map]
  constructor
  · rintro ⟨blocks, statuses, final, sent, received, -, size, -⟩
    rw [queued, some.injEq] at sent
    rw [← sent, arrived] at received
    have few : handle.totalSeg.toNat ≤ maxSegments := by
      by_contra many
      rw [reassemble_overrun remoteLid remoteQp destroying planned allocated (by omega)] at received
      cases received
    obtain ⟨complete, eq, done⟩ :=
      reassemble_eq remoteLid remoteQp destroying planned allocated few
    rw [eq, some.injEq, Prod.mk.injEq] at received
    rw [← received.2, done.size_eq] at size
    cases sa : handle.pSendMad.buf.isSa with
    | true => exact ⟨sameClass ▸ sa, sameSize ▸ (planned.totalSeg_le_iff sa).mp few⟩
    | false =>
      rw [reassembledSize_eq, sa] at size
      exact absurd (add_eq_left.mp size) (by decide)
  · rintro ⟨sa, bound⟩
    rw [← sameClass] at sa
    rw [← sameSize] at bound
    have few := (planned.totalSeg_le_iff sa).mpr bound
    obtain ⟨final, eq, done⟩ :=
      reassemble_eq remoteLid remoteQp destroying planned allocated few
    have size := (reassembledSize_eq handle).subst done.size_eq
    rw [sa, if_pos rfl, add_zero] at size
    refine ⟨_, _, final, queued, arrived ▸ eq, rfl, size, done.payload_eq planned size ?_⟩
    have planning := planned.header
    rw [planned.totalSeg, countSegments_toNat]
    simp only [RmppMad.hdrLen, sa, if_true] at planning
    rw [segmentQuotient_of_isSa sa planning]
    simp only [segmentOffset, RmppMad.hdrLen, RmppMad.dataLen, sa, if_true]
    simp
    omega

/-- A MAD of the given class and size with RMPP version 1 in a buffer of its own or,
up to one block, in the registered block. -/
def sampleMad (mgmtClass : UInt8) (size : UInt32) : MadElement :=
  { buf :=
      { commonHdr :=
          { baseVer := 1, mgmtClass, classVer := 2, method := 0x92, status := 0, classSpec := 0
            transId := 7, attrId := 0, resv := 0, attrMod := 0 }
        rmppVersion := 0, rmppType := 0, rmppFlags := 0, rmppStatus := 0, segNum := 0
        paylenNewwin := 0
        data := List.replicate (max madBlockSize size.toNat - madRmppHdrSize) 0x5A }
    size, alMadBuf := madBlockSize < size.toNat, remoteLid := 0, remoteQp := 1, rmppVersion := 1
    timeoutMs := 0, retryCnt := 0, respExpected := false }

theorem sampleMad_inline {mgmtClass : UInt8} {size : UInt32}
    (inline : (sampleMad mgmtClass size).alMadBuf = false) :
    (sampleMad mgmtClass size).buf.bytes = madBlockSize := by
  have small : ¬ madBlockSize < size.toNat := of_decide_eq_false inline
  simp only [sampleMad, RmppMad.bytes, List.length_replicate, madBlockSize, madRmppHdrSize] at *
  omega

/-- `sampleMad` is a MAD of the pool. -/
def samplePoolMad (mgmtClass : UInt8) (size : UInt32) : PoolMad where
  element := sampleMad mgmtClass size
  size_le_bytes := by
    simp [sampleMad, RmppMad.bytes]
  inline_block := sampleMad_inline

/-- A tracking structure as it may come back from its pool. -/
def sampleSend : SendHandle :=
  { pSendMad := sampleMad 0 0, pRespMad := none, retryTime := 0, delay := 0, retryCnt := 0
    canceled := false, usesRmpp := false, ackSeg := 0, curSeg := 0, segLimit := 0, totalSeg := 0 }

/-- A subnet administration MAD of four segments survives. -/
theorem saMad_roundTrips : ∃ handle,
    initSendMad .default (getMadSend sampleSend (samplePoolMad ibMclassSubnAdm 700).element)
      .success = .ok handle ∧
    RoundTrips (sampleMad 0 0).buf 1 1 false (fun _ => ⟨true, true, true⟩) handle :=
  ⟨_, rfl, (roundTrips_iff .default (samplePoolMad ibMclassSubnAdm 700) .success sampleSend _ _ 1 1
    false _ rfl rfl (by decide) (fun _ => rfl)).mpr ⟨rfl, by decide⟩⟩

/-- A vendor class MAD of one block comes out 36 bytes longer than it was sent. -/
theorem vendorMad_grows : ∃ handle blocks final,
    initSendMad .rmpp (getMadSend sampleSend (samplePoolMad 0x30 256).element) .success =
      .ok handle ∧
    handle.usesRmpp = true ∧
    queueSegments (sampleMad 0 0).buf handle.totalSeg.toNat handle = some blocks ∧
    reassemble false (fun _ => ⟨true, true, true⟩) (blocks.map (receivedElement 1 1)) =
      some ([.success], final) ∧
    handle.pSendMad.size = 256 ∧ final.pMadElement.size = 292 ∧
    ¬ RoundTrips (sampleMad 0 0).buf 1 1 false (fun _ => ⟨true, true, true⟩) handle := by
  refine ⟨_, _, _, rfl, rfl, rfl, rfl, rfl, by decide, ?_⟩
  rintro ⟨blocks, statuses, final, sent, received, -, size, -⟩
  cases sent
  cases received
  revert size
  decide

end WinOFED.Mad
