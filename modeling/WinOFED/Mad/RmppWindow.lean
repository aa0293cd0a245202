import WinOFED.Mad.RmppRecv
import WinOFED.Transition.Machine

/-! The receive window against the buffer behind it.

A reassembly is safe while every segment lands in its buffer and no ACK offers
more segments than the buffer holds. `Tracked` says how the buffer follows the
window; `WithinWindow` is the exact condition on one arriving segment. -/
namespace WinOFED.Mad
open List Option

/-- A MAD as it arrives from the queue pair: one block. -/
structure ArrivedMad where
  element : MadElement
  block : element.buf.bytes = madBlockSize
  size_eq : element.size = madBlockSize.toUInt32

/-- What can happen to the receive side of a MAD service. -/
inductive RecvEvent
  | data (arrived : ArrivedMad) (env : RecvEnv)
  | timer
  | destroy

/-- One event on the receive side. A DATA MAD whose processing leaves a buffer has
no successor. -/
def recvMachine : Transition.Machine RecvSvc RecvEvent where
  initial svc := svc = ⟨[], false⟩
  step before event after :=
    match event with
    | .data arrived env => ∃ result, processRmppData before arrived.element env = some result ∧
        after = result.svc
    | .timer => after = recvTimerCb before
    | .destroy => after = { before with destroying := true }

/-- Segments that fit in the reassembly buffer. -/
def Rmpp.fitting (rmpp : Rmpp) : Nat :=
  (rmpp.pMadElement.buf.bytes - rmpp.pMadElement.buf.hdrLen) / rmpp.pMadElement.buf.dataLen

/-- Segments that fit in a buffer of as many RMPP segments as the window allows. It
is the window itself except for subnet administration, whose segments are shorter. -/
def Rmpp.capacity (rmpp : Rmpp) : Nat :=
  (madRmppHdrSize + madRmppDataSize * rmpp.segLimit.toNat - rmpp.pMadElement.buf.hdrLen) /
    rmpp.pMadElement.buf.dataLen

/-- The ACK, if there is one, offers no more segments than fit. -/
def AckFits (ack : Option RmppMad) (rmpp : Rmpp) : Prop :=
  ∀ mad ∈ ack, mad.paylenNewwin.toNat ≤ rmpp.fitting

/-- Processing the event copies inside the reassembly buffer and offers no more
than fits in it. -/
def SafeStep (svc : RecvSvc) : RecvEvent → Prop
  | .data arrived env => ∃ result, processRmppData svc arrived.element env = some result ∧
      ∀ rmpp ∈ result.rmpp, AckFits result.ack rmpp
  | .timer => True
  | .destroy => True

/-- The condition under which a DATA MAD is safe for the receive that tracks it. -/
structure WithinWindow (rmpp : Rmpp) (mad : RmppMad) (env : RecvEnv) : Prop where
  /-- The next segment fits: no earlier attempt to enlarge the buffer failed, or
  the buffer still has room. -/
  copy : mad.segNum = rmpp.expectedSeg → rmpp.expectedSeg.toNat ≤ rmpp.capacity
  /-- A segment that makes the buffer grow leaves its size below 32 bits. -/
  grow : mad.segNum = rmpp.expectedSeg → mad.segNum = rmpp.segLimit →
    mad.isFlagSet ibRmppFlagLast = false → env.mallocOk = true →
    rmpp.pMadElement.size.toNat + windowBytes.toNat < 2 ^ 32
  /-- An ACK at the very end of the window offers one segment more. -/
  ack : env.ackOk = true →
    (mad.segNum = rmpp.expectedSeg ∧ mad.isFlagSet ibRmppFlagLast = true ∧
        mad.segNum = rmpp.segLimit) ∨
      (mad.segNum < rmpp.expectedSeg ∧ rmpp.expectedSeg - 1 = rmpp.segLimit) →
    rmpp.segLimit.toNat + 1 ≤ rmpp.capacity

/-- The condition on an event: every receive that a DATA MAD is matched to stays
within its window. -/
def EventWithinWindow (svc : RecvSvc) : RecvEvent → Prop
  | .data arrived env => ∀ index rmpp, findRmpp svc arrived.element = some index →
      svc.recvList[index]? = some rmpp → WithinWindow rmpp arrived.element.buf env
  | .timer => True
  | .destroy => True

/-- How the buffer of a tracked receive follows its window. -/
structure Tracked (rmpp : Rmpp) : Prop where
  size_eq_bytes : rmpp.pMadElement.size.toNat = rmpp.pMadElement.buf.bytes
  bytes_eq : rmpp.pMadElement.buf.bytes =
    madRmppHdrSize + madRmppDataSize * rmpp.segLimit.toNat
  limit_pos : 0 < rmpp.segLimit.toNat
  more : rmpp.pMadElement.buf.isFlagSet ibRmppFlagLast = false
  started : 1 ≤ rmpp.expectedSeg.toNat
  expected_le : rmpp.expectedSeg.toNat ≤ rmpp.capacity + 1

namespace Tracked
variable {rmpp : Rmpp}

section
variable (tracked : Tracked rmpp)
include tracked

theorem fitting_eq : rmpp.fitting = rmpp.capacity := by
  rw [Rmpp.fitting, tracked.bytes_eq]
  rfl

/-- The window never exceeds what fits. -/
theorem limit_le_capacity : rmpp.segLimit.toNat ≤ rmpp.capacity := by
  have positive := tracked.limit_pos
  unfold Rmpp.capacity RmppMad.hdrLen RmppMad.dataLen
  split
  all_goals
    simp only [madRmppHdrSize, madRmppDataSize, ibSaMadHdrSize, ibSaDataSize, madBlockSize]
    omega

theorem withData {data : List UInt8} (length : data.length = rmpp.pMadElement.buf.data.length) :
    Tracked (rmpp.withData data) := by
  obtain ⟨size, bytes, positive, more, started, expected⟩ := tracked
  simp only [RmppMad.bytes] at size bytes
  refine ⟨?_, ?_, positive, more, started, expected⟩
  · simp only [Rmpp.withData, RmppMad.bytes, length]
    exact size
  · simp only [Rmpp.withData, RmppMad.bytes, length]
    exact bytes

/-- Where `copySegment` writes the next expected segment. -/
theorem copy_offset : (rmpp.pMadElement.buf.dataLen.toUInt32 * (rmpp.expectedSeg - 1)).toNat =
      rmpp.pMadElement.buf.dataLen * (rmpp.expectedSeg.toNat - 1) := by
  have size := tracked.size_eq_bytes
  have bytes := tracked.bytes_eq
  have expected := tracked.expected_le
  have small := rmpp.pMadElement.size.toNat_lt
  have fits : rmpp.pMadElement.buf.dataLen * rmpp.capacity ≤
      madRmppHdrSize + madRmppDataSize * rmpp.segLimit.toNat - rmpp.pMadElement.buf.hdrLen :=
    Nat.mul_div_le _ _
  have grows := Nat.mul_le_mul_left rmpp.pMadElement.buf.dataLen
    (show rmpp.expectedSeg.toNat - 1 ≤ rmpp.capacity by omega)
  rw [RmppMad.toNat_dataLen_mul _ tracked.started, Nat.mod_eq_of_lt (by omega)]

/-- The next expected segment ends inside the buffer exactly when the buffer has
the capacity for it. -/
theorem copy_end_le_iff : rmpp.pMadElement.buf.hdrLen - madRmppHdrSize +
        rmpp.pMadElement.buf.dataLen * (rmpp.expectedSeg.toNat - 1) +
        rmpp.pMadElement.buf.dataLen ≤ rmpp.pMadElement.buf.data.length ↔
      rmpp.expectedSeg.toNat ≤ rmpp.capacity := by
  have started := tracked.started
  have bytes := tracked.bytes_eq
  have header := rmpp.pMadElement.buf.madRmppHdrSize_le_hdrLen
  simp only [RmppMad.bytes] at bytes
  unfold Rmpp.capacity RmppMad.hdrLen RmppMad.dataLen
  split
  all_goals
    simp only [madRmppHdrSize, madRmppDataSize, ibSaMadHdrSize, ibSaDataSize, madBlockSize] at *
    omega

end
end Tracked

/-- A tracked receive and a MAD matched to it are of one class. -/
theorem Rmpp.tracks_isSa {rmpp : Rmpp} {element : MadElement} (matched : rmpp.tracks element = true) :
    element.buf.isSa = rmpp.pMadElement.buf.isSa := by
  simp only [Rmpp.tracks, Bool.and_eq_true, beq_iff_eq] at matched
  simp only [RmppMad.isSa, matched.1.1.1.2]

/-- The payload part of an arrived block. -/
private theorem arrived_read (arrived : ArrivedMad) (mad : RmppMad) :
    ∃ chunk, Memory.read arrived.element.buf.data (mad.hdrLen - madRmppHdrSize) mad.dataLen =
        some chunk ∧
      chunk.length = mad.dataLen := by
  have block := arrived.block
  have header := mad.madRmppHdrSize_le_hdrLen
  have sum := mad.hdrLen_add_dataLen
  simp only [RmppMad.bytes] at block
  have copied := Memory.read_eq_some (show mad.hdrLen - madRmppHdrSize + mad.dataLen ≤
    arrived.element.buf.data.length by omega)
  exact ⟨_, copied, Memory.length_of_read copied⟩

section Segment
variable {rmpp : Rmpp} {arrived : ArrivedMad} {env : RecvEnv} {destroying : Bool}

section
variable (tracked : Tracked rmpp) (matched : rmpp.tracks arrived.element = true)
  (next : arrived.element.buf.segNum = rmpp.expectedSeg)
include tracked matched next

/-- The next segment is copied when the buffer has the capacity for it. -/
theorem Tracked.copySegment_of_fits (fits : rmpp.expectedSeg.toNat ≤ rmpp.capacity) :
    ∃ data, copySegment rmpp arrived.element = some (rmpp.withData data) ∧
      data.length = rmpp.pMadElement.buf.data.length := by
  obtain ⟨chunk, copied, length⟩ := arrived_read arrived rmpp.pMadElement.buf
  have written := Memory.write_eq_some
    (show rmpp.pMadElement.buf.hdrLen - madRmppHdrSize + rmpp.pMadElement.buf.dataLen *
      (rmpp.expectedSeg.toNat - 1) + chunk.length ≤ rmpp.pMadElement.buf.data.length by
        rw [length]
        exact tracked.copy_end_le_iff.mpr fits)
  refine ⟨_, ?_, Memory.length_of_write written⟩
  simp only [copySegment, RmppMad.hdrLen_of_isSa (Rmpp.tracks_isSa matched),
    RmppMad.dataLen_of_isSa (Rmpp.tracks_isSa matched), next, tracked.copy_offset, copied, written,
    bind_eq_bind, bind_some]

/-- Beyond the capacity the copy of the next segment leaves the buffer. -/
theorem Tracked.copySegment_of_full (full : ¬ rmpp.expectedSeg.toNat ≤ rmpp.capacity) :
    copySegment rmpp arrived.element = none := by
  obtain ⟨chunk, copied, length⟩ := arrived_read arrived rmpp.pMadElement.buf
  have overrun : Memory.write rmpp.pMadElement.buf.data
      (rmpp.pMadElement.buf.hdrLen - madRmppHdrSize + rmpp.pMadElement.buf.dataLen *
        (rmpp.expectedSeg.toNat - 1)) chunk = none := by
    rw [Memory.write, if_neg]
    rw [length]
    exact mt tracked.copy_end_le_iff.mp full
  simp only [copySegment, RmppMad.hdrLen_of_isSa (Rmpp.tracks_isSa matched),
    RmppMad.dataLen_of_isSa (Rmpp.tracks_isSa matched), next, tracked.copy_offset, copied, overrun,
    bind_eq_bind, bind_some, bind_none]

end

theorem ackFits_getRmppAck_iff :
    AckFits (getRmppAck rmpp env.ackOk) rmpp ↔
      (env.ackOk = true → (ackWindow rmpp).toNat ≤ rmpp.fitting) := by
  cases available : env.ackOk with
  | false => simp [AckFits, getRmppAck]
  | true => simp [AckFits, getRmppAck, RmppMad.setRespTime]

/-- The offered window fits unless it is offered at the end of the window, for a MAD
with more segments to come, and nothing fits beyond. -/
theorem ackWindow_le_iff {bound : Nat} (inside : rmpp.segLimit.toNat ≤ bound)
    (small : rmpp.segLimit.toNat + 1 < 2 ^ 32)
    (more : rmpp.pMadElement.buf.isFlagSet ibRmppFlagLast = false) :
    (ackWindow rmpp).toNat ≤ bound ↔
      (rmpp.expectedSeg - 1 = rmpp.segLimit → rmpp.segLimit.toNat + 1 ≤ bound) := by
  have sum : (1 + rmpp.segLimit).toNat = rmpp.segLimit.toNat + 1 := by
    rw [UInt32.toNat_add]
    simp
    omega
  by_cases limit : rmpp.expectedSeg - 1 = rmpp.segLimit
  · simp [ackWindow, limit, more, sum, - UInt32.toNat_add]
  · have other : ¬ rmpp.segLimit = rmpp.expectedSeg - 1 := fun equal => limit equal.symm
    simp [ackWindow, limit, other, inside]

section
variable (tracked : Tracked rmpp)
include tracked

theorem Tracked.capacity_lt : rmpp.capacity + 1 < 2 ^ 32 := by
  have size := tracked.size_eq_bytes
  have bytes := tracked.bytes_eq
  have small := rmpp.pMadElement.size.toNat_lt
  unfold Rmpp.capacity RmppMad.hdrLen RmppMad.dataLen
  split
  all_goals
    simp only [madRmppHdrSize, madRmppDataSize, ibSaMadHdrSize, ibSaDataSize, madBlockSize] at *
    omega

/-- The ACK of a tracked receive fits unless it is given at the end of the window and nothing fits
beyond. -/
theorem Tracked.ackFits_iff : AckFits (getRmppAck rmpp env.ackOk) rmpp ↔ (env.ackOk = true →
      rmpp.expectedSeg - 1 = rmpp.segLimit → rmpp.segLimit.toNat + 1 ≤ rmpp.capacity) := by
  have inside := tracked.limit_le_capacity
  have small := lt_of_le_of_lt (Nat.succ_le_succ inside) tracked.capacity_lt
  rw [ackFits_getRmppAck_iff, tracked.fitting_eq, ackWindow_le_iff inside small tracked.more]

/-- The receive after one more segment whose window stays as it is. -/
theorem Tracked.advance (fits : rmpp.expectedSeg.toNat ≤ rmpp.capacity) :
    Tracked (rmpp.advanced destroying) := by
  have small := tracked.capacity_lt
  have started := tracked.started
  have next : (rmpp.expectedSeg + 1).toNat = rmpp.expectedSeg.toNat + 1 := by
    rw [UInt32.toNat_add]
    simp
    omega
  simp only [Rmpp.advanced]
  refine ⟨tracked.size_eq_bytes, tracked.bytes_eq, tracked.limit_pos, tracked.more, ?_, ?_⟩
  · rw [next]
    omega
  · rw [next]
    exact Nat.succ_le_succ fits

/-- The receive after the segment that made its buffer grow. -/
theorem Tracked.grown (limit : rmpp.expectedSeg = rmpp.segLimit)
    (small : rmpp.pMadElement.size.toNat + windowBytes.toNat < 2 ^ 32) :
    Tracked (rmpp.enlarged destroying) := by
  obtain ⟨size, bytes, positive, more, started, expected⟩ := tracked
  have window := windowBytes_toNat
  have bound := rmpp.segLimit.toNat_lt
  have sixteen : alRmppWindow.toNat = 16 := rfl
  simp only [RmppMad.bytes, madRmppHdrSize, madRmppDataSize, madBlockSize] at size bytes
  have nextLimit : (rmpp.segLimit + alRmppWindow).toNat = rmpp.segLimit.toNat + 16 := by
    rw [UInt32.toNat_add]
    omega
  have nextSeg : (rmpp.expectedSeg + 1).toNat = rmpp.segLimit.toNat + 1 := by
    rw [limit, UInt32.toNat_add]
    simp
    omega
  simp only [Rmpp.enlarged, Rmpp.advanced]
  refine ⟨?_, ?_, ?_, more, ?_, ?_⟩
  · simp only [RmppMad.bytes, length_append, length_replicate, madRmppHdrSize]
    rw [UInt32.toNat_add]
    omega
  · simp only [RmppMad.bytes, length_append, length_replicate, madRmppHdrSize,
      madRmppDataSize, madBlockSize, nextLimit]
    omega
  · simp only [nextLimit]
    omega
  · simp only [nextSeg]
    omega
  · simp only [nextSeg, Rmpp.capacity, nextLimit, RmppMad.hdrLen, RmppMad.dataLen]
    split
    all_goals
      simp only [madRmppHdrSize, madRmppDataSize, ibSaMadHdrSize, ibSaDataSize, madBlockSize]
      omega

/-- The last segment is acknowledged safely unless it is the last of its window and
nothing fits beyond. -/
theorem Tracked.processSegment_last (matched : rmpp.tracks arrived.element = true)
    (next : arrived.element.buf.segNum = rmpp.expectedSeg)
    (fits : rmpp.expectedSeg.toNat ≤ rmpp.capacity)
    (last : arrived.element.buf.isFlagSet ibRmppFlagLast = true) :
    ∃ result, processSegment destroying rmpp (some arrived.element) env = some result ∧
      result.status = .success ∧
      (AckFits result.ack result.rmpp ↔ (env.ackOk = true →
        arrived.element.buf.segNum = rmpp.segLimit → rmpp.segLimit.toNat + 1 ≤ rmpp.capacity)) := by
  obtain ⟨data, copied, length⟩ := tracked.copySegment_of_fits matched next fits
  have copy := tracked.withData length
  refine ⟨_, (processSegment_of_copy copied).trans (advanceSegment_last last), rfl, ?_⟩
  -- The ACK does not read the size, which is all that completing the receive changes.
  refine (@Tracked.ackFits_iff _ env (@Tracked.advance _ destroying copy fits)).trans ?_
  change (_ → rmpp.expectedSeg + 1 - 1 = rmpp.segLimit → _) ↔ _
  rw [add_sub_cancel_right, next]
  rfl

end

/-- The receive of the same MAD one segment later. -/
structure Rmpp.Follows (after rmpp : Rmpp) : Prop where
  expected : after.expectedSeg = rmpp.expectedSeg + 1
  tracks : after.tracks = rmpp.tracks

/-- Once its data is copied, a segment with more to come is safe and keeps the
buffer behind the window, unless the next buffer size does not fit in 32 bits. -/
theorem Tracked.advanceSegment_more (tracked : Tracked rmpp) {mad : RmppMad}
    (next : mad.segNum = rmpp.expectedSeg) (fits : rmpp.expectedSeg.toNat ≤ rmpp.capacity)
    (more : mad.isFlagSet ibRmppFlagLast = false)
    (room : mad.segNum = rmpp.segLimit → env.mallocOk = true →
      rmpp.pMadElement.size.toNat + windowBytes.toNat < 2 ^ 32) :
    ∃ result, advanceSegment destroying rmpp mad env = some result ∧
      result.status = .notDone ∧ AckFits result.ack result.rmpp ∧ Tracked result.rmpp ∧
      result.rmpp.Follows rmpp := by
  by_cases limit : mad.segNum = rmpp.segLimit
  · cases allocated : env.mallocOk with
    | false =>
      exact ⟨_, advanceSegment_refused more limit allocated, rfl, by simp [AckFits],
        tracked.advance fits, rfl, rfl⟩
    | true =>
      -- The new size is even, so it is not the one value below 2 ^ 32 that is refused.
      have even : rmpp.pMadElement.size.toNat + windowBytes.toNat < 2 ^ 32 - 1 := by
        have small := room limit allocated
        have size := tracked.size_eq_bytes
        have bytes := tracked.bytes_eq
        simp [windowBytes_toNat] at *
        omega
      have grown : Tracked (rmpp.enlarged destroying) :=
        tracked.grown (next.symm.trans limit) (room limit allocated)
      refine ⟨_, advanceSegment_resize more limit allocated tracked.size_eq_bytes even, rfl, ?_,
        grown, rfl, rfl⟩
      -- The window has moved on, so the ACK is not given at its end.
      refine grown.ackFits_iff.mpr fun _ atEnd => ?_
      change rmpp.expectedSeg + 1 - 1 = rmpp.segLimit + alRmppWindow at atEnd
      rw [← next, limit, add_sub_cancel_right] at atEnd
      exact absurd (add_eq_left.mp atEnd.symm) (by decide)
  · exact ⟨_, advanceSegment_inside more limit, rfl, by simp [AckFits], tracked.advance fits, rfl, rfl⟩

section
variable (tracked : Tracked rmpp) (matched : rmpp.tracks arrived.element = true)
  (next : arrived.element.buf.segNum = rmpp.expectedSeg)
include tracked matched next

/-- The condition is needed: outside the window the copy, the resize or the ACK of
the next segment goes wrong. -/
theorem Tracked.withinWindow_of_safe {result : SegmentResult}
    (processed : processSegment destroying rmpp (some arrived.element) env = some result)
    (safe : AckFits result.ack result.rmpp) : WithinWindow rmpp arrived.element.buf env := by
  have fits : rmpp.expectedSeg.toNat ≤ rmpp.capacity := by
    by_contra full
    simp [processSegment, tracked.copySegment_of_full matched next full] at processed
  refine ⟨fun _ => fits, fun _ limit more allocated => ?_, ?_⟩
  · by_contra wraps
    obtain ⟨data, copied, -⟩ := tracked.copySegment_of_fits matched next fits
    rw [processSegment_of_copy copied, @advanceSegment_overrun destroying (rmpp.withData data) _ env
      more limit allocated (not_lt.mp wraps)] at processed
    cases processed
  · rintro available (⟨-, last, limit⟩ | ⟨old, -⟩)
    · obtain ⟨known, eq, -, safe_iff⟩ := @Tracked.processSegment_last _ _ env destroying
        tracked matched next fits last
      rw [eq, some.injEq] at processed
      subst processed
      exact safe_iff.mp safe available limit
    · rw [next] at old
      exact absurd old (UInt32.lt_irrefl _)

/-- The condition suffices, and a receive that goes on stays tracked. -/
theorem Tracked.processSegment_safe (within : WithinWindow rmpp arrived.element.buf env) :
    ∃ result, processSegment destroying rmpp (some arrived.element) env = some result ∧
      AckFits result.ack result.rmpp ∧ (result.status ≠ .success → Tracked result.rmpp) := by
  have fits := within.copy next
  cases flag : arrived.element.buf.isFlagSet ibRmppFlagLast with
  | true =>
    obtain ⟨result, processed, status, safe_iff⟩ := @Tracked.processSegment_last _ _ env
      destroying tracked matched next fits flag
    refine ⟨result, processed, safe_iff.mpr fun available limit => ?_,
      fun unfinished => absurd status unfinished⟩
    exact within.ack available (.inl ⟨next, flag, limit⟩)
  | false =>
    obtain ⟨data, copied, length⟩ := tracked.copySegment_of_fits matched next fits
    obtain ⟨result, advanced, -, safe, kept, -⟩ := @Tracked.advanceSegment_more _ env destroying
      (tracked.withData length) _ next fits flag
      fun limit allocated => within.grow next limit flag allocated
    exact ⟨result, (processSegment_of_copy copied).trans advanced, safe, fun _ => kept⟩

end
end Segment

/-! ### The whole receive list -/

/-- Every receive of the service keeps its buffer behind its window. -/
def AllTracked (svc : RecvSvc) : Prop := ∀ rmpp ∈ svc.recvList, Tracked rmpp

theorem ArrivedMad.getMadRmpp_capacity (arrived : ArrivedMad) :
    (getMadRmpp arrived.element).capacity = 1 := by
  change (madRmppHdrSize + madRmppDataSize * 1 - arrived.element.buf.hdrLen) /
    arrived.element.buf.dataLen = 1
  unfold RmppMad.hdrLen RmppMad.dataLen
  split <;> rfl

/-- A first segment with more to come starts a tracked receive. -/
theorem ArrivedMad.getMadRmpp_tracked (arrived : ArrivedMad)
    (more : arrived.element.buf.isFlagSet ibRmppFlagLast = false) :
    Tracked (getMadRmpp arrived.element) := by
  have capacity := arrived.getMadRmpp_capacity
  refine ⟨?_, arrived.block, Nat.one_pos, more, Nat.le_refl 1, ?_⟩
  · change arrived.element.size.toNat = arrived.element.buf.bytes
    rw [arrived.size_eq, arrived.block]
    rfl
  · rw [capacity]
    exact Nat.le_succ 1

/-- A first segment is always safe. -/
theorem ArrivedMad.processSegment_safe (arrived : ArrivedMad) (destroying : Bool) (env : RecvEnv)
    (first : arrived.element.buf.segNum = 1) :
    ∃ result, processSegment destroying (getMadRmpp arrived.element) none env = some result ∧
      AckFits result.ack result.rmpp ∧ (result.status ≠ .success → Tracked result.rmpp) := by
  cases flag : arrived.element.buf.isFlagSet ibRmppFlagLast with
  | true =>
    refine ⟨_, advanceSegment_last flag, ?_, fun unfinished => absurd rfl unfinished⟩
    have window : ackWindow ((getMadRmpp arrived.element).completed destroying
        arrived.element.buf) = 1 := by
      simp [ackWindow, Rmpp.completed, Rmpp.advanced, getMadRmpp, flag]
    have fitting : ((getMadRmpp arrived.element).completed destroying arrived.element.buf).fitting = 1 := by
      have capacity := arrived.getMadRmpp_capacity
      rw [← capacity, Rmpp.fitting, Rmpp.capacity]
      change (arrived.element.buf.bytes - _) / _ = _
      rw [arrived.block]
      rfl
    rw [ackFits_getRmppAck_iff]
    intro _
    exact (congrArg UInt32.toNat window).trans_le fitting.ge
  | false =>
    have tracked := arrived.getMadRmpp_tracked flag
    have room : arrived.element.size.toNat + windowBytes.toNat < 2 ^ 32 := by
      rw [arrived.size_eq]
      decide
    obtain ⟨result, advanced, -, safe, kept, -⟩ := @Tracked.advanceSegment_more _ env destroying
      tracked _ first arrived.getMadRmpp_capacity.ge flag (fun _ _ => room)
    exact ⟨result, advanced, safe, fun _ => kept⟩

section Service
variable {svc : RecvSvc} {arrived : ArrivedMad} {env : RecvEnv} {index : Nat} {rmpp : Rmpp}

theorem findRmpp_eq_some (found : findRmpp svc arrived.element = some index) :
    ∃ rmpp, svc.recvList[index]? = some rmpp ∧ rmpp.tracks arrived.element = true := by
  obtain ⟨bound, matched, -⟩ := findIdx?_eq_some_iff_getElem.mp found
  exact ⟨svc.recvList[index], getElem?_eq_getElem bound, matched⟩

variable {result : SegmentResult} {curSeg : UInt32} {arrival : Option MadElement}

/-- Storing or dropping a processed receive keeps the list tracked. -/
theorem AllTracked.update (all : AllTracked svc)
    (kept : result.status ≠ .success → Tracked result.rmpp) :
    AllTracked { svc with recvList := if result.status = .success then
      svc.recvList.eraseIdx index else svc.recvList.set index result.rmpp } := by
  intro rmpp member
  by_cases status : result.status = .success
  · simp only [status, if_true] at member
    exact all rmpp (mem_of_mem_eraseIdx member)
  · simp only [status, if_false] at member
    rcases mem_or_eq_of_mem_set member with old | rfl
    · exact all rmpp old
    · exact kept status

theorem processTracked_next (next : curSeg = rmpp.expectedSeg) :
    processTracked svc index rmpp curSeg arrival env =
      (processSegment svc.destroying rmpp arrival env).map fun result =>
        ⟨{ svc with recvList := if result.status = .success then svc.recvList.eraseIdx index
            else svc.recvList.set index result.rmpp },
          result.status, result.ack, some result.rmpp⟩ := by
  simp only [processTracked, next, if_true]
  cases processSegment svc.destroying rmpp arrival env <;> rfl

theorem processTracked_old (old : curSeg < rmpp.expectedSeg) :
    processTracked svc index rmpp curSeg arrival env =
      some ⟨svc, .duplicate, getRmppAck rmpp env.ackOk, some rmpp⟩ := by
  simp [processTracked, old, UInt32.ne_of_lt old]

section
variable (all : AllTracked svc) (listed : svc.recvList[index]? = some rmpp)
  (matched : rmpp.tracks arrived.element = true)
include all listed matched

/-- A segment matched to a tracked receive is safe when it is within the window. -/
theorem processTracked_safe (within : WithinWindow rmpp arrived.element.buf env) :
    ∃ result, processTracked svc index rmpp arrived.element.buf.segNum (some arrived.element) env =
        some result ∧
      (∀ rmpp ∈ result.rmpp, AckFits result.ack rmpp) ∧ AllTracked result.svc := by
  have tracked := all rmpp (mem_of_getElem? listed)
  by_cases next : arrived.element.buf.segNum = rmpp.expectedSeg
  · obtain ⟨result, processed, safe, kept⟩ := @Tracked.processSegment_safe _ _ _ svc.destroying
      tracked matched next within
    refine ⟨_, (processTracked_next next).trans (congrArg _ processed), ?_, all.update kept⟩
    simpa using safe
  · by_cases old : arrived.element.buf.segNum < rmpp.expectedSeg
    · refine ⟨_, processTracked_old old, ?_, all⟩
      rintro _ ⟨⟩
      exact tracked.ackFits_iff.mpr fun available limit => within.ack available (.inr ⟨old, limit⟩)
    · exact ⟨_, (if_neg next).trans (if_neg old), by simp [AckFits], all⟩

/-- The condition is needed for a segment matched to a tracked receive. -/
theorem withinWindow_of_processTracked {result : DataResult}
    (processed : processTracked svc index rmpp arrived.element.buf.segNum (some arrived.element) env = some result)
    (safe : ∀ rmpp ∈ result.rmpp, AckFits result.ack rmpp) :
    WithinWindow rmpp arrived.element.buf env := by
  have tracked := all rmpp (mem_of_getElem? listed)
  by_cases next : arrived.element.buf.segNum = rmpp.expectedSeg
  · rw [processTracked_next next] at processed
    obtain ⟨segment, advanced, rfl⟩ := map_eq_some_iff.mp processed
    exact tracked.withinWindow_of_safe matched next advanced (safe _ rfl)
  · refine ⟨fun equal => absurd equal next, fun equal => absurd equal next, ?_⟩
    rintro available (⟨equal, -⟩ | ⟨old, limit⟩)
    · exact absurd equal next
    · rw [processTracked_old old] at processed
      cases processed
      exact tracked.ackFits_iff.mp (safe rmpp rfl) available limit

end

/-- Storing or dropping a receive that was just started keeps the list tracked. -/
theorem AllTracked.start (all : AllTracked svc) (first : Rmpp)
    (kept : result.status ≠ .success → Tracked result.rmpp) :
    AllTracked { svc with recvList := if result.status = .success then
      (svc.recvList ++ [first]).eraseIdx svc.recvList.length
      else (svc.recvList ++ [first]).set svc.recvList.length result.rmpp } := by
  intro rmpp member
  by_cases status : result.status = .success
  · simp only [status, if_true, eraseIdx_append_of_length_le (Nat.le_refl _), Nat.sub_self,
      eraseIdx_cons_zero, append_nil] at member
    exact all rmpp member
  · simp only [status, if_false, set_append_right _ _ (Nat.le_refl _), Nat.sub_self,
      set_cons_zero, mem_append, mem_singleton] at member
    rcases member with old | rfl
    · exact all rmpp old
    · exact kept status

/-- A first segment that matches no receive starts one at the end of the list. -/
theorem processRmppData_first (found : findRmpp svc arrived.element = none)
    (first : arrived.element.buf.segNum = 1) (available : env.trackOk = true) :
    processRmppData svc arrived.element env =
      processTracked { svc with recvList := svc.recvList ++ [getMadRmpp arrived.element] }
        svc.recvList.length (getMadRmpp arrived.element) 1 none env := by
  simp [processRmppData, found, first, available]

/-- Within the window a DATA MAD is safe and leaves every receive tracked. -/
theorem processRmppData_safe (all : AllTracked svc)
    (within : EventWithinWindow svc (.data arrived env)) :
    ∃ result, processRmppData svc arrived.element env = some result ∧
      (∀ rmpp ∈ result.rmpp, AckFits result.ack rmpp) ∧ AllTracked result.svc := by
  cases found : findRmpp svc arrived.element with
  | some index =>
    obtain ⟨rmpp, listed, matched⟩ := findRmpp_eq_some found
    obtain ⟨result, processed, safe, kept⟩ :=
      processTracked_safe all listed matched (within index rmpp found listed)
    refine ⟨result, ?_, safe, kept⟩
    simp [processRmppData, found, listed, processed]
  | none =>
    by_cases first : arrived.element.buf.segNum = 1
    · cases available : env.trackOk with
      | true =>
        obtain ⟨result, processed, safe, kept⟩ :=
          arrived.processSegment_safe svc.destroying env first
        exact ⟨_, (processRmppData_first found first available).trans
          ((processTracked_next rfl).trans (congrArg _ processed)),
          by simpa using safe, all.start _ kept⟩
      | false =>
        exact ⟨⟨svc, .insufficientMemory, none, none⟩,
          by simp [processRmppData, found, first, available], by simp, all⟩
    · exact ⟨⟨svc, .notFound, none, none⟩, by simp [processRmppData, found, first], by simp, all⟩

/-- One event within its window keeps every receive tracked. -/
theorem AllTracked.step {after : RecvSvc} {event : RecvEvent} (all : AllTracked svc)
    (within : EventWithinWindow svc event) (transition : recvMachine.step svc event after) :
    AllTracked after := by
  cases event with
  | data arrived env =>
    obtain ⟨result, processed, rfl⟩ := transition
    obtain ⟨known, eq, -, kept⟩ := processRmppData_safe all within
    rw [eq, some.injEq] at processed
    exact processed ▸ kept
  | timer =>
    cases transition
    intro rmpp member
    obtain ⟨old, listed, rfl⟩ := mem_map.mp member
    obtain ⟨size, bytes, positive, more, started, expected⟩ := all old (mem_filter.mp listed).1
    exact ⟨size, bytes, positive, more, started, expected⟩
  | destroy =>
    cases transition
    exact all

/-- In every state reached by events within their windows all receives are tracked. -/
theorem allTracked_of_reachable (reachable : recvMachine.Reachable EventWithinWindow svc) :
    AllTracked svc :=
  reachable.invariant (fun _ start => by cases start; simp [AllTracked])
    (fun _ _ _ all within transition => all.step within transition)

/-- In every run whose events stay within their windows an event is safe exactly
when it stays within its window too. -/
theorem safeStep_iff_eventWithinWindow (reachable : recvMachine.Reachable EventWithinWindow svc)
    (event : RecvEvent) : SafeStep svc event ↔ EventWithinWindow svc event := by
  have all := allTracked_of_reachable reachable
  cases event with
  | data arrived env =>
    constructor
    · rintro ⟨result, processed, safe⟩ index rmpp found listed
      have matched : rmpp.tracks arrived.element = true := by
        obtain ⟨known, eq, matched⟩ := findRmpp_eq_some found
        rw [eq, some.injEq] at listed
        exact listed ▸ matched
      simp only [processRmppData, found, listed, bind_eq_bind, bind_some] at processed
      exact withinWindow_of_processTracked all listed matched processed safe
    · intro within
      obtain ⟨result, processed, safe, -⟩ := processRmppData_safe all within
      exact ⟨result, processed, safe⟩
  | timer => exact Iff.rfl
  | destroy => exact Iff.rfl

end Service

/-- Segment `segNum` of a vendor class MAD with more segments to come. -/
def sampleSegment (segNum : UInt32) : ArrivedMad where
  element :=
    { buf :=
        { commonHdr :=
            { baseVer := 1, mgmtClass := 0x30, classVer := 1, method := 0x92, status := 0
              classSpec := 0, transId := 9, attrId := 0, resv := 0, attrMod := 0 }
          rmppVersion := 1, rmppType := ibRmppTypeData, rmppFlags := ibRmppFlagActive
          rmppStatus := 0, segNum, paylenNewwin := 0, data := List.replicate madRmppDataSize 0 }
      size := 256, alMadBuf := false, remoteLid := 1, remoteQp := 1, rmppVersion := 0
      timeoutMs := 0, retryCnt := 0, respExpected := false }
  block := by
    rw [RmppMad.bytes, List.length_replicate]
    rfl
  size_eq := rfl

/-- A service whose one receive has had its first segment, with the next window open
or refused. -/
def sampleSvc (opened : Bool) : RecvSvc :=
  let first := getMadRmpp (sampleSegment 1).element
  ⟨[if opened then first.enlarged false else first.advanced false], false⟩

/-- The service gets there by one event. -/
theorem sampleSvc_step (opened : Bool) :
    recvMachine.step ⟨[], false⟩ (.data (sampleSegment 1) ⟨opened, true, true⟩) (sampleSvc opened) := by
  have started (env : RecvEnv) (available : env.trackOk = true) :=
    @processRmppData_first ⟨[], false⟩ (sampleSegment 1) env rfl rfl available
  cases opened with
  | false =>
    have refused := @advanceSegment_refused false (getMadRmpp (sampleSegment 1).element)
      (sampleSegment 1).element.buf ⟨false, true, true⟩ rfl rfl rfl
    refine ⟨⟨sampleSvc false, .notDone, none,
      some ((getMadRmpp (sampleSegment 1).element).advanced false)⟩, ?_, rfl⟩
    exact (started _ rfl).trans ((processTracked_next rfl).trans (congrArg _ refused))
  | true =>
    have resized := @advanceSegment_resize false (getMadRmpp (sampleSegment 1).element)
      (sampleSegment 1).element.buf ⟨true, true, true⟩ rfl rfl rfl (sampleSegment 1).block.symm
      (by decide)
    refine ⟨⟨sampleSvc true, .notDone,
      getRmppAck ((getMadRmpp (sampleSegment 1).element).enlarged false) true,
      some ((getMadRmpp (sampleSegment 1).element).enlarged false)⟩, ?_, rfl⟩
    exact (started _ rfl).trans ((processTracked_next rfl).trans (congrArg _ resized))

/-- After a first segment that opened its window the second one is safe. -/
theorem secondSegment_safe :
    recvMachine.Reachable EventWithinWindow (sampleSvc true) ∧
      SafeStep (sampleSvc true) (.data (sampleSegment 2) ⟨true, true, true⟩) := by
  have opened : recvMachine.Reachable EventWithinWindow (sampleSvc true) :=
    .step (.initial rfl) (by rintro _ _ ⟨⟩) (sampleSvc_step true)
  refine ⟨opened, (safeStep_iff_eventWithinWindow opened _).mpr ?_⟩
  intro index rmpp found listed
  obtain rfl : index = 0 := by
    have first : findRmpp (sampleSvc true) (sampleSegment 2).element = some 0 := by decide +kernel
    rw [first] at found
    exact (some.inj found).symm
  cases listed
  refine ⟨fun _ => by decide +kernel, fun _ limit => ?_, ?_⟩
  · exact absurd limit (by decide +kernel)
  · rintro - (⟨-, -, limit⟩ | ⟨old, -⟩)
    · exact absurd limit (by decide +kernel)
    · exact absurd old (by decide +kernel)

/-- When the first window cannot be opened the next segment is copied past the end
of the block, and a repeated first segment is answered with a window of two. -/
theorem refusedWindow_overrun :
    recvMachine.Reachable (fun _ _ => True) (sampleSvc false) ∧
    processRmppData (sampleSvc false) (sampleSegment 2).element ⟨true, true, true⟩ = none ∧
    ∃ result ack rmpp,
      processRmppData (sampleSvc false) (sampleSegment 1).element ⟨true, true, true⟩ =
        some result ∧
      result.ack = some ack ∧ result.rmpp = some rmpp ∧ ack.paylenNewwin = 2 ∧
      rmpp.fitting = 1 :=
  ⟨.step (.initial rfl) trivial (sampleSvc_step false), by decide +kernel,
    _, _, _, rfl, rfl, rfl, rfl, by decide +kernel⟩

end WinOFED.Mad
