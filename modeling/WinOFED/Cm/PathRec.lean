import WinOFED.Wire.Net

/-! What the connection manager reads of a path record, and the parts that its messages have
in common.

A `net16_t` or `net64_t` is the number it stands for; a `net32_t` is its bytes, since the
messages are put together from them. -/
namespace WinOFED.Cm
open Wire BitVec

/-- `ib_gid_t`. -/
structure Gid where
  subnetPrefix : BitVec 64
  interfaceId : BitVec 64
deriving DecidableEq, Repr

/-- The fields of `ib_path_rec_t` that go into messages. -/
structure PathRec where
  dgid : Gid
  sgid : Gid
  dlid : BitVec 16
  slid : BitVec 16
  hopFlowRaw : Net32
  tclass : Byte
  pkey : BitVec 16
  qosClassSl : BitVec 16
  mtu : Byte
  rate : Byte
  pktLife : Byte
deriving DecidableEq, Repr

/-- `ib_gid_is_link_local`. -/
def ibGidIsLinkLocal (gid : Gid) : Bool :=
  gid.subnetPrefix &&& 0xFFC0000000000000 = 0xFE80000000000000

variable (path : PathRec)

/-- `ib_path_rec_flow_lbl`. -/
def ibPathRecFlowLbl : Net32 :=
  hton32 ((ntoh32 path.hopFlowRaw >>> 8) &&& 0x000FFFFF)

/-- `ib_path_rec_hop_limit`. -/
def ibPathRecHopLimit : Byte :=
  (ntoh32 path.hopFlowRaw &&& 0x000000FF).setWidth 8

/-- `ib_path_rec_sl`. -/
def ibPathRecSl : Byte := (path.qosClassSl &&& 0x000F).setWidth 8

/-- `ib_path_rec_mtu`. -/
def ibPathRecMtu : Byte := path.mtu &&& 0x3F

/-- `ib_path_rec_rate`. -/
def ibPathRecRate : Byte := path.rate &&& 0x3F

/-- `ib_path_rec_pkt_life`. -/
def ibPathRecPktLife : Byte := path.pktLife &&& 0x3F

theorem ntoh32_ibPathRecFlowLbl_lt : (ntoh32 (ibPathRecFlowLbl path)).toNat < 2 ^ 20 := by
  rw [ibPathRecFlowLbl, ntoh32_hton32, toNat_and]
  exact Nat.lt_of_le_of_lt Nat.and_le_right (by decide)

theorem ibPathRecSl_lt : (ibPathRecSl path).toNat < 2 ^ 4 := by
  rw [ibPathRecSl, toNat_setWidth, toNat_and]
  exact Nat.lt_of_le_of_lt (Nat.le_trans (Nat.mod_le ..) Nat.and_le_right) (by decide)

/-! ### Timeouts -/

/-- `MAX_LOCAL_ACK_TIMEOUT`. -/
def maxLocalAckTimeout : Nat := 0x1F

/-- The loop of `calc_lcl_ack_timeout`, for the least power of two above the time. -/
def ackTimeoutAbove (timeout : Nat) : Nat → Nat → Nat
  | 0, exponent => exponent
  | rounds + 1, exponent =>
      if 2 ^ exponent ≤ timeout then
        if maxLocalAckTimeout < exponent + 1 then maxLocalAckTimeout
        else ackTimeoutAbove timeout rounds (exponent + 1)
      else exponent

/-- `calc_lcl_ack_timeout`. The processor takes the count of a 64-bit shift modulo 64. -/
def calcLclAckTimeout (roundTripTime targetAckDelay : Byte) : Byte :=
  if targetAckDelay = 0 then
    if maxLocalAckTimeout < roundTripTime.toNat then BitVec.ofNat 8 maxLocalAckTimeout
    else roundTripTime
  else
    let timeout := (2 ^ (roundTripTime.toNat % 64) + 2 ^ (targetAckDelay.toNat % 64)) % 2 ^ 64
    BitVec.ofNat 8 (ackTimeoutAbove timeout maxLocalAckTimeout 1)

theorem ackTimeoutAbove_le (timeout rounds : Nat) {exponent : Nat}
    (start : exponent ≤ maxLocalAckTimeout) :
    ackTimeoutAbove timeout rounds exponent ≤ maxLocalAckTimeout := by
  induction rounds generalizing exponent with
  | zero => exact start
  | succ rounds ih =>
    simp only [ackTimeoutAbove]
    split
    · split
      · exact Nat.le_refl _
      · exact ih (by omega)
    · exact start

/-- The timeout fits into its field. -/
theorem calcLclAckTimeout_lt (roundTripTime targetAckDelay : Byte) :
    (calcLclAckTimeout roundTripTime targetAckDelay).toNat < 2 ^ 5 := by
  simp only [calcLclAckTimeout]
  split
  · split
    · decide
    case isFalse small => exact Nat.lt_succ_of_le (Nat.le_of_not_lt small)
  · rw [toNat_ofNat]
    refine Nat.lt_of_le_of_lt (Nat.mod_le ..) (Nat.lt_succ_of_le ?_)
    exact ackTimeoutAbove_le _ _ (by decide)

/-! ### Fields of 24 and 20 bits -/

/-- `__set_low24`. -/
def setLow24 (field value : Net32) : Net32 := ⟨value.b1, value.b2, value.b3, field.b3⟩

/-- `__get_low24`. -/
def getLow24 (field : Net32) : Net32 := hton32 (ntoh32 field >>> 8)

/-- `__get_low20`. -/
def getLow20 (field : Net32) : Net32 := hton32 (ntoh32 field >>> 12)

/-- Change the last byte of a field. -/
def setByte3 (field : Net32) (change : Byte → Byte) : Net32 := { field with b3 := change field.b3 }

/-- What `setLow24` writes is read, whatever stands behind it. -/
theorem getLow24_mk {value : Net32} (fits : value.b0 = 0) (last : Byte) :
    getLow24 ⟨value.b1, value.b2, value.b3, last⟩ = value := by
  rw [getLow24, hton32_shiftRight_eight, ← fits]

variable (field : Net32)

/-- A flow label of 20 bits that is written as one of 24 is read without its last four. -/
theorem getLow20_setLow24 {label : Net32} (fits : (ntoh32 label).toNat < 2 ^ 20)
    {mask : Byte} :
    getLow20 ((setLow24 field (label.and (hton32 0x000FFFFF))).and ⟨0xFF, 0xFF, 0xF0, mask⟩) =
      hton32 (ntoh32 label >>> 4) := by
  have high : ∀ bit, 20 ≤ bit → (ntoh32 label).getLsbD bit = false := by
    intro bit above
    rw [getLsbD]
    exact Nat.testBit_lt_two_pow (Nat.lt_of_lt_of_le fits (Nat.pow_le_pow_right (by decide) above))
  rw [getLow20, hton32_inj]
  apply eq_of_getLsbD_eq
  intro bit inside
  rw [getLsbD_ushiftRight, getLsbD_ushiftRight, getLsbD_ntoh32]
  have known : hton32 0x000FFFFF = ⟨0x00, 0x0F, 0xFF, 0xFF⟩ := by decide
  by_cases above : 16 ≤ bit
  · rw [high (4 + bit) (by omega), known]
    simp only [setLow24, Net32.and]
    interval_cases bit <;> simp
  · rw [getLsbD_ntoh32, known]
    simp only [setLow24, Net32.and]
    interval_cases bit <;> simp

theorem getLow24_setByte3 (change : Byte → Byte) : getLow24 (setByte3 field change) = getLow24 field := by
  rw [getLow24, getLow24, hton32_shiftRight_eight, hton32_shiftRight_eight]
  rfl

theorem getLow20_setByte3 (change : Byte → Byte) : getLow20 (setByte3 field change) = getLow20 field := by
  rw [getLow20, getLow20, hton32_inj]
  apply eq_of_getLsbD_eq
  intro bit inside
  rw [getLsbD_ushiftRight, getLsbD_ushiftRight, getLsbD_ntoh32, getLsbD_ntoh32]
  -- the byte that changes holds the bits below eight
  simp only [setByte3, show ¬ 12 + bit < 8 by omega, if_false]

/-! ### Private data -/

/-- `ib_api_status_t`, as far as private data is concerned. -/
inductive PdataStatus
  | success
  | invalidSetting
  | invalidParameter
deriving DecidableEq, Repr

/-- The data with zeros behind it, as `cl_memcpy` and `cl_memclr` leave a field of a message. -/
def padded (size : Nat) (data : List Byte) : List Byte :=
  data ++ List.replicate (size - data.length) 0

end WinOFED.Cm
