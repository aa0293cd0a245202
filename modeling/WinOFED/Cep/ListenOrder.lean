import WinOFED.Cep.Listen

/-! The order of the listens.

The listen map is searched with comparisons in which `IB_ALL_PORTS` and missing compare
buffers are wildcards. Between listens that are ordered by `Precedes` every search goes
along that order. -/
namespace WinOFED.Cep
open RedBlack Complib
variable {order cmp : Ordering} {mask : UInt8} {rest : LookupVerdict} {side : Side}
  {req : ListenReq} {listen first second : ListenParams} {info : ListenInfo}

@[simp] theorem sideOf_left : sideOf order = some .left ↔ order = .lt := by
  cases order <;> simp [sideOf]

@[simp] theorem sideOf_right : sideOf order = some .right ↔ order = .gt := by
  cases order <;> simp [sideOf]

@[simp] theorem sideOf_none : sideOf order = none ↔ order = .eq := by
  cases order <;> simp [sideOf]

/-! ### Comparison of RDMA CM requests -/

instance transCmp_maskedCmp {β γ : Type*} [Ord γ] [Std.TransOrd γ] (mask bit : UInt8)
    (field : β → γ) : Std.TransCmp (maskedCmp mask bit field) where
  eq_swap {first second} := by
    unfold maskedCmp
    split
    · exact Std.OrientedCmp.eq_swap
    · rfl
  isLE_trans {first second third} := by
    unfold maskedCmp
    split
    · exact Std.TransCmp.isLE_trans
    · exact fun _ _ => rfl

instance transCmp_rdmaReqCmp (mask : UInt8) : Std.TransCmp (rdmaReqCmp mask) :=
  inferInstanceAs (Std.TransCmp
    (compareLex (compareOn RdmaReq.majMinVer) (compareLex (compareOn RdmaReq.ipv)
      (compareLex (maskedCmp mask 0x01 RdmaReq.srcPort)
        (compareLex (maskedCmp mask 0x02 RdmaReq.srcIpAddr) (maskedCmp mask 0x04 RdmaReq.dstIpAddr))))))

/-- The fields under the mask are the same. -/
def RdmaReq.Agrees (mask : UInt8) (first second : RdmaReq) : Prop :=
  first.majMinVer = second.majMinVer ∧ first.ipv = second.ipv ∧
    (mask &&& 0x01 ≠ 0 → first.srcPort = second.srcPort) ∧
    (mask &&& 0x02 ≠ 0 → first.srcIpAddr = second.srcIpAddr) ∧
    (mask &&& 0x04 ≠ 0 → first.dstIpAddr = second.dstIpAddr)

instance (mask : UInt8) (first second : RdmaReq) : Decidable (first.Agrees mask second) :=
  inferInstanceAs (Decidable (_ ∧ _))

theorem maskedCmp_eq {β γ : Type*} [Ord γ] [Std.LawfulEqOrd γ] {bit : UInt8} {field : β → γ}
    {first second : β} :
    maskedCmp mask bit field first second = .eq ↔ (mask &&& bit ≠ 0 → field first = field second) := by
  unfold maskedCmp
  split
  next set => simp [set]
  next clear => simp [not_not.mp clear]

theorem rdmaReqCmp_eq {first second : RdmaReq} :
    rdmaReqCmp mask first second = .eq ↔ first.Agrees mask second := by
  simp only [rdmaReqCmp, Ordering.then_eq_eq, Std.compare_eq_iff_eq, maskedCmp_eq, RdmaReq.Agrees]

/-! ### What a listen is for -/

namespace ListenParams

/-- The REQ is for this listen: same service, its port or all ports, and no compare buffer
or one that is equal to the private data at the offset (for RDMA CM, under the mask). -/
def Matches (listen : ListenParams) (req : ListenReq) : Prop :=
  listen.sid = req.sid ∧ (listen.portGuid = allPorts ∨ listen.portGuid = req.portGuid) ∧
    ∀ buf, listen.cmpBuf = some buf →
      if isRdmaCmSid listen.sid then
        (RdmaReq.ofBytes req.pdata).Agrees listen.cmpOffset (.ofBytes buf)
      else (req.pdata.drop listen.cmpOffset.toNat).take listen.cmpLen.toNat = buf

/-- A compare buffer is as long as said, valid for RDMA CM, and otherwise compared with
bytes that a REQ has. -/
def WellFormed (listen : ListenParams) : Prop :=
  ∀ buf, listen.cmpBuf = some buf → buf.length = listen.cmpLen.toNat ∧
    if isRdmaCmSid listen.sid then (RdmaReq.ofBytes buf).isValid = true
    else listen.cmpOffset.toNat + listen.cmpLen.toNat ≤ reqPdataSize

end ListenParams

theorem LookupVerdict.compared_matched :
    LookupVerdict.compared cmp rest = .matched ↔ cmp = .eq ∧ rest = .matched := by
  cases cmp <;> simp [LookupVerdict.compared, sideOf]

theorem LookupVerdict.compared_stop :
    (LookupVerdict.compared cmp rest).side = none ↔ cmp = .eq ∧ rest.side = none := by
  cases cmp <;> simp [LookupVerdict.compared, LookupVerdict.side, sideOf]

theorem LookupVerdict.compared_side :
    (LookupVerdict.compared cmp rest).side = some side ↔
      sideOf cmp = some side ∨ cmp = .eq ∧ rest.side = some side := by
  cases cmp <;> simp [LookupVerdict.compared, LookupVerdict.side, sideOf]

/-- A REQ that agrees with a valid compare buffer is valid. -/
theorem RdmaReq.Agrees.isValid {first second : RdmaReq} (agrees : first.Agrees mask second)
    (valid : second.isValid) : first.isValid := by
  obtain ⟨version, ipv, _⟩ := agrees
  simpa [RdmaReq.isValid, version, ipv] using valid

/-- The comparison of the data decides about the compare buffer. -/
theorem lookupData_matched (formed : listen.WellFormed) (sid : listen.sid = req.sid) :
    lookupData req listen = .matched ↔ ∀ buf, listen.cmpBuf = some buf →
      if isRdmaCmSid listen.sid then
        (RdmaReq.ofBytes req.pdata).Agrees listen.cmpOffset (.ofBytes buf)
      else (req.pdata.drop listen.cmpOffset.toNat).take listen.cmpLen.toNat = buf := by
  unfold lookupData
  cases buffer : listen.cmpBuf with
  | none => simp
  | some buf =>
    obtain ⟨length, range⟩ := formed buf buffer
    simp only [Option.some.injEq, forall_eq', sid]
    rw [sid] at range
    cases rdma : isRdmaCmSid req.sid with
    | true =>
      simp only [rdma, if_true] at range
      by_cases valid : (RdmaReq.ofBytes req.pdata).isValid
      · simp [valid, LookupVerdict.compared_matched, rdmaReqCmp_eq]
      · simp only [valid, if_true, reduceCtorEq, not_false_eq_true, false_iff, Bool.false_eq_true]
        exact fun agrees => valid (agrees.isValid range)
    | false =>
      simp only [rdma, Bool.false_eq_true, if_false] at range
      have inside : ¬ reqPdataSize < listen.cmpOffset.toNat := by omega
      have whole : min listen.cmpLen.toNat (reqPdataSize - listen.cmpOffset.toNat) =
          listen.cmpLen.toNat := by omega
      have full : buf.take listen.cmpLen.toNat = buf := List.take_of_length_le (by omega)
      simp only [Bool.false_eq_true, if_false, inside, whole, full,
        LookupVerdict.compared_matched, Std.compare_eq_iff_eq, and_true]

/-- The loop of `__lookup_listen` returns a CEP exactly if it matches. -/
theorem lookupVerdict_matched (formed : listen.WellFormed) :
    lookupVerdict req listen = .matched ↔ listen.Matches req := by
  unfold lookupVerdict ListenParams.Matches
  rw [LookupVerdict.compared_matched, LookupVerdict.compared_matched, Std.compare_eq_iff_eq, eq_comm]
  refine and_congr_right fun same => ?_
  rw [lookupData_matched formed same]
  refine and_congr_left fun _ => ?_
  by_cases all : listen.portGuid = allPorts
  · simp [all]
  · simp only [all, ne_eq, not_false_eq_true, if_true, false_or, Std.compare_eq_iff_eq]
    exact eq_comm

/-! ### The order of the listens -/

/-- One listen comes before another in the listen map: by service, by port, or, for RDMA
CM, by compare buffers under the same mask. -/
inductive Precedes (first second : ListenParams) : Prop
  | sid : first.sid < second.sid → Precedes first second
  | port : first.sid = second.sid → first.portGuid ≠ allPorts → second.portGuid ≠ allPorts →
      first.portGuid < second.portGuid → Precedes first second
  | data (one two : List UInt8) : first.sid = second.sid → first.portGuid = second.portGuid →
      isRdmaCmSid first.sid → first.cmpBuf = some one → second.cmpBuf = some two →
      first.cmpLen = second.cmpLen → first.cmpOffset = second.cmpOffset →
      rdmaReqCmp first.cmpOffset (.ofBytes one) (.ofBytes two) = .lt → Precedes first second

theorem Precedes.trans {third : ListenParams} (before : Precedes first second)
    (after : Precedes second third) : Precedes first third := by
  cases before with
  | sid less =>
    cases after with
    | sid more => exact .sid (UInt64.lt_trans less more)
    | port same => exact .sid (same ▸ less)
    | data _ _ same => exact .sid (same ▸ less)
  | port same one two less =>
    cases after with
    | sid more => exact .sid (same ▸ more)
    | port equal _ three more => exact .port (same.trans equal) one three (UInt64.lt_trans less more)
    | data _ _ equal port => exact .port (same.trans equal) one (port ▸ two) (port ▸ less)
  | data one two same port rdma buf other len offset less =>
    cases after with
    | sid more => exact .sid (same ▸ more)
    | port equal here three more =>
      exact .port (same.trans equal) (port ▸ here) three (port ▸ more)
    | data next three equal place _ again last length mask more =>
      obtain rfl : two = next := Option.some.inj (other.symm.trans again)
      exact .data one three (same.trans equal) (port.trans place) rdma buf last (len.trans length)
        (offset.trans mask) (Std.TransCmp.lt_trans less (offset ▸ more))

/-- Both listens have the same service and reach the same port only if one precedes the
other by compare buffers. -/
theorem Precedes.cmpBuf (before : Precedes first second) (same : first.sid = second.sid)
    (port : first.portGuid ≠ allPorts → second.portGuid ≠ allPorts →
      first.portGuid = second.portGuid) : first.cmpBuf.isSome ∧ second.cmpBuf.isSome := by
  cases before with
  | sid less => exact absurd same (UInt64.ne_of_lt less)
  | port _ one two less => exact absurd (port one two) (UInt64.ne_of_lt less)
  | data one two _ _ _ buf other => simp [buf, other]

/-! ### Searching along the order -/

/-- A value is on the given side of another one. -/
def Beside (side : Side) (value other : UInt64) : Prop :=
  match side with
  | .left => value < other
  | .right => other < value

theorem sideOf_compare {value other : UInt64} :
    sideOf (compare value other) = some side ↔ Beside side value other := by
  cases side with
  | left => rw [sideOf_left, Std.compare_eq_lt]; rfl
  | right => rw [sideOf_right, Std.compare_eq_gt]; rfl

theorem Beside.trans {one two three : UInt64} (first : Beside side one two)
    (second : Beside side two three) : Beside side one three := by
  cases side with
  | left => exact UInt64.lt_trans first second
  | right => exact UInt64.lt_trans second first

theorem sideOf_trans {β : Type*} {cmp : β → β → Ordering} [Std.TransCmp cmp] {one two three : β}
    (first : sideOf (cmp one two) = some side) (second : sideOf (cmp two three) = some side) :
    sideOf (cmp one three) = some side := by
  cases side with
  | left =>
    rw [sideOf_left] at *
    exact Std.TransCmp.lt_trans first second
  | right =>
    rw [sideOf_right] at *
    exact Std.TransCmp.gt_trans first second

theorem sideOf_then {first second : Ordering} :
    sideOf (first.then second) = some side ↔
      sideOf first = some side ∨ first = .eq ∧ sideOf second = some side := by
  cases first <;> simp [sideOf]

/-- The loop of `__lookup_listen` goes to a side by service, port or data. -/
theorem lookupVerdict_side :
    (lookupVerdict req listen).side = some side ↔
      Beside side req.sid listen.sid ∨ req.sid = listen.sid ∧
        (listen.portGuid ≠ allPorts ∧ Beside side req.portGuid listen.portGuid ∨
          (listen.portGuid = allPorts ∨ req.portGuid = listen.portGuid) ∧
            (lookupData req listen).side = some side) := by
  unfold lookupVerdict
  rw [LookupVerdict.compared_side, LookupVerdict.compared_side, sideOf_compare, Std.compare_eq_iff_eq]
  by_cases all : listen.portGuid = allPorts
  · simp [all, sideOf]
  · simp [all, sideOf_compare]

/-- With compare buffers for RDMA CM the data decides by their order. -/
theorem lookupData_side {buf : List UInt8} (rdma : isRdmaCmSid req.sid)
    (buffer : listen.cmpBuf = some buf) :
    (lookupData req listen).side = some side ↔ (RdmaReq.ofBytes req.pdata).isValid ∧
      sideOf (rdmaReqCmp listen.cmpOffset (.ofBytes req.pdata) (.ofBytes buf)) = some side := by
  simp only [lookupData, buffer, rdma, if_true]
  cases (RdmaReq.ofBytes req.pdata).isValid with
  | true =>
    have stops : LookupVerdict.matched.side ≠ some side := by simp [LookupVerdict.side]
    simp [LookupVerdict.compared_side, stops]
  | false => simp [LookupVerdict.side]

/-- The first listen is on the given side of the second one in the order. -/
def Ahead (side : Side) (first second : ListenParams) : Prop :=
  match side with
  | .left => Precedes first second
  | .right => Precedes second first

theorem ahead_iff :
    Ahead side first second ↔ Beside side first.sid second.sid ∨ first.sid = second.sid ∧
      ((first.portGuid ≠ allPorts ∧ second.portGuid ≠ allPorts ∧
          Beside side first.portGuid second.portGuid) ∨
        first.portGuid = second.portGuid ∧ ∃ one two, first.cmpBuf = some one ∧
          second.cmpBuf = some two ∧ first.cmpLen = second.cmpLen ∧
          first.cmpOffset = second.cmpOffset ∧ isRdmaCmSid first.sid ∧
          sideOf (rdmaReqCmp second.cmpOffset (.ofBytes one) (.ofBytes two)) = some side) := by
  cases side with
  | left =>
    constructor
    · rintro (less | ⟨same, here, there, less⟩ | ⟨one, two, same, port, rdma, buf, other, len, mask, less⟩)
      · exact .inl less
      · exact .inr ⟨same, .inl ⟨here, there, less⟩⟩
      · exact .inr ⟨same, .inr ⟨port, one, two, buf, other, len, mask, rdma, sideOf_left.mpr (mask ▸ less)⟩⟩
    · rintro (less | ⟨same, ⟨here, there, less⟩ | ⟨port, one, two, buf, other, len, mask, rdma, less⟩⟩)
      · exact .sid less
      · exact .port same here there less
      · exact .data one two same port rdma buf other len mask (mask ▸ sideOf_left.mp less)
  | right =>
    constructor
    · rintro (less | ⟨same, there, here, less⟩ | ⟨two, one, same, port, rdma, other, buf, len, mask, less⟩)
      · exact .inl less
      · exact .inr ⟨same.symm, .inl ⟨here, there, less⟩⟩
      · exact .inr ⟨same.symm, .inr ⟨port.symm, one, two, buf, other, len.symm, mask.symm,
          same ▸ rdma, sideOf_right.mpr (Std.OrientedCmp.gt_of_lt less)⟩⟩
    · rintro (less | ⟨same, ⟨here, there, less⟩ | ⟨port, one, two, buf, other, len, mask, rdma, more⟩⟩)
      · exact .sid less
      · exact .port same.symm there here less
      · exact .data two one same.symm port.symm (same ▸ rdma) other buf len.symm mask.symm
          (Std.OrientedCmp.lt_of_gt (sideOf_right.mp more))

/-- If the search goes to a side of a listen, it goes to that side of those behind it. -/
theorem Ahead.lookup (ahead : Ahead side first second)
    (goes : (lookupVerdict req first).side = some side) :
    (lookupVerdict req second).side = some side := by
  rw [lookupVerdict_side] at goes ⊢
  rcases ahead_iff.mp ahead with
    less | ⟨equal, ⟨here, there, less⟩ | ⟨place, one, two, buf, other, -, mask, rdma, less⟩⟩
  · rcases goes with beside | ⟨same, _⟩
    · exact .inl (beside.trans less)
    · exact .inl (same ▸ less)
  · rw [equal] at goes
    rcases goes with beside | ⟨same, ⟨_, beside⟩ | ⟨port, _⟩⟩
    · exact .inl beside
    · exact .inr ⟨same, .inl ⟨there, beside.trans less⟩⟩
    · exact .inr ⟨same, .inl ⟨there, port.resolve_left here ▸ less⟩⟩
  · rw [equal, place] at goes
    rcases goes with beside | ⟨same, beside | ⟨port, data⟩⟩
    · exact .inl beside
    · exact .inr ⟨same, .inl beside⟩
    · have rdmaReq : isRdmaCmSid req.sid := by rw [same, ← equal]; exact rdma
      rw [lookupData_side rdmaReq buf, mask] at data
      refine .inr ⟨same, .inr ⟨port, (lookupData_side rdmaReq other).mpr ⟨data.1, ?_⟩⟩⟩
      exact sideOf_trans data.2 less

/-! ### Entering a listen -/

/-- A new listen is ordered against an established one: for the same service both are on
all ports or neither is, and without RDMA CM no two have compare buffers for the same
range of the same port's REQs. -/
def ListenInfo.Compatible (info : ListenInfo) (listen : ListenParams) : Prop :=
  info.sid = listen.sid →
    (info.portGuid = allPorts ↔ listen.portGuid = allPorts) ∧
      (isRdmaCmSid info.sid ∨ info.portGuid ≠ listen.portGuid ∨ info.cmpBuf = none ∨
        listen.cmpBuf = none ∨ info.cmpLen ≠ listen.cmpLen ∨ info.cmpOffset ≠ listen.cmpOffset)

/-- Without RDMA CM the range to be compared is one a REQ has. -/
def ListenInfo.InRange (info : ListenInfo) : Prop :=
  isRdmaCmSid info.sid ∨ info.cmpBuf = none ∨
    info.cmpOffset.toNat + info.cmpLen.toNat ≤ reqPdataSize

theorem listenPortCmp_side {info : ListenParams} :
    sideOf (listenPortCmp info listen) = some side ↔
      info.portGuid ≠ allPorts ∧ listen.portGuid ≠ allPorts ∧
        Beside side info.portGuid listen.portGuid := by
  unfold listenPortCmp
  split_ifs with both
  · simp [sideOf_compare, both]
  · simp only [sideOf, reduceCtorEq, false_iff]
    exact fun beside => both ⟨beside.1, beside.2.1⟩

theorem listenPortCmp_eq {info : ListenParams}
    (alike : info.portGuid = allPorts ↔ listen.portGuid = allPorts) :
    listenPortCmp info listen = .eq ↔ info.portGuid = listen.portGuid := by
  unfold listenPortCmp
  split_ifs with both
  · exact Std.compare_eq_iff_eq
  · by_cases all : info.portGuid = allPorts
    · simp [all, alike.mp all]
    · exact absurd ⟨all, mt alike.mpr all⟩ both

theorem listenDataCmp_side (ordered : isRdmaCmSid info.sid ∨ info.cmpBuf = none ∨
      listen.cmpBuf = none ∨ info.cmpLen ≠ listen.cmpLen ∨ info.cmpOffset ≠ listen.cmpOffset) :
    sideOf (listenDataCmp info listen) = some side ↔
      ∃ new old, info.cmpBuf = some new ∧ listen.cmpBuf = some old ∧
        info.cmpLen = listen.cmpLen ∧ info.cmpOffset = listen.cmpOffset ∧ isRdmaCmSid info.sid ∧
        sideOf (rdmaReqCmp listen.cmpOffset (.ofBytes new) (.ofBytes old)) = some side := by
  unfold listenDataCmp
  cases old : listen.cmpBuf with
  | none => simp [sideOf]
  | some oldBuf =>
    cases new : info.cmpBuf with
    | none => simp [sideOf]
    | some newBuf =>
      simp only [old, new, reduceCtorEq, false_or] at ordered
      simp only [Option.some.injEq, exists_eq_left', exists_and_left]
      by_cases len : info.cmpLen = listen.cmpLen
      · by_cases offset : info.cmpOffset = listen.cmpOffset
        · have rdma : isRdmaCmSid info.sid := by simpa [len, offset] using ordered
          simp [len, offset, rdma]
        · simp [len, offset, sideOf]
      · simp [len, sideOf]

/-- The search of `al_cep_listen` goes to a side by service, port or data. -/
theorem listenProbe_side :
    listenProbe info listen = some side ↔
      Beside side info.sid listen.sid ∨ info.sid = listen.sid ∧
        (sideOf (listenPortCmp info.toListenParams listen) = some side ∨
          listenPortCmp info.toListenParams listen = .eq ∧
            sideOf (listenDataCmp info listen) = some side) := by
  unfold listenProbe
  rw [sideOf_then, sideOf_then, sideOf_compare, Std.compare_eq_iff_eq]

/-- The search goes to a side of exactly the listens that the new one is on that side of. -/
theorem ListenInfo.Compatible.probe (compatible : info.Compatible listen) :
    listenProbe info listen = some side ↔ Ahead side info.toListenParams listen := by
  rw [listenProbe_side, ahead_iff, listenPortCmp_side]
  refine or_congr_right (and_congr_right fun same => ?_)
  obtain ⟨alike, ordered⟩ := compatible same
  rw [listenPortCmp_eq alike]
  refine or_congr_right (and_congr_right fun port => listenDataCmp_side ?_)
  exact ordered.imp_right fun rest => rest.resolve_left (not_not.mpr port)

end WinOFED.Cep
