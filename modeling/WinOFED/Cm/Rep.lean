import WinOFED.Cm.PathRec

/-! The REP message: what its setters write and its getters read. -/
namespace WinOFED.Cm
open Wire

/-- `mad_cm_rep_t` behind its header. -/
structure MadCmRep where
  localCommId : Net32
  remoteCommId : Net32
  localQkey : Net32
  /-- Local QPN:24, rsvd:8 -/
  offset12 : Net32
  /-- Local EECN:24, rsvd:8 -/
  offset16 : Net32
  /-- Starting PSN:24 rsvd:8 -/
  offset20 : Net32
  respResources : Byte
  initiatorDepth : Byte
  /-- Target ACK Delay:5, Failover Accepted:2, End-to-End Flow Control:1 -/
  offset26 : Byte
  /-- RNR Retry Count:3, rsvd:5 -/
  offset27 : Byte
  localCaGuid : BitVec 64
  pdata : List Byte
deriving DecidableEq, Repr

/-- `IB_REP_PDATA_SIZE`. -/
def ibRepPdataSize : Nat := 196

/-- `IB_FAILOVER_ACCEPT_SUCCESS`. -/
def ibFailoverAcceptSuccess : Byte := 0

/-- `IB_FAILOVER_ACCEPT_ERROR`. -/
def ibFailoverAcceptError : Byte := 2

def connRepGetLclQpn (rep : MadCmRep) : Net32 := getLow24 rep.offset12

def connRepSetLclQpn (qpn : Net32) (rep : MadCmRep) : MadCmRep :=
  { rep with offset12 := setLow24 rep.offset12 qpn }

def connRepGetStartingPsn (rep : MadCmRep) : Net32 := getLow24 rep.offset20

def connRepSetStartingPsn (startingPsn : Net32) (rep : MadCmRep) : MadCmRep :=
  { rep with offset20 := setLow24 rep.offset20 startingPsn }

def connRepGetTargetAckDelay (rep : MadCmRep) : Byte := rep.offset26 >>> 3

/-- The bits kept are not those of the other fields of the byte. -/
def connRepSetTargetAckDelay (targetAckDelay : Byte) (rep : MadCmRep) : MadCmRep :=
  { rep with offset26 := putBits 0xE0 3 targetAckDelay rep.offset26 }

def connRepGetFailover (rep : MadCmRep) : Byte := getBits 1 0x3 rep.offset26

def connRepSetFailover (failover : Byte) (rep : MadCmRep) : MadCmRep :=
  { rep with offset26 := putBits 0xF9 1 (failover &&& 0x03) rep.offset26 }

def connRepGetE2eFlowCtl (rep : MadCmRep) : Bool := rep.offset26 &&& 0x01 ≠ 0

def connRepSetE2eFlowCtl (e2eFlowCtl : Bool) (rep : MadCmRep) : MadCmRep :=
  { rep with offset26 := putBits 0xFE 0 (if e2eFlowCtl then 1 else 0) rep.offset26 }

def connRepGetRnrRetryCnt (rep : MadCmRep) : Byte := rep.offset27 >>> 5

def connRepSetRnrRetryCnt (rnrRetryCnt : Byte) (rep : MadCmRep) : MadCmRep :=
  { rep with offset27 := rnrRetryCnt <<< 5 }

def connRepSetPdata (data : Option (List Byte)) (rep : MadCmRep) : PdataStatus × MadCmRep :=
  match data with
  | some data =>
      if ibRepPdataSize < data.length then (.invalidSetting, rep)
      else (.success, { rep with pdata := padded ibRepPdataSize data })
  | none => (.success, { rep with pdata := padded ibRepPdataSize [] })

def connRepClrRsvdFields (rep : MadCmRep) : MadCmRep :=
  { rep with
    offset12 := setByte3 rep.offset12 fun _ => 0
    offset16 := hton32 0
    offset20 := setByte3 rep.offset20 fun _ => 0
    offset27 := rep.offset27 &&& 0xE0 }

/-- `iba_cm_rep`, but for what `al_cep_pre_rep` has put into the CEP. -/
structure IbaCmRep where
  pdata : Option (List Byte)
  failoverAccepted : Byte
  flowCtrl : Bool
  rnrRetryCnt : Byte
deriving DecidableEq, Repr

/-- What `__format_rep` takes from the CEP and from its CA. -/
structure RepSource where
  localCommId : Net32
  remoteCommId : Net32
  localQpn : Net32
  rqPsn : Net32
  /-- `av[1].port_guid` -/
  altPortGuid : BitVec 64
  respRes : Byte
  initDepth : Byte
  localAckDelay : Byte
  localCaGuid : BitVec 64
deriving DecidableEq, Repr

/-- What `__format_rep` does about the failover status. If failover is refused nothing is
written; an alternate path that could not be realised is refused. -/
def formatRepFailover (source : RepSource) (cmRep : IbaCmRep) (rep : MadCmRep) : MadCmRep :=
  if cmRep.failoverAccepted ≠ ibFailoverAcceptSuccess then rep
  else if source.altPortGuid = 0 then connRepSetFailover ibFailoverAcceptError rep
  else connRepSetFailover cmRep.failoverAccepted rep

/-- `__format_rep`, over whatever was in the MAD before. -/
def formatRep (source : RepSource) (cmRep : IbaCmRep) (rep : MadCmRep) : PdataStatus × MadCmRep :=
  let rep := { rep with localCommId := source.localCommId }
  let rep := { rep with remoteCommId := source.remoteCommId }
  let rep := connRepSetLclQpn source.localQpn rep
  let rep := connRepSetStartingPsn source.rqPsn rep
  let rep := formatRepFailover source cmRep rep
  let rep := { rep with respResources := source.respRes }
  let rep := connRepSetTargetAckDelay source.localAckDelay rep
  let rep := { rep with initiatorDepth := source.initDepth }
  let rep := connRepSetE2eFlowCtl cmRep.flowCtrl rep
  let rep := connRepSetRnrRetryCnt (cmRep.rnrRetryCnt &&& 0x07) rep
  let rep := { rep with localCaGuid := source.localCaGuid }
  let (status, rep) := connRepSetPdata cmRep.pdata rep
  (status, connRepClrRsvdFields rep)

/-! ### Reading the message -/

/-- What the getters read of a REP. -/
structure RepView where
  localCommId : Net32
  remoteCommId : Net32
  lclQpn : Net32
  startingPsn : Net32
  respResources : Byte
  initiatorDepth : Byte
  targetAckDelay : Byte
  failover : Byte
  e2eFlowCtl : Bool
  rnrRetryCnt : Byte
  localCaGuid : BitVec 64
  pdata : List Byte
deriving DecidableEq, Repr

/-- What the getters read from a REP. -/
def MadCmRep.view (rep : MadCmRep) : RepView :=
  { localCommId := rep.localCommId, remoteCommId := rep.remoteCommId
    lclQpn := connRepGetLclQpn rep, startingPsn := connRepGetStartingPsn rep
    respResources := rep.respResources, initiatorDepth := rep.initiatorDepth
    targetAckDelay := connRepGetTargetAckDelay rep, failover := connRepGetFailover rep
    e2eFlowCtl := connRepGetE2eFlowCtl rep, rnrRetryCnt := connRepGetRnrRetryCnt rep
    localCaGuid := rep.localCaGuid, pdata := rep.pdata }

/-- What a REP is to say. -/
def IbaCmRep.view (cmRep : IbaCmRep) (source : RepSource) : RepView :=
  { localCommId := source.localCommId, remoteCommId := source.remoteCommId
    lclQpn := source.localQpn, startingPsn := source.rqPsn, respResources := source.respRes
    initiatorDepth := source.initDepth, targetAckDelay := source.localAckDelay
    failover := cmRep.failoverAccepted, e2eFlowCtl := cmRep.flowCtrl
    rnrRetryCnt := cmRep.rnrRetryCnt, localCaGuid := source.localCaGuid
    pdata := padded ibRepPdataSize (cmRep.pdata.getD []) }

/-- What a CEP keeps of a REP. -/
structure SavedRep where
  remoteCommId : Net32
  remoteCaGuid : BitVec 64
  remoteQpn : Net32
  targetAckDelay : Byte
  /-- The timeouts of the address vectors; the second is left alone if there is no port. -/
  localAckTimeouts : Byte × Byte
  rnrRetryCnt : Byte
  initDepth : Byte
  respRes : Byte
  sqPsn : Net32
  pdata : List Byte
deriving DecidableEq, Repr

/-- The address vectors of a CEP, as far as `__save_wire_rep` changes them. -/
structure AckTimeouts where
  primary : Byte
  alternate : Byte
  altPortGuid : BitVec 64
deriving DecidableEq, Repr

/-- The timeouts with the delay of the other side. -/
def AckTimeouts.delayed (timeouts : AckTimeouts) (targetAckDelay : Byte) : Byte × Byte :=
  (calcLclAckTimeout timeouts.primary targetAckDelay,
    if timeouts.altPortGuid = 0 then timeouts.alternate
    else calcLclAckTimeout timeouts.alternate targetAckDelay)

/-- `__save_wire_rep`. -/
def saveWireRep (timeouts : AckTimeouts) (rep : MadCmRep) : SavedRep :=
  { remoteCommId := rep.localCommId, remoteCaGuid := rep.localCaGuid
    remoteQpn := connRepGetLclQpn rep, targetAckDelay := connRepGetTargetAckDelay rep
    localAckTimeouts := timeouts.delayed (connRepGetTargetAckDelay rep)
    rnrRetryCnt := connRepGetRnrRetryCnt rep, initDepth := rep.respResources
    respRes := rep.initiatorDepth, sqPsn := connRepGetStartingPsn rep, pdata := rep.pdata }

/-- What a CEP is to keep of a REP. -/
def RepView.saved (timeouts : AckTimeouts) (view : RepView) : SavedRep :=
  { remoteCommId := view.localCommId, remoteCaGuid := view.localCaGuid
    remoteQpn := view.lclQpn, targetAckDelay := view.targetAckDelay
    localAckTimeouts := timeouts.delayed view.targetAckDelay, rnrRetryCnt := view.rnrRetryCnt
    initDepth := view.respResources, respRes := view.initiatorDepth, sqPsn := view.startingPsn
    pdata := view.pdata }

/-- The values fit into their fields. -/
structure IbaCmRep.Fits (cmRep : IbaCmRep) (source : RepSource) : Prop where
  localQpn : source.localQpn.b0 = 0
  rqPsn : source.rqPsn.b0 = 0
  localAckDelay : source.localAckDelay.toNat < 2 ^ 5
  failoverAccepted : cmRep.failoverAccepted.toNat < 2 ^ 2
  rnrRetryCnt : cmRep.rnrRetryCnt.toNat < 2 ^ 3
  pdata : ∀ data, cmRep.pdata = some data → data.length ≤ ibRepPdataSize

/-! ### The writes, one by one -/

/-- The fields of a REP. -/
inductive RepField
  | localCommId
  | remoteCommId
  | lclQpn
  | startingPsn
  | respResources
  | initiatorDepth
  | targetAckDelay
  | failover
  | e2eFlowCtl
  | rnrRetryCnt
  | localCaGuid
  | pdata
deriving DecidableEq, Repr

/-- A field reads the same in two messages. -/
def RepField.Agrees : RepField → MadCmRep → MadCmRep → Prop
  | localCommId, before, after => before.localCommId = after.localCommId
  | remoteCommId, before, after => before.remoteCommId = after.remoteCommId
  | lclQpn, before, after => connRepGetLclQpn before = connRepGetLclQpn after
  | startingPsn, before, after => connRepGetStartingPsn before = connRepGetStartingPsn after
  | respResources, before, after => before.respResources = after.respResources
  | initiatorDepth, before, after => before.initiatorDepth = after.initiatorDepth
  | targetAckDelay, before, after =>
      connRepGetTargetAckDelay before = connRepGetTargetAckDelay after
  | failover, before, after => connRepGetFailover before = connRepGetFailover after
  | e2eFlowCtl, before, after => connRepGetE2eFlowCtl before = connRepGetE2eFlowCtl after
  | rnrRetryCnt, before, after => connRepGetRnrRetryCnt before = connRepGetRnrRetryCnt after
  | localCaGuid, before, after => before.localCaGuid = after.localCaGuid
  | pdata, before, after => before.pdata = after.pdata

/-- What `__format_rep` writes before the ACK delay. -/
def repWritesBefore (source : RepSource) (cmRep : IbaCmRep) : List (Write MadCmRep RepField) :=
  [⟨.localCommId, fun rep => { rep with localCommId := source.localCommId }⟩,
    ⟨.remoteCommId, fun rep => { rep with remoteCommId := source.remoteCommId }⟩,
    ⟨.lclQpn, connRepSetLclQpn source.localQpn⟩,
    ⟨.startingPsn, connRepSetStartingPsn source.rqPsn⟩] ++
  (if cmRep.failoverAccepted ≠ ibFailoverAcceptSuccess then []
    else if source.altPortGuid = 0 then [⟨.failover, connRepSetFailover ibFailoverAcceptError⟩]
    else [⟨.failover, connRepSetFailover cmRep.failoverAccepted⟩]) ++
  [⟨.respResources, fun rep => { rep with respResources := source.respRes }⟩]

/-- The write of the ACK delay. -/
def repWriteDelay (source : RepSource) : Write MadCmRep RepField :=
  ⟨.targetAckDelay, connRepSetTargetAckDelay source.localAckDelay⟩

/-- What `__format_rep` writes after the ACK delay. -/
def repWritesAfter (source : RepSource) (cmRep : IbaCmRep) : List (Write MadCmRep RepField) :=
  [⟨.initiatorDepth, fun rep => { rep with initiatorDepth := source.initDepth }⟩,
    ⟨.e2eFlowCtl, connRepSetE2eFlowCtl cmRep.flowCtrl⟩,
    ⟨.rnrRetryCnt, connRepSetRnrRetryCnt (cmRep.rnrRetryCnt &&& 0x07)⟩,
    ⟨.localCaGuid, fun rep => { rep with localCaGuid := source.localCaGuid }⟩,
    ⟨.pdata, fun rep => (connRepSetPdata cmRep.pdata rep).2⟩]

/-- All writes of `__format_rep`. -/
def repWrites (source : RepSource) (cmRep : IbaCmRep) : List (Write MadCmRep RepField) :=
  repWritesBefore source cmRep ++ repWriteDelay source :: repWritesAfter source cmRep

theorem formatRep_eq (source : RepSource) (cmRep : IbaCmRep) (rep : MadCmRep) :
    (formatRep source cmRep rep).2 = connRepClrRsvdFields (runWrites (repWrites source cmRep) rep) := by
  simp only [formatRep, formatRepFailover, repWrites, repWritesBefore]
  split_ifs <;> rfl

theorem connRepSetPdata_of_fits {data : Option (List Byte)} (rep : MadCmRep)
    (fits : ∀ bytes, data = some bytes → bytes.length ≤ ibRepPdataSize) :
    connRepSetPdata data rep =
      (.success, { rep with pdata := padded ibRepPdataSize (data.getD []) }) := by
  cases data with
  | none => rfl
  | some bytes => exact if_neg (Nat.not_lt.mpr (fits bytes rfl))

theorem quiet_connRepSetFailover (failover : Byte) (rep : MadCmRep) :
    (⟨.failover, connRepSetFailover failover⟩ : Write MadCmRep RepField).Quiet RepField.Agrees rep := by
  have masked : failover &&& 0x03 &&& 0x03 = failover &&& 0x03 := by
    rw [BitVec.and_assoc, BitVec.and_self]
  intro field other
  cases field <;> try rfl
  case targetAckDelay =>
    exact (putBits_shiftRight_of_apart (by decide) (shiftLeft_shiftRight_apart masked (by decide))).symm
  case failover => exact absurd rfl other
  case e2eFlowCtl =>
    simp only [RepField.Agrees, connRepGetE2eFlowCtl, connRepSetFailover, and_eq_getBits 0x01]
    rw [getBits_putBits_of_apart (by decide) (shiftLeft_shiftRight_apart masked (by decide))]

theorem quiet_connRepSetE2eFlowCtl (flowCtl : Bool) (rep : MadCmRep) :
    (⟨.e2eFlowCtl, connRepSetE2eFlowCtl flowCtl⟩ : Write MadCmRep RepField).Quiet RepField.Agrees rep := by
  intro field other
  cases field <;> try rfl
  case targetAckDelay =>
    exact (putBits_shiftRight_of_apart (by decide)
      (shiftLeft_shiftRight_apart (ite_and_one _) (by decide))).symm
  case failover =>
    exact (getBits_putBits_of_apart (by decide)
      (shiftLeft_shiftRight_apart (ite_and_one _) (by decide))).symm
  case e2eFlowCtl => exact absurd rfl other

/-- The setter of the ACK delay clears the failover status and the flow control. -/
theorem quiet_repWriteDelay_iff (source : RepSource) (rep : MadCmRep) :
    (repWriteDelay source).Quiet RepField.Agrees rep ↔ rep.offset26 &&& 0x07 = 0 := by
  have parts : ∀ byte : Byte, byte &&& 0x07 = 0 ↔ getBits 1 0x3 byte = 0 ∧ byte &&& 0x01 = 0 := by
    decide
  have failover : connRepGetFailover ((repWriteDelay source).run rep) = 0 :=
    getBits_putBits_of_clear (by decide) (shiftLeft_shiftRight_apart BitVec.and_allOnes (by decide))
  have flow : connRepGetE2eFlowCtl ((repWriteDelay source).run rep) = false := by
    have zero : putBits 0xE0 3 source.localAckDelay rep.offset26 &&& 0x01 = 0 := by
      rw [and_eq_getBits]
      exact getBits_putBits_of_clear (by decide) (shiftLeft_shiftRight_apart BitVec.and_allOnes (by decide))
    exact decide_eq_false fun set => set zero
  rw [parts]
  constructor
  · intro quiet
    have failovers : connRepGetFailover rep = _ := quiet .failover nofun
    have flows : connRepGetE2eFlowCtl rep = _ := quiet .e2eFlowCtl nofun
    rw [failover] at failovers
    rw [flow] at flows
    exact ⟨failovers, by simpa [connRepGetE2eFlowCtl] using flows⟩
  · rintro ⟨failovers, flows⟩ field other
    cases field <;> try rfl
    case targetAckDelay => exact absurd rfl other
    case failover => exact failovers.trans failover.symm
    case e2eFlowCtl =>
      change connRepGetE2eFlowCtl rep = _
      rw [flow]
      simpa [connRepGetE2eFlowCtl] using flows

theorem quiet_connRepSetPdata (data : Option (List Byte)) (rep : MadCmRep) :
    (⟨.pdata, fun rep => (connRepSetPdata data rep).2⟩ : Write MadCmRep RepField).Quiet
      RepField.Agrees rep := by
  obtain ⟨bytes, written⟩ : ∃ bytes, (connRepSetPdata data rep).2 = { rep with pdata := bytes } := by
    cases data with
    | none => exact ⟨_, rfl⟩
    | some bytes =>
      simp only [connRepSetPdata]
      split
      · exact ⟨rep.pdata, rfl⟩
      · exact ⟨_, rfl⟩
  intro field other
  change field.Agrees rep (connRepSetPdata data rep).2
  rw [written]
  cases field <;> first | rfl | exact absurd rfl other

section
variable (source : RepSource) (cmRep : IbaCmRep) (rep : MadCmRep)
include source cmRep rep

/-- What stands before the ACK delay leaves the other fields alone. -/
theorem undisturbed_repWritesBefore : Undisturbed RepField.Agrees (repWritesBefore source cmRep) rep := by
  rw [repWritesBefore, undisturbed_append, undisturbed_append]
  refine ⟨⟨undisturbed_of_quiet _ ?_, undisturbed_of_quiet _ ?_⟩, undisturbed_of_quiet _ ?_⟩
  · simp only [List.forall_mem_cons]
    refine ⟨?_, ?_, ?_, ?_, nofun⟩
    all_goals
      intro message field other
      cases field <;> first | rfl | exact absurd rfl other
  · split_ifs
    · nofun
    · simp only [List.forall_mem_singleton]
      exact quiet_connRepSetFailover _
    · simp only [List.forall_mem_singleton]
      exact quiet_connRepSetFailover _
  · simp only [List.forall_mem_singleton]
    intro message field other
    cases field <;> first | rfl | exact absurd rfl other

/-- What stands after the ACK delay leaves the other fields alone. -/
theorem undisturbed_repWritesAfter : Undisturbed RepField.Agrees (repWritesAfter source cmRep) rep := by
  apply undisturbed_of_quiet
  simp only [repWritesAfter, List.forall_mem_cons]
  refine ⟨?_, quiet_connRepSetE2eFlowCtl _, ?_, ?_, quiet_connRepSetPdata _, nofun⟩
  all_goals
    intro message field other
    cases field <;> first | rfl | exact absurd rfl other

/-- The byte that the setter of the ACK delay finds. -/
theorem offset26_repWritesBefore : (runWrites (repWritesBefore source cmRep) rep).offset26 =
      if cmRep.failoverAccepted ≠ ibFailoverAcceptSuccess then rep.offset26
      else putBits 0xF9 1
        ((if source.altPortGuid = 0 then ibFailoverAcceptError else cmRep.failoverAccepted) &&& 0x03)
        rep.offset26 := by
  simp only [repWritesBefore]
  split_ifs <;> rfl

/-- The fields are left alone by each other just when there is nothing for the setter of the
ACK delay to clear. -/
theorem undisturbed_repWrites_iff : Undisturbed RepField.Agrees (repWrites source cmRep) rep ↔
      (runWrites (repWritesBefore source cmRep) rep).offset26 &&& 0x07 = 0 := by
  rw [repWrites, undisturbed_append]
  change _ ∧ _ ∧ _ ↔ _
  rw [quiet_repWriteDelay_iff]
  constructor
  · rintro ⟨-, clear, -⟩
    exact clear
  · intro clear
    exact ⟨undisturbed_repWritesBefore .., clear, undisturbed_repWritesAfter ..⟩

/-! ### What is read -/

theorem formatRepFailover_eq : ∃ byte : Byte, byte >>> 3 = rep.offset26 >>> 3 ∧
      formatRepFailover source cmRep rep = { rep with offset26 := byte } := by
  have kept : ∀ failover : Byte,
      putBits 0xF9 1 (failover &&& 0x03) rep.offset26 >>> 3 = rep.offset26 >>> 3 := by
    intro failover
    apply putBits_shiftRight_of_apart (by decide)
    have masked : failover &&& 0x03 &&& 0x03 = failover &&& 0x03 := by
      rw [BitVec.and_assoc, BitVec.and_self]
    exact shiftLeft_shiftRight_apart masked (by decide)
  simp only [formatRepFailover]
  split_ifs
  · exact ⟨_, rfl, rfl⟩
  · exact ⟨_, kept _, rfl⟩
  · exact ⟨_, kept _, rfl⟩

end

variable {cmRep : IbaCmRep} {source : RepSource}

/-- All of a message is read as it was written but the failover status, which reads as zero, and
the ACK delay, which keeps the upper bits it had before. -/
theorem view_formatRep (fits : cmRep.Fits source) (rep : MadCmRep) :
    (formatRep source cmRep rep).2.view =
      { cmRep.view source with
        targetAckDelay := (rep.offset26 >>> 3 &&& 0x1C) ||| source.localAckDelay
        failover := 0 } := by
  obtain ⟨byte, upper, found⟩ := formatRepFailover_eq source cmRep
    (connRepSetStartingPsn source.rqPsn (connRepSetLclQpn source.localQpn
      { rep with localCommId := source.localCommId, remoteCommId := source.remoteCommId }))
  have rnr : cmRep.rnrRetryCnt &&& 0x07 = cmRep.rnrRetryCnt := and_of_lt (by decide) fits.rnrRetryCnt
  simp only [formatRep, found, connRepSetPdata_of_fits _ fits.pdata]
  simp only [MadCmRep.view, IbaCmRep.view, RepView.mk.injEq, connRepClrRsvdFields, connRepGetLclQpn,
    connRepSetLclQpn, connRepGetStartingPsn, connRepSetStartingPsn, connRepGetTargetAckDelay,
    connRepSetTargetAckDelay, connRepGetFailover, connRepGetE2eFlowCtl, connRepSetE2eFlowCtl,
    connRepGetRnrRetryCnt, connRepSetRnrRetryCnt, setByte3, setLow24, rnr, true_and, and_true]
  have shares : ∀ value : Byte, value &&& 0xFF = value := fun value => BitVec.and_allOnes
  refine ⟨getLow24_mk fits.localQpn _, getLow24_mk fits.rqPsn _, ?_, ?_, ?_, ?_⟩
  · have delay : source.localAckDelay <<< 3 >>> 3 &&& 0x1F = source.localAckDelay :=
      shiftLeft_shiftRight_and (and_of_lt (by decide) fits.localAckDelay) (by decide)
    have bits : getBits 3 0x1F (putBits 0xE0 3 source.localAckDelay byte) =
        (byte >>> 3 &&& 0x1C) ||| source.localAckDelay := by
      rw [getBits_putBits_eq, delay]
      rfl
    rw [putBits_shiftRight_of_apart (by decide)
      (shiftLeft_shiftRight_apart (ite_and_one _) (by decide)), shiftRight_eq_getBits]
    exact bits.trans (by rw [upper]; rfl)
  · rw [getBits_putBits_of_apart (by decide) (shiftLeft_shiftRight_apart (ite_and_one _) (by decide))]
    exact getBits_putBits_of_clear (by decide) (shiftLeft_shiftRight_apart (shares _) (by decide))
  · exact putBits_and_flag (by decide) (by decide)
  · rw [BitVec.ushiftRight_and_distrib]
    exact shiftLeft_shiftRight_and rnr (by decide)

/-- The reserved bits of a message are zero; those of the EECN are among them. -/
structure MadCmRep.Reserved (rep : MadCmRep) : Prop where
  offset12 : rep.offset12.b3 = 0
  offset16 : ntoh32 rep.offset16 = 0
  offset20 : rep.offset20.b3 = 0
  offset27 : rep.offset27 &&& 0x1F = 0

/-! ### Round trip -/

/-- Failover is accepted and there is a path for it, and the buffer has no flow control and no
bits in the ACK delay that the delay does not have. -/
structure IbaCmRep.Undamaged (cmRep : IbaCmRep) (source : RepSource) (rep : MadCmRep) : Prop where
  failover : cmRep.failoverAccepted = ibFailoverAcceptSuccess
  path : source.altPortGuid ≠ 0
  flow : rep.offset26 &&& 0x01 = 0
  delay : (rep.offset26 >>> 3 &&& 0x1C) ||| source.localAckDelay = source.localAckDelay

theorem view_formatRep_eq_iff (fits : cmRep.Fits source) (rep : MadCmRep) :
    (formatRep source cmRep rep).2.view = cmRep.view source ↔
      cmRep.failoverAccepted = ibFailoverAcceptSuccess ∧
        (rep.offset26 >>> 3 &&& 0x1C) ||| source.localAckDelay = source.localAckDelay := by
  rw [view_formatRep fits]
  constructor
  · intro same
    exact ⟨(congrArg RepView.failover same).symm, congrArg RepView.targetAckDelay same⟩
  · rintro ⟨failover, delay⟩
    rw [delay]
    simp only [IbaCmRep.view, failover, ibFailoverAcceptSuccess]

/-- Where failover is accepted, the setters leave each other alone just when there is a path for
it and no flow control before. -/
theorem undisturbed_repWrites_of_accepted
    (failover : cmRep.failoverAccepted = ibFailoverAcceptSuccess) (rep : MadCmRep) :
    Undisturbed RepField.Agrees (repWrites source cmRep) rep ↔
      source.altPortGuid ≠ 0 ∧ rep.offset26 &&& 0x01 = 0 := by
  have refused : ∀ byte : Byte, putBits 0xF9 1 (ibFailoverAcceptError &&& 0x03) byte &&& 0x07 ≠ 0 := by
    decide
  have accepted : ∀ byte : Byte,
      putBits 0xF9 1 (ibFailoverAcceptSuccess &&& 0x03) byte &&& 0x07 = byte &&& 0x01 := by
    decide
  rw [undisturbed_repWrites_iff, offset26_repWritesBefore, if_neg (not_not_intro failover), failover]
  split_ifs with none
  · exact iff_of_false (refused _) fun both => both.1 none
  · rw [accepted]
    exact (and_iff_right none).symm

/-- A message that `__format_rep` has written says what it is to say, and no setter has
disturbed the field of another, just when `IbaCmRep.Undamaged` says so of the parameters and
of the buffer. -/
theorem formatRep_round_trip (source : RepSource) (cmRep : IbaCmRep) (fits : cmRep.Fits source)
    (timeouts : AckTimeouts) (rep : MadCmRep) :
    let message := formatRep source cmRep rep
    message.1 = .success ∧
      message.2 = connRepClrRsvdFields (runWrites (repWrites source cmRep) rep) ∧
      message.2.Reserved ∧
      ((message.2.view = cmRep.view source ∧
          saveWireRep timeouts message.2 = (cmRep.view source).saved timeouts ∧
          Undisturbed RepField.Agrees (repWrites source cmRep) rep) ↔
        cmRep.Undamaged source rep) := by
  intro message
  refine ⟨?_, formatRep_eq source cmRep rep, ?_, ?_, ?_⟩
  · simp only [message, formatRep, connRepSetPdata_of_fits _ fits.pdata]
  · exact ⟨rfl, ntoh32_hton32 0, rfl, and_and_eq_zero _ (by decide)⟩
  · rintro ⟨same, -, undisturbed⟩
    obtain ⟨failover, delay⟩ := (view_formatRep_eq_iff fits rep).mp same
    obtain ⟨path, flow⟩ := (undisturbed_repWrites_of_accepted failover rep).mp undisturbed
    exact ⟨failover, path, flow, delay⟩
  · intro undamaged
    have same : message.2.view = cmRep.view source :=
      (view_formatRep_eq_iff fits rep).mpr ⟨undamaged.failover, undamaged.delay⟩
    refine ⟨same, ?_, ?_⟩
    · rw [← same]
      rfl
    · exact (undisturbed_repWrites_of_accepted undamaged.failover rep).mpr
        ⟨undamaged.path, undamaged.flow⟩

/-- A reply that accepts failover. -/
def acceptingRep : IbaCmRep :=
  { pdata := some [4, 5], failoverAccepted := ibFailoverAcceptSuccess, flowCtrl := true
    rnrRetryCnt := 6 }

def someRepSource : RepSource :=
  { localCommId := hton32 0x02000001, remoteCommId := hton32 7, localQpn := hton32 0x000413
    rqPsn := hton32 0x000abc, altPortGuid := 3, respRes := 4, initDepth := 2, localAckDelay := 15
    localCaGuid := 9 }

/-- A buffer of zeros but for the byte with the ACK delay. -/
def repBuffer (offset26 : Byte) : MadCmRep :=
  { localCommId := hton32 0, remoteCommId := hton32 0, localQkey := hton32 0, offset12 := hton32 0
    offset16 := hton32 0, offset20 := hton32 0, respResources := 0, initiatorDepth := 0
    offset26, offset27 := 0, localCaGuid := 0, pdata := List.replicate ibRepPdataSize 0 }

theorem acceptingRep_fits : acceptingRep.Fits someRepSource where
  localQpn := rfl
  rqPsn := rfl
  localAckDelay := by decide
  failoverAccepted := by decide
  rnrRetryCnt := by decide
  pdata := by
    rintro data ⟨⟩
    decide

/-- An accepted failover in a cleared buffer is read as it was given. -/
theorem formatRep_round_trip_clear :
    (formatRep someRepSource acceptingRep (repBuffer 0)).2.view = acceptingRep.view someRepSource := by
  refine ((formatRep_round_trip someRepSource acceptingRep acceptingRep_fits ⟨1, 1, 0⟩
    (repBuffer 0)).2.2.2.mpr ?_).1
  constructor <;> decide

/-- A refused failover reads as an accepted one, and a delay of 15 as one of 31 where the buffer
had bits in the upper part of it. -/
theorem formatRep_loses_failover :
    let refusingRep := { acceptingRep with failoverAccepted := ibFailoverAcceptError }
    let message := (formatRep someRepSource refusingRep (repBuffer 0x80)).2
    refusingRep.Fits someRepSource ∧ message.view.failover = ibFailoverAcceptSuccess ∧
      someRepSource.localAckDelay = 15 ∧ message.view.targetAckDelay = 31 := by
  refine ⟨?_, ?_, ?_, ?_⟩
  · exact { acceptingRep_fits with failoverAccepted := by decide }
  all_goals decide

end WinOFED.Cm
