import WinOFED.Cm.PathRec

/-! The LAP message: what its setters write and its getters read. -/
namespace WinOFED.Cm
open Wire

/-- `lap_path_info_t`. -/
structure LapPathInfo where
  localLid : BitVec 16
  remoteLid : BitVec 16
  localGid : Gid
  remoteGid : Gid
  /-- Flow Label:20, rsvd:4, Traffic Class:8 -/
  offset36 : Net32
  hopLimit : Byte
  /-- rsvd:2, Packet Rate:6 -/
  offset41 : Byte
  /-- SL:4, Subnet Local:1, rsvd:3 -/
  offset42 : Byte
  /-- Local ACK Timeout:5, rsvd:3 -/
  offset43 : Byte
deriving DecidableEq, Repr

/-- `mad_cm_lap_t` behind its header. -/
structure MadCmLap where
  localCommId : Net32
  remoteCommId : Net32
  rsvd1 : Net32
  /-- Remote QPN/EECN:24, Remote CM Response Timeout:5, rsvd:3 -/
  offset12 : Net32
  rsvd2 : Net32
  alternatePath : LapPathInfo
  pdata : List Byte
deriving DecidableEq, Repr

/-- `IB_LAP_PDATA_SIZE`. -/
def ibLapPdataSize : Nat := 168

def connLapGetRemoteQpn (lap : MadCmLap) : Net32 := getLow24 lap.offset12

def connLapSetRemoteQpn (qpn : Net32) (lap : MadCmLap) : MadCmLap :=
  { lap with offset12 := setLow24 lap.offset12 qpn }

def connLapGetRespTimeout (lap : MadCmLap) : Byte := lap.offset12.b3 >>> 3

def connLapSetRespTimeout (respTimeout : Byte) (lap : MadCmLap) : MadCmLap :=
  { lap with offset12 := setByte3 lap.offset12 fun _ => respTimeout <<< 3 }

/-- Unlike those of the other messages this one clears the data before it looks at the
length. -/
def connLapSetPdata (data : Option (List Byte)) (lap : MadCmLap) : PdataStatus × MadCmLap :=
  let lap := { lap with pdata := padded ibLapPdataSize [] }
  match data with
  | some data =>
      if ibLapPdataSize < data.length then (.invalidParameter, lap)
      else (.success, { lap with pdata := padded ibLapPdataSize data })
  | none => (.success, { lap with pdata := padded ibLapPdataSize [] })

def connLapClrRsvdFields (lap : MadCmLap) : MadCmLap :=
  { lap with
    rsvd1 := hton32 0, offset12 := lap.offset12.and (hton32 0xFFFFFFF8), rsvd2 := hton32 0 }

def connLapPathGetFlowLbl (path : LapPathInfo) : Net32 := getLow20 path.offset36

def connLapPathSetFlowLbl (flowLbl : Net32) (path : LapPathInfo) : LapPathInfo :=
  { path with offset36 := setLow24 path.offset36 (flowLbl.and (hton32 0x000FFFFF)) }

def connLapPathGetTclass (path : LapPathInfo) : Byte := path.offset36.b3

def connLapPathSetTclass (tclass : Byte) (path : LapPathInfo) : LapPathInfo :=
  { path with offset36 := setByte3 path.offset36 fun _ => tclass }

def connLapPathGetPktRate (path : LapPathInfo) : Byte := path.offset41 &&& 0x7F

def connLapPathSetPktRate (pktRate : Byte) (path : LapPathInfo) : LapPathInfo :=
  { path with offset41 := pktRate &&& 0x7F }

def connLapPathGetSvcLvl (path : LapPathInfo) : Byte := path.offset42 >>> 4

/-- The service level is not shifted to its place. -/
def connLapPathSetSvcLvl (sl : Byte) (path : LapPathInfo) : LapPathInfo :=
  { path with offset42 := putBits 0x08 0 (sl &&& 0xF0) path.offset42 }

def connLapPathGetSubnLcl (path : LapPathInfo) : Bool := path.offset42 &&& 0x08 ≠ 0

def connLapPathSetSubnLcl (subnLcl : Bool) (path : LapPathInfo) : LapPathInfo :=
  if subnLcl then { path with offset42 := path.offset42 ||| 0x08 }
  else { path with offset42 := path.offset42 &&& 0xF0 }

def connLapPathGetLclAckTimeout (path : LapPathInfo) : Byte := path.offset43 >>> 3

def connLapPathSetLclAckTimeout (timeout : Byte) (path : LapPathInfo) : LapPathInfo :=
  { path with offset43 := timeout <<< 3 }

def connLapPathClrRsvdFields (path : LapPathInfo) : LapPathInfo :=
  { path with
    offset36 := path.offset36.and (hton32 0xFFFFF0FF)
    offset41 := path.offset41 &&& 0x3F
    offset42 := path.offset42 &&& 0xF8
    offset43 := path.offset43 &&& 0xF8 }

/-- `ib_cm_lap_t`, as far as it goes into the message. -/
structure IbCmLap where
  altPath : PathRec
  remoteRespTimeout : Byte
  pdata : Option (List Byte)
deriving DecidableEq, Repr

/-- What `__format_lap` takes from the CEP. -/
structure LapSource where
  localCommId : Net32
  remoteCommId : Net32
  remoteQpn : Net32
  localAckDelay : Byte
deriving DecidableEq, Repr

/-- The part of `__format_lap` about the path. -/
def formatLapPath (path : PathRec) (ackDelay : Byte) (lapPath : LapPathInfo) : LapPathInfo :=
  let lapPath := { lapPath with localLid := path.slid }
  let lapPath := { lapPath with remoteLid := path.dlid }
  let lapPath := { lapPath with localGid := path.sgid }
  let lapPath := { lapPath with remoteGid := path.dgid }
  let lapPath := connLapPathSetFlowLbl (ibPathRecFlowLbl path) lapPath
  let lapPath := connLapPathSetTclass path.tclass lapPath
  let lapPath := { lapPath with hopLimit := ibPathRecHopLimit path }
  let lapPath := connLapPathSetPktRate (ibPathRecRate path) lapPath
  let lapPath := connLapPathSetSvcLvl (ibPathRecSl path) lapPath
  let lapPath := connLapPathSetSubnLcl (ibGidIsLinkLocal path.dgid) lapPath
  let lapPath := connLapPathSetLclAckTimeout
    (calcLclAckTimeout (ibPathRecPktLife path + 1) ackDelay) lapPath
  connLapPathClrRsvdFields lapPath

/-- `__format_lap`, over whatever was in the MAD before. The reserved fields are left alone if
the private data is too long. -/
def formatLap (source : LapSource) (cmLap : IbCmLap) (lap : MadCmLap) : PdataStatus × MadCmLap :=
  let alternatePath := formatLapPath cmLap.altPath source.localAckDelay lap.alternatePath
  let lap := { lap with alternatePath }
  let lap := { lap with localCommId := source.localCommId }
  let lap := { lap with remoteCommId := source.remoteCommId }
  let lap := connLapSetRemoteQpn source.remoteQpn lap
  let lap := connLapSetRespTimeout cmLap.remoteRespTimeout lap
  match connLapSetPdata cmLap.pdata lap with
  | (.success, lap) => (.success, connLapClrRsvdFields lap)
  | (status, lap) => (status, lap)

/-! ### Reading the message -/

/-- What the getters read of a LAP. -/
structure LapView where
  localCommId : Net32
  remoteCommId : Net32
  remoteQpn : Net32
  respTimeout : Byte
  localLid : BitVec 16
  remoteLid : BitVec 16
  localGid : Gid
  remoteGid : Gid
  flowLbl : Net32
  tclass : Byte
  hopLimit : Byte
  pktRate : Byte
  svcLvl : Byte
  subnLcl : Bool
  lclAckTimeout : Byte
  pdata : List Byte
deriving DecidableEq, Repr

def MadCmLap.view (lap : MadCmLap) : LapView :=
  let path := lap.alternatePath
  { localCommId := lap.localCommId, remoteCommId := lap.remoteCommId
    remoteQpn := connLapGetRemoteQpn lap, respTimeout := connLapGetRespTimeout lap
    localLid := path.localLid, remoteLid := path.remoteLid, localGid := path.localGid
    remoteGid := path.remoteGid, flowLbl := connLapPathGetFlowLbl path
    tclass := connLapPathGetTclass path, hopLimit := path.hopLimit
    pktRate := connLapPathGetPktRate path, svcLvl := connLapPathGetSvcLvl path
    subnLcl := connLapPathGetSubnLcl path, lclAckTimeout := connLapPathGetLclAckTimeout path
    pdata := lap.pdata }

/-- What a LAP is to say. -/
def IbCmLap.view (cmLap : IbCmLap) (source : LapSource) : LapView :=
  let path := cmLap.altPath
  { localCommId := source.localCommId, remoteCommId := source.remoteCommId
    remoteQpn := source.remoteQpn, respTimeout := cmLap.remoteRespTimeout
    localLid := path.slid, remoteLid := path.dlid, localGid := path.sgid, remoteGid := path.dgid
    flowLbl := ibPathRecFlowLbl path, tclass := path.tclass, hopLimit := ibPathRecHopLimit path
    pktRate := ibPathRecRate path, svcLvl := ibPathRecSl path
    subnLcl := ibGidIsLinkLocal path.dgid
    lclAckTimeout := calcLclAckTimeout (ibPathRecPktLife path + 1) source.localAckDelay
    pdata := padded ibLapPdataSize (cmLap.pdata.getD []) }

/-- The values fit into their fields; those of a path record always do. -/
structure IbCmLap.Fits (cmLap : IbCmLap) (source : LapSource) : Prop where
  remoteQpn : source.remoteQpn.b0 = 0
  remoteRespTimeout : cmLap.remoteRespTimeout.toNat < 2 ^ 5
  pdata : ∀ data, cmLap.pdata = some data → data.length ≤ ibLapPdataSize

/-! ### The writes, one by one -/

/-- The fields of the path. -/
inductive LapPathField
  | localLid
  | remoteLid
  | localGid
  | remoteGid
  | flowLbl
  | tclass
  | hopLimit
  | pktRate
  | svcLvl
  | subnLcl
  | lclAckTimeout
deriving DecidableEq, Repr

/-- A field reads the same in two paths. -/
def LapPathField.Agrees : LapPathField → LapPathInfo → LapPathInfo → Prop
  | localLid, before, after => before.localLid = after.localLid
  | remoteLid, before, after => before.remoteLid = after.remoteLid
  | localGid, before, after => before.localGid = after.localGid
  | remoteGid, before, after => before.remoteGid = after.remoteGid
  | flowLbl, before, after => connLapPathGetFlowLbl before = connLapPathGetFlowLbl after
  | tclass, before, after => connLapPathGetTclass before = connLapPathGetTclass after
  | hopLimit, before, after => before.hopLimit = after.hopLimit
  | pktRate, before, after => connLapPathGetPktRate before = connLapPathGetPktRate after
  | svcLvl, before, after => connLapPathGetSvcLvl before = connLapPathGetSvcLvl after
  | subnLcl, before, after => connLapPathGetSubnLcl before = connLapPathGetSubnLcl after
  | lclAckTimeout, before, after =>
      connLapPathGetLclAckTimeout before = connLapPathGetLclAckTimeout after

/-- The writes of `__format_lap` to the path. -/
def lapPathWrites (path : PathRec) (ackDelay : Byte) : List (Write LapPathInfo LapPathField) :=
  [⟨.localLid, fun lapPath => { lapPath with localLid := path.slid }⟩,
    ⟨.remoteLid, fun lapPath => { lapPath with remoteLid := path.dlid }⟩,
    ⟨.localGid, fun lapPath => { lapPath with localGid := path.sgid }⟩,
    ⟨.remoteGid, fun lapPath => { lapPath with remoteGid := path.dgid }⟩,
    ⟨.flowLbl, connLapPathSetFlowLbl (ibPathRecFlowLbl path)⟩,
    ⟨.tclass, connLapPathSetTclass path.tclass⟩,
    ⟨.hopLimit, fun lapPath => { lapPath with hopLimit := ibPathRecHopLimit path }⟩,
    ⟨.pktRate, connLapPathSetPktRate (ibPathRecRate path)⟩,
    ⟨.svcLvl, connLapPathSetSvcLvl (ibPathRecSl path)⟩,
    ⟨.subnLcl, connLapPathSetSubnLcl (ibGidIsLinkLocal path.dgid)⟩,
    ⟨.lclAckTimeout, connLapPathSetLclAckTimeout
      (calcLclAckTimeout (ibPathRecPktLife path + 1) ackDelay)⟩]

/-- The fields of a LAP. -/
inductive LapField
  | localCommId
  | remoteCommId
  | remoteQpn
  | respTimeout
  | path (field : LapPathField)
  | pdata
deriving DecidableEq, Repr

/-- A field reads the same in two messages. -/
def LapField.Agrees : LapField → MadCmLap → MadCmLap → Prop
  | localCommId, before, after => before.localCommId = after.localCommId
  | remoteCommId, before, after => before.remoteCommId = after.remoteCommId
  | remoteQpn, before, after => connLapGetRemoteQpn before = connLapGetRemoteQpn after
  | respTimeout, before, after => connLapGetRespTimeout before = connLapGetRespTimeout after
  | path field, before, after => field.Agrees before.alternatePath after.alternatePath
  | pdata, before, after => before.pdata = after.pdata

/-- The writes of `__format_lap` behind those to the path. -/
def lapWrites (source : LapSource) (cmLap : IbCmLap) : List (Write MadCmLap LapField) :=
  [⟨.localCommId, fun lap => { lap with localCommId := source.localCommId }⟩,
    ⟨.remoteCommId, fun lap => { lap with remoteCommId := source.remoteCommId }⟩,
    ⟨.remoteQpn, connLapSetRemoteQpn source.remoteQpn⟩,
    ⟨.respTimeout, connLapSetRespTimeout cmLap.remoteRespTimeout⟩,
    ⟨.pdata, fun lap => (connLapSetPdata cmLap.pdata lap).2⟩]

theorem connLapSetPdata_of_fits {data : Option (List Byte)} (lap : MadCmLap)
    (fits : ∀ bytes, data = some bytes → bytes.length ≤ ibLapPdataSize) :
    connLapSetPdata data lap =
      (.success, { lap with pdata := padded ibLapPdataSize (data.getD []) }) := by
  cases data with
  | none => rfl
  | some bytes => exact if_neg (Nat.not_lt.mpr (fits bytes rfl))

variable {cmLap : IbCmLap} {source : LapSource}

theorem formatLap_eq (fits : cmLap.Fits source) (lap : MadCmLap) :
    formatLap source cmLap lap =
      (.success, connLapClrRsvdFields (runWrites (lapWrites source cmLap)
        { lap with
          alternatePath := formatLapPath cmLap.altPath source.localAckDelay lap.alternatePath })) := by
  simp only [formatLap, connLapSetPdata_of_fits _ fits.pdata, lapWrites, runWrites,
    List.foldl_cons, List.foldl_nil]

theorem connLapPathSetSubnLcl_eq (subnLcl : Bool) (path : LapPathInfo) :
    connLapPathSetSubnLcl subnLcl path =
      { path with
        offset42 := if subnLcl then path.offset42 ||| 0x08 else path.offset42 &&& 0xF0 } := by
  cases subnLcl <;> rfl

theorem quiet_connLapPathSetTclass (tclass : Byte) (path : LapPathInfo) :
    (⟨.tclass, connLapPathSetTclass tclass⟩ : Write LapPathInfo LapPathField).Quiet
      LapPathField.Agrees path := by
  intro field other
  cases field <;> try rfl
  case flowLbl => exact (getLow20_setByte3 ..).symm
  case tclass => exact absurd rfl other

theorem quiet_connLapPathSetSvcLvl (sl : Byte) (path : LapPathInfo) :
    (⟨.svcLvl, connLapPathSetSvcLvl sl⟩ : Write LapPathInfo LapPathField).Quiet
      LapPathField.Agrees path := by
  have masked : sl &&& 0xF0 &&& 0xF0 = sl &&& 0xF0 := by rw [BitVec.and_assoc, BitVec.and_self]
  intro field other
  cases field <;> try rfl
  case svcLvl => exact absurd rfl other
  case subnLcl =>
    simp only [LapPathField.Agrees, connLapPathGetSubnLcl, connLapPathSetSvcLvl, and_eq_getBits 0x08]
    rw [getBits_putBits_of_apart (by decide) (shiftLeft_shiftRight_apart masked (by decide))]

theorem quiet_connLapPathSetSubnLcl (subnLcl : Bool) (path : LapPathInfo) :
    (⟨.subnLcl, connLapPathSetSubnLcl subnLcl⟩ : Write LapPathInfo LapPathField).Quiet
      LapPathField.Agrees path := by
  have upper : ∀ byte : Byte, byte >>> 4 = (if subnLcl then byte ||| 0x08 else byte &&& 0xF0) >>> 4 := by
    cases subnLcl <;> decide
  intro field other
  change field.Agrees path (connLapPathSetSubnLcl subnLcl path)
  rw [connLapPathSetSubnLcl_eq]
  cases field <;> try rfl
  case svcLvl => exact upper _
  case subnLcl => exact absurd rfl other

/-- No write to the path disturbs another field of it. -/
theorem undisturbed_lapPathWrites (path : PathRec) (ackDelay : Byte) (lapPath : LapPathInfo) :
    Undisturbed LapPathField.Agrees (lapPathWrites path ackDelay) lapPath := by
  apply undisturbed_of_quiet
  simp only [lapPathWrites, List.forall_mem_cons]
  refine ⟨?_, ?_, ?_, ?_, ?_, quiet_connLapPathSetTclass _, ?_, ?_, quiet_connLapPathSetSvcLvl _,
    quiet_connLapPathSetSubnLcl _, ?_, nofun⟩
  all_goals
    intro message field other
    cases field <;> first | rfl | exact absurd rfl other

/-- Nor does a write to the rest of the message. -/
theorem undisturbed_lapWrites (fits : cmLap.Fits source) (lap : MadCmLap) :
    Undisturbed LapField.Agrees (lapWrites source cmLap) lap := by
  have same : ∀ (field : LapPathField) (path : LapPathInfo), field.Agrees path path := by
    intro field path
    cases field <;> rfl
  apply undisturbed_of_quiet
  simp only [lapWrites, List.forall_mem_cons, connLapSetPdata_of_fits _ fits.pdata]
  refine ⟨?_, ?_, ?_, ?_, ?_, nofun⟩
  all_goals
    intro message field other
    cases field <;> first | rfl | exact absurd rfl other | exact same .. | skip
  · exact (getLow24_setByte3 ..).symm

/-! ### What is read -/

/-- All of a message is read as it was written but the flow label, which loses its last four
bits, and the service level, which reads as zero. -/
theorem view_formatLap (fits : cmLap.Fits source) (lap : MadCmLap) :
    (formatLap source cmLap lap).2.view =
      { cmLap.view source with
        flowLbl := hton32 (ntoh32 (ibPathRecFlowLbl cmLap.altPath) >>> 4)
        svcLvl := 0 } := by
  have low : hton32 0xFFFFFFF8 = ⟨0xFF, 0xFF, 0xFF, 0xF8⟩ := by decide
  have classes : hton32 0xFFFFF0FF = ⟨0xFF, 0xFF, 0xF0, 0xFF⟩ := by decide
  have kept : ∀ byte : Byte, byte &&& 0xFF = byte := fun byte => BitVec.and_allOnes
  have level : ibPathRecSl cmLap.altPath &&& 0xF0 = 0 := by
    rw [← and_of_lt (by decide) (ibPathRecSl_lt cmLap.altPath)]
    exact and_and_eq_zero _ (by decide)
  have label : getLow20 ((setLow24 (setByte3 lap.alternatePath.offset36 fun _ => cmLap.altPath.tclass)
      ((ibPathRecFlowLbl cmLap.altPath).and (hton32 0x000FFFFF))).and ⟨0xFF, 0xFF, 0xF0, 0xFF⟩) =
      hton32 (ntoh32 (ibPathRecFlowLbl cmLap.altPath) >>> 4) :=
    getLow20_setLow24 _ (ntoh32_ibPathRecFlowLbl_lt cmLap.altPath)
  simp only [setLow24, setByte3, Net32.and, kept] at label
  rw [formatLap_eq fits]
  simp only [lapWrites, runWrites, List.foldl_cons, List.foldl_nil,
    connLapSetPdata_of_fits _ fits.pdata, MadCmLap.view, IbCmLap.view, LapView.mk.injEq,
    connLapClrRsvdFields, connLapGetRemoteQpn, connLapSetRemoteQpn, connLapGetRespTimeout,
    connLapSetRespTimeout, formatLapPath, connLapPathClrRsvdFields, connLapPathGetFlowLbl,
    connLapPathSetFlowLbl, connLapPathGetTclass, connLapPathSetTclass, connLapPathGetPktRate,
    connLapPathSetPktRate, connLapPathGetSvcLvl, connLapPathSetSvcLvl, connLapPathGetSubnLcl,
    connLapPathSetSubnLcl_eq, connLapPathGetLclAckTimeout, connLapPathSetLclAckTimeout, setByte3,
    setLow24, Net32.and, low, classes, kept, level, label, true_and, and_true]
  refine ⟨getLow24_mk fits.remoteQpn _, ?_, ?_, ?_, ?_, ?_⟩
  · rw [BitVec.ushiftRight_and_distrib]
    exact shiftLeft_shiftRight_and (and_of_lt (by decide) fits.remoteRespTimeout) (by decide)
  · rw [ibPathRecRate, BitVec.and_assoc, BitVec.and_assoc, BitVec.and_assoc]
    rfl
  · generalize ibGidIsLinkLocal cmLap.altPath.dgid = subnLcl, lap.alternatePath.offset42 = byte
    cases subnLcl <;> decide +revert
  · generalize ibGidIsLinkLocal cmLap.altPath.dgid = subnLcl, lap.alternatePath.offset42 = byte
    cases subnLcl <;> decide +revert
  · rw [BitVec.ushiftRight_and_distrib]
    exact shiftLeft_shiftRight_and (and_of_lt (by decide) (calcLclAckTimeout_lt ..)) (by decide)

/-! ### Round trip -/

/-- A message that `__format_lap` has written is put together by setters none of which disturbs
another field; the accessors read what was written just when the path has neither a flow
label nor a service level. -/
theorem formatLap_round_trip (source : LapSource) (cmLap : IbCmLap) (fits : cmLap.Fits source)
    (lap : MadCmLap) :
    let message := formatLap source cmLap lap
    let path := runWrites (lapPathWrites cmLap.altPath source.localAckDelay) lap.alternatePath
    let begun := { lap with alternatePath := connLapPathClrRsvdFields path }
    message =
        (.success, connLapClrRsvdFields (runWrites (lapWrites source cmLap) begun)) ∧
      Undisturbed LapPathField.Agrees (lapPathWrites cmLap.altPath source.localAckDelay)
        lap.alternatePath ∧
      Undisturbed LapField.Agrees (lapWrites source cmLap) begun ∧
      (message.2.view = cmLap.view source ↔
        ntoh32 (ibPathRecFlowLbl cmLap.altPath) = 0 ∧ ibPathRecSl cmLap.altPath = 0) := by
  intro message path begun
  refine ⟨formatLap_eq fits lap, undisturbed_lapPathWrites .., undisturbed_lapWrites fits _, ?_⟩
  rw [view_formatLap fits, ← shiftRight_four_eq_self, ← hton32_inj, hton32_ntoh32]
  constructor
  · intro same
    exact ⟨congrArg LapView.flowLbl same, (congrArg LapView.svcLvl same).symm⟩
  · rintro ⟨label, level⟩
    rw [label]
    simp only [IbCmLap.view, level]

/-- A request for a path with the given flow label and service level. -/
def someLap (flowLbl : BitVec 32) (sl : BitVec 16) : IbCmLap :=
  { altPath :=
      { dgid := ⟨0xFE80000000000000, 2⟩, sgid := ⟨0xFE80000000000000, 1⟩, dlid := 2, slid := 1
        hopFlowRaw := hton32 (flowLbl <<< 8 ||| 1), tclass := 5, pkey := 0xFFFF, qosClassSl := sl
        mtu := 0x84, rate := 0x83, pktLife := 0x92 }
    remoteRespTimeout := 20, pdata := some [1, 2, 3] }

def someLapSource : LapSource :=
  { localCommId := hton32 0x02000001, remoteCommId := hton32 7, remoteQpn := hton32 0x000412
    localAckDelay := 15 }

/-- A buffer of ones. -/
def filledLap : MadCmLap :=
  let ones := hton32 0xFFFFFFFF
  { localCommId := ones, remoteCommId := ones, rsvd1 := ones, offset12 := ones, rsvd2 := ones
    alternatePath :=
      { localLid := 0xFFFF, remoteLid := 0xFFFF, localGid := ⟨1, 1⟩, remoteGid := ⟨1, 1⟩
        offset36 := ones, hopLimit := 0xFF, offset41 := 0xFF, offset42 := 0xFF, offset43 := 0xFF }
    pdata := List.replicate ibLapPdataSize 0xFF }

theorem someLap_fits (flowLbl : BitVec 32) (sl : BitVec 16) :
    (someLap flowLbl sl).Fits someLapSource where
  remoteQpn := rfl
  remoteRespTimeout := (by decide : (20 : Byte).toNat < 2 ^ 5)
  pdata := by
    rintro data ⟨⟩
    decide

/-- Without flow label and service level a LAP is read as it was given. -/
theorem formatLap_round_trip_plain :
    (formatLap someLapSource (someLap 0 0) filledLap).2.view = (someLap 0 0).view someLapSource :=
  (formatLap_round_trip someLapSource (someLap 0 0) (someLap_fits 0 0) filledLap).2.2.2.mpr
    (by decide)

/-- A flow label of `0x12345` is read as `0x1234`, a service level of three as zero. -/
theorem formatLap_loses_svcLvl :
    let message := (formatLap someLapSource (someLap 0x12345 3) filledLap).2
    (someLap 0x12345 3).Fits someLapSource ∧
      ((someLap 0x12345 3).view someLapSource).flowLbl = hton32 0x12345 ∧
      ((someLap 0x12345 3).view someLapSource).svcLvl = 3 ∧
      message.view.flowLbl = hton32 0x1234 ∧ message.view.svcLvl = 0 := by
  refine ⟨someLap_fits _ _, ?_, ?_, ?_, ?_⟩ <;> decide

end WinOFED.Cm
