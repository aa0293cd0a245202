import WinOFED.Cm.PathRec

/-! The REQ message: what its setters write and its getters read. -/
namespace WinOFED.Cm
open Wire

/-! ### Paths -/

/-- `req_path_info_t`. -/
structure ReqPathInfo where
  localLid : BitVec 16
  remoteLid : BitVec 16
  localGid : Gid
  remoteGid : Gid
  /-- Flow Label:20, rsvd:6, Packet Rate:6 -/
  offset36 : Net32
  trafficClass : Byte
  hopLimit : Byte
  /-- SL:4, Subnet Local:1, rsvd:3 -/
  offset42 : Byte
  /-- Local ACK Timeout:5, rsvd:3 -/
  offset43 : Byte
deriving DecidableEq, Repr

variable (path : ReqPathInfo)

def connReqPathGetFlowLbl : Net32 := getLow20 path.offset36

def connReqPathSetFlowLbl (flowLbl : Net32) (path : ReqPathInfo) : ReqPathInfo :=
  { path with offset36 := setLow24 path.offset36 (flowLbl.and (hton32 0x000FFFFF)) }

def connReqPathGetPktRate : Byte := path.offset36.b3 &&& 0x3F

def connReqPathSetPktRate (rate : Byte) (path : ReqPathInfo) : ReqPathInfo :=
  { path with offset36 := setByte3 path.offset36 fun _ => rate &&& 0x3F }

def connReqPathGetSvcLvl : Byte := path.offset42 >>> 4

def connReqPathSetSvcLvl (svcLvl : Byte) (path : ReqPathInfo) : ReqPathInfo :=
  { path with offset42 := putBits 0x08 4 svcLvl path.offset42 }

def connReqPathGetSubnLcl : Bool := path.offset42 &&& 0x08 ≠ 0

def connReqPathSetSubnLcl (subnLcl : Bool) (path : ReqPathInfo) : ReqPathInfo :=
  { path with offset42 := putBits 0xF0 3 (if subnLcl then 1 else 0) path.offset42 }

def connReqPathGetLclAckTimeout : Byte := path.offset43 >>> 3

def connReqPathSetLclAckTimeout (lclAckTimeout : Byte) (path : ReqPathInfo) : ReqPathInfo :=
  { path with offset43 := lclAckTimeout <<< 3 }

def connReqPathClrRsvdFields : ReqPathInfo :=
  { path with
    offset36 := path.offset36.and (hton32 0xFFFFF03F)
    offset42 := path.offset42 &&& 0xF8
    offset43 := path.offset43 &&& 0xF8 }

/-- `__format_req_path`. -/
def formatReqPath (path : PathRec) (ackDelay : Byte) (forceGrh : Bool) (reqPath : ReqPathInfo) :
    ReqPathInfo :=
  let reqPath := { reqPath with
    localLid := path.slid, remoteLid := path.dlid, localGid := path.sgid, remoteGid := path.dgid }
  let reqPath := connReqPathSetFlowLbl (ibPathRecFlowLbl path) reqPath
  let reqPath := connReqPathSetPktRate (ibPathRecRate path) reqPath
  let reqPath := { reqPath with trafficClass := path.tclass, hopLimit := ibPathRecHopLimit path }
  let reqPath := connReqPathSetSvcLvl (ibPathRecSl path) reqPath
  let reqPath := connReqPathSetSubnLcl (!forceGrh && ibGidIsLinkLocal path.dgid) reqPath
  let reqPath := connReqPathSetLclAckTimeout
    (calcLclAckTimeout (ibPathRecPktLife path + 1) ackDelay) reqPath
  connReqPathClrRsvdFields reqPath

/-! ### The message -/

/-- `mad_cm_req_t` behind its header. -/
structure MadCmReq where
  localCommId : Net32
  rsvd1 : Net32
  sid : BitVec 64
  localCaGuid : BitVec 64
  rsvd2 : Net32
  localQkey : Net32
  /-- Local QPN:24, Responder resources:8 -/
  offset32 : Net32
  /-- Local EECN:24, Initiator depth:8 -/
  offset36 : Net32
  /-- Remote EECN:24, Remote CM Response Timeout:5, Transport Service Type:2, End-to-End Flow
  Control:1 -/
  offset40 : Net32
  /-- Starting PSN:24, Local CM Response Timeout:5, Retry Count:3 -/
  offset44 : Net32
  pkey : BitVec 16
  /-- Path MTU:4, RDC Exists:1, RNR Retry Count:3 -/
  offset50 : Byte
  /-- Max CM Retries:4, rsvd:4 -/
  offset51 : Byte
  primaryPath : ReqPathInfo
  alternatePath : ReqPathInfo
  pdata : List Byte
deriving DecidableEq, Repr

/-- `IB_REQ_PDATA_SIZE`. -/
def ibReqPdataSize : Nat := 92

variable (req : MadCmReq)

def connReqGetLclQpn : Net32 := getLow24 req.offset32

def connReqSetLclQpn (qpn : Net32) (req : MadCmReq) : MadCmReq :=
  { req with offset32 := setLow24 req.offset32 qpn }

def connReqGetRespRes : Byte := req.offset32.b3

def connReqSetRespRes (respRes : Byte) (req : MadCmReq) : MadCmReq :=
  { req with offset32 := setByte3 req.offset32 fun _ => respRes }

def connReqGetInitDepth : Byte := req.offset36.b3

def connReqSetInitDepth (initDepth : Byte) (req : MadCmReq) : MadCmReq :=
  { req with offset36 := setByte3 req.offset36 fun _ => initDepth }

def connReqGetRespTimeout : Byte := req.offset40.b3 >>> 3

def connReqSetRemoteRespTimeout (respTimeout : Byte) (req : MadCmReq) : MadCmReq :=
  { req with offset40 := setByte3 req.offset40 (putBits 0x07 3 respTimeout) }

def connReqGetQpType : Byte := getBits 1 0x3 req.offset40.b3

def connReqSetQpType (qpType : Byte) (req : MadCmReq) : MadCmReq :=
  { req with offset40 := setByte3 req.offset40 (putBits 0xF9 1 (qpType &&& 0x03)) }

def connReqGetFlowCtrl : Bool := req.offset40.b3 &&& 0x01 ≠ 0

def connReqSetFlowCtrl (flowCtrl : Bool) (req : MadCmReq) : MadCmReq :=
  { req with offset40 := setByte3 req.offset40 (putBits 0xFE 0 (if flowCtrl then 1 else 0)) }

def connReqGetStartingPsn : Net32 := getLow24 req.offset44

def connReqSetStartingPsn (startingPsn : Net32) (req : MadCmReq) : MadCmReq :=
  { req with offset44 := setLow24 req.offset44 startingPsn }

def connReqGetRetryCnt : Byte := req.offset44.b3 &&& 0x7

def connReqSetRetryCnt (retryCnt : Byte) (req : MadCmReq) : MadCmReq :=
  { req with offset44 := setByte3 req.offset44 (putBits 0xF8 0 (retryCnt &&& 0x7)) }

def connReqGetLclRespTimeout : Byte := req.offset44.b3 >>> 3

def connReqSetLclRespTimeout (respTimeout : Byte) (req : MadCmReq) : MadCmReq :=
  { req with offset44 := setByte3 req.offset44 (putBits 0x07 3 respTimeout) }

def connReqGetMtu : Byte := req.offset50 >>> 4

def connReqSetMtu (pathMtu : Byte) (req : MadCmReq) : MadCmReq :=
  { req with offset50 := putBits 0x0F 4 pathMtu req.offset50 }

def connReqGetRnrRetryCnt : Byte := req.offset50 &&& 0x07

def connReqSetRnrRetryCnt (rnrRetryCnt : Byte) (req : MadCmReq) : MadCmReq :=
  { req with offset50 := putBits 0xF8 0 (rnrRetryCnt &&& 0x07) req.offset50 }

def connReqGetMaxCmRetries : Byte := req.offset51 >>> 4

def connReqSetMaxCmRetries (retries : Byte) (req : MadCmReq) : MadCmReq :=
  { req with offset51 := retries <<< 4 }

def connReqSetPdata (data : Option (List Byte)) (req : MadCmReq) : PdataStatus × MadCmReq :=
  match data with
  | some data =>
      if ibReqPdataSize < data.length then (.invalidSetting, req)
      else (.success, { req with pdata := padded ibReqPdataSize data })
  | none => (.success, { req with pdata := padded ibReqPdataSize [] })

def connReqClrRsvdFields : MadCmReq :=
  { req with
    rsvd1 := hton32 0
    rsvd2 := hton32 0
    offset36 := req.offset36.and (hton32 0x000000FF)
    offset40 := req.offset40.and (hton32 0x000000FF)
    offset50 := req.offset50 &&& 0xF7
    offset51 := req.offset51 &&& 0xF0 }

/-- `iba_cm_req`. -/
structure IbaCmReq where
  serviceId : BitVec 64
  primaryPath : PathRec
  altPath : Option PathRec
  qpn : Net32
  qpType : Byte
  startingPsn : Net32
  pdata : Option (List Byte)
  maxCmRetries : Byte
  respRes : Byte
  initDepth : Byte
  remoteRespTimeout : Byte
  flowCtrl : Bool
  localRespTimeout : Byte
  rnrRetryCnt : Byte
  retryCnt : Byte
deriving DecidableEq, Repr

/-- What `__format_req` takes from the CEP and from its CA. -/
structure ReqSource where
  localCommId : Net32
  localCaGuid : BitVec 64
  localAckDelay : Byte
  forceGrh : Bool
deriving DecidableEq, Repr

/-- A path that `cl_memclr` has cleared. -/
def clearedPath : ReqPathInfo :=
  { localLid := 0, remoteLid := 0, localGid := ⟨0, 0⟩, remoteGid := ⟨0, 0⟩, offset36 := hton32 0
    trafficClass := 0, hopLimit := 0, offset42 := 0, offset43 := 0 }

/-- `__format_req`, over whatever was in the MAD before. -/
def formatReq (source : ReqSource) (cmReq : IbaCmReq) (req : MadCmReq) : PdataStatus × MadCmReq :=
  let primaryPath :=
    formatReqPath cmReq.primaryPath source.localAckDelay source.forceGrh req.primaryPath
  let req := { req with primaryPath }
  let alternatePath :=
    match cmReq.altPath with
    | some altPath => formatReqPath altPath source.localAckDelay source.forceGrh req.alternatePath
    | none => clearedPath
  let req := { req with alternatePath }
  let req := { req with
    localCommId := source.localCommId, sid := cmReq.serviceId, localCaGuid := source.localCaGuid }
  let req := connReqSetLclQpn cmReq.qpn req
  let req := connReqSetRespRes cmReq.respRes req
  let req := connReqSetInitDepth cmReq.initDepth req
  let req := connReqSetRemoteRespTimeout cmReq.remoteRespTimeout req
  let req := connReqSetQpType cmReq.qpType req
  let req := connReqSetFlowCtrl cmReq.flowCtrl req
  let req := connReqSetStartingPsn cmReq.startingPsn req
  let req := connReqSetLclRespTimeout cmReq.localRespTimeout req
  let req := connReqSetRetryCnt cmReq.retryCnt req
  let req := { req with pkey := cmReq.primaryPath.pkey }
  let req := connReqSetMtu (ibPathRecMtu cmReq.primaryPath) req
  let req := connReqSetRnrRetryCnt cmReq.rnrRetryCnt req
  let req := connReqSetMaxCmRetries cmReq.maxCmRetries req
  let (status, req) := connReqSetPdata cmReq.pdata req
  (status, connReqClrRsvdFields req)

/-! ### Reading the message -/

/-- What the getters read of a path. -/
structure ReqPathView where
  localLid : BitVec 16
  remoteLid : BitVec 16
  localGid : Gid
  remoteGid : Gid
  flowLbl : Net32
  pktRate : Byte
  trafficClass : Byte
  hopLimit : Byte
  svcLvl : Byte
  subnLcl : Bool
  lclAckTimeout : Byte
deriving DecidableEq, Repr

/-- What the getters read from a path. -/
def ReqPathInfo.view : ReqPathView :=
  { localLid := path.localLid, remoteLid := path.remoteLid, localGid := path.localGid
    remoteGid := path.remoteGid, flowLbl := connReqPathGetFlowLbl path
    pktRate := connReqPathGetPktRate path, trafficClass := path.trafficClass
    hopLimit := path.hopLimit, svcLvl := connReqPathGetSvcLvl path
    subnLcl := connReqPathGetSubnLcl path, lclAckTimeout := connReqPathGetLclAckTimeout path }

/-- What a path of a REQ is to say of a path record. -/
def PathRec.reqView (path : PathRec) (ackDelay : Byte) (forceGrh : Bool) : ReqPathView :=
  { localLid := path.slid, remoteLid := path.dlid, localGid := path.sgid, remoteGid := path.dgid
    flowLbl := ibPathRecFlowLbl path, pktRate := ibPathRecRate path, trafficClass := path.tclass
    hopLimit := ibPathRecHopLimit path, svcLvl := ibPathRecSl path
    subnLcl := !forceGrh && ibGidIsLinkLocal path.dgid
    lclAckTimeout := calcLclAckTimeout (ibPathRecPktLife path + 1) ackDelay }

/-- What the getters read of a REQ. -/
structure ReqView where
  localCommId : Net32
  sid : BitVec 64
  localCaGuid : BitVec 64
  lclQpn : Net32
  respRes : Byte
  initDepth : Byte
  respTimeout : Byte
  qpType : Byte
  flowCtrl : Bool
  startingPsn : Net32
  lclRespTimeout : Byte
  retryCnt : Byte
  pkey : BitVec 16
  mtu : Byte
  rnrRetryCnt : Byte
  maxCmRetries : Byte
  primaryPath : ReqPathView
  alternatePath : ReqPathView
  pdata : List Byte
deriving DecidableEq, Repr

/-- What the getters read from a REQ. -/
def MadCmReq.view : ReqView :=
  { localCommId := req.localCommId, sid := req.sid, localCaGuid := req.localCaGuid
    lclQpn := connReqGetLclQpn req, respRes := connReqGetRespRes req
    initDepth := connReqGetInitDepth req, respTimeout := connReqGetRespTimeout req
    qpType := connReqGetQpType req, flowCtrl := connReqGetFlowCtrl req
    startingPsn := connReqGetStartingPsn req, lclRespTimeout := connReqGetLclRespTimeout req
    retryCnt := connReqGetRetryCnt req, pkey := req.pkey, mtu := connReqGetMtu req
    rnrRetryCnt := connReqGetRnrRetryCnt req, maxCmRetries := connReqGetMaxCmRetries req
    primaryPath := req.primaryPath.view, alternatePath := req.alternatePath.view
    pdata := req.pdata }

/-- What a REQ is to say. -/
def IbaCmReq.view (cmReq : IbaCmReq) (source : ReqSource) : ReqView :=
  { localCommId := source.localCommId, sid := cmReq.serviceId, localCaGuid := source.localCaGuid
    lclQpn := cmReq.qpn, respRes := cmReq.respRes, initDepth := cmReq.initDepth
    respTimeout := cmReq.remoteRespTimeout, qpType := cmReq.qpType, flowCtrl := cmReq.flowCtrl
    startingPsn := cmReq.startingPsn, lclRespTimeout := cmReq.localRespTimeout
    retryCnt := cmReq.retryCnt, pkey := cmReq.primaryPath.pkey
    mtu := ibPathRecMtu cmReq.primaryPath, rnrRetryCnt := cmReq.rnrRetryCnt
    maxCmRetries := cmReq.maxCmRetries
    primaryPath := cmReq.primaryPath.reqView source.localAckDelay source.forceGrh
    alternatePath := (cmReq.altPath.map (·.reqView source.localAckDelay source.forceGrh)).getD
      clearedPath.view
    pdata := padded ibReqPdataSize (cmReq.pdata.getD []) }

/-- `__calc_mad_timeout`. -/
def calcMadTimeout (pktLife : Byte) : Nat :=
  if 39 < pktLife.toNat then 2 ^ 31 - 1
  else if 14 < pktLife.toNat then 67 * 2 ^ (pktLife.toNat - 14)
  else if 8 < pktLife.toNat then 67 / 2 ^ (14 - pktLife.toNat)
  else 1

/-- What a CEP keeps of a REQ. -/
structure SavedReq where
  sid : BitVec 64
  remoteCommId : Net32
  remoteCaGuid : BitVec 64
  remoteQpn : Net32
  retryTimeout : Nat
  maxCmRetries : Byte
  max2pktLife : Nat
  respRes : Byte
  initDepth : Byte
  sqPsn : Net32
  pdata : List Byte
deriving DecidableEq, Repr

/-- `__save_wire_req`, but for the address vectors and the states of the CEP. What is to be the
initiator depth here is what the sender has as responder resources, and the other way round. -/
def saveWireReq : SavedReq :=
  { sid := req.sid, remoteCommId := req.localCommId, remoteCaGuid := req.localCaGuid
    remoteQpn := connReqGetLclQpn req
    retryTimeout := calcMadTimeout (connReqGetLclRespTimeout req)
    maxCmRetries := connReqGetMaxCmRetries req
    max2pktLife := max (connReqPathGetLclAckTimeout req.primaryPath).toNat
      (connReqPathGetLclAckTimeout req.alternatePath).toNat
    respRes := connReqGetInitDepth req, initDepth := connReqGetRespRes req
    sqPsn := connReqGetStartingPsn req, pdata := req.pdata }

/-- What a CEP is to keep of a REQ. -/
def ReqView.saved (view : ReqView) : SavedReq :=
  { sid := view.sid, remoteCommId := view.localCommId, remoteCaGuid := view.localCaGuid
    remoteQpn := view.lclQpn, retryTimeout := calcMadTimeout view.lclRespTimeout
    maxCmRetries := view.maxCmRetries
    max2pktLife := max view.primaryPath.lclAckTimeout.toNat view.alternatePath.lclAckTimeout.toNat
    respRes := view.initDepth, initDepth := view.respRes, sqPsn := view.startingPsn
    pdata := view.pdata }

/-- The values fit into their fields. -/
structure IbaCmReq.Fits (cmReq : IbaCmReq) : Prop where
  qpn : cmReq.qpn.b0 = 0
  startingPsn : cmReq.startingPsn.b0 = 0
  remoteRespTimeout : cmReq.remoteRespTimeout.toNat < 2 ^ 5
  qpType : cmReq.qpType.toNat < 2 ^ 2
  localRespTimeout : cmReq.localRespTimeout.toNat < 2 ^ 5
  retryCnt : cmReq.retryCnt.toNat < 2 ^ 3
  mtu : (ibPathRecMtu cmReq.primaryPath).toNat < 2 ^ 4
  rnrRetryCnt : cmReq.rnrRetryCnt.toNat < 2 ^ 3
  maxCmRetries : cmReq.maxCmRetries.toNat < 2 ^ 4
  pdata : ∀ data, cmReq.pdata = some data → data.length ≤ ibReqPdataSize

/-- The reserved bits of a path are zero. -/
structure ReqPathInfo.Reserved (path : ReqPathInfo) : Prop where
  offset36 : ntoh32 path.offset36 &&& 0x00000FC0 = 0
  offset42 : path.offset42 &&& 0x07 = 0
  offset43 : path.offset43 &&& 0x07 = 0

/-- The reserved bits of a message are zero; those of the EECNs are among them. -/
structure MadCmReq.Reserved (req : MadCmReq) : Prop where
  rsvd1 : ntoh32 req.rsvd1 = 0
  rsvd2 : ntoh32 req.rsvd2 = 0
  offset36 : ntoh32 req.offset36 &&& 0xFFFFFF00 = 0
  offset40 : ntoh32 req.offset40 &&& 0xFFFFFF00 = 0
  offset50 : req.offset50 &&& 0x08 = 0
  offset51 : req.offset51 &&& 0x0F = 0
  primaryPath : req.primaryPath.Reserved
  alternatePath : req.alternatePath.Reserved

/-! ### Any order of the setters -/

/-- The setters for a path. -/
inductive ReqPathField
  | flowLbl
  | pktRate
  | svcLvl
  | subnLcl
  | lclAckTimeout
deriving DecidableEq, Repr

/-- The setter of a field, with the value `__format_req_path` gives it. -/
def ReqPathField.set (path : PathRec) (ackDelay : Byte) (forceGrh : Bool) :
    ReqPathField → ReqPathInfo → ReqPathInfo
  | flowLbl => connReqPathSetFlowLbl (ibPathRecFlowLbl path)
  | pktRate => connReqPathSetPktRate (ibPathRecRate path)
  | svcLvl => connReqPathSetSvcLvl (ibPathRecSl path)
  | subnLcl => connReqPathSetSubnLcl (!forceGrh && ibGidIsLinkLocal path.dgid)
  | lclAckTimeout =>
      connReqPathSetLclAckTimeout (calcLclAckTimeout (ibPathRecPktLife path + 1) ackDelay)

/-- The order of `__format_req_path`. -/
def ReqPathField.order : List ReqPathField := [flowLbl, pktRate, svcLvl, subnLcl, lclAckTimeout]

/-- `__format_req_path` with the setters in some order. -/
def formatReqPathIn (order : List ReqPathField) (path : PathRec) (ackDelay : Byte)
    (forceGrh : Bool) (reqPath : ReqPathInfo) : ReqPathInfo :=
  let reqPath := { reqPath with
    localLid := path.slid, remoteLid := path.dlid, localGid := path.sgid, remoteGid := path.dgid
    trafficClass := path.tclass, hopLimit := ibPathRecHopLimit path }
  connReqPathClrRsvdFields
    (order.foldl (fun reqPath field => field.set path ackDelay forceGrh reqPath) reqPath)

variable (path : PathRec) (ackDelay : Byte) (forceGrh : Bool) (reqPath : ReqPathInfo)

theorem formatReqPath_eq :
    formatReqPath path ackDelay forceGrh reqPath =
      formatReqPathIn ReqPathField.order path ackDelay forceGrh reqPath := rfl

/-- The setters for a REQ. -/
inductive ReqField
  | lclQpn
  | respRes
  | initDepth
  | remoteRespTimeout
  | qpType
  | flowCtrl
  | startingPsn
  | lclRespTimeout
  | retryCnt
  | mtu
  | rnrRetryCnt
  | maxCmRetries
deriving DecidableEq, Repr

/-- The setter of a field, with the value `__format_req` gives it. -/
def ReqField.set (cmReq : IbaCmReq) : ReqField → MadCmReq → MadCmReq
  | lclQpn => connReqSetLclQpn cmReq.qpn
  | respRes => connReqSetRespRes cmReq.respRes
  | initDepth => connReqSetInitDepth cmReq.initDepth
  | remoteRespTimeout => connReqSetRemoteRespTimeout cmReq.remoteRespTimeout
  | qpType => connReqSetQpType cmReq.qpType
  | flowCtrl => connReqSetFlowCtrl cmReq.flowCtrl
  | startingPsn => connReqSetStartingPsn cmReq.startingPsn
  | lclRespTimeout => connReqSetLclRespTimeout cmReq.localRespTimeout
  | retryCnt => connReqSetRetryCnt cmReq.retryCnt
  | mtu => connReqSetMtu (ibPathRecMtu cmReq.primaryPath)
  | rnrRetryCnt => connReqSetRnrRetryCnt cmReq.rnrRetryCnt
  | maxCmRetries => connReqSetMaxCmRetries cmReq.maxCmRetries

/-- The order of `__format_req`. -/
def ReqField.order : List ReqField :=
  [lclQpn, respRes, initDepth, remoteRespTimeout, qpType, flowCtrl, startingPsn, lclRespTimeout,
    retryCnt, mtu, rnrRetryCnt, maxCmRetries]

/-- `__format_req` with the setters in some order. -/
def formatReqIn (order : List ReqField) (pathOrder : List ReqPathField) (source : ReqSource)
    (cmReq : IbaCmReq) (req : MadCmReq) : PdataStatus × MadCmReq :=
  let format := fun path =>
    formatReqPathIn pathOrder path source.localAckDelay source.forceGrh
  let alternatePath :=
    match cmReq.altPath with
    | some altPath => format altPath req.alternatePath
    | none => clearedPath
  let req := { req with
    primaryPath := format cmReq.primaryPath req.primaryPath, alternatePath
    localCommId := source.localCommId, sid := cmReq.serviceId, localCaGuid := source.localCaGuid
    pkey := cmReq.primaryPath.pkey }
  let req := order.foldl (fun req field => field.set cmReq req) req
  let (status, req) := connReqSetPdata cmReq.pdata req
  (status, connReqClrRsvdFields req)

variable (source : ReqSource)

theorem formatReq_eq (cmReq : IbaCmReq) (req : MadCmReq) :
    formatReq source cmReq req = formatReqIn ReqField.order ReqPathField.order source cmReq req := by
  cases cmReq.pdata <;> rfl

/-- The service level and the flag for the local subnet share a byte. -/
theorem ReqPathField.set_comm (first second : ReqPathField) (reqPath : ReqPathInfo) :
    second.set path ackDelay forceGrh (first.set path ackDelay forceGrh reqPath) =
      first.set path ackDelay forceGrh (second.set path ackDelay forceGrh reqPath) := by
  cases first <;> cases second <;> try rfl
  all_goals
    simp only [ReqPathField.set, connReqPathSetSvcLvl, connReqPathSetSubnLcl]
    rw [putBits_comm]
    all_goals first
      | exact shiftLeft_and (ite_and_one _) (by decide)
      | exact shiftLeft_and (BitVec.and_allOnes ..) (by decide)

/-- Of the fields of a message some share a byte: timeout, QP type and flow control, timeout
and retry count, MTU and RNR retry count. -/
theorem ReqField.set_comm (cmReq : IbaCmReq) (first second : ReqField) (req : MadCmReq) :
    second.set cmReq (first.set cmReq req) = first.set cmReq (second.set cmReq req) := by
  have masked : ∀ value mask : Byte, value &&& mask &&& mask = value &&& mask := by
    intro value mask
    rw [BitVec.and_assoc, BitVec.and_self]
  cases first <;> cases second <;> try rfl
  all_goals
    simp only [ReqField.set, connReqSetRemoteRespTimeout, connReqSetQpType, connReqSetFlowCtrl,
      connReqSetLclRespTimeout, connReqSetRetryCnt, connReqSetMtu, connReqSetRnrRetryCnt, setByte3]
    -- Each value lies within the bits that the other setter keeps.
    rw [putBits_comm]
    all_goals first
      | exact shiftLeft_and (masked ..) (by decide)
      | exact shiftLeft_and (ite_and_one _) (by decide)
      | exact shiftLeft_and (BitVec.and_allOnes ..) (by decide)

/-- The order of the setters makes no difference. -/
theorem formatReqIn_perm {order : List ReqField} {pathOrder : List ReqPathField}
    (fields : order.Perm ReqField.order) (pathFields : pathOrder.Perm ReqPathField.order)
    (source : ReqSource) (cmReq : IbaCmReq) (req : MadCmReq) :
    formatReqIn order pathOrder source cmReq req = formatReq source cmReq req := by
  have paths : ∀ path reqPath,
      formatReqPathIn pathOrder path source.localAckDelay source.forceGrh reqPath =
        formatReqPath path source.localAckDelay source.forceGrh reqPath := by
    intro path reqPath
    rw [formatReqPath_eq, formatReqPathIn, formatReqPathIn]
    congr 1
    exact pathFields.foldl_eq' (fun first _ second _ reqPath => ReqPathField.set_comm ..) _
  rw [formatReq_eq, formatReqIn, formatReqIn]
  simp only [paths, ← formatReqPath_eq]
  rw [fields.foldl_eq' fun first _ second _ req => ReqField.set_comm ..]

/-! ### What is read -/

/-- A path as it is read, with the flow label as it comes. -/
def ReqPathView.shifted (view : ReqPathView) : ReqPathView :=
  { view with flowLbl := hton32 (ntoh32 view.flowLbl >>> 4) }

/-- All of a path is read as it was written but the flow label, of which the last four bits
are lost. -/
theorem view_formatReqPath :
    (formatReqPath path ackDelay forceGrh reqPath).view = (path.reqView ackDelay forceGrh).shifted := by
  have rates : hton32 0xFFFFF03F = ⟨0xFF, 0xFF, 0xF0, 0x3F⟩ := by decide
  simp only [ReqPathInfo.view, PathRec.reqView, ReqPathView.shifted, ReqPathView.mk.injEq]
  refine ⟨rfl, rfl, rfl, rfl, ?_, ?_, rfl, rfl, ?_, ?_, ?_⟩
  · change getLow20 ((setLow24 (setByte3 reqPath.offset36 fun _ => ibPathRecRate path &&& 0x3F)
      ((ibPathRecFlowLbl path).and (hton32 0x000FFFFF))).and (hton32 0xFFFFF03F)) = _
    rw [rates]
    exact getLow20_setLow24 _ (ntoh32_ibPathRecFlowLbl_lt path)
  · change ibPathRecRate path &&& 0x3F &&& (hton32 0xFFFFF03F).b3 &&& 0x3F = ibPathRecRate path
    rw [rates, ibPathRecRate]
    simp only [BitVec.and_assoc, BitVec.and_self]
  · change (putBits 0xF0 3 _ (putBits 0x08 4 (ibPathRecSl path) _) &&& 0xF8) >>> 4 = _
    rw [BitVec.ushiftRight_and_distrib]
    change getBits 4 0x0F _ = _
    rw [getBits_putBits_of_apart (by decide) (shiftLeft_shiftRight_apart (ite_and_one _) (by decide))]
    exact getBits_putBits (by decide)
      (shiftLeft_shiftRight_and (and_of_lt (by decide) (ibPathRecSl_lt path)) (by decide))
  · change decide (putBits 0xF0 3 _ _ &&& 0xF8 &&& 0x08 ≠ 0) = _
    rw [BitVec.and_assoc]
    exact putBits_and_flag (by decide) (by decide)
  · change (calcLclAckTimeout _ _ <<< 3 &&& 0xF8) >>> 3 = _
    rw [BitVec.ushiftRight_and_distrib]
    exact shiftLeft_shiftRight_and (and_of_lt (by decide) (calcLclAckTimeout_lt ..)) (by decide)

theorem ReqPathView.shifted_eq_self_iff (view : ReqPathView) :
    view.shifted = view ↔ ntoh32 view.flowLbl = 0 := by
  rw [← shiftRight_four_eq_self, ← hton32_inj, hton32_ntoh32]
  constructor
  · intro same
    exact congrArg ReqPathView.flowLbl same
  · intro same
    rw [ReqPathView.shifted, same]

theorem connReqSetPdata_of_fits {data : Option (List Byte)} (req : MadCmReq)
    (fits : ∀ bytes, data = some bytes → bytes.length ≤ ibReqPdataSize) :
    connReqSetPdata data req =
      (.success, { req with pdata := padded ibReqPdataSize (data.getD []) }) := by
  cases data with
  | none => rfl
  | some bytes => exact if_neg (Nat.not_lt.mpr (fits bytes rfl))

theorem reserved_formatReqPath : (formatReqPath path ackDelay forceGrh reqPath).Reserved where
  offset36 := ntoh32_and_hton32 _ (by decide)
  offset42 := and_and_eq_zero _ (by decide)
  offset43 := and_and_eq_zero _ (by decide)

/-- `conn_req_clr_rsvd_fields` clears all there is to clear outside the paths. -/
theorem reserved_connReqClrRsvdFields {req : MadCmReq} (primaryPath : req.primaryPath.Reserved)
    (alternatePath : req.alternatePath.Reserved) : (connReqClrRsvdFields req).Reserved where
  rsvd1 := by
    change ntoh32 (hton32 0) = 0
    decide
  rsvd2 := by
    change ntoh32 (hton32 0) = 0
    decide
  offset36 := ntoh32_and_hton32 _ (by decide)
  offset40 := ntoh32_and_hton32 _ (by decide)
  offset50 := and_and_eq_zero _ (by decide)
  offset51 := and_and_eq_zero _ (by decide)
  primaryPath := primaryPath
  alternatePath := alternatePath

/-- The flow labels of the paths are zero. -/
def IbaCmReq.Unlabelled (cmReq : IbaCmReq) : Prop :=
  ∀ path, path = cmReq.primaryPath ∨ cmReq.altPath = some path →
    ntoh32 (ibPathRecFlowLbl path) = 0

section
variable {cmReq : IbaCmReq} (fits : cmReq.Fits) (req : MadCmReq)
include fits

/-- All of a message is read as it was written but the flow labels. -/
theorem view_formatReq :
    (formatReq source cmReq req).2.view =
      { cmReq.view source with
        primaryPath := (cmReq.view source).primaryPath.shifted
        alternatePath := (cmReq.view source).alternatePath.shifted } := by
  have low : hton32 0x000000FF = ⟨0, 0, 0, 0xFF⟩ := by decide
  have kept : ∀ byte : Byte, byte &&& 0xFF = byte := fun byte => BitVec.and_allOnes
  simp only [MadCmReq.view, IbaCmReq.view, ReqView.mk.injEq, formatReq,
    connReqSetPdata_of_fits _ fits.pdata, connReqClrRsvdFields, connReqGetLclQpn,
    connReqSetLclQpn, connReqGetRespRes, connReqSetRespRes, connReqGetInitDepth,
    connReqSetInitDepth, connReqGetRespTimeout, connReqSetRemoteRespTimeout, connReqGetQpType,
    connReqSetQpType, connReqGetFlowCtrl, connReqSetFlowCtrl, connReqGetStartingPsn,
    connReqSetStartingPsn, connReqGetRetryCnt, connReqSetRetryCnt, connReqGetLclRespTimeout,
    connReqSetLclRespTimeout, connReqGetMtu, connReqSetMtu, connReqGetRnrRetryCnt,
    connReqSetRnrRetryCnt, connReqGetMaxCmRetries, connReqSetMaxCmRetries, setByte3,
    setLow24, Net32.and, low, kept, true_and, and_true]
  have qpType : cmReq.qpType &&& 0x03 = cmReq.qpType := and_of_lt (by decide) fits.qpType
  have retryCnt : cmReq.retryCnt &&& 0x07 = cmReq.retryCnt := and_of_lt (by decide) fits.retryCnt
  have rnrRetryCnt : cmReq.rnrRetryCnt &&& 0x07 = cmReq.rnrRetryCnt :=
    and_of_lt (by decide) fits.rnrRetryCnt
  rw [qpType, retryCnt, rnrRetryCnt]
  refine ⟨getLow24_mk fits.qpn _, ?_, ?_, ?_, getLow24_mk fits.startingPsn _, ?_, ?_, ?_,
    ?_, ?_, view_formatReqPath .., ?_⟩
  · rw [shiftRight_eq_getBits,
      getBits_putBits_of_apart (by decide) (shiftLeft_shiftRight_apart (ite_and_one _) (by decide)),
      getBits_putBits_of_apart (by decide) (shiftLeft_shiftRight_apart qpType (by decide))]
    exact getBits_putBits (by decide)
      (shiftLeft_shiftRight_and (and_of_lt (by decide) fits.remoteRespTimeout) (by decide))
  · rw [getBits_putBits_of_apart (by decide) (shiftLeft_shiftRight_apart (ite_and_one _) (by decide))]
    exact getBits_putBits (by decide) (shiftLeft_shiftRight_and qpType (by decide))
  · exact putBits_and_flag (by decide) (by decide)
  · rw [shiftRight_eq_getBits,
      getBits_putBits_of_apart (by decide) (shiftLeft_shiftRight_apart retryCnt (by decide))]
    exact getBits_putBits (by decide)
      (shiftLeft_shiftRight_and (and_of_lt (by decide) fits.localRespTimeout) (by decide))
  · rw [and_eq_getBits]
    exact getBits_putBits (by decide) (shiftLeft_shiftRight_and retryCnt (by decide))
  · rw [BitVec.ushiftRight_and_distrib]
    change getBits 4 0x0F _ = _
    rw [getBits_putBits_of_apart (by decide) (shiftLeft_shiftRight_apart rnrRetryCnt (by decide))]
    exact getBits_putBits (by decide)
      (shiftLeft_shiftRight_and (and_of_lt (by decide) fits.mtu) (by decide))
  · rw [BitVec.and_assoc, and_eq_getBits]
    exact getBits_putBits (by decide) (shiftLeft_shiftRight_and rnrRetryCnt (by decide))
  · rw [BitVec.ushiftRight_and_distrib]
    exact shiftLeft_shiftRight_and (and_of_lt (by decide) fits.maxCmRetries) (by decide)
  · cases cmReq.altPath with
    | none =>
      change clearedPath.view = clearedPath.view.shifted
      decide
    | some path => exact view_formatReqPath ..

theorem reserved_formatReq : (formatReq source cmReq req).2.Reserved := by
  simp only [formatReq, connReqSetPdata_of_fits _ fits.pdata]
  apply reserved_connReqClrRsvdFields
  · exact reserved_formatReqPath ..
  · cases cmReq.altPath with
    | none => exact show clearedPath.Reserved by constructor <;> decide
    | some altPath => exact reserved_formatReqPath ..

/-! ### Round trip -/

/-- What a CEP keeps of a message is right whatever the flow labels. -/
theorem saveWireReq_formatReq : saveWireReq (formatReq source cmReq req).2 = (cmReq.view source).saved := by
  have kept : saveWireReq (formatReq source cmReq req).2 = (formatReq source cmReq req).2.view.saved := rfl
  rw [kept, view_formatReq source fits]
  rfl

theorem view_formatReq_eq_iff :
    (formatReq source cmReq req).2.view = cmReq.view source ↔ cmReq.Unlabelled := by
  have split : (formatReq source cmReq req).2.view = cmReq.view source ↔
      (cmReq.view source).primaryPath.shifted = (cmReq.view source).primaryPath ∧
        (cmReq.view source).alternatePath.shifted = (cmReq.view source).alternatePath := by
    rw [view_formatReq source fits]
    constructor
    · intro same
      exact ⟨congrArg ReqView.primaryPath same, congrArg ReqView.alternatePath same⟩
    · rintro ⟨primary, alternate⟩
      rw [primary, alternate]
  rw [split, ReqPathView.shifted_eq_self_iff, ReqPathView.shifted_eq_self_iff]
  constructor
  · rintro ⟨primary, alternate⟩ path (rfl | named)
    · exact primary
    · simpa [IbaCmReq.view, named, PathRec.reqView] using alternate
  · intro zero
    refine ⟨zero _ (.inl rfl), ?_⟩
    cases named : cmReq.altPath with
    | none =>
      simp only [IbaCmReq.view, named]
      change ntoh32 clearedPath.view.flowLbl = 0
      decide
    | some path => simpa [IbaCmReq.view, named, PathRec.reqView] using zero path (.inr named)

end

/-- A message that `__format_req` has written, with its setters in whatever order, keeps its
reserved bits at zero and gives the CEP what it is to keep; every accessor reads what was
written just when the paths have no flow labels. -/
theorem formatReqIn_round_trip (source : ReqSource) (cmReq : IbaCmReq) (fits : cmReq.Fits)
    (req : MadCmReq) (order : List ReqField) (fields : order.Perm ReqField.order)
    (pathOrder : List ReqPathField) (pathFields : pathOrder.Perm ReqPathField.order) :
    let message := formatReqIn order pathOrder source cmReq req
    message.1 = .success ∧ message = formatReq source cmReq req ∧ message.2.Reserved ∧
      saveWireReq message.2 = (cmReq.view source).saved ∧
      (message.2.view = cmReq.view source ↔ cmReq.Unlabelled) := by
  intro message
  have same : message = formatReq source cmReq req := formatReqIn_perm fields pathFields ..
  rw [same]
  refine ⟨?_, rfl, reserved_formatReq source fits req, saveWireReq_formatReq source fits req,
    view_formatReq_eq_iff source fits req⟩
  simp only [formatReq, connReqSetPdata_of_fits _ fits.pdata]

/-- A path between two ports of a subnet, with a hop limit of one. -/
def subnetPath (flowLbl : BitVec 32) : PathRec :=
  { dgid := ⟨0xFE80000000000000, 2⟩, sgid := ⟨0xFE80000000000000, 1⟩, dlid := 2, slid := 1
    hopFlowRaw := hton32 (flowLbl <<< 8 ||| 1), tclass := 5, pkey := 0xFFFF, qosClassSl := 3
    mtu := 0x84, rate := 0x83, pktLife := 0x92 }

/-- A request over such a path. -/
def subnetReq (flowLbl : BitVec 32) : IbaCmReq :=
  { serviceId := 7, primaryPath := subnetPath flowLbl, altPath := none, qpn := hton32 0x000412
    qpType := 0, startingPsn := hton32 0xABCDEF, pdata := some [1, 2, 3], maxCmRetries := 15
    respRes := 4, initDepth := 2, remoteRespTimeout := 20, flowCtrl := true
    localRespTimeout := 19, rnrRetryCnt := 7, retryCnt := 6 }

theorem subnetReq_fits (flowLbl : BitVec 32) : (subnetReq flowLbl).Fits where
  qpn := rfl
  startingPsn := rfl
  remoteRespTimeout := (by decide : (20 : Byte).toNat < 2 ^ 5)
  qpType := (by decide : (0 : Byte).toNat < 2 ^ 2)
  localRespTimeout := (by decide : (19 : Byte).toNat < 2 ^ 5)
  retryCnt := (by decide : (6 : Byte).toNat < 2 ^ 3)
  mtu := (by decide : (0x84 &&& 0x3F : Byte).toNat < 2 ^ 4)
  rnrRetryCnt := (by decide : (7 : Byte).toNat < 2 ^ 3)
  maxCmRetries := (by decide : (15 : Byte).toNat < 2 ^ 4)
  pdata := by
    rintro data ⟨⟩
    decide

/-- A buffer of ones. -/
def filledReq : MadCmReq :=
  let path : ReqPathInfo :=
    { localLid := 0xFFFF, remoteLid := 0xFFFF, localGid := ⟨1, 1⟩, remoteGid := ⟨1, 1⟩
      offset36 := hton32 0xFFFFFFFF, trafficClass := 0xFF, hopLimit := 0xFF, offset42 := 0xFF
      offset43 := 0xFF }
  let ones := hton32 0xFFFFFFFF
  { localCommId := ones, rsvd1 := ones, sid := 1, localCaGuid := 1, rsvd2 := ones
    localQkey := ones, offset32 := ones, offset36 := ones, offset40 := ones, offset44 := ones
    pkey := 0xFFFF, offset50 := 0xFF, offset51 := 0xFF, primaryPath := path
    alternatePath := path, pdata := List.replicate ibReqPdataSize 0xFF }

def someReqSource : ReqSource :=
  { localCommId := hton32 0x02000001, localCaGuid := 9, localAckDelay := 15, forceGrh := false }

/-- A REQ without flow label is read as it was given, with the setters in reverse order too. -/
theorem formatReqIn_round_trip_unlabelled :
    (formatReqIn ReqField.order.reverse ReqPathField.order.reverse someReqSource (subnetReq 0)
      filledReq).2.view = (subnetReq 0).view someReqSource := by
  refine (formatReqIn_round_trip someReqSource (subnetReq 0) (subnetReq_fits 0) filledReq
    ReqField.order.reverse (List.reverse_perm _) ReqPathField.order.reverse
    (List.reverse_perm _)).2.2.2.2.mpr ?_
  rintro path (rfl | named)
  · decide
  · cases named

/-- A flow label of `0x12345` is read as `0x1234`. -/
theorem formatReq_loses_flowLbl :
    (subnetReq 0x12345).Fits ∧
      ibPathRecFlowLbl (subnetReq 0x12345).primaryPath = hton32 0x12345 ∧
      connReqPathGetFlowLbl (formatReq someReqSource (subnetReq 0x12345) filledReq).2.primaryPath =
        hton32 0x1234 := by
  refine ⟨subnetReq_fits _, ?_, ?_⟩ <;> decide

end WinOFED.Cm
