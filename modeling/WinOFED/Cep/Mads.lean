import WinOFED.Cep.Kcep

/-! The handlers of received CM MADs. -/
namespace WinOFED.Cep
open Complib

variable (mgr : CepMgr)

/-- Change a CEP. -/
def CepMgr.update (cep : CepId) (change : Kcep → Kcep) : Option CepMgr := do
  let kcep ← mgr.ceps cep
  some (mgr.setCep cep (change kcep))

/-- `IB_REJ_TIMEOUT`. -/
def rejTimeout : UInt16 := 4

/-- `IB_REJ_INVALID_SID`. -/
def rejInvalidSid : UInt16 := 8

/-- `IB_REJ_STALE_CONN`. -/
def rejStaleConn : UInt16 := 10

/-- `IB_QPT_UNRELIABLE_CONN`. -/
def qptUnreliableConn : UInt8 := 1

/-- A REQ, with the port it was received on. -/
structure ReqMad where
  localCommId : UInt32
  localCaGuid : UInt64
  lclQpn : UInt32
  qpType : UInt8
  listen : ListenReq

/-- The received CM MADs. The communication IDs are those of the sender. -/
inductive CmMad
  | req (mad : ReqMad)
  | mra (localCommId remoteCommId : UInt32) (msgMraed : Fin 4)
  | rej (localCommId remoteCommId : UInt32) (reason : UInt16) (ariLen : UInt8) (caGuid : UInt64)
  | rep (localCommId remoteCommId : UInt32) (localCaGuid : UInt64) (lclQpn : UInt32)
  | rtu (localCommId remoteCommId : UInt32)
  | dreq (localCommId remoteCommId remoteQpn : UInt32)
  | drep (localCommId remoteCommId : UInt32)
  | lap (localCommId remoteCommId : UInt32)
  | apr (localCommId remoteCommId : UInt32)

/-- What happens outside of the manager while a MAD is handled. -/
structure RecvOutcome where
  /-- For the REJ that `__process_stale` makes up. -/
  stale : Outcome
  misread : Misread
  /-- There is memory for a new CEP. -/
  allocated : Bool
  /-- The CID vector can grow. -/
  grown : Bool
  /-- `__format_lap_av` finds the path. -/
  path : Bool

/-- What a CEP gives up when its connection is aborted: the MAD it sends if it sends one,
and the one it has prepared. -/
def Kcep.abort (kcep : Kcep) (state : CepState) : Kcep :=
  { kcep with
    pSendMad := if kcep.state.sent then none else kcep.pSendMad
    pMad := if kcep.state.prep then none else kcep.pMad
    state }

/-- `__process_rej`. The connection is aborted before it is established; after that the CEP
goes to timewait and keeps a LAP it sends. -/
def processRej (cep : CepId) (reason : UInt16) : Option CepMgr := do
  let kcep ← mgr.ceps cep
  match kcep.state with
  | .reqSent | .repSent | .reqMraRcvd | .repMraRcvd | .repRcvd | .reqMraSent | .repMraSent
  | .preRep | .preRepMraSent =>
      if kcep.state = .reqSent ∧ kcep.p2p ∧ reason = rejInvalidSid then some mgr
      else do
        let mgr ← removeCep mgr cep
        let mgr ← mgr.update cep fun kcep => kcep.abort .idle
        queueMad mgr cep none
  | .reqRcvd => do
      let mgr ← removeCep mgr cep
      mgr.update cep fun kcep => { kcep with state := .idle }
  | .established | .lapRcvd | .lapSent | .lapMraRcvd | .lapMraSent | .preApr | .preAprMraSent => do
      let pMad := if kcep.state.prep then none else kcep.pMad
      let mgr := insertTimewait (mgr.setCep cep { kcep with pMad, state := .timewait }) cep
      queueMad mgr cep none
  | _ => some mgr

/-- `__process_stale`. -/
def processStale (cep : CepId) (outcome : Outcome) : Option CepMgr :=
  if outcome.mad then processRej mgr cep rejStaleConn else some mgr

/-! ### REQ -/

/-- `__save_wire_req`. -/
def saveWireReq (kcep : Kcep) (req : ReqMad) : Kcep :=
  { kcep with
    state := .reqRcvd
    wasActive := false
    sid := req.listen.sid
    remoteCommId := req.localCommId
    remoteCaGuid := req.localCaGuid
    remoteQpn := req.lclQpn
    localQpn := 0 }

/-- A new CEP for a REQ that cannot be accepted is thrown away again: `__unbind_cep` and
`__cleanup_cep` of an idle CEP. -/
def discardCep (cep : CepId) : Option CepMgr := do
  let mgr ← unbindCep mgr cep
  let mgr ← mgr.update cep fun kcep =>
    { kcep with remoteCommId := 0, remoteQpn := 0, state := .destroy, refCnt := kcep.refCnt - 1 }
  some (insertTimewait mgr cep)

/-- The part of `__req_handler` for a REQ that matches a listen. The search by QPN may
return a pointer that is none to a CEP, which `__process_stale` follows; not so for a QPN of
24 bits (`insertCep_ne_astray`). -/
def acceptReq (listener : CepId) (req : ReqMad) (outcome : RecvOutcome) : Option CepMgr :=
  match createCep mgr outcome.allocated outcome.grown with
  | none => some mgr
  | some (cep, mgr) => do
      let kcep ← mgr.ceps cep
      let kListener ← mgr.ceps listener
      let mgr := mgr.setCep cep (saveWireReq kcep req)
      let mgr := bindCep mgr kcep.cid (mgr.cidVector kListener.cid).hAl
      let (result, mgr) ← insertCep mgr cep outcome.misread
      match result with
      | .inserted => queueMad mgr listener (some cep)
      | .stale other => do
          let mgr ← processStale mgr other outcome.stale
          discardCep mgr cep
      | .astray => none

/-- `__req_handler`. A REQ that was received before or matches no listen changes nothing. -/
def reqHandler (req : ReqMad) (outcome : RecvOutcome) : Option CepMgr :=
  if qptUnreliableConn < req.qpType ∨ req.lclQpn = 0 then some mgr
  else do
    match ← lookupById mgr req.localCommId req.localCaGuid with
    | some _ => some mgr
    | none => do
        match ← lookupListen mgr.listens req.listen with
        | none => some mgr
        | some listener => acceptReq mgr listener req outcome

/-! ### The other MADs -/

/-- Handle a MAD for the CEP it names as its receiver, if the CEP accepts it. -/
def handleMad (remoteCommId : UInt32) (accepts : Kcep → Bool)
    (handle : CepId → Kcep → Option CepMgr) : Option CepMgr := do
  match ← lookupCep mgr none remoteCommId with
  | none => some mgr
  | some cep => do
      let kcep ← mgr.ceps cep
      if accepts kcep then handle cep kcep else some mgr

/-- `__mra_handler`. -/
def mraHandler (localCommId remoteCommId : UInt32) (msgMraed : Fin 4) : Option CepMgr :=
  handleMad mgr remoteCommId
    (fun kcep => kcep.remoteCommId = 0 ∨ kcep.remoteCommId = localCommId) fun cep kcep =>
      if ¬ kcep.state.sent ∨ 1 <<< msgMraed.val ≠ kcep.state.msg then some mgr
      else if kcep.state.mra then some mgr
      else queueMad (mgr.setCep cep { kcep with state := kcep.state.withMra }) cep none

/-- The CEP a REJ is for: without its communication ID it is found by that of the sender. -/
def lookupRejected (localCommId remoteCommId : UInt32) (reason : UInt16)
    (ariLen : UInt8) (caGuid : UInt64) : Option (Option CepId) :=
  if remoteCommId ≠ 0 then lookupCep mgr none remoteCommId
  else if reason = rejTimeout ∧ ariLen = 8 then lookupById mgr localCommId caGuid
  else some none

/-- `__rej_handler`. -/
def rejHandler (localCommId remoteCommId : UInt32) (reason : UInt16)
    (ariLen : UInt8) (caGuid : UInt64) : Option CepMgr :=
  if remoteCommId = 0 ∧ localCommId = 0 then some mgr
  else do
    match ← lookupRejected mgr localCommId remoteCommId reason ariLen caGuid with
    | none => some mgr
    | some cep => do
        let kcep ← mgr.ceps cep
        if kcep.remoteCommId ≠ 0 ∧ kcep.remoteCommId ≠ localCommId then some mgr
        else processRej mgr cep reason

/-- `__save_wire_rep`. -/
def saveWireRep (kcep : Kcep) (localCommId : UInt32) (localCaGuid : UInt64) (lclQpn : UInt32) :
    Kcep :=
  { kcep with
    state := .repRcvd
    remoteCommId := localCommId
    remoteCaGuid := localCaGuid
    remoteQpn := lclQpn }

/-- `__rep_handler`. If the CEP cannot be inserted its state is rolled back. -/
def repHandler (localCommId remoteCommId : UInt32) (localCaGuid : UInt64)
    (lclQpn : UInt32) (outcome : RecvOutcome) : Option CepMgr :=
  handleMad mgr remoteCommId (fun _ => true) fun cep kcep =>
    match kcep.state with
    | .reqMraRcvd | .reqSent => do
        let saved := saveWireRep kcep localCommId localCaGuid lclQpn
        let (result, mgr) ← insertCep (mgr.setCep cep saved) cep outcome.misread
        match result with
        | .inserted => do
            let mgr ← mgr.update cep fun kcep => { kcep with pSendMad := none }
            queueMad mgr cep none
        | _ => do
            let mgr ← mgr.update cep fun saved => { saved with state := kcep.state }
            processStale mgr cep outcome.stale
    | _ => some mgr

/-- `__rtu_handler`. -/
def rtuHandler (localCommId remoteCommId : UInt32) : Option CepMgr :=
  handleMad mgr remoteCommId (fun kcep => kcep.remoteCommId = localCommId) fun cep kcep =>
    match kcep.state with
    | .repSent | .repMraRcvd =>
        queueMad (mgr.setCep cep { kcep with pSendMad := none, state := .established }) cep none
    | _ => some mgr

/-- `__dreq_handler`. A LAP that is being sent is not cancelled. -/
def dreqHandler (localCommId remoteCommId remoteQpn : UInt32) : Option CepMgr :=
  handleMad mgr remoteCommId
    (fun kcep => kcep.remoteCommId = localCommId ∧ kcep.localQpn = remoteQpn) fun cep kcep =>
      match kcep.state with
      | .repSent | .repMraRcvd | .dreqSent =>
          queueMad (mgr.setCep cep { kcep with pSendMad := none, state := .dreqRcvd }) cep none
      | .established | .lapRcvd | .lapSent | .lapMraRcvd | .lapMraSent =>
          queueMad (mgr.setCep cep { kcep with state := .dreqRcvd }) cep none
      | _ => some mgr

/-- `__drep_handler`. -/
def drepHandler (localCommId remoteCommId : UInt32) : Option CepMgr :=
  handleMad mgr remoteCommId (fun kcep => kcep.remoteCommId = localCommId) fun cep kcep =>
    match kcep.state with
    | .dreqSent => do
        let mgr := mgr.setCep cep { kcep with pSendMad := none, state := .timewait }
        queueMad (insertTimewait mgr cep) cep none
    | .dreqDestroy =>
        some (insertTimewait (mgr.setCep cep { kcep with pSendMad := none, state := .destroy }) cep)
    | _ => some mgr

/-- `__lap_handler`. A LAP tells that the connection is established; the REP is not
cancelled. -/
def lapHandler (localCommId remoteCommId : UInt32) (outcome : RecvOutcome) : Option CepMgr :=
  handleMad mgr remoteCommId (fun kcep => kcep.remoteCommId = localCommId) fun cep kcep =>
    match kcep.state with
    | .repSent | .repMraRcvd | .established =>
        if kcep.wasActive ∨ ¬ outcome.path then some mgr
        else queueMad (mgr.setCep cep { kcep with state := .lapRcvd }) cep none
    | _ => some mgr

/-- `__apr_handler`. -/
def aprHandler (localCommId remoteCommId : UInt32) : Option CepMgr :=
  handleMad mgr remoteCommId (fun kcep => kcep.remoteCommId = localCommId) fun cep kcep =>
    match kcep.state with
    | .lapSent | .lapMraRcvd =>
        queueMad (mgr.setCep cep { kcep with pSendMad := none, state := .established }) cep none
    | _ => some mgr

/-- `__cep_mad_recv_cb`. -/
def cepMadRecvCb (outcome : RecvOutcome) : CmMad → Option CepMgr
  | .req mad => reqHandler mgr mad outcome
  | .mra localCommId remoteCommId msgMraed => mraHandler mgr localCommId remoteCommId msgMraed
  | .rej localCommId remoteCommId reason ariLen caGuid =>
      rejHandler mgr localCommId remoteCommId reason ariLen caGuid
  | .rep localCommId remoteCommId localCaGuid lclQpn =>
      repHandler mgr localCommId remoteCommId localCaGuid lclQpn outcome
  | .rtu localCommId remoteCommId => rtuHandler mgr localCommId remoteCommId
  | .dreq localCommId remoteCommId remoteQpn => dreqHandler mgr localCommId remoteCommId remoteQpn
  | .drep localCommId remoteCommId => drepHandler mgr localCommId remoteCommId
  | .lap localCommId remoteCommId => lapHandler mgr localCommId remoteCommId outcome
  | .apr localCommId remoteCommId => aprHandler mgr localCommId remoteCommId

end WinOFED.Cep
