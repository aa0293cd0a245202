import WinOFED.Cep.Calls
import WinOFED.Transition.Machine

/-! The CEP manager as a machine: calls of the clients, received MADs, send completions,
the ends of callbacks, and the timewait timer, in any order. -/
namespace WinOFED.Cep
open Complib Transition

/-- The calls for a CID, with what they are given and what happens outside. -/
inductive CepCall
  | listen (info : ListenInfo) (allocated : Bool)
  | cancelListen (outcome : CepId → Outcome)
  | preReq (sid : UInt64) (qpn : UInt32) (req : UserReq) (outcome : Outcome)
  | sendReq (outcome : Outcome)
  | preRep (qpn : UInt32) (outcome : Outcome)
  | sendRep (outcome : Outcome)
  | rtu (outcome : Outcome)
  | rej (outcome : Outcome)
  | mra (outcome : Outcome)
  | established
  | lap (outcome : Outcome)
  | preApr (outcome : Outcome)
  | sendApr (outcome : Outcome)
  | dreq (outcome : Outcome)
  | drep (outcome : Outcome)
  | poll
  | destroy (noMoreEntries : Bool) (outcome : CepId → Outcome)

/-- The effect of a call on the CEP its CID stands for. -/
def CepCall.act (mgr : CepMgr) (cep : CepId) (kcep : Kcep) :
    CepCall → Option (ApiStatus × CepMgr)
  | listen info allocated => cepListen mgr cep kcep info allocated
  | cancelListen outcome => kalCepCancelListen mgr cep kcep outcome
  | preReq sid qpn req outcome => kalCepPreReq mgr cep kcep sid qpn req outcome
  | sendReq outcome => alCepSendReq mgr cep kcep outcome
  | preRep qpn outcome => alCepPreRep mgr cep kcep qpn outcome
  | sendRep outcome => alCepSendRep mgr cep kcep outcome
  | rtu outcome => alCepRtu mgr cep kcep outcome
  | rej outcome => alCepRej mgr cep kcep outcome
  | mra outcome => alCepMra mgr cep kcep outcome
  | established => alCepEstablished mgr cep kcep
  | lap outcome => alCepLap mgr cep kcep outcome
  | preApr outcome => alCepPreApr mgr cep kcep outcome
  | sendApr outcome => alCepSendApr mgr cep kcep outcome
  | dreq outcome => alCepDreq mgr cep kcep outcome
  | drep outcome => alCepDrep mgr cep kcep outcome
  | poll => alCepPoll mgr cep kcep
  | destroy noMoreEntries outcome => alDestroyCep mgr cep kcep noMoreEntries outcome

/-- The MAD service gives a MAD back: the send callback of the CEP runs. -/
def CepMgr.endSend (mgr : CepMgr) (mad : MadId) (cep : CepId) : CepMgr :=
  { mgr with sends := mgr.sends.erase (mad, cep), callbacks := cep :: mgr.callbacks }

/-- `__cep_mad_send_cb` until it releases the lock, for a MAD the MAD service holds. -/
def cepMadSendCb (mgr : CepMgr) (mad : MadId) (cep : CepId) : Option CepMgr :=
  if (mad, cep) ∈ mgr.sends then do
    let kcep ← mgr.ceps cep
    let mgr := mgr.endSend mad cep
    if kcep.pSendMad ≠ some mad then some mgr
    else match kcep.state with
      | .reqSent | .reqMraRcvd | .repSent | .repMraRcvd => do
          let mgr ← removeCep mgr cep
          let mgr ← mgr.update cep fun kcep => { kcep with pSendMad := none, state := .idle }
          queueMad mgr cep none
      | .dreqDestroy =>
          some (insertTimewait (mgr.setCep cep { kcep with pSendMad := none, state := .destroy }) cep)
      | .destroy => some (mgr.setCep cep { kcep with pSendMad := none })
      | .dreqSent => do
          let mgr := mgr.setCep cep { kcep with pSendMad := none, state := .timewait }
          queueMad (insertTimewait mgr cep) cep none
      | .lapSent =>
          queueMad (mgr.setCep cep { kcep with pSendMad := none, state := .established }) cep none
      | _ => queueMad (mgr.setCep cep { kcep with pSendMad := none }) cep none
  else none

/-- The end of a callback: the reference taken for it is released. -/
def callbackDone (mgr : CepMgr) (cep : CepId) : Option CepMgr :=
  if cep ∈ mgr.callbacks then
    { mgr with callbacks := mgr.callbacks.erase cep }.update cep fun kcep =>
      { kcep with refCnt := kcep.refCnt - 1 }
  else none

/-- `__destroy_cep`. -/
def destroyCep (mgr : CepMgr) (cep : CepId) : Option CepMgr := do
  let kcep ← mgr.ceps cep
  let mgr := mgr.setCid kcep.cid { mgr.cidVector kcep.cid with hAl := none }
  some { mgr with
    freeCids := kcep.cid :: mgr.freeCids
    ceps := fun id => if id = cep then none else mgr.ceps id }

/-- The loop body of `__process_timewait`; `expired` is the state of the CEP's timer. -/
def leaveTimewait (expired : CepId → Bool) (mgr : CepMgr) (cep : CepId) : Option CepMgr := do
  let kcep ← mgr.ceps cep
  if ¬ expired cep then some mgr
  else if kcep.refCnt ≠ 0 then some mgr
  else do
    let mgr ← removeCep { mgr with timewaitList := mgr.timewaitList.erase cep } cep
    if kcep.state = .destroy then destroyCep mgr cep
    else mgr.update cep fun kcep => { kcep with state := .idle }

/-- `__process_timewait`. -/
def processTimewait (mgr : CepMgr) (expired : CepId → Bool) : Option CepMgr :=
  mgr.timewaitList.foldlM (leaveTimewait expired) mgr

/-- What may happen next. -/
inductive CepEvent
  | create (handle : Nat) (allocated grown : Bool)
  | call (handle : Nat) (cid : UInt32) (call : CepCall)
  | recv (mad : CmMad) (outcome : RecvOutcome)
  | sendDone (mad : MadId) (cep : CepId)
  | callbackDone (cep : CepId)
  | timewait (expired : CepId → Bool)

/-- The effect of an event; there is none if the event cannot happen. -/
def CepMgr.next (mgr : CepMgr) : CepEvent → Option CepMgr
  | .create handle allocated grown => (alCreateCep mgr handle allocated grown).map Prod.snd
  | .call handle cid call => (callCep mgr handle cid (call.act mgr)).map Prod.snd
  | .recv mad outcome => cepMadRecvCb mgr outcome mad
  | .sendDone mad cep => cepMadSendCb mgr mad cep
  | .callbackDone cep => Cep.callbackDone mgr cep
  | .timewait expired => processTimewait mgr expired

/-- `create_cep_mgr`, whatever was in the memory of the maps before. The CID zero is not
used. -/
def createCepMgr (listen connId connQp : RbMap CepId) : CepMgr :=
  { ceps := fun _ => none
    nextCep := 0
    cidVector := fun _ => { hAl := none, pCep := 0, modifier := 0 }
    cidSize := cepCidGrow
    freeCids := List.range' 1 (cepCidGrow - 1)
    listenMap := rbmapInit listen
    connIdMap := rbmapInit connId
    connQpMap := rbmapInit connQp
    timewaitList := []
    nextMad := 0
    sends := []
    callbacks := []
    busySend := false }

/-- The runs of the CEP manager. -/
def cepMachine : Machine CepMgr CepEvent :=
  .ofNext (fun mgr => ∃ listen connId connQp, mgr = createCepMgr listen connId connQp) CepMgr.next

end WinOFED.Cep
