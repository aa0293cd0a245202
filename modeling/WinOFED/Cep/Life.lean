import WinOFED.Cep.Manager

/-! The life of a CEP.

Whatever the manager does is a sequence of moves, each of which concerns one CEP and keeps
the books of the manager in order. The moves are the state diagram of the connection
protocol together with what each transition does to the CEP's MADs, its references, and the
lists and maps it is linked in. Moves the protocol does not intend are marked by a fault. -/
namespace WinOFED.Cep
open Complib

namespace CepState

/-- A CEP that is neither listening nor on its way out. -/
def active : CepState → Bool
  | listen | timewait | sreqSent | sreqRcvd | error | destroy | dreqDestroy => false
  | _ => true

/-- The connection is being established. -/
def connecting : CepState → Bool
  | reqRcvd | preRep | reqSent | reqMraRcvd | reqMraSent | preRepMraSent | repRcvd | repSent
  | repMraRcvd | repMraSent => true
  | _ => false

/-- The connection is established. -/
def connected : CepState → Bool
  | established | lapRcvd | preApr | lapSent | lapMraRcvd | lapMraSent | preAprMraSent => true
  | _ => false

/-- A REQ or a LAP is to be answered by the client. -/
def replying : CepState → Bool
  | reqRcvd | reqMraSent | preRep | preRepMraSent | lapRcvd | lapMraSent | preApr
  | preAprMraSent => true
  | _ => false

/-- There is no remote end yet. -/
def alone : CepState → Bool
  | idle | listen | preReq | reqSent | reqMraRcvd => true
  | _ => false

/-- What a CEP made for a REQ can be while the REQ is in its listener's list. -/
def waiting : CepState → Bool
  | reqRcvd | idle => true
  | _ => false

/-- `__cleanup_cep` has been called. -/
def cleaned : CepState → Bool
  | destroy | dreqDestroy => true
  | _ => false

/-- The CEP is waiting in `timewait_list`. -/
def parked : CepState → Bool
  | timewait | destroy => true
  | _ => false

end CepState

/-- What the protocol does not intend. -/
inductive Fault
  /-- A prepared MAD is given up, but the state says it is still there. -/
  | lostMad
  /-- A prepared MAD is kept by a CEP that is destroyed. -/
  | keptMad
  /-- A REQ with communication ID zero is accepted. -/
  | zeroReq
  /-- A REP with communication ID or QPN zero is accepted. -/
  | zeroRep
  /-- A connection is aborted and stays in the maps. -/
  | strayIdle
  /-- A LAP times out after an MRA and nothing happens. -/
  | lapTimeout
  /-- A LAP is received while the REP is still being sent. -/
  | lapEarly
  /-- A DREQ is sent while a LAP is still being sent. -/
  | busySend
deriving DecidableEq

/-- A fault that occurs under a condition. -/
def Fault.when (fault : Fault) (condition : Bool) : Option Fault :=
  if condition then some fault else none

/-- The state of the CEP that a communication ID stands for. -/
def CepMgr.stateAt (mgr : CepMgr) (handle : Option Nat) (cid : UInt32) : Option CepState :=
  match lookupCep mgr handle cid with
  | some (some cep) => (mgr.ceps cep).map fun kcep => kcep.state
  | _ => none

/-- The faults a received MAD can cause. -/
def CmMad.faults (mgr : CepMgr) : CmMad → List Fault
  | .req mad => if mad.localCommId = 0 then [.zeroReq] else []
  | .rep localCommId _ _ lclQpn => if localCommId = 0 ∨ lclQpn = 0 then [.zeroRep] else []
  | .lap _ remoteCommId =>
      if mgr.stateAt none remoteCommId = some .repSent ∨
          mgr.stateAt none remoteCommId = some .repMraRcvd then [.lapEarly] else []
  | _ => []

/-- The faults a call can cause for a CEP, by its state. -/
def CepCall.faults (state : CepState) : CepCall → List Fault
  | .preReq _ _ req outcome =>
      if state = .preReq ∧ ¬ (req = .usable ∧ outcome.getMad ∧ outcome.format) then [.lostMad]
      else []
  | .preRep _ outcome =>
      if (state = .preRep ∨ state = .preRepMraSent) ∧ ¬ (outcome.mad ∧ outcome.format) then
        [.lostMad]
      else []
  | .sendRep outcome =>
      if (state = .preRep ∨ state = .preRepMraSent) ∧ ¬ outcome.agent then [.strayIdle] else []
  | .preApr outcome =>
      if (state = .preApr ∨ state = .preAprMraSent) ∧ ¬ (outcome.mad ∧ outcome.format) then
        [.lostMad]
      else []
  | .sendApr outcome =>
      if (state = .preApr ∨ state = .preAprMraSent) ∧ ¬ outcome.agent then [.lostMad] else []
  | .dreq _ => if state = .lapSent ∨ state = .lapMraRcvd then [.busySend] else []
  | .destroy _ _ =>
      if state = .lapSent ∨ state = .lapMraRcvd then [.busySend]
      else if state = .preApr ∨ state = .preAprMraSent then [.keptMad] else []
  | _ => []

/-- The faults an event can cause. -/
def CepMgr.faults (mgr : CepMgr) : CepEvent → List Fault
  | .call handle cid call => ((mgr.stateAt (some handle) cid).map fun state => call.faults state).getD []
  | .recv mad _ => mad.faults mgr
  | .sendDone mad cep =>
      if (mgr.ceps cep).any (fun kcep => kcep.state = .lapMraRcvd ∧ kcep.pSendMad = some mad) then
        [.lapTimeout]
      else []
  | _ => []

/-- What the protocol is about in a CEP. -/
structure Stage where
  state : CepState
  pMad : Option MadId
  pSendMad : Option MadId

/-- The part of a CEP that the protocol is about. -/
def Kcep.stage (kcep : Kcep) : Stage := ⟨kcep.state, kcep.pMad, kcep.pSendMad⟩

/-- The remote identifiers by which a CEP is entered in the maps. -/
def Kcep.remote (kcep : Kcep) : UInt32 × UInt32 := (kcep.remoteCommId, kcep.remoteQpn)

/-- Transitions of a CEP that stays active and sends nothing. -/
inductive Turn : Option Fault → Stage → Stage → Prop
  | still {state pMad pSendMad} (active : state.active) :
      Turn none ⟨state, pMad, pSendMad⟩ ⟨state, pMad, pSendMad⟩
  | prepareReq {state pMad pSendMad} (mad : MadId) (first : state = .idle ∨ state = .preReq) :
      Turn none ⟨state, pMad, pSendMad⟩ ⟨.preReq, some mad, pSendMad⟩
  | prepareReply {state pMad pSendMad} (mad : MadId) (replying : state.replying) :
      Turn none ⟨state, pMad, pSendMad⟩ ⟨state.withPrep, some mad, pSendMad⟩
  | lose {state pMad pSendMad} (prep : state.prep) :
      Turn (some .lostMad) ⟨state, pMad, pSendMad⟩ ⟨state, none, pSendMad⟩
  | forget {state pMad pSendMad} (active : state.active) (unprepared : state.prep = false) :
      Turn none ⟨state, pMad, pSendMad⟩ ⟨state, none, pSendMad⟩
  | withdraw {pMad pSendMad} : Turn none ⟨.preReq, pMad, pSendMad⟩ ⟨.idle, none, pSendMad⟩
  | abort {state pMad pSendMad} (connecting : state.connecting) :
      Turn none ⟨state, pMad, pSendMad⟩
        ⟨.idle, if state.prep then none else pMad, if state.sent then none else pSendMad⟩
  | stray {state pMad pSendMad} (prepared : state = .preRep ∨ state = .preRepMraSent) :
      Turn (some .strayIdle) ⟨state, pMad, pSendMad⟩ ⟨.idle, none, pSendMad⟩
  | delay {state pMad pSendMad} (delayed : state.withMra ≠ state) :
      Turn none ⟨state, pMad, pSendMad⟩ ⟨state.withMra, pMad, pSendMad⟩
  | ready {state pMad pSendMad} (answered : state = .repRcvd ∨ state = .repMraSent) :
      Turn none ⟨state, pMad, pSendMad⟩ ⟨.established, pMad, pSendMad⟩
  | confirm {state pMad pSendMad}
      (sent : state = .repSent ∨ state = .repMraRcvd ∨ state = .lapSent ∨ state = .lapMraRcvd) :
      Turn none ⟨state, pMad, pSendMad⟩ ⟨.established, pMad, none⟩
  | answer {state pMad pSendMad} (prepared : state = .preApr ∨ state = .preAprMraSent) :
      Turn none ⟨state, pMad, pSendMad⟩ ⟨.established, none, pSendMad⟩
  | disconnect {state pMad pSendMad}
      (sent : state = .repSent ∨ state = .repMraRcvd ∨ state = .dreqSent) :
      Turn none ⟨state, pMad, pSendMad⟩ ⟨.dreqRcvd, pMad, none⟩
  | disconnected {state pMad pSendMad} (connected : state.connected) (ready : state.prep = false) :
      Turn none ⟨state, pMad, pSendMad⟩ ⟨.dreqRcvd, pMad, pSendMad⟩
  | load {pMad pSendMad} : Turn none ⟨.established, pMad, pSendMad⟩ ⟨.lapRcvd, pMad, pSendMad⟩
  | loadEarly {state pMad pSendMad} (sent : state = .repSent ∨ state = .repMraRcvd) :
      Turn (some .lapEarly) ⟨state, pMad, pSendMad⟩ ⟨.lapRcvd, pMad, pSendMad⟩

/-- What a MAD that is sent with retries does to the state. -/
inductive Transmit : Option Fault → CepState → CepState → Prop
  | req : Transmit none .preReq .reqSent
  | rep {state} (prepared : state = .preRep ∨ state = .preRepMraSent) : Transmit none state .repSent
  | lap : Transmit none .established .lapSent
  | dreq {state} (connected : state.connected) (ready : state.prep = false) :
      Transmit (Fault.busySend.when state.sent) state .dreqSent

/-- What the end of the MAD that is being sent does to the state. -/
inductive Finish : Option Fault → CepState → CepState → Prop
  | abort {state} (connecting : state.connecting) (sent : state.sent) : Finish none state .idle
  | lap : Finish none .lapSent .established
  | delayed : Finish (some .lapTimeout) .lapMraRcvd .lapMraRcvd
  | other {state} (silent : state.sent = false) : Finish none state state

/-- What does not change in a CEP while it stays active. -/
structure Kcep.Keeps (kcep after : Kcep) : Prop where
  cid : after.cid = kcep.cid
  refCnt : after.refCnt = kcep.refCnt
  madList : after.madList = kcep.madList

/-- The CEP was made for a REQ that is still in the list of its listener. -/
def CepMgr.Queued (mgr : CepMgr) (cep : CepId) : Prop :=
  ∃ listener kcep, mgr.ceps listener = some kcep ∧ some cep ∈ kcep.madList

/-- The CEP is not bound to a client any more. -/
def CepMgr.Unbound (mgr : CepMgr) (cid : Nat) : Prop :=
  ∀ handle, (mgr.cidVector cid).hAl ≠ some (.user handle)

/-- A CEP enters the list of a manager that waits for its timer. -/
def CepMgr.park (mgr : CepMgr) (cep : CepId) (kcep : Kcep) : CepMgr :=
  insertTimewait (mgr.setCep cep kcep) cep

/-- A MAD is handed to the MAD service; `busy` says that the CEP was sending one before. -/
def CepMgr.startSend (mgr : CepMgr) (mad : MadId) (cep : CepId) (busy : Bool) : CepMgr :=
  { mgr with sends := (mad, cep) :: mgr.sends, busySend := mgr.busySend || busy }

/-- The moves. -/
inductive Move : Option Fault → CepMgr → CepMgr → Prop
  /-- A transition of the protocol. To have no remote end the CEP must be out of the maps. -/
  | turn {fault mgr cep kcep after} (here : mgr.ceps cep = some kcep) (keeps : kcep.Keeps after)
      (turn : Turn fault kcep.stage after.stage)
      (remote : after.remote = kcep.remote ∨ kcep.state.alone ∧ after.remote = (0, 0))
      (cut : after.state.alone →
        kcep.state.alone ∨ kcep.remote = (0, 0) ∨ fault = some .strayIdle)
      (held : mgr.Queued cep → after.state.waiting) : Move fault mgr (mgr.setCep cep after)
  /-- `__remove_cep`. -/
  | unlink {mgr cep after} (removed : removeCep mgr cep = some after) : Move none mgr after
  /-- The MAD service refuses a MAD. -/
  | refuse {mgr cep kcep} (here : mgr.ceps cep = some kcep)
      (ready : kcep.state.prep ∨ kcep.state.connected) :
      Move (Fault.busySend.when kcep.state.sent) mgr
        ({ mgr with busySend := mgr.busySend || kcep.pSendMad.isSome }.setCep cep
          { kcep with pSendMad := none })
  /-- The MAD service accepts a MAD. -/
  | transmit {fault mgr cep kcep state} (mad : MadId) (here : mgr.ceps cep = some kcep)
      (transmit : Transmit fault kcep.state state) (free : ¬ mgr.Queued cep) :
      Move fault mgr ((mgr.startSend mad cep kcep.pSendMad.isSome).setCep cep
        { kcep with
          pSendMad := some mad, refCnt := kcep.refCnt + 1
          pMad := if kcep.state.prep then none else kcep.pMad, state })
  /-- The connection ends. -/
  | park {mgr cep kcep} (here : mgr.ceps cep = some kcep)
      (ending : kcep.state.connected ∨ kcep.state = .repRcvd ∨ kcep.state = .repMraSent ∨
        kcep.state = .dreqRcvd ∨ kcep.state = .dreqSent) :
      Move none mgr (mgr.park cep
        { kcep with
          pMad := if kcep.state.prep then none else kcep.pMad
          pSendMad := if kcep.state = .dreqSent then none else kcep.pSendMad
          state := .timewait })
  /-- The end of a MAD that the CEP has cancelled. -/
  | completeOther {mgr cep kcep mad} (sent : (mad, cep) ∈ mgr.sends)
      (here : mgr.ceps cep = some kcep) (other : kcep.pSendMad ≠ some mad) :
      Move none mgr (mgr.endSend mad cep)
  /-- The end of the MAD the CEP sends. -/
  | complete {fault mgr cep kcep mad state} (sent : (mad, cep) ∈ mgr.sends)
      (here : mgr.ceps cep = some kcep) (own : kcep.pSendMad = some mad)
      (finish : Finish fault kcep.state state)
      (cut : state.alone → kcep.state.alone ∨ kcep.remote = (0, 0)) :
      Move fault mgr ((mgr.endSend mad cep).setCep cep { kcep with pSendMad := none, state })
  /-- The end of a DREQ. -/
  | completeDreq {mgr cep kcep mad state} (sent : (mad, cep) ∈ mgr.sends)
      (here : mgr.ceps cep = some kcep) (own : kcep.pSendMad = some mad)
      (ending : kcep.state = .dreqSent ∧ state = .timewait ∨
        kcep.state = .dreqDestroy ∧ state = .destroy) :
      Move none mgr ((mgr.endSend mad cep).park cep { kcep with pSendMad := none, state })
  /-- The reply to a DREQ of a CEP that is destroyed. -/
  | drepDestroy {mgr cep kcep} (here : mgr.ceps cep = some kcep)
      (ending : kcep.state = .dreqDestroy) :
      Move none mgr (mgr.park cep { kcep with pSendMad := none, state := .destroy })
  /-- `__cep_queue_mad`. -/
  | enqueue {mgr cep after} (free : ¬ mgr.Queued cep) (queued : queueMad mgr cep none = some after) :
      Move none mgr after
  /-- `__cep_queue_mad` of a REQ, for its listener. -/
  | enqueueReq {mgr listener kListener cep kcep after}
      (listening : mgr.ceps listener = some kListener) (listen : kListener.state = .listen)
      (here : mgr.ceps cep = some kcep) (waiting : kcep.state.waiting) (quiet : kcep.madList = [])
      (unsent : ∀ mad, (mad, cep) ∉ mgr.sends) (free : ¬ mgr.Queued cep)
      (queued : queueMad mgr listener (some cep) = some after) : Move none mgr after
  /-- A MAD is taken from the list. -/
  | poll {mgr cep kcep sendContext1 rest} (here : mgr.ceps cep = some kcep)
      (first : kcep.madList = sendContext1 :: rest) :
      Move none mgr (mgr.setCep cep { kcep with madList := rest })
  /-- The list is seen to be empty. -/
  | quiet {mgr cep kcep} (here : mgr.ceps cep = some kcep) :
      Move none mgr (mgr.setCep cep { kcep with signalled := false })
  /-- A callback ends. -/
  | release {mgr cep kcep} (running : cep ∈ mgr.callbacks) (here : mgr.ceps cep = some kcep) :
      Move none mgr ({ mgr with callbacks := mgr.callbacks.erase cep }.setCep cep
        { kcep with refCnt := kcep.refCnt - 1 })
  /-- `__create_cep` and `__bind_cep`. -/
  | create {mgr cep kcep mid} {allocated grown} (owner : Option Owner)
      (created : createCep mgr allocated grown = some (cep, mid))
      (here : mid.ceps cep = some kcep) : Move none mgr (bindCep mid kcep.cid owner)
  /-- `__unbind_cep`. -/
  | unbind {mgr cep after} (unbound : unbindCep mgr cep = some after) : Move none mgr after
  /-- A new CEP gets what a REQ says and is inserted in the maps, if it can be. -/
  | linkReq {mgr cep kcep req misread result after} (here : mgr.ceps cep = some kcep)
      (idle : kcep.state = .idle) (free : ¬ mgr.Queued cep)
      (inserted : insertCep (mgr.setCep cep (saveWireReq kcep req)) cep misread =
        some (result, after)) (valid : req.lclQpn ≠ 0) :
      Move (Fault.zeroReq.when (req.localCommId = 0)) mgr after
  /-- A CEP gets what a REP says and is inserted in the maps. -/
  | linkRep {mgr cep kcep localCommId localCaGuid lclQpn misread mid after}
      (here : mgr.ceps cep = some kcep) (sent : kcep.state = .reqSent ∨ kcep.state = .reqMraRcvd)
      (inserted : insertCep (mgr.setCep cep (saveWireRep kcep localCommId localCaGuid lclQpn)) cep
        misread = some (.inserted, mid))
      (cancelled : mid.update cep (fun kcep => { kcep with pSendMad := none }) = some after) :
      Move (Fault.zeroRep.when (localCommId = 0 ∨ lclQpn = 0)) mgr after
  /-- A CEP cannot be inserted in the maps after a REP. -/
  | bounceRep {mgr cep kcep localCommId localCaGuid lclQpn misread result mid after}
      (here : mgr.ceps cep = some kcep) (sent : kcep.state = .reqSent ∨ kcep.state = .reqMraRcvd)
      (inserted : insertCep (mgr.setCep cep (saveWireRep kcep localCommId localCaGuid lclQpn)) cep
        misread = some (result, mid)) (failed : result ≠ .inserted)
      (restored : mid.update cep (fun saved => { saved with state := kcep.state }) = some after) :
      Move none mgr after
  /-- A CEP starts to listen. -/
  | enter {mgr cep kcep info allocated table} (here : mgr.ceps cep = some kcep)
      (idle : kcep.state = .idle) (free : ¬ mgr.Queued cep)
      (entered : enterListen mgr.listens cep info allocated = some (.success, table)) :
      Move none mgr (setListens mgr cep { kcep with state := .listen } table)
  /-- A CEP ceases to listen. -/
  | leave {mgr cep kcep table} (here : mgr.ceps cep = some kcep) (listening : kcep.state = .listen)
      (left : cancelListen mgr.listens cep = some table) :
      Move none mgr (setListens mgr cep { kcep with state := .idle } table)
  /-- `__cleanup_cep` of a CEP that has nothing to wait for but its timer. -/
  | retire {mgr cep kcep} (here : mgr.ceps cep = some kcep) (active : kcep.state.active)
      (quiet : kcep.state ≠ .dreqSent) (free : ¬ mgr.Queued cep) (unbound : mgr.Unbound kcep.cid) :
      Move (Fault.keptMad.when (kcep.state.prep && kcep.state.connected)) mgr
        (retire mgr cep
          { kcep with
            pMad := if kcep.state.prep && !kcep.state.connected then none else kcep.pMad })
  /-- `__cleanup_cep` of a CEP in timewait. -/
  | retireParked {mgr cep kcep} (here : mgr.ceps cep = some kcep)
      (parked : kcep.state = .timewait) (unbound : mgr.Unbound kcep.cid) :
      Move none mgr (mgr.setCep cep { kcep with state := .destroy, refCnt := kcep.refCnt - 1 })
  /-- `__cleanup_cep` of a CEP that sends a DREQ. -/
  | hangUp {mgr cep kcep} (here : mgr.ceps cep = some kcep) (sent : kcep.state = .dreqSent)
      (unbound : mgr.Unbound kcep.cid) :
      Move none mgr (mgr.setCep cep { kcep with state := .dreqDestroy, refCnt := kcep.refCnt - 1 })
  /-- `__cleanup_cep` of a CEP that is connected: it sends a DREQ. -/
  | hangUpDreq {mgr cep kcep} (mad : MadId) (here : mgr.ceps cep = some kcep)
      (connected : kcep.state.connected) (unbound : mgr.Unbound kcep.cid) :
      Move (if kcep.state.sent then some .busySend else Fault.keptMad.when kcep.state.prep) mgr
        ((mgr.startSend mad cep kcep.pSendMad.isSome).setCep cep
          { kcep with
            pSendMad := some mad, refCnt := kcep.refCnt + 1 - 1, state := .dreqDestroy })
  /-- `__destroy_cep`. -/
  | free {mgr cep kcep after} (here : mgr.ceps cep = some kcep) (destroyed : kcep.state = .destroy)
      (unused : kcep.refCnt = 0) (remote : kcep.remote = (0, 0))
      (freed : destroyCep { mgr with timewaitList := mgr.timewaitList.erase cep } cep =
        some after) : Move none mgr after
  /-- A CID gets another communication ID. -/
  | renumber {mgr cid} (modifier : UInt8) :
      Move none mgr (mgr.setCid cid { mgr.cidVector cid with modifier })
  /-- A MAD is taken from the pool. -/
  | getMad {mgr} : Move none mgr (getMad mgr).2

/-- Sequences of moves with only the faults that are possible. -/
def Moves (possible : Fault → Prop) : CepMgr → CepMgr → Prop :=
  Relation.ReflTransGen fun mgr after =>
    ∃ fault, Move fault mgr after ∧ ∀ one, fault = some one → possible one

end WinOFED.Cep
