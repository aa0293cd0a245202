import WinOFED.Cep.Mads

/-! The calls of the clients: connecting, disconnecting and destroying CEPs. -/
namespace WinOFED.Cep
open Complib

/-- The statuses the calls return; `failed` is that of a function outside of the manager. -/
inductive ApiStatus
  | success
  | invalidHandle
  | invalidState
  | invalidSetting
  | insufficientResources
  | insufficientMemory
  | qpInTimewait
  | notDone
  | failed
deriving DecidableEq, Repr

/-- What `__cep_get_mad` returns when it has no MAD. -/
def Outcome.madStatus (outcome : Outcome) : ApiStatus :=
  if outcome.agent then .failed else .insufficientResources

variable (mgr : CepMgr) (cep : CepId) (kcep : Kcep) (outcome : Outcome)

/-- A call for a CID: it is refused unless the CID is bound to the client. -/
def callCep (handle : Nat) (cid : UInt32)
    (act : CepId → Kcep → Option (ApiStatus × CepMgr)) : Option (ApiStatus × CepMgr) := do
  match ← lookupCep mgr (some handle) cid with
  | none => some (.invalidHandle, mgr)
  | some cep => do
      let kcep ← mgr.ceps cep
      act cep kcep

/-- `al_create_cep`. -/
def alCreateCep (handle : Nat) (allocated grown : Bool) : Option (ApiStatus × CepMgr) :=
  match createCep mgr allocated grown with
  | none => some (.insufficientMemory, mgr)
  | some (cep, mgr) => do
      let kcep ← mgr.ceps cep
      some (.success, bindCep mgr kcep.cid (some (.user handle)))

/-! ### Connecting -/

/-- How far `__save_user_req` gets: there is no primary path, a path cannot be used, or all
is stored. -/
inductive UserReq
  | noPath
  | badPath
  | usable
deriving DecidableEq, Repr

/-- `__save_user_req`. It takes a new communication ID and forgets the remote ones. -/
def saveUserReq (sid : UInt64) (qpn : UInt32) : UserReq → Bool × CepMgr
  | .noPath => (false, mgr.setCep cep kcep)
  | .badPath =>
      (false, mgr.setCep cep
        { kcep with sid, p2p := false, cmpBuf := none, cmpLen := 0, cmpOffset := 0
                    wasActive := true })
  | .usable =>
      let entry := mgr.cidVector kcep.cid
      let modifier := nextModifier kcep.cid entry.modifier
      let mgr := mgr.setCid kcep.cid { entry with modifier }
      (true, mgr.setCep cep
        { kcep with sid, p2p := false, cmpBuf := none, cmpLen := 0, cmpOffset := 0
                    wasActive := true, localCommId := commId kcep.cid modifier, remoteCommId := 0
                    localQpn := qpn, remoteCaGuid := 0, remoteQpn := 0 })

/-- `kal_cep_pre_req`. A REQ that was prepared before is given up first. -/
def kalCepPreReq (sid : UInt64) (qpn : UInt32)
    (req : UserReq) (outcome : Outcome) : Option (ApiStatus × CepMgr) :=
  match kcep.state with
  | .preReq | .idle =>
      let pMad := if kcep.state = .preReq then none else kcep.pMad
      match saveUserReq mgr cep { kcep with pMad } sid qpn req with
      | (false, mgr) => some (.invalidSetting, mgr)
      | (true, mgr) =>
          if ¬ outcome.getMad then some (.failed, mgr)
          else do
            let (mad, mgr) := getMad mgr
            if outcome.format then do
              let mgr ← mgr.update cep fun kcep => { kcep with pMad := some mad, state := .preReq }
              some (.success, mgr)
            else do
              let mgr ← mgr.update cep fun kcep => { kcep with pMad := none }
              some (.failed, mgr)
  | .timewait => some (.qpInTimewait, mgr)
  | _ => some (.invalidState, mgr)

/-- `al_cep_send_req`. -/
def alCepSendReq : Option (ApiStatus × CepMgr) :=
  match kcep.state with
  | .preReq =>
      if ¬ outcome.agent then
        some (.invalidSetting, mgr.setCep cep { kcep with pMad := none, state := .idle })
      else do
        let mad ← kcep.pMad
        let mgr ← cepSendRetry mgr cep mad outcome.send
        let state := if outcome.send then .reqSent else .idle
        let mgr ← mgr.update cep fun kcep => { kcep with pMad := none, state }
        some (if outcome.send then .success else .failed, mgr)
  | _ => some (.invalidState, mgr)

/-- Prepare a reply: give up the one prepared before, get a MAD and format it, as
`__al_cep_pre_rep` and `al_cep_pre_apr` do. If that fails the state stays as it is. -/
def prepareReply : Option (ApiStatus × CepMgr) :=
  let dropped := { kcep with pMad := if kcep.state.prep then none else kcep.pMad }
  if ¬ outcome.mad then some (outcome.madStatus, mgr.setCep cep dropped)
  else
    let (mad, mgr) := getMad mgr
    if outcome.format then
      some (.success, mgr.setCep cep { dropped with pMad := some mad, state := kcep.state.withPrep })
    else some (.failed, mgr.setCep cep { dropped with pMad := none })

/-- `__al_cep_pre_rep`; `__save_user_rep` stores the QPN. -/
def alCepPreRep (qpn : UInt32) (outcome : Outcome) : Option (ApiStatus × CepMgr) :=
  match kcep.state with
  | .preRep | .preRepMraSent | .reqRcvd | .reqMraSent =>
      let localQpn := if outcome.mad then qpn else kcep.localQpn
      prepareReply mgr cep { kcep with localQpn } outcome
  | _ => some (.invalidState, mgr)

/-- `al_cep_send_rep`. Without an agent for the port the CEP becomes idle as it is; if the
REP cannot be sent it is taken out of the connection maps. -/
def alCepSendRep : Option (ApiStatus × CepMgr) :=
  match kcep.state with
  | .preRep | .preRepMraSent =>
      if ¬ outcome.agent then
        some (.insufficientResources, mgr.setCep cep { kcep with pMad := none, state := .idle })
      else do
        let mad ← kcep.pMad
        let mgr ← cepSendRetry mgr cep mad outcome.send
        if outcome.send then do
          let mgr ← mgr.update cep fun kcep => { kcep with pMad := none, state := .repSent }
          some (.success, mgr)
        else do
          let mgr ← removeCep mgr cep
          let mgr ← mgr.update cep fun kcep => { kcep with pMad := none, state := .idle }
          some (.failed, mgr)
  | _ => some (.invalidState, mgr)

/-- `al_cep_rtu`. -/
def alCepRtu : Option (ApiStatus × CepMgr) :=
  match kcep.state with
  | .repRcvd | .repMraSent =>
      if ¬ outcome.mad then some (outcome.madStatus, mgr)
      else if ¬ outcome.format then some (.failed, mgr)
      else some (.success, mgr.setCep cep { kcep with state := .established })
  | _ => some (.invalidState, mgr)

/-- `al_cep_rej`. The CEP changes its state even if no REJ can be sent. -/
def alCepRej : Option (ApiStatus × CepMgr) :=
  let status :=
    if ¬ outcome.mad then outcome.madStatus else if outcome.format then .success else .failed
  match kcep.state with
  | .reqRcvd | .reqMraSent => do
      let mgr ← removeCep mgr cep
      let mgr ← mgr.update cep fun kcep => { kcep with state := .idle }
      some (status, mgr)
  | .repRcvd | .repMraSent =>
      some (status, insertTimewait (mgr.setCep cep { kcep with state := .timewait }) cep)
  | _ => some (.invalidState, mgr)

/-- `al_cep_mra`. -/
def alCepMra : Option (ApiStatus × CepMgr) :=
  match kcep.state with
  | .reqRcvd | .preRep | .repRcvd | .preApr | .lapRcvd =>
      if ¬ outcome.mad then some (outcome.madStatus, mgr)
      else if ¬ outcome.format then some (.failed, mgr)
      else some (.success, mgr.setCep cep { kcep with state := kcep.state.withMra })
  | _ => some (.invalidState, mgr)

/-- `al_cep_established`. -/
def alCepEstablished : Option (ApiStatus × CepMgr) :=
  match kcep.state with
  | .repSent | .repMraRcvd =>
      some (.success, mgr.setCep cep { kcep with pSendMad := none, state := .established })
  | _ => some (.invalidState, mgr)

/-! ### Alternate paths -/

/-- `al_cep_lap`; the agent is that of the alternate path. -/
def alCepLap : Option (ApiStatus × CepMgr) :=
  match kcep.state with
  | .established =>
      if ¬ kcep.wasActive then some (.invalidState, mgr)
      else if ¬ outcome.agent then some (.invalidSetting, mgr)
      else if ¬ outcome.getMad then some (.failed, mgr)
      else do
        let (mad, mgr) := getMad mgr
        if ¬ outcome.format then some (.failed, mgr)
        else do
          let mgr ← cepSendRetry mgr cep mad outcome.send
          if outcome.send then do
            let mgr ← mgr.update cep fun kcep => { kcep with state := .lapSent }
            some (.success, mgr)
          else some (.failed, mgr)
  | _ => some (.invalidState, mgr)

/-- `al_cep_pre_apr`. -/
def alCepPreApr : Option (ApiStatus × CepMgr) :=
  match kcep.state with
  | .preApr | .preAprMraSent | .lapRcvd | .lapMraSent => prepareReply mgr cep kcep outcome
  | _ => some (.invalidState, mgr)

/-- `al_cep_send_apr`. Without an agent for the port the APR is gone and the state stays. -/
def alCepSendApr : Option (ApiStatus × CepMgr) :=
  match kcep.state with
  | .preApr | .preAprMraSent =>
      if ¬ outcome.agent then
        some (.insufficientResources, mgr.setCep cep { kcep with pMad := none })
      else do
        let _ ← kcep.pMad
        some (.success, mgr.setCep cep { kcep with pMad := none, state := .established })
  | _ => some (.invalidState, mgr)

/-! ### Disconnecting -/

/-- `al_cep_dreq`. -/
def alCepDreq : Option (ApiStatus × CepMgr) :=
  match kcep.state with
  | .established | .lapSent | .lapRcvd | .lapMraSent | .lapMraRcvd =>
      if ¬ outcome.mad then some (outcome.madStatus, mgr)
      else do
        let (mad, mgr) := getMad mgr
        if ¬ outcome.format then some (.failed, mgr)
        else do
          let mgr ← cepSendRetry mgr cep mad outcome.send
          if outcome.send then do
            let mgr ← mgr.update cep fun kcep => { kcep with state := .dreqSent }
            some (.success, mgr)
          else do
            let mgr ← mgr.update cep fun kcep => { kcep with state := .timewait }
            some (.failed, insertTimewait mgr cep)
  | _ => some (.invalidState, mgr)

/-- `al_cep_drep`. -/
def alCepDrep : Option (ApiStatus × CepMgr) :=
  match kcep.state with
  | .dreqRcvd =>
      if ¬ outcome.mad then some (outcome.madStatus, mgr)
      else if ¬ outcome.format then some (.failed, mgr)
      else some (.success, insertTimewait (mgr.setCep cep { kcep with state := .timewait }) cep)
  | _ => some (.invalidState, mgr)

/-! ### Events of a CEP -/

/-- `al_cep_poll`. -/
def alCepPoll : Option (ApiStatus × CepMgr) :=
  match kcep.madList with
  | [] => some (.notDone, mgr.setCep cep { kcep with signalled := false })
  | sendContext1 :: rest => do
      let _ ← sendContext1.elim (some kcep) mgr.ceps
      some (.success, mgr.setCep cep { kcep with madList := rest })

/-! ### Listening and destruction -/

/-- Store the listen map, and in a CEP what it listens for. -/
def setListens (table : ListenTable) : CepMgr :=
  { mgr with listenMap := table.map }.setCep cep { kcep with toListenParams := table.params cep }

/-- The status of `al_cep_listen` among the statuses of all calls. -/
def ListenStatus.api : ListenStatus → ApiStatus
  | .success => .success
  | .invalidState => .invalidState
  | .invalidSetting => .invalidSetting
  | .insufficientMemory => .insufficientMemory

/-- `al_cep_listen`. -/
def cepListen (info : ListenInfo) (allocated : Bool) : Option (ApiStatus × CepMgr) :=
  match kcep.state with
  | .preReq | .idle => do
      let pMad := if kcep.state = .preReq then none else kcep.pMad
      let (status, table) ← enterListen mgr.listens cep info allocated
      let state := if status = .success then .listen else .idle
      some (status.api, setListens mgr cep { kcep with pMad, state } table)
  | _ => some (.invalidState, mgr)

/-- The end of `__cleanup_cep` for a CEP that goes to timewait to be freed. -/
def retire : CepMgr :=
  insertTimewait (mgr.setCep cep { kcep with state := .destroy, refCnt := kcep.refCnt - 1 }) cep

/-- `__dreq_cep` and the end of `__cleanup_cep` after it. -/
def cleanupConnected : Option CepMgr :=
  if ¬ outcome.mad then some (retire mgr cep kcep)
  else do
    let (mad, mgr) := getMad mgr
    let mgr ← cepSendRetry mgr cep mad outcome.send
    let kcep ← mgr.ceps cep
    if outcome.send then
      some (mgr.setCep cep { kcep with state := .dreqDestroy, refCnt := kcep.refCnt - 1 })
    else some (retire mgr cep kcep)

/-- `__cleanup_cep` after the list of MADs. -/
def cleanupState : Option CepMgr := do
  let kcep ← mgr.ceps cep
  match kcep.state with
  | .preRep | .preRepMraSent | .preReq => some (retire mgr cep { kcep with pMad := none })
  | .reqRcvd | .repRcvd | .reqMraSent | .repMraSent | .reqSent | .reqMraRcvd | .repSent
  | .repMraRcvd | .dreqRcvd | .sreqRcvd | .idle => some (retire mgr cep kcep)
  | .lapSent | .lapMraRcvd | .established | .lapRcvd | .lapMraSent | .preApr | .preAprMraSent =>
      cleanupConnected mgr cep kcep outcome
  | .dreqSent =>
      some (mgr.setCep cep { kcep with state := .dreqDestroy, refCnt := kcep.refCnt - 1 })
  | .listen => do
      let table ← cancelListen mgr.listens cep
      let mgr := setListens mgr cep kcep table
      let kcep ← mgr.ceps cep
      some (retire mgr cep kcep)
  | .timewait | .destroy | .dreqDestroy | .sreqSent | .error =>
      some (mgr.setCep cep { kcep with state := .destroy, refCnt := kcep.refCnt - 1 })

/-- What `__cleanup_mad_list` does with the CEP that was made for a REQ. -/
def cleanupNew (cleanup : CepMgr → CepId → Option CepMgr) (mgr : CepMgr) :
    Option CepId → Option CepMgr
  | none => some mgr
  | some new => do
      let mgr ← unbindCep mgr new
      cleanup mgr new

/-- `__cleanup_mad_list`, given what is done with a CEP that was made for a REQ. -/
def cleanupMadList (cleanup : CepMgr → CepId → Option CepMgr) (cep : CepId) :
    List (Option CepId) → CepMgr → Option CepMgr
  | [], mgr => some mgr
  | sendContext1 :: rest, mgr => do
      let mgr ← mgr.update cep fun kcep => { kcep with madList := rest }
      let mgr ← cleanupNew cleanup mgr sendContext1
      cleanupMadList cleanup cep rest mgr

/-- `__cleanup_cep`. It calls itself for the CEPs made for the REQs in the list; the depth
is bounded by the number of CEPs. -/
def cleanupCep (outcome : CepId → Outcome) : Nat → CepMgr → CepId → Option CepMgr
  | 0, _, _ => none
  | depth + 1, mgr, cep => do
      let kcep ← mgr.ceps cep
      let mgr ← cleanupMadList (cleanupCep outcome depth) cep kcep.madList mgr
      cleanupState mgr cep (outcome cep)

/-- `kal_cep_cancel_listen`, called for CEPs that listen. -/
def kalCepCancelListen (outcome : CepId → Outcome) : Option (ApiStatus × CepMgr) :=
  if kcep.state = .listen then do
    let mgr ← cleanupMadList (cleanupCep outcome (mgr.nextCep + 1)) cep kcep.madList mgr
    let kcep ← mgr.ceps cep
    let table ← cancelListen mgr.listens cep
    some (.success, setListens mgr cep { kcep with state := .idle } table)
  else none

/-- `al_destroy_cep` and, with `noMoreEntries` for `STATUS_NO_MORE_ENTRIES`,
`kal_cep_destroy`: it drops a REQ that was not answered. -/
def alDestroyCep (noMoreEntries : Bool)
    (outcome : CepId → Outcome) : Option (ApiStatus × CepMgr) := do
  let mgr ← unbindCep mgr cep
  let mgr :=
    if noMoreEntries ∧ (kcep.state = .reqRcvd ∨ kcep.state = .reqMraSent) then
      mgr.setCep cep { kcep with state := .idle }
    else mgr
  let mgr ← cleanupCep outcome (mgr.nextCep + 1) mgr cep
  some (.success, mgr)

end WinOFED.Cep
