import WinOFED.Mad.RmppSend
import WinOFED.Transition.Machine

/-! The send side of a MAD service: tracking, retrying and completing sends.

Each entry point of the service runs under the service lock and is one step. What
happens after the lock is released is a step of its own: the callbacks of a send
that left `send_list`, and the processing of a completed work request. -/
namespace WinOFED.Mad

/-- `ib_wc_status_t`; the codes that the services never name are kept as numbers. -/
inductive WcStatus
  | success
  | timeoutRetryErr
  | canceled
  | other (code : Nat)
deriving DecidableEq, Repr

/-- A send that has left `send_list` and whose callbacks are still to be made: the
response to deliver first, if any, and the status to complete with. -/
structure Completion where
  id : Nat
  resp : Option MadElement
  status : WcStatus
deriving DecidableEq, Repr

/-- The send side of a MAD service. A send is named by its position among the sends
accepted so far, which stands for the address of its tracking structure. -/
structure SendSvc where
  svcType : MadSvcType
  /-- The elements `ib_send_mad` accepted, oldest first. -/
  accepted : List MadElement
  /-- `send_list`. -/
  sendList : List (Nat × SendHandle)
  /-- Work requests between `__mad_disp_queue_send` and `mad_disp_send_done`. -/
  posted : List Nat
  /-- Completed work requests that `__mad_svc_send_done` has not yet looked at. -/
  completing : List (Nat × WcStatus)
  /-- Sends whose callbacks are being made. -/
  pending : List Completion
  /-- Sends whose response was delivered to the user. -/
  respLog : List Nat
  /-- Sends whose send callback was invoked, with its status. -/
  sendLog : List (Nat × WcStatus)
  /-- Sends of the access layer itself that were returned to their pool. -/
  internalLog : List Nat
deriving DecidableEq, Repr

namespace SendSvc

variable (svc : SendSvc)

/-- The tracking structure of a send in `send_list`. -/
def find (id : Nat) : Option SendHandle :=
  (svc.sendList.find? (·.1 == id)).map (·.2)

/-- Overwrite the tracking structure of a send in `send_list`. -/
def update (id : Nat) (handle : SendHandle) : SendSvc :=
  { svc with sendList := svc.sendList.map fun entry =>
      if entry.1 = id then (id, handle) else entry }

/-- `cl_qlist_remove_item` on `send_list`. -/
def remove (id : Nat) : SendSvc :=
  { svc with sendList := svc.sendList.filter (·.1 ≠ id) }

/-- `__mad_disp_queue_send`. -/
def post (id : Nat) : SendSvc := { svc with posted := svc.posted ++ [id] }

/-- Take a send off the list and leave its callbacks to be made. -/
def complete (id : Nat) (resp : Option MadElement) (status : WcStatus) : SendSvc :=
  { svc.remove id with pending := svc.pending ++ [⟨id, resp, status⟩] }

end SendSvc

/-- `al_get_user_tid`: the part of a transaction ID that belongs to the client. -/
def userTid (transId : UInt64) : UInt32 := transId.toUInt32

variable (svc : SendSvc)

/-- `__mad_svc_match_recv`: the first user send with the transaction ID of a received
MAD. -/
def madSvcMatchRecv (mad : MadElement) : Option (Nat × SendHandle) :=
  svc.sendList.find? fun entry =>
    userTid mad.buf.commonHdr.transId == userTid entry.2.pSendMad.buf.commonHdr.transId &&
      !isInternalSend svc.svcType entry.2.pSendMad

/-- `__is_send_mad_done`. -/
def isSendMadDone (handle : SendHandle) (status : WcStatus) : Bool :=
  if status ≠ .success then true
  else if handle.canceled then true
  else if handle.pRespMad.isSome then true
  else if handle.usesRmpp && handle.ackSeg < handle.totalSeg then false
  else !handle.pSendMad.respExpected

/-- The timeout of `__set_retry_time` and the one it stores for the next round.
Negative values ask for doubling, with the bound in their upper half. -/
def nextTimeout (timeoutMs : UInt32) : UInt32 × UInt32 :=
  if timeoutMs.toInt32 < 0 then
    let value := -timeoutMs
    let bound := (value.toInt32 >>> 16).toUInt32
    let timeout := value &&& 0xFFFF
    let bound := if bound == 0 then 0x7FFF else bound
    if (timeout * 2).toInt32 ≤ bound.toInt32 then
      (timeout, -((bound <<< 16) ||| (timeout * 2)))
    else (timeout, -((bound <<< 16) ||| bound))
  else (timeoutMs, timeoutMs)

/-- `__set_retry_time`. The jitter is reduced by the timeout, so a timeout of zero
divides by zero and has no result. -/
def setRetryTime (handle : SendHandle) (sendJitter : UInt32) (timeStamp : UInt64) :
    Option SendHandle :=
  let (timeout, timeoutMs) := nextTimeout handle.pSendMad.timeoutMs
  if timeout == 0 then none
  else
    let timeout := timeout + (sendJitter % timeout) / 2 + handle.delay
    some { handle with
      pSendMad := { handle.pSendMad with timeoutMs }
      retryTime := timeout.toInt32.toInt64.toUInt64 * 1000 + timeStamp
      delay := 0 }

/-- `ib_send_mad` for one element, up to the release of the lock. `tracking` is the
structure `get_mad_send` finds, if any. -/
def ibSendMad (element : MadElement) (tracking : Option SendHandle)
    (avStatus : IbStatus) : SendSvc :=
  match tracking with
  | none => svc
  | some recycled =>
      match initSendMad svc.svcType (getMadSend recycled element) avStatus with
      | .error _ => svc
      | .ok handle =>
          let id := svc.accepted.length
          let handle := if handle.usesRmpp then queueRmppSeg handle else handle
          { svc with
            accepted := svc.accepted ++ [element]
            sendList := svc.sendList ++ [(id, handle)]
            posted := svc.posted ++ [id] }

/-- `ib_cancel_mad`. -/
def ibCancelMad (id : Nat) : SendSvc :=
  match svc.find id with
  | none => svc
  | some handle => svc.update id { handle with canceled := true }

/-- `ib_delay_mad`. -/
def ibDelayMad (id : Nat) (delayMs : UInt32) : SendSvc :=
  match svc.find id with
  | none => svc
  | some handle =>
      if handle.retryTime == maxTime then svc.update id { handle with delay := delayMs }
      else svc.update id
        { handle with retryTime := handle.retryTime + delayMs.toUInt64 * 1000 }

/-- `__mad_svc_send_done`. A completion for a send that is no longer tracked has no
result. -/
def madSvcSendDone (id : Nat) (status : WcStatus) (sendJitter : UInt32)
    (timeStamp : UInt64) : Option SendSvc := do
  let handle ← svc.find id
  if isInternalSend svc.svcType handle.pSendMad then
    some { svc.remove id with internalLog := svc.internalLog ++ [id] }
  else if isSendMadDone handle status then
    -- The send is reported as canceled only if there is no response to report.
    let status := if handle.canceled && handle.pRespMad.isNone then .canceled else status
    some (svc.complete id handle.pRespMad status)
  else if handle.usesRmpp && handle.curSeg ≤ handle.segLimit then
    some ((svc.update id (queueRmppSeg handle)).post id)
  else do
    let handle ← setRetryTime handle sendJitter timeStamp
    some (svc.update id handle)

/-- `__process_recv_resp`. -/
def processRecvResp (mad : MadElement) : SendSvc :=
  match madSvcMatchRecv svc mad with
  | none => svc
  | some (id, handle) =>
      if handle.retryTime == maxTime then
        -- The send is active; an earlier response is replaced.
        svc.update id { handle with pRespMad := some mad }
      else svc.complete id (some mad) .success

/-- The window and segment numbers `__process_rmpp_ack` takes from an ACK. -/
def acceptAck (handle : SendHandle) (mad : RmppMad) : SendHandle :=
  { handle with
    ackSeg := mad.segNum
    segLimit := if mad.paylenNewwin > handle.totalSeg then handle.totalSeg else mad.paylenNewwin
    curSeg := mad.segNum + 1 }

/-- `__process_rmpp_ack`. -/
def processRmppAck (mad : MadElement) : SendSvc :=
  match madSvcMatchRecv svc mad with
  | none => svc
  | some (id, handle) =>
      if mad.buf.segNum < handle.ackSeg then svc
      else
        let handle := acceptAck handle mad.buf
        if handle.retryTime == maxTime then svc.update id handle
        else if handle.ackSeg == handle.totalSeg && !handle.pSendMad.respExpected then
          svc.complete id handle.pRespMad .success
        else if handle.ackSeg < handle.segLimit then
          (svc.update id (queueRmppSeg handle)).post id
        else svc.update id handle

/-- `__process_rmpp_nack`. -/
def processRmppNack (mad : MadElement) : SendSvc :=
  match madSvcMatchRecv svc mad with
  | none => svc
  | some (id, handle) =>
      if handle.retryTime == maxTime then svc.update id { handle with canceled := true }
      else svc.complete id handle.pRespMad .canceled

/-- `__recv_requires_rmpp`. -/
def recvRequiresRmpp (svcType : MadSvcType) (mad : MadElement) : Bool :=
  match svcType with
  | .default =>
      (mad.buf.isSa || classIsVendorSpecificHigh mad.buf.commonHdr.mgmtClass) &&
        mad.buf.isFlagSet ibRmppFlagActive
  | .rmpp => mad.buf.isFlagSet ibRmppFlagActive
  | .raw => false

/-- `IB_MAD_STATUS_BUSY`. -/
def ibMadStatusBusy : UInt16 := 0x0001

/-- The part of `__mad_svc_recv_done` for a whole MAD. Receives that are not
responses go to the user and leave the sends alone. -/
def wholeRecvDone (mad : MadElement) : SendSvc :=
  if mad.buf.commonHdr.status &&& ibMadStatusBusy != 0 then svc
  else if mad.buf.commonHdr.isResponse then processRecvResp svc mad
  else svc

/-- `__mad_svc_recv_done`. `reassembled` is the MAD that a DATA segment completes, if
it does. -/
def madSvcRecvDone (mad : MadElement) (reassembled : Option MadElement) : SendSvc :=
  if svc.svcType = .raw then svc
  else if recvRequiresRmpp svc.svcType mad then
    if mad.buf.rmppType == ibRmppTypeData then
      match reassembled with
      | some whole => wholeRecvDone svc whole
      | none => svc
    else if mad.buf.rmppType == ibRmppTypeAck then processRmppAck svc mad
    else processRmppNack svc mad
  else wholeRecvDone svc mad

/-- What `__check_send_queue` does with one send. -/
inductive CheckResult
  | keep (handle : SendHandle)
  | queue (handle : SendHandle)
  | drop (status : WcStatus)
deriving DecidableEq, Repr

/-- One round of the loop of `__check_send_queue`. -/
def checkSend (handle : SendHandle) (curTime : UInt64) (sendJitter : UInt32)
    (timeStamp : UInt64) : Option CheckResult :=
  if handle.retryTime == maxTime then some (.keep handle)
  else if handle.canceled then some (.drop .canceled)
  else if curTime < handle.retryTime then some (.keep handle)
  else if handle.retryCnt != 0 then
    let handle := { handle with retryTime := maxTime, retryCnt := handle.retryCnt - 1 }
    if handle.usesRmpp then
      if handle.ackSeg < handle.segLimit then
        some (.queue (queueRmppSeg { handle with curSeg := handle.ackSeg + 1 }))
      else (setRetryTime handle sendJitter timeStamp).map .keep
    else some (.queue handle)
  else some (.drop .timeoutRetryErr)

/-- What a pass over the send list leaves: the sends kept, the work requests queued
and the sends to report. -/
structure CheckedList where
  kept : List (Nat × SendHandle)
  queued : List Nat
  dropped : List Completion

/-- The loop of `__check_send_queue`. `timeStamp` gives the clock reading for each
send that is made to wait again. -/
def checkList (curTime : UInt64) (sendJitter : UInt32) (timeStamp : Nat → UInt64) :
    List (Nat × SendHandle) → Option CheckedList
  | [] => some ⟨[], [], []⟩
  | (id, handle) :: rest => do
      let result ← checkSend handle curTime sendJitter (timeStamp id)
      let checked ← checkList curTime sendJitter timeStamp rest
      match result with
      | .keep handle => some { checked with kept := (id, handle) :: checked.kept }
      | .queue handle => some { checked with
          kept := (id, handle) :: checked.kept, queued := id :: checked.queued }
      | .drop status => some { checked with dropped := ⟨id, none, status⟩ :: checked.dropped }

/-- `__check_send_queue` up to the release of the lock. The sends taken off the list
are reported without any response they may hold. -/
def checkSendQueue (curTime : UInt64) (sendJitter : UInt32)
    (timeStamp : Nat → UInt64) : Option SendSvc := do
  let checked ← checkList curTime sendJitter timeStamp svc.sendList
  some { svc with
    sendList := checked.kept
    posted := svc.posted ++ checked.queued
    pending := svc.pending ++ checked.dropped }

/-- The part of `__destroying_mad_svc` that cancels all sends; the pass over the send
queue that follows it is an event of its own. -/
def destroyingMadSvc : SendSvc :=
  { svc with sendList := svc.sendList.map fun entry =>
      (entry.1, { entry.2 with canceled := true }) }

/-- `mad_disp_send_done` up to the call of the service. -/
def madDispSendDone (id : Nat) (status : WcStatus) : SendSvc :=
  { svc with posted := svc.posted.erase id, completing := svc.completing ++ [(id, status)] }

/-- Deliver the response of a send whose callbacks are being made. -/
def notifyRecv (completion : Completion) : SendSvc :=
  { svc with
    pending := svc.pending.erase completion ++ [{ completion with resp := none }]
    respLog := svc.respLog ++ [completion.id] }

/-- Invoke the send callback and release the tracking structure. -/
def notifySend (completion : Completion) : SendSvc :=
  { svc with
    pending := svc.pending.erase completion
    sendLog := svc.sendLog ++ [(completion.id, completion.status)] }

/-- What can happen to the send side of a MAD service. -/
inductive SendEvent
  | send (element : MadElement) (tracking : Option SendHandle) (avStatus : IbStatus)
  | wrDone (id : Nat) (status : WcStatus)
  | sendDone (id : Nat) (status : WcStatus) (sendJitter : UInt32) (timeStamp : UInt64)
  | recv (mad : MadElement) (reassembled : Option MadElement)
  | cancel (id : Nat)
  | delay (id : Nat) (delayMs : UInt32)
  | timer (curTime : UInt64) (sendJitter : UInt32) (timeStamp : Nat → UInt64)
  | destroying
  | notifyRecv (completion : Completion)
  | notifySend (completion : Completion)

/-- One event. Work requests complete only while posted, their completions are
processed once, and the callbacks of a send are made in order. -/
def sendStep : SendEvent → Option SendSvc
  | .send element tracking avStatus => some (ibSendMad svc element tracking avStatus)
  | .wrDone id status => if id ∈ svc.posted then some (madDispSendDone svc id status) else none
  | .sendDone id status sendJitter timeStamp =>
      if (id, status) ∈ svc.completing then
        madSvcSendDone { svc with completing := svc.completing.erase (id, status) } id status
          sendJitter timeStamp
      else none
  | .recv mad reassembled => some (madSvcRecvDone svc mad reassembled)
  | .cancel id => some (ibCancelMad svc id)
  | .delay id delayMs => some (ibDelayMad svc id delayMs)
  | .timer curTime sendJitter timeStamp => checkSendQueue svc curTime sendJitter timeStamp
  | .destroying => some (destroyingMadSvc svc)
  | .notifyRecv completion =>
      if completion ∈ svc.pending ∧ completion.resp.isSome then some (notifyRecv svc completion)
      else none
  | .notifySend completion =>
      if completion ∈ svc.pending ∧ completion.resp.isNone then some (notifySend svc completion)
      else none

/-- A MAD service on which nothing was sent yet. -/
def SendSvc.empty (svcType : MadSvcType) : SendSvc :=
  { svcType, accepted := [], sendList := [], posted := [], completing := [], pending := []
    respLog := [], sendLog := [], internalLog := [] }

/-- The send side of a MAD service of any type. -/
def sendMachine : Transition.Machine SendSvc SendEvent where
  initial svc := ∃ svcType, svc = .empty svcType
  step before event after := sendStep before event = some after

end WinOFED.Mad
