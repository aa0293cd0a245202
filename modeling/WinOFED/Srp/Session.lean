import WinOFED.Transition.Machine

/-! The data path of an SRP session.

SCSI request blocks (SRBs) wait on the pending list for request credits and are on the sent
list while the target works on them. Calls of the port driver and receive completions run
on any number of threads; a thread is followed from one lock section, atomic operation or
call to the next. The lists hold the send descriptor in the extension of an SRB, so both
are named by the number of the SRB. -/
namespace WinOFED.Srp
open Function (update)

/-- The information unit in the data segment of a send descriptor. -/
inductive Iu
  | cmd (tag : UInt64)
  | tskMgmt (tag taskTag : UInt64)
deriving DecidableEq, Repr

/-- `get_srp_command_tag`; the tag is at the same place in every IU. -/
def Iu.tag : Iu → UInt64
  | .cmd tag | .tskMgmt tag _ => tag

/-- The values of `SrbStatus` that the data path sets. -/
inductive SrbStatus
  | pending | success | aborted | abortFailed | busy | noHba | dataOverrun
deriving DecidableEq, Repr

/-- What is read of a response. -/
structure SrpRsp where
  tag : UInt64
  /-- `request_limit_delta`. -/
  delta : Nat
  status : UInt8
  diUnder : Bool
  doUnder : Bool
  diOver : Bool
  doOver : Bool
  /-- The sense data tell that the link behind the target is lost. -/
  linkLost : Bool
deriving DecidableEq, Repr

/-- The status that `__srp_process_recv_completion` gives the SRB of a response. -/
def SrpRsp.srbStatus (rsp : SrpRsp) : Iu → SrbStatus
  | .tskMgmt _ _ => if rsp.status = 0 then .success else .abortFailed
  | .cmd _ =>
    if rsp.status = 0 then
      if rsp.diUnder || rsp.doUnder || rsp.diOver || rsp.doOver then .dataOverrun else .success
    else .abortFailed

/-- The sense data of a command's response ask for a recovery of the session. -/
def SrpRsp.recovers (rsp : SrpRsp) : Iu → Bool
  | .tskMgmt _ _ => false
  | .cmd _ => rsp.linkLost

/-- The value of an `atomic32_t`. -/
def atomic32 (value : Int) : Int := value.bmod (2 ^ 32)

/-- What `__srp_post_io_request` returns to. -/
inductive PostReturn
  /-- The end of `srp_post_io_request`. -/
  | caller
  /-- The loop of `__srp_repost_io_request`, run for the response to an SRB. -/
  | repost (srb : Nat)
deriving DecidableEq, Repr

/-- Where a thread stands in the data path. -/
inductive Phase
  | idle
  /-- In `srp_post_io_request`, the pending list lock to be acquired. -/
  | testing (srb : Nat)
  /-- The SRB was found to have to wait, and the lock released. -/
  | appending (srb : Nat)
  /-- In `__srp_post_io_request`. -/
  | sending (srb : Nat) (ret : PostReturn)
  /-- On the sent list, `post_send` running. -/
  | posting (srb : Nat) (ret : PostReturn)
  /-- `post_send` succeeded, the credit is to be taken. -/
  | counting (ret : PostReturn)
  /-- The SRB is to be completed with an error. -/
  | failing (srb : Nat) (ret : PostReturn)
  /-- No command was found for a response, whose receive is to be posted again. -/
  | unmatched (delta : Nat)
  /-- The credits of such a response were added. -/
  | unmatchedTest
  /-- A response took its SRB off the sent list. -/
  | processing (srb : Nat) (rsp : SrpRsp)
  /-- `__srp_repost_io_request`: the pending count is to be looked at, -/
  | reposting (srb : Nat)
  /-- then the limit, -/
  | limitTest (srb : Nat)
  /-- then the loop runs with the limit looked at again, -/
  | looping (srb : Nat)
  /-- a pending SRB taken, -/
  | popping (srb : Nat)
  /-- and `repost_is_on` lowered. -/
  | leaving (srb : Nat)
  /-- The SRB of a response is to be completed. -/
  | finishing (srb : Nat) (recover : Bool)
  /-- `srp_abort_command` searches the pending list, -/
  | aborting (abort target : Nat)
  /-- then the sent list, -/
  | abortingSent (abort target : Nat)
  /-- then posts the abort, -/
  | abortPosting (abort : Nat)
  /-- or ends with the status of the abort SRB set. -/
  | abortFailing (abort : Nat)
  /-- `srp_lun_reset` empties the pending list, -/
  | resetPending (reset : Nat) (lun : UInt8) (taken : List Nat)
  /-- then the sent list, -/
  | resetSent (reset : Nat) (lun : UInt8) (taken : List Nat)
  /-- and reports the reset. -/
  | resetEnding (reset : Nat) (lun : UInt8) (taken : List Nat)
deriving DecidableEq, Repr

/-- A session with the SRBs of its target and the threads in its data path. -/
structure SrpSys where
  pendingDescriptors : List Nat
  sentDescriptors : List Nat
  requestLimit : Int
  requestThreashold : Int
  repostIsOn : Nat
  /-- `connection.state == SRP_CONNECTED`. -/
  connected : Bool
  /-- `session_paused` of the target. -/
  paused : Bool
  /-- The thread that holds the spinlock of the HBA. -/
  hbaLock : Option Nat
  threads : Nat → Phase
  /-- The data segment of each SRB's descriptor. -/
  iu : Nat → Iu
  lun : Nat → UInt8
  srbStatus : Nat → SrbStatus
  /-- The SRBs that the port driver has issued, -/
  accepted : List Nat
  /-- how often each was reported complete, -/
  completions : Nat → Nat
  /-- the IU each was issued with, -/
  issued : Nat → Iu
  /-- and whether that IU may be at the target. -/
  outstanding : Nat → Bool

namespace SrpSys

variable (sys : SrpSys)

def goto (thread : Nat) (phase : Phase) : SrpSys :=
  { sys with threads := update sys.threads thread phase }

/-- `StorPortNotification( RequestComplete, .. )`. -/
def requestComplete (srb : Nat) : SrpSys :=
  { sys with completions := update sys.completions srb (sys.completions srb + 1) }

/-- `StorPortCompleteRequest`: the port driver completes all it has issued to a unit. -/
def completeRequest (lun : UInt8) : SrpSys :=
  { sys with completions := fun srb =>
      if sys.accepted.contains srb && sys.lun srb == lun && sys.completions srb == 0 then 1
      else sys.completions srb }

def setStatus (srb : Nat) (status : SrbStatus) : SrpSys :=
  { sys with srbStatus := update sys.srbStatus srb status }

/-- The port driver issues an SRB, whose IU was formatted before. -/
def accept (srb : Nat) (iu : Iu) (lun : UInt8) : SrpSys :=
  { sys with accepted := srb :: sys.accepted,
             iu := update sys.iu srb iu,
             issued := update sys.issued srb iu,
             lun := update sys.lun srb lun,
             srbStatus := update sys.srbStatus srb .pending }

def setOutstanding (srb : Nat) (value : Bool) : SrpSys :=
  { sys with outstanding := update sys.outstanding srb value }

/-- `__srp_find_matching_send_descriptor`. -/
def findMatching (list : List Nat) (tag : UInt64) : Option Nat :=
  list.find? fun srb => (sys.iu srb).tag == tag

/-- `__srp_remove_lun_head_send_descriptor`, as far as it searches. -/
def findLun (list : List Nat) (lun : UInt8) : Option Nat :=
  list.find? fun srb => sys.lun srb == lun

end SrpSys

/-- Where a thread goes on after `__srp_post_io_request`. -/
def PostReturn.phase : PostReturn → Phase
  | .caller => .idle
  | .repost srb => .looping srb

namespace SrpSys

variable (sys : SrpSys)

/-- `srp_post_io_request` while it holds the lock of the HBA. -/
def postIoRequest (thread srb : Nat) : SrpSys :=
  if sys.paused then (sys.setStatus srb .busy).goto thread (.failing srb .caller)
  else if sys.connected then sys.goto thread (.testing srb)
  else (sys.setStatus srb .noHba).goto thread (.failing srb .caller)

/-- The condition under which `srp_post_io_request` queues an SRB. -/
def MustWait : Prop :=
  sys.requestLimit ≤ sys.requestThreashold ∨ sys.pendingDescriptors ≠ [] ∨ sys.repostIsOn ≠ 0

instance (sys : SrpSys) : Decidable sys.MustWait := inferInstanceAs (Decidable (_ ∨ _))

/-- `__srp_process_recv_completion` up to the search of the sent list. -/
def response (thread : Nat) (rsp : SrpRsp) : SrpSys :=
  match sys.findMatching sys.sentDescriptors rsp.tag with
  | some srb =>
    { sys.setOutstanding srb false with sentDescriptors := sys.sentDescriptors.erase srb }.goto
      thread (.processing srb rsp)
  | none => sys.goto thread (.unmatched rsp.delta)

/-- `__srp_process_recv_completion` from there to the call of `__srp_repost_io_request`;
`ok` tells whether the receive was posted again and the FMR unmapped. -/
def process (thread srb : Nat) (rsp : SrpRsp) (ok : Bool) : SrpSys :=
  let iu := sys.iu srb
  let sys := sys.setStatus srb (rsp.srbStatus iu)
  if ok && !rsp.recovers iu then
    { sys with requestLimit := atomic32 (sys.requestLimit + rsp.delta) }.goto thread
      (.reposting srb)
  else
    { sys with paused := sys.paused || rsp.recovers iu }.goto thread (.finishing srb true)

/-- `srp_post_send_descriptor` up to `post_send`. -/
def postSendDescriptor (thread srb : Nat) (ret : PostReturn) : SrpSys :=
  if sys.connected then
    { sys.setOutstanding srb true with
      sentDescriptors := sys.sentDescriptors ++ [srb] }.goto thread (.posting srb ret)
  else (sys.setStatus srb .noHba).goto thread (.failing srb ret)

/-- `post_send` returns. -/
def postSendDone (thread srb : Nat) (ret : PostReturn) (ok : Bool) : SrpSys :=
  if ok then sys.goto thread (.counting ret)
  else
    { (sys.setOutstanding srb false).setStatus srb .noHba with
      sentDescriptors := sys.sentDescriptors.erase srb }.goto thread (.failing srb ret)

/-- The pending list's head is taken for posting. -/
def popPending (thread srb : Nat) : SrpSys :=
  match sys.pendingDescriptors with
  | [] => sys.goto thread (.leaving srb)
  | first :: rest =>
    { sys with pendingDescriptors := rest }.goto thread (.sending first (.repost srb))

/-- The end of an abort that does not send: the lock is released first. -/
def abortEnd (thread abort : Nat) : SrpSys :=
  ({ sys with hbaLock := none }.goto thread .idle).requestComplete abort

/-- `srp_abort_command` takes the command off the pending list and fails. -/
def abortPending (thread abort target : Nat) : SrpSys :=
  match sys.findMatching sys.pendingDescriptors (sys.iu target).tag with
  | some srb =>
    ({ sys with pendingDescriptors := sys.pendingDescriptors.erase srb }.setStatus abort
      .abortFailed).goto thread (.abortFailing abort)
  | none => sys.goto thread (.abortingSent abort target)

/-- `srp_abort_command` takes the command off the sent list and writes the task management
IU in the data segment of the command. `cleaned` tells whether the FMR was unmapped. -/
def abortSent (thread abort target : Nat) (cleaned : Bool) : SrpSys :=
  let tag := (sys.iu target).tag
  match sys.findMatching sys.sentDescriptors tag with
  | some srb =>
    let sys := { sys with sentDescriptors := sys.sentDescriptors.erase srb }
    if cleaned then
      ({ sys with iu := update sys.iu srb (.tskMgmt (sys.issued srb).tag tag) }.setStatus
        target .aborted).goto thread (.abortPosting abort)
    else (sys.setStatus abort .abortFailed).goto thread (.abortFailing abort)
  | none => (sys.setStatus abort .abortFailed).goto thread (.abortFailing abort)

/-- The next SRB of the unit on a list, for `srp_lun_reset`. -/
def resetPendingStep (thread reset : Nat) (lun : UInt8) (taken : List Nat) : SrpSys :=
  match sys.findLun sys.pendingDescriptors lun with
  | some srb =>
    { sys with pendingDescriptors := sys.pendingDescriptors.erase srb }.goto thread
      (.resetPending reset lun (taken ++ [srb]))
  | none => sys.goto thread (.resetSent reset lun taken)

/-- The loop of a reset over the sent list. -/
def resetSentStep (thread reset : Nat) (lun : UInt8) (taken : List Nat) : SrpSys :=
  match sys.findLun sys.sentDescriptors lun with
  | some srb =>
    { sys with sentDescriptors := sys.sentDescriptors.erase srb }.goto thread
      (.resetSent reset lun (taken ++ [srb]))
  | none => (sys.setStatus reset .success).goto thread (.resetEnding reset lun taken)

/-- The end of `srp_lun_reset`. -/
def resetEnd (thread reset : Nat) (lun : UInt8) : SrpSys :=
  { ((sys.requestComplete reset).completeRequest lun).goto thread .idle with hbaLock := none }

/-- The next step of a thread; `ok` is what a call it makes returns. -/
def advance (thread : Nat) (ok : Bool) : Option SrpSys :=
  match sys.threads thread with
  | .idle => none
  | .testing srb =>
    some (sys.goto thread (if sys.MustWait then .appending srb else .sending srb .caller))
  | .appending srb =>
    some ({ sys with pendingDescriptors := sys.pendingDescriptors ++ [srb] }.goto thread .idle)
  | .sending srb ret => some (sys.postSendDescriptor thread srb ret)
  | .posting srb ret => some (sys.postSendDone thread srb ret ok)
  | .counting ret =>
    some ({ sys with requestLimit := atomic32 (sys.requestLimit - 1) }.goto thread ret.phase)
  | .failing srb ret => some ((sys.requestComplete srb).goto thread ret.phase)
  | .unmatched delta =>
    if ok then
      some ({ sys with requestLimit := atomic32 (sys.requestLimit + delta) }.goto thread
        .unmatchedTest)
    else some ({ sys with connected := false }.goto thread .idle)
  | .unmatchedTest =>
    -- with nothing sent the target is taken to be stuck
    some ({ sys with connected := sys.connected && !sys.sentDescriptors.isEmpty }.goto thread .idle)
  | .processing srb rsp => some (sys.process thread srb rsp ok)
  | .reposting srb =>
    some (sys.goto thread
      (if sys.pendingDescriptors = [] then .finishing srb false else .limitTest srb))
  | .limitTest srb =>
    if sys.requestLimit ≤ sys.requestThreashold then some (sys.goto thread (.finishing srb false))
    else some ({ sys with repostIsOn := sys.repostIsOn + 1 }.goto thread (.looping srb))
  | .looping srb =>
    some (sys.goto thread
      (if sys.requestLimit > sys.requestThreashold then .popping srb else .leaving srb))
  | .popping srb => some (sys.popPending thread srb)
  | .leaving srb =>
    some ({ sys with repostIsOn := sys.repostIsOn - 1 }.goto thread (.finishing srb false))
  | .finishing srb recover =>
    some ({ sys.requestComplete srb with connected := sys.connected && !recover }.goto thread .idle)
  | .aborting abort target => some (sys.abortPending thread abort target)
  | .abortingSent abort target => some (sys.abortSent thread abort target ok)
  | .abortPosting _ =>
    -- `srp_post_io_request` acquires the lock that this thread holds
    none
  | .abortFailing abort => some (sys.abortEnd thread abort)
  | .resetPending reset lun taken => some (sys.resetPendingStep thread reset lun taken)
  | .resetSent reset lun taken => some (sys.resetSentStep thread reset lun taken)
  | .resetEnding reset lun _ => some (sys.resetEnd thread reset lun)

end SrpSys

/-- What the port driver, the target and the threads do. -/
inductive SrpEvent
  /-- The port driver starts an SRB with its IU. -/
  | post (thread srb : Nat) (iu : Iu) (lun : UInt8)
  /-- A response of the target is received. -/
  | response (thread : Nat) (rsp : SrpRsp)
  /-- The port driver aborts an SRB, or resets a unit. -/
  | abort (thread abort target : Nat) (iu : Iu) (lun : UInt8)
  | lunReset (thread reset : Nat) (iu : Iu) (lun : UInt8)
  | advance (thread : Nat) (ok : Bool)
  /-- The connection fails or is established, the target is paused or resumed. So end, too,
  the calls in which an FMR could not be unmapped. -/
  | connection (connected paused : Bool)
deriving DecidableEq, Repr

/-- Calls start on threads that are not in the data path; those of the port driver need
the lock of the HBA. -/
def SrpSys.next (sys : SrpSys) : SrpEvent → Option SrpSys
  | .post thread srb iu lun =>
    if sys.threads thread = .idle ∧ sys.hbaLock = none then
      some ((sys.accept srb iu lun).postIoRequest thread srb)
    else none
  | .response thread rsp =>
    if sys.threads thread = .idle ∧ sys.connected = true then some (sys.response thread rsp)
    else none
  | .abort thread abort target iu lun =>
    if sys.threads thread = .idle ∧ sys.hbaLock = none then
      some ({ sys.accept abort iu lun with hbaLock := some thread }.goto thread
        (.aborting abort target))
    else none
  | .lunReset thread reset iu lun =>
    if sys.threads thread = .idle ∧ sys.hbaLock = none then
      some ({ sys.accept reset iu lun with hbaLock := some thread }.goto thread
        (.resetPending reset lun []))
    else none
  | .advance thread ok => sys.advance thread ok
  | .connection connected paused => some { sys with connected, paused }

/-- A connected session with `requestLimit` credits and nothing to do. -/
def SrpSys.initial (requestLimit : Int) : SrpSys where
  pendingDescriptors := []
  sentDescriptors := []
  requestLimit := requestLimit
  requestThreashold := 2
  repostIsOn := 0
  connected := true
  paused := false
  hbaLock := none
  threads _ := .idle
  iu _ := .cmd 0
  lun _ := 0
  srbStatus _ := .pending
  accepted := []
  completions _ := 0
  issued _ := .cmd 0
  outstanding _ := false

/-- A session with any number of credits. -/
def srpMachine : Transition.Machine SrpSys SrpEvent :=
  .ofNext (fun sys => ∃ requestLimit, sys = .initial requestLimit) SrpSys.next

/-- The port driver issues an SRB once, and aborts SRBs that it has issued. -/
def LawfulSrp (sys : SrpSys) : SrpEvent → Prop
  | .post _ srb _ _ | .lunReset _ srb _ _ => srb ∉ sys.accepted
  | .abort _ abort target _ _ => abort ∉ sys.accepted ∧ target ∈ sys.accepted
  | _ => True

end WinOFED.Srp
