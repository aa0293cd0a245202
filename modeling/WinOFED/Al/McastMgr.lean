import WinOFED.Transition.Machine

/-! The multicast manager of a port.

Joins and leaves of a port's multicast groups wait on one request list, and one of them at
a time is at the SA. Every section under the manager's lock is one step; between two
sections a call is in a callback of the user. A failing allocation, which leaves all as it
was, and the reference counts of the requests are not modelled. -/
namespace WinOFED.Al
open Function (update)

/-- The states of a group. -/
inductive McastState
  | idle | connecting | connected | leaving
deriving DecidableEq, Repr

/-- The states of a request. -/
inductive ReqState
  | scheduled | running | runningCb | done
deriving DecidableEq, Repr

/-- A join request, or the leave request that was allocated with it. -/
inductive McastReqId
  | join (id : Nat)
  | leave (id : Nat)
deriving DecidableEq, Repr

def McastReqId.id : McastReqId → Nat
  | .join id | .leave id => id

/-- A multicast group of the manager. -/
structure McastNode where
  mcastState : McastState := .idle
  connections : Nat := 0
  /-- The context and the status in `mcast_rec`. -/
  recContext : Nat := 0
  recStatus : Nat := 0
  /-- `h_mcast` is set. -/
  hMcast : Bool := false
  connectedReqList : List Nat := []
deriving Repr

/-- A join request with the leave request allocated with it. -/
structure McastJoin where
  /-- The MGID of the group. -/
  node : Nat
  /-- `mcast_context` of the user. -/
  context : Nat
  /-- A callback was given for the leave. -/
  leaveCb : Bool := false
  reqRegStatus : Nat := 0
  reqDeregStatus : Nat := 0
  cbFinished : Bool := false
deriving Repr

/-- What `mcast_mgr_process_next_request` was called by. -/
inductive McastReturn
  | joinCall (id : Nat) (nodeAllocated : Bool)
  | leaveCall
  | saCallback
deriving DecidableEq, Repr

/-- A call in which the lock is released. -/
inductive McastCall
  /-- `mcast_mgr_process_next_request` tells the user that the join failed, -/
  | failed (id : Nat) (ret : McastReturn)
  /-- that the group was joined already, -/
  | joined (id : Nat) (ret : McastReturn)
  /-- or that the group was left with members remaining. -/
  | reduced (id : Nat) (ret : McastReturn)
  /-- `mcast_mgr_join_mcast_cb` is to copy the record and to call the user, -/
  | joinDone (id node status : Nat)
  /-- and has called the user. -/
  | joinCb (id node status : Nat)
  /-- `mcast_mgr_leave_mcast_cb` is to read the context and to call the user, -/
  | leaveDone (id node status : Nat)
  /-- and has called the user. -/
  | leaveCb (id node : Nat)
deriving DecidableEq, Repr

/-- Where `mcast_mgr_close_port_mgr` waits. -/
inductive McastClose
  | waitJoin (id : Nat) (rest : List McastReqId) (leaveRequestsPending : Bool)
  | waitEmpty
deriving DecidableEq, Repr

/-- A join or leave that is in progress at the SA; its callback gets the node. -/
structure SaOp where
  req : McastReqId
  node : Nat
deriving DecidableEq, Repr

/-- A callback of a user: the status is in the record of a join, and in the join request of
a leave. -/
structure UserCall where
  req : McastReqId
  context : Nat
  status : Nat
deriving DecidableEq, Repr

/-- The manager of a port, with its users and the SA. -/
structure McastSys where
  /-- The groups on `mcast_list`, by MGID. -/
  mcastList : List Nat
  nodes : Nat → McastNode
  requestList : List McastReqId
  reqState : McastReqId → ReqState
  joins : Nat → McastJoin
  closePending : Bool
  requestsListEmpty : Bool
  /-- The manager is no longer found. -/
  removed : Bool
  running : List McastCall
  /-- The joins that `mcast_mgr_cancel_join` waits for. -/
  waiting : List Nat
  closing : Option McastClose
  /-- A thread loops over a request that it does not handle, with the lock. -/
  spinning : Bool
  saOps : List SaOp
  /-- The requests that were accepted, -/
  accepted : McastReqId → Bool
  /-- that were taken off the list before they ran, -/
  cancelled : McastReqId → Bool
  /-- and how often each was handed to the SA. -/
  handed : McastReqId → Nat
  userCalls : List UserCall
  /-- How a request ended. -/
  outcome : McastReqId → Option Nat
  /-- The joins that a group's connections stand for. -/
  members : Nat → List Nat

namespace McastSys

variable (sys : McastSys)

def node (id : Nat) : Nat := (sys.joins id).node

def setNode (node : Nat) (change : McastNode → McastNode) : McastSys :=
  { sys with nodes := update sys.nodes node (change (sys.nodes node)) }

def setJoin (id : Nat) (change : McastJoin → McastJoin) : McastSys :=
  { sys with joins := update sys.joins id (change (sys.joins id)) }

def setState (req : McastReqId) (state : ReqState) : McastSys :=
  { sys with reqState := update sys.reqState req state }

def setMembers (node : Nat) (change : List Nat → List Nat) : McastSys :=
  { sys with members := update sys.members node (change (sys.members node)) }

def setOutcome (req : McastReqId) (status : Nat) : McastSys :=
  { sys with outcome := update sys.outcome req (some status) }

def setAccepted (req : McastReqId) (value : Bool) : McastSys :=
  { sys with accepted := update sys.accepted req value }

/-- A callback of the user is invoked. -/
def callUser (req : McastReqId) (context status : Nat) : McastSys :=
  { sys with userCalls := ⟨req, context, status⟩ :: sys.userCalls }

/-- The callback of a leave, if there is one. -/
def callLeave (id context status : Nat) : McastSys :=
  { sys with userCalls :=
      if (sys.joins id).leaveCb then ⟨.leave id, context, status⟩ :: sys.userCalls
      else sys.userCalls }

/-- `al_join_mcast_no_qp` or `ib_leave_mcast` is called for a request. -/
def hand (req : McastReqId) : McastSys :=
  { sys with handed := update sys.handed req (sys.handed req + 1) }

/-- A join that the SA has accepted runs. -/
def startJoin (id : Nat) : McastSys :=
  let sys := ((sys.hand (.join id)).setNode (sys.node id) fun node => { node with hMcast := true }).setState
    (.join id) .running
  { sys with saOps := ⟨.join id, sys.node id⟩ :: sys.saOps }

/-- A join that the SA refused at once is unlinked, and the user told. -/
def failJoin (id status : Nat) (ret : McastReturn) : McastSys :=
  let sys := ((sys.hand (.join id)).setState (.join id) .runningCb).setOutcome (.join id) status
  { sys.callUser (.join id) (sys.joins id).context status with
    requestList := sys.requestList.erase (.join id),
    running := .failed id ret :: sys.running }

/-- The error path of `mcast_mgr_join_mcast`. It unlinks the request of the call from the list
that it is on: a request that was served before another failed is on `connected_req_list`. -/
def refuse : McastReturn → McastSys
  | .joinCall id nodeAllocated =>
    { (sys.setAccepted (.join id) false).setNode (sys.node id) fun node =>
        { node with connectedReqList := node.connectedReqList.erase id } with
      requestList := sys.requestList.erase (.join id),
      mcastList := if nodeAllocated then sys.mcastList.erase (sys.node id) else sys.mcastList }
  | .leaveCall | .saCallback => sys

/-- A join of a connected group. -/
def joinConnected (id : Nat) (ret : McastReturn) : McastSys :=
  let node := sys.node id
  let status := (sys.nodes node).recStatus
  let sys := (((sys.setNode node fun node => { node with connections := node.connections + 1 }).setMembers
    node (id :: ·)).setState (.join id) .runningCb).setOutcome (.join id) 0
  { sys.callUser (.join id) (sys.joins id).context status with
    requestList := sys.requestList.erase (.join id),
    running := .joined id ret :: sys.running }

/-- The last member leaves; `ib_leave_mcast` fails without a handle. -/
def startLeave (id : Nat) : McastSys :=
  let sys := (sys.hand (.leave id)).setState (.leave id) .running
  if (sys.nodes (sys.node id)).hMcast then
    { sys with saOps := ⟨.leave id, sys.node id⟩ :: sys.saOps }
  else sys

/-- A member leaves a group that has others. -/
def reduceLeave (id : Nat) (ret : McastReturn) : McastSys :=
  let sys := ((((sys.setNode (sys.node id) fun node =>
      { node with connections := node.connections - 1,
                  connectedReqList := node.connectedReqList.erase id }).setMembers
    (sys.node id) (·.erase id)).setState (.leave id) .runningCb).setOutcome (.leave id) 0).setJoin id
      fun join => { join with reqDeregStatus := 0 }
  { sys.callLeave id (sys.joins id).context 0 with
    requestList := sys.requestList.erase (.leave id),
    running := .reduced id ret :: sys.running }

/-- `mcast_mgr_process_next_request` up to its end or to the next callback. `status` is what
`al_join_mcast_no_qp` returns. Only the SA callbacks come with requests from the queue. -/
def processNext (ret : McastReturn) (status : Nat) : McastSys :=
  match sys.requestList with
  | [] => { sys with requestsListEmpty := sys.requestsListEmpty || sys.closePending }
  | .join id :: _ =>
    match (sys.nodes (sys.node id)).mcastState with
    | .idle =>
      if status = 0 then sys.startJoin id
      else if ret = .saCallback then sys.failJoin id status ret
      else (sys.hand (.join id)).refuse ret
    | .connected => sys.joinConnected id ret
    | .connecting | .leaving => { sys with spinning := true }
  | .leave id :: _ =>
    match (sys.nodes (sys.node id)).mcastState with
    | .connected =>
      if (sys.nodes (sys.node id)).connections = 1 then sys.startLeave id
      else sys.reduceLeave id ret
    | .idle | .connecting | .leaving => { sys with spinning := true }

/-- `InsertTailList` of an accepted request. -/
def insertTail (req : McastReqId) (state : ReqState) : McastSys :=
  { sys.setAccepted req true with requestList := sys.requestList ++ [req] }.setState req state

/-- A request is queued, and processed if the list was empty. -/
def schedule (req : McastReqId) (ret : McastReturn) (status : Nat) : McastSys :=
  if sys.requestList = [] then (sys.insertTail req .running).processNext ret status
  else sys.insertTail req .scheduled

/-- The group of a join is found, or a new one put on `mcast_list`. -/
def getMcastNode (mgid : Nat) : McastSys :=
  if mgid ∈ sys.mcastList then sys
  else { sys with mcastList := sys.mcastList ++ [mgid] }.setNode mgid fun _ => {}

/-- `mcast_mgr_join_mcast`. Here it finds the manager and takes `mgr_lock` in one step; the code
releases `mgr_list_lock` in between, when the manager can be removed. -/
def joinMcast (id mgid context status : Nat) : McastSys :=
  if sys.removed then sys
  else
    let nodeAllocated := decide (mgid ∉ sys.mcastList)
    let sys := sys.getMcastNode mgid
    { sys with joins := update sys.joins id { node := mgid, context := context } }.schedule
      (.join id) (.joinCall id nodeAllocated) status

/-- `mcast_mgr_leave_mcast`. -/
def leaveMcast (id : Nat) (leaveCb : Bool) (status : Nat) : McastSys :=
  (sys.setJoin id fun join => { join with leaveCb := leaveCb }).schedule (.leave id) .leaveCall status

/-- `mcast_mgr_cancel_join` up to its end or to the wait. -/
def cancelJoin (id : Nat) : McastSys :=
  match sys.reqState (.join id) with
  | .scheduled =>
    { sys with requestList := sys.requestList.erase (.join id),
               cancelled := update sys.cancelled (.join id) true }
  | .running | .runningCb => { sys with waiting := id :: sys.waiting }
  | .done => sys

/-- The first section of `mcast_mgr_join_mcast_cb` on the first request. -/
def endJoin (op : SaOp) (id status : Nat) : McastSys :=
  let sys := (({ sys with saOps := sys.saOps.erase op }.setState (.join id) .runningCb).setJoin id
    fun join => { join with reqRegStatus := status }).setOutcome op.req status
  let sys :=
    if status = 0 then
      (sys.setNode op.node fun node =>
        { node with mcastState := .connected, connections := node.connections + 1 }).setMembers
          op.node (id :: ·)
    else sys
  { sys with running := .joinDone id op.node status :: sys.running }

/-- `mcast_mgr_join_mcast_cb` up to the release of the lock. It takes the first request. -/
def saJoinDone (op : SaOp) (status : Nat) : Option McastSys :=
  match sys.requestList with
  | .join id :: _ => some (sys.endJoin op id status)
  | _ => none

/-- The first section of `mcast_mgr_leave_mcast_cb` on the first request. -/
def endLeave (op : SaOp) (id status : Nat) : McastSys :=
  let sys := ((({ sys with saOps := sys.saOps.erase op }.setNode op.node fun node =>
      { node with mcastState := .idle, connections := node.connections - 1 }).setMembers
        op.node (·.erase id)).setState (.leave id) .runningCb).setOutcome op.req status
  { sys with running := .leaveDone id op.node status :: sys.running }

/-- `mcast_mgr_leave_mcast_cb` up to the release of the lock. -/
def saLeaveDone (op : SaOp) (status : Nat) : Option McastSys :=
  match sys.requestList with
  | .leave id :: _ => some (sys.endLeave op id status)
  | _ => none

/-- A call goes on: it calls its user, or takes the lock again after the callback. -/
def resume (call : McastCall) (status : Nat) : McastSys :=
  let sys := { sys with running := sys.running.erase call }
  match call with
  | .failed id ret =>
    (((sys.setJoin id fun join => { join with cbFinished := true }).setState (.join id) .done).setNode
      (sys.node id) fun node => { node with hMcast := false }).processNext ret status
  | .joined id ret =>
    (((sys.setNode (sys.node id) fun node =>
        { node with connectedReqList := node.connectedReqList ++ [id] }).setState (.join id) .done).setJoin
      id fun join => { join with cbFinished := true }).processNext ret status
  | .reduced _ ret => sys.processNext ret status
  | .joinDone id node saStatus =>
    let sys := (sys.setNode node fun node =>
      { node with recContext := (sys.joins id).context, recStatus := saStatus }).callUser (.join id)
        (sys.joins id).context saStatus
    { sys with running := .joinCb id node saStatus :: sys.running }
  | .joinCb id node saStatus =>
    let sys := { sys with requestList := sys.requestList.erase (.join id) }.setJoin id fun join =>
      { join with cbFinished := true }
    let sys :=
      if saStatus = 0 then
        (sys.setNode node fun node =>
          { node with connectedReqList := node.connectedReqList ++ [id] }).setState (.join id) .done
      else sys.setNode node fun node => { node with hMcast := false }
    sys.processNext .saCallback status
  | .leaveDone id node saStatus =>
    let sys := (sys.setJoin id fun join => { join with reqDeregStatus := saStatus }).callLeave id
      (sys.nodes node).recContext saStatus
    { sys with running := .leaveCb id node :: sys.running }
  | .leaveCb id node =>
    ({ sys with requestList := sys.requestList.erase (.leave id) }.setNode node fun node =>
      { node with connectedReqList := node.connectedReqList.erase id }).processNext .saCallback status

/-- `mcast_mgr_close_port_mgr` removes a join that has not run. -/
def closeJoin (id : Nat) : McastSys :=
  { sys.setNode (sys.node id) fun node => { node with hMcast := false } with
    requestList := sys.requestList.erase (.join id),
    cancelled := update sys.cancelled (.join id) true }

/-- The end of `mcast_mgr_close_port_mgr`: the groups are left and freed. -/
def closeEnd : McastSys :=
  { sys with mcastList := [], nodes := fun _ => {}, members := fun _ => [], closing := none }

/-- The loop of `mcast_mgr_close_port_mgr` over the request list. -/
def closeScan (sys : McastSys) (leaveRequestsPending : Bool) : List McastReqId → McastSys
  | [] =>
    if leaveRequestsPending then { sys with closePending := true, closing := some .waitEmpty }
    else sys.closeEnd
  | .leave _ :: rest => sys.closeScan true rest
  | .join id :: rest =>
    match sys.reqState (.join id) with
    | .scheduled | .done => (sys.closeJoin id).closeScan leaveRequestsPending rest
    | .running | .runningCb => { sys with closing := some (.waitJoin id rest leaveRequestsPending) }

/-- The wait of `mcast_mgr_close_port_mgr` ends. -/
def closeResume : Option McastSys :=
  match sys.closing with
  | none => none
  | some (.waitJoin id rest leaveRequestsPending) =>
    if (sys.joins id).cbFinished then
      let sys := { sys with requestList := sys.requestList.erase (.join id) }.setNode (sys.node id)
        fun node => { node with connectedReqList := node.connectedReqList.erase id ++ [id] }
      some ((sys.setState (.join id) .done).closeScan leaveRequestsPending rest)
    else none
  | some .waitEmpty => if sys.requestsListEmpty then some sys.closeEnd else none

end McastSys

/-- What the users and the SA do. -/
inductive McastEvent
  /-- `status` is what `al_join_mcast_no_qp` returns, if it is called. -/
  | join (id mgid context status : Nat)
  | leave (id : Nat) (leaveCb : Bool) (status : Nat)
  | cancel (id : Nat)
  /-- The wait of a cancel ends. -/
  | cancelled (id : Nat)
  /-- The SA is done with an operation. -/
  | saDone (op : SaOp) (status : Nat)
  | resume (call : McastCall) (status : Nat)
  | close
  | closeResume
deriving DecidableEq, Repr

/-- A thread that loops with the lock stops all others. -/
def McastSys.next (sys : McastSys) (event : McastEvent) : Option McastSys :=
  if sys.spinning then none
  else match event with
    | .join id mgid context status => some (sys.joinMcast id mgid context status)
    | .leave id leaveCb status => some (sys.leaveMcast id leaveCb status)
    | .cancel id => some (sys.cancelJoin id)
    | .cancelled id =>
      if id ∈ sys.waiting ∧ (sys.joins id).cbFinished = true then
        some ({ sys with waiting := sys.waiting.erase id }.setJoin id fun join =>
          { join with cbFinished := false })
      else none
    | .saDone op status =>
      if op ∈ sys.saOps then
        match op.req with
        | .join _ => sys.saJoinDone op status
        | .leave _ => sys.saLeaveDone op status
      else none
    | .resume call status => if call ∈ sys.running then some (sys.resume call status) else none
    | .close =>
      if sys.removed then none
      else some ({ sys with removed := true }.closeScan false sys.requestList)
    | .closeResume => sys.closeResume

/-- A manager without groups. -/
def McastSys.initial : McastSys where
  mcastList := []
  nodes _ := {}
  requestList := []
  reqState _ := .scheduled
  joins _ := { node := 0, context := 0 }
  closePending := false
  requestsListEmpty := false
  removed := false
  running := []
  waiting := []
  closing := none
  spinning := false
  saOps := []
  accepted _ := false
  cancelled _ := false
  handed _ := 0
  userCalls := []
  outcome _ := none
  members _ := []

/-- The manager from its creation on. -/
def mcastMachine : Transition.Machine McastSys McastEvent :=
  .ofNext (· = .initial) McastSys.next

/-- The request was not used: it is as it was allocated. -/
def McastSys.IsNew (sys : McastSys) (req : McastReqId) : Prop :=
  sys.accepted req = false ∧ sys.reqState req = .scheduled

instance (sys : McastSys) (req : McastReqId) : Decidable (sys.IsNew req) :=
  inferInstanceAs (Decidable (_ ∧ _))

/-- Users join once with each request, leave once what they were told they have joined, and
cancel once what they have joined; nobody uses a manager that is being closed. -/
def LawfulMcast (sys : McastSys) : McastEvent → Prop
  | .join id _ _ _ => sys.IsNew (.join id)
  | .leave id _ _ => sys.removed = false ∧ sys.IsNew (.leave id) ∧
      ∃ call ∈ sys.userCalls, call.req = .join id ∧ call.status = 0
  | .cancel id => sys.removed = false ∧ sys.accepted (.join id) = true ∧
      sys.cancelled (.join id) = false
  | _ => True

end WinOFED.Al
