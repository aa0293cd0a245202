import WinOFED.Al.McastMgr

/-! Requests of the multicast manager, one after the other.

Either nothing is going on, or one operation is at the SA, or one call is between two of
its sections; whoever ends goes on with the next request. This is so as long as nobody
finds the request list empty while a call of the manager is in a callback. -/
namespace WinOFED.Al
open Function (update update_of_ne update_self)

/-- How far a request has come. -/
inductive McastStage
  | fresh | refused | queued | atSa | saCalling | called | cancelled
deriving DecidableEq

namespace McastStage

/-- How often the request is on the list. -/
def listed : McastStage → Nat
  | .queued | .atSa | .saCalling => 1
  | .fresh | .refused | .called | .cancelled => 0

/-- The request was not turned away. -/
def accepted : McastStage → Bool
  | .fresh | .refused => false
  | .queued | .atSa | .saCalling | .called | .cancelled => true

/-- The request has not been handed to the SA, nor called back. -/
def waits : McastStage → Bool
  | .fresh | .queued | .cancelled => true
  | .refused | .atSa | .saCalling | .called => false

def calls : McastStage → Nat
  | .saCalling | .called => 1
  | .fresh | .refused | .queued | .atSa | .cancelled => 0

/-- The SA has the request, or has just ended it. -/
def current : McastStage → Bool
  | .atSa | .saCalling => true
  | .fresh | .refused | .queued | .called | .cancelled => false

end McastStage

namespace McastSys

/-- How often the callback of a request was invoked. -/
def calls (sys : McastSys) (req : McastReqId) : Nat := sys.userCalls.countP (·.req = req)

/-- How often it should be in all. -/
def due (sys : McastSys) : McastReqId → Nat
  | .join _ => 1
  | .leave id => if (sys.joins id).leaveCb then 1 else 0

/-- What is seen of one request. -/
def view (sys : McastSys) (req : McastReqId) : Nat × Bool × Bool × Nat × Nat × ReqState × Nat :=
  (sys.requestList.count req, sys.accepted req, sys.cancelled req, sys.handed req, sys.calls req,
    sys.reqState req, sys.due req)

/-- The manager has a request in a stage. -/
structure Staged (sys : McastSys) (req : McastReqId) (stage : McastStage) : Prop where
  listed : sys.requestList.count req = stage.listed
  accepted : sys.accepted req = stage.accepted
  cancelled : sys.cancelled req = true ↔ stage = .cancelled
  handed : sys.handed req ≤ if stage.waits then 0 else 1
  calls : sys.calls req = stage.calls * sys.due req
  scheduled : sys.reqState req = .scheduled → stage.waits = true

variable {req : McastReqId} {after sys : McastSys} {stage : McastReqId → McastStage}
  {further : McastStage} {node : Nat}

theorem Staged.congr {stage : McastStage} (staged : sys.Staged req stage)
    (same : after.view req = sys.view req) : after.Staged req stage := by
  simp only [view, Prod.mk.injEq] at same
  obtain ⟨listed, accepted, cancelled, handed, calls, state, due⟩ := same
  constructor
  · rw [listed, staged.listed]
  · rw [accepted, staged.accepted]
  · rw [cancelled, staged.cancelled]
  · rw [handed]
    exact staged.handed
  · rw [calls, due, staged.calls]
  · rw [state]
    exact staged.scheduled

/-- A group is connected while it has members. -/
structure NodeOk (sys : McastSys) (node : Nat) : Prop where
  connections : (sys.nodes node).connections = (sys.members node).length
  nodup : (sys.members node).Nodup
  state : ((sys.nodes node).mcastState = .connected ∧ (sys.nodes node).hMcast = true ∧
    sys.members node ≠ []) ∨ ((sys.nodes node).mcastState = .idle ∧ sys.members node = [])

/-- What holds of the requests and the groups whatever is going on. -/
structure Core (sys : McastSys) (stage : McastReqId → McastStage) : Prop where
  staged : ∀ req, sys.Staged req (stage req)
  nodes : ∀ node, sys.NodeOk node
  known : ∀ node, node ∉ sys.mcastList → sys.members node = []
  homes : ∀ id, stage (.join id) = .queued → sys.node id ∈ sys.mcastList
  members : ∀ node, ∀ id ∈ sys.members node,
    sys.node id = node ∧ (stage (.join id)).waits = false
  leaves : ∀ id, stage (.leave id) = .queued → id ∈ sys.members (sys.node id)
  called : ∀ call ∈ sys.userCalls, sys.outcome call.req = some call.status ∧
    call.context = (sys.joins call.req.id).context
  joined : sys.removed = false → ∀ call ∈ sys.userCalls, ∀ id, call.req = .join id →
    call.status = 0 → stage (.leave id) = .fresh → id ∈ sys.members (sys.node id)
  paired : ∀ id, stage (.join id) = .fresh → stage (.leave id) = .fresh
  spinning : sys.spinning = false

/-- Connected groups have the record of a successful join, one perhaps excepted. -/
def Recs (sys : McastSys) (except : Option Nat) : Prop :=
  ∀ node, (sys.nodes node).mcastState = .connected → except ≠ some node →
    (sys.nodes node).recStatus = 0

/-- The request, if any, that the SA has or has just ended. -/
def Alone (stage : McastReqId → McastStage) (current : Option McastReqId) : Prop :=
  ∀ req, (stage req).current = true → current = some req

/-- An operation at the SA is that of the first request. -/
structure OpOk (sys : McastSys) (stage : McastReqId → McastStage) (op : SaOp) : Prop where
  head : sys.requestList.head? = some op.req
  atSa : stage op.req = .atSa
  alone : Alone stage (some op.req)
  node : op.node = sys.node op.req.id
  home : op.node ∈ sys.mcastList
  join : ∀ id, op.req = .join id →
    (sys.nodes op.node).mcastState = .idle ∧ (sys.nodes op.node).hMcast = true
  leave : ∀ id, op.req = .leave id → sys.members op.node = [id]

/-- A call between two sections. -/
inductive CallOk (sys : McastSys) (stage : McastReqId → McastStage) : McastCall → Prop
  | failed {id : Nat} (alone : Alone stage none)
      (idle : (sys.nodes (sys.node id)).mcastState = .idle)
      (called : (stage (.join id)) = .called) (recs : sys.Recs none) :
      CallOk sys stage (.failed id .saCallback)
  | joined {id : Nat} {ret : McastReturn} (alone : Alone stage none)
      (called : (stage (.join id)) = .called)
      (fits : ret ≠ .saCallback → sys.requestList = []) (recs : sys.Recs none) :
      CallOk sys stage (.joined id ret)
  | reduced {id : Nat} {ret : McastReturn} (alone : Alone stage none)
      (fits : ret ≠ .saCallback → sys.requestList = []) (recs : sys.Recs none) :
      CallOk sys stage (.reduced id ret)
  | joinDone {id node status : Nat} (own : node = sys.node id)
      (head : sys.requestList.head? = some (.join id)) (atSa : stage (.join id) = .atSa)
      (alone : Alone stage (some (.join id))) (outcome : sys.outcome (.join id) = some status)
      (home : node ∈ sys.mcastList) (member : status = 0 → id ∈ sys.members node)
      (idle : status ≠ 0 → (sys.nodes node).mcastState = .idle) (recs : sys.Recs (some node)) :
      CallOk sys stage (.joinDone id node status)
  | joinCb {id node status : Nat} (own : node = sys.node id)
      (head : sys.requestList.head? = some (.join id)) (calling : stage (.join id) = .saCalling)
      (alone : Alone stage (some (.join id))) (home : node ∈ sys.mcastList)
      (idle : status ≠ 0 → (sys.nodes node).mcastState = .idle) (recs : sys.Recs none) :
      CallOk sys stage (.joinCb id node status)
  | leaveDone {id node status : Nat} (own : node = sys.node id)
      (head : sys.requestList.head? = some (.leave id)) (atSa : stage (.leave id) = .atSa)
      (alone : Alone stage (some (.leave id))) (outcome : sys.outcome (.leave id) = some status)
      (recs : sys.Recs none) : CallOk sys stage (.leaveDone id node status)
  | leaveCb {id node : Nat} (own : node = sys.node id)
      (head : sys.requestList.head? = some (.leave id)) (calling : stage (.leave id) = .saCalling)
      (alone : Alone stage (some (.leave id))) (recs : sys.Recs none) :
      CallOk sys stage (.leaveCb id node)

/-- One thing is going on, or nothing. -/
inductive Active (sys : McastSys) (stage : McastReqId → McastStage) : Prop
  | quiet (ops : sys.saOps = []) (running : sys.running = []) (list : sys.requestList = [])
      (alone : Alone stage none) (recs : sys.Recs none)
  | atSa (op : SaOp) (ops : sys.saOps = [op]) (running : sys.running = [])
      (opOk : sys.OpOk stage op) (recs : sys.Recs none)
  | busy (call : McastCall) (ops : sys.saOps = []) (running : sys.running = [call])
      (callOk : sys.CallOk stage call)

/-- A close waits for the list to run empty, if it waits, and nothing comes after. -/
structure CloseOk (sys : McastSys) : Prop where
  closing : ∀ wait, sys.closing = some wait → wait = .waitEmpty
  pending : sys.closePending = true → sys.removed = true
  empty : sys.requestsListEmpty = true →
    sys.removed = true ∧ sys.requestList = [] ∧ sys.saOps = [] ∧ sys.running = []

/-- What guarded runs keep. -/
def Serial (sys : McastSys) : Prop :=
  ∃ stage, sys.Core stage ∧ sys.Active stage ∧ sys.CloseOk

/-- The requests are served one at a time, and each user is called back once with the status
and the context of the request. -/
structure McastSound (sys : McastSys) : Prop where
  oneAtSa : sys.saOps.length ≤ 1
  head : ∀ op ∈ sys.saOps, sys.requestList.head? = some op.req
  handedOnce : ∀ req, sys.handed req ≤ 1
  calledOnce : ∀ req, sys.accepted req = true → sys.cancelled req = false →
    sys.calls req = sys.due req ∨ sys.calls req = 0 ∧ req ∈ sys.requestList
  uncalled : ∀ req, sys.accepted req = false ∨ sys.cancelled req = true → sys.calls req = 0
  calledRight : ∀ call ∈ sys.userCalls, sys.outcome call.req = some call.status ∧
    call.context = (sys.joins call.req.id).context
  served : sys.requestList ≠ [] → sys.saOps ≠ [] ∨ sys.running ≠ []
  unstuck : ∀ op ∈ sys.saOps, ∀ status, (sys.next (.saDone op status)).isSome

/-- The conditions that the manager does not enforce: nobody finds the request list empty
while a call of the manager is in a callback, the last to leave a group with a callback is
the one whose join is on record, and the manager is closed with no call running and no join
waiting. -/
def McastCare (sys : McastSys) : McastEvent → Prop
  | .join _ _ _ _ | .leave _ _ _ => sys.requestList = [] → sys.running = []
  | .resume (.leaveDone id node _) _ =>
    (sys.joins id).leaveCb = true → (sys.nodes node).recContext = (sys.joins id).context
  | .close => sys.running = [] ∧ ∀ req ∈ sys.requestList, req = .leave req.id
  | _ => True

instance (sys : McastSys) (event : McastEvent) : Decidable (LawfulMcast sys event) := by
  unfold LawfulMcast
  split <;> infer_instance

instance (sys : McastSys) (event : McastEvent) : Decidable (sys.McastCare event) := by
  unfold McastCare
  split <;> infer_instance

theorem Staged.of_mem {stage : McastStage} (staged : sys.Staged req stage)
    (mem : req ∈ sys.requestList) : stage.listed = 1 := by
  have positive := List.count_pos_iff.mpr mem
  rw [staged.listed] at positive
  cases stage with
  | queued | atSa | saCalling => rfl
  | _ => exact absurd positive (Nat.lt_irrefl 0)

theorem Active.opOk {op : SaOp} (active : sys.Active stage) (mem : op ∈ sys.saOps) :
    sys.saOps = [op] ∧ sys.running = [] ∧ sys.OpOk stage op ∧ sys.Recs none := by
  cases active with
  | quiet ops => simp [ops] at mem
  | busy call ops => simp [ops] at mem
  | atSa current ops running opOk recs =>
    obtain rfl : op = current := by simpa [ops] using mem
    exact ⟨ops, running, opOk, recs⟩

theorem Serial.sound (serial : sys.Serial) : sys.McastSound := by
  obtain ⟨stage, core, active, -⟩ := serial
  constructor
  · cases active with
    | quiet ops => simp [ops]
    | atSa op ops => simp [ops]
    | busy call ops => simp [ops]
  · intro op mem
    exact (active.opOk mem).2.2.1.head
  · intro req
    have handed := (core.staged req).handed
    split at handed <;> omega
  · intro req accepted uncancelled
    have staged := core.staged req
    have calls := staged.calls
    have listed := staged.listed
    rw [staged.accepted] at accepted
    cases known : stage req with
    | fresh | refused => simp [known, McastStage.accepted] at accepted
    | cancelled =>
      have := staged.cancelled.mpr known
      simp [uncancelled] at this
    | saCalling | called =>
      left
      simpa [known, McastStage.calls] using calls
    | queued | atSa =>
      right
      constructor
      · simpa [known, McastStage.calls] using calls
      · apply List.count_pos_iff.mp
        rw [listed, known]
        exact Nat.one_pos
  · rintro req (unaccepted | cancelled)
    · have staged := core.staged req
      have calls := staged.calls
      rw [staged.accepted] at unaccepted
      cases known : stage req <;> simp_all [McastStage.accepted, McastStage.calls]
    · have calls := (core.staged req).calls
      rw [(core.staged req).cancelled.mp cancelled] at calls
      simpa [McastStage.calls] using calls
  · exact core.called
  · intro waiting
    cases active with
    | quiet _ _ list => exact absurd list waiting
    | atSa op ops => simp [ops]
    | busy call _ running => simp [running]
  · intro op mem status
    obtain ⟨rest, list⟩ := List.head?_eq_some_iff.mp (active.opOk mem).2.2.1.head
    obtain ⟨req, node⟩ := op
    cases req with
    | join id => simp [next, core.spinning, mem, saJoinDone, list]
    | leave id => simp [next, core.spinning, mem, saLeaveDone, list]

/-- What a step leaves alone that neither enqueues nor refuses. -/
def fixed (sys : McastSys) : List Nat × Bool × Bool × (Nat → Nat × Nat) :=
  (sys.mcastList, sys.removed, sys.spinning, fun id => ((sys.joins id).node, (sys.joins id).context))

theorem fixed_node (fixed : after.fixed = sys.fixed) (id : Nat) :
    after.node id = sys.node id ∧ (after.joins id).context = (sys.joins id).context := by
  simp only [McastSys.fixed, Prod.mk.injEq] at fixed
  simpa [McastSys.node] using congrFun fixed.2.2.2 id

/-- A stage that is not the new one of a request is one that another had before. -/
theorem stage_of_update {other : McastReqId} {value : McastStage}
    (known : update stage req further other = value) (apart : further ≠ value) :
    other ≠ req ∧ stage other = value := by
  have distinct : other ≠ req := by
    rintro rfl
    exact apart ((update_self ..).symm.trans known)
  exact ⟨distinct, (update_of_ne distinct ..).symm.trans known⟩

/-- One request comes further, perhaps with its callback. A join may become a member of its
group, a leave ends a membership. -/
theorem Core.step (core : sys.Core stage) (fixed : after.fixed = sys.fixed)
    (others : ∀ other, other ≠ req → after.view other = sys.view other)
    (own : after.Staged req further) (nodes : ∀ node, after.NodeOk node)
    (begins : stage req ≠ .fresh)
    (ends : further.waits = false ∨ further = .cancelled ∧ stage req = .queued)
    (grown : ∀ node, ∀ id ∈ after.members node, id ∈ sys.members node ∨
      req = .join id ∧ sys.node id = node ∧ node ∈ sys.mcastList ∧ further.waits = false)
    (kept : ∀ node, ∀ id ∈ sys.members node, id ∈ after.members node ∨ req = .leave id)
    (told : ∀ call ∈ after.userCalls,
      call ∈ sys.userCalls ∧ after.outcome call.req = sys.outcome call.req ∨
      call.req = req ∧ after.outcome req = some call.status ∧
        call.context = (sys.joins req.id).context ∧
        ∀ id, req = .join id → call.status = 0 → id ∈ after.members (sys.node id)) :
    after.Core (update stage req further) := by
  have keys := fixed_node fixed
  simp only [McastSys.fixed, Prod.mk.injEq] at fixed
  obtain ⟨mcastList, removed, spinning, -⟩ := fixed
  obtain ⟨notQueued, notFresh⟩ : further ≠ .queued ∧ further ≠ .fresh := by
    rcases ends with ended | ⟨rfl, -⟩
    · constructor <;> (rintro rfl; cases ended)
    · exact ⟨nofun, nofun⟩
  constructor
  · refine (Function.forall_update_iff _ after.Staged).mpr ⟨own, ?_⟩
    intro other distinct
    exact (core.staged other).congr (others other distinct)
  · exact nodes
  · intro node unknown
    rw [mcastList] at unknown
    apply List.eq_nil_iff_forall_not_mem.mpr
    intro id mem
    rcases grown node id mem with old | ⟨-, -, home, -⟩
    · rw [core.known node unknown] at old
      cases old
    · exact unknown home
  · intro id queued
    rw [(keys id).1, mcastList]
    exact core.homes id (stage_of_update queued notQueued).2
  · intro node id mem
    rw [(keys id).1]
    rcases grown node id mem with old | ⟨rfl, home, -, ended⟩
    · obtain ⟨home, waits⟩ := core.members node id old
      refine ⟨home, ?_⟩
      by_cases same : McastReqId.join id = req
      · subst same
        rw [update_self]
        rcases ends with ended | ⟨-, queued⟩
        · exact ended
        · rw [queued] at waits
          cases waits
      · rw [update_of_ne same]
        exact waits
    · rw [update_self]
      exact ⟨home, ended⟩
  · intro id queued
    obtain ⟨distinct, queued⟩ := stage_of_update queued notQueued
    rw [(keys id).1]
    rcases kept _ id (core.leaves id queued) with mem | left
    · exact mem
    · exact absurd left.symm distinct
  · intro call mem
    rw [(keys call.req.id).2]
    rcases told call mem with ⟨old, outcome⟩ | ⟨rfl, outcome, context, -⟩
    · rw [outcome]
      exact core.called call old
    · exact ⟨outcome, context⟩
  · intro stays call mem id isJoin success unleft
    rw [(keys id).1]
    obtain ⟨distinct, unleft⟩ := stage_of_update unleft notFresh
    rw [removed] at stays
    rcases told call mem with ⟨old, -⟩ | ⟨rfl, -, -, member⟩
    · rcases kept _ id (core.joined stays call old id isJoin success unleft) with mem | left
      · exact mem
      · exact absurd left.symm distinct
    · exact member id isJoin success
  · intro id fresh
    have unleft := core.paired id (stage_of_update fresh notFresh).2
    have notLeave : McastReqId.leave id ≠ req := by
      rintro rfl
      exact begins unleft
    rw [update_of_ne notLeave]
    exact unleft
  · rw [spinning]
    exact core.spinning

theorem view_eq (listed : after.requestList.count req = sys.requestList.count req)
    (accepted : after.accepted req = sys.accepted req)
    (cancelled : after.cancelled req = sys.cancelled req)
    (handed : after.handed req = sys.handed req) (calls : after.calls req = sys.calls req)
    (state : after.reqState req = sys.reqState req) (due : after.due req = sys.due req) :
    after.view req = sys.view req := by
  unfold view
  rw [listed, accepted, cancelled, handed, calls, state, due]

theorem Alone.begin {current : Option McastReqId} (alone : Alone stage current)
    (fits : current = none ∨ current = some req) :
    Alone (update stage req further) (some req) := by
  intro other isCurrent
  by_cases same : other = req
  · rw [same]
  · rw [update_of_ne same] at isCurrent
    rcases fits with rfl | rfl
    · cases alone other isCurrent
    · exact alone other isCurrent

theorem Alone.finish {current : Option McastReqId} (alone : Alone stage current)
    (fits : current = none ∨ current = some req) (finished : further.current = false) :
    Alone (update stage req further) none := by
  intro other isCurrent
  by_cases same : other = req
  · rw [same, update_self, finished] at isCurrent
    cases isCurrent
  · cases alone.begin fits other isCurrent
    exact absurd rfl same

@[simp] theorem setNode_nodes_self (sys : McastSys) (node : Nat) (change : McastNode → McastNode) :
    (sys.setNode node change).nodes node = change (sys.nodes node) :=
  update_self ..

theorem NodeOk.congr (ok : sys.NodeOk node) (nodes : after.nodes node = sys.nodes node)
    (members : after.members node = sys.members node) : after.NodeOk node := by
  constructor
  · rw [nodes, members, ok.connections]
  · rw [members]
    exact ok.nodup
  · rw [nodes, members]
    exact ok.state

theorem nodesOk_congr (ok : ∀ node, sys.NodeOk node)
    (same : (after.nodes, after.members) = (sys.nodes, sys.members)) (node : Nat) :
    after.NodeOk node := by
  simp only [Prod.mk.injEq] at same
  obtain ⟨nodes, members⟩ := same
  apply (ok node).congr
  · rw [nodes]
  · rw [members]

theorem NodeOk.idle (ok : sys.NodeOk node) (idle : (sys.nodes node).mcastState = .idle) :
    sys.members node = [] := by
  rcases ok.state with ⟨connected, -⟩ | ⟨-, none⟩
  · rw [idle] at connected
    cases connected
  · exact none

theorem NodeOk.connected {id : Nat} (ok : sys.NodeOk node) (member : id ∈ sys.members node) :
    (sys.nodes node).mcastState = .connected ∧ (sys.nodes node).hMcast = true := by
  rcases ok.state with ⟨connected, handle, -⟩ | ⟨-, none⟩
  · exact ⟨connected, handle⟩
  · rw [none] at member
    cases member

end McastSys
end WinOFED.Al
