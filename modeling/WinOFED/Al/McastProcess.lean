import WinOFED.Al.McastStage

/-! The next request of the multicast manager.

What `mcast_mgr_process_next_request` does with the lock held, from a state in which nothing
is going on: it starts a request, tells a user, or finds the list empty. -/
namespace WinOFED.Al
open List
open Function (update update_apply update_eq_self update_of_ne update_self)

namespace McastSys

/-- The lock is held, and the next request is to be looked at. -/
structure Ready (sys : McastSys) (stage : McastReqId → McastStage) : Prop where
  core : sys.Core stage
  ops : sys.saOps = []
  running : sys.running = []
  alone : Alone stage none
  recs : sys.Recs none
  closing : ∀ wait, sys.closing = some wait → wait = .waitEmpty
  pending : sys.closePending = true → sys.removed = true
  notEmpty : sys.requestsListEmpty = false

variable {stage : McastReqId → McastStage} {req : McastReqId} {sys after : McastSys}
  {node id other : Nat} {members : Nat → List Nat}

/-- A listed request waits for its turn. -/
theorem Ready.queued (ready : sys.Ready stage) (mem : req ∈ sys.requestList) : stage req = .queued := by
  have listed := (ready.core.staged req).of_mem mem
  have alone := ready.alone req
  cases known : stage req with
  | queued => rfl
  | atSa | saCalling =>
    rw [known] at alone
    cases alone rfl
  | _ => simp [known, McastStage.listed] at listed

theorem Ready.first (ready : sys.Ready stage) (head : sys.requestList.head? = some req) :
    stage req = .queued ∧ sys.Staged req .queued := by
  have queued := ready.queued (mem_of_mem_head? head)
  exact ⟨queued, queued ▸ ready.core.staged req⟩

/-- Nothing of a close is changed while something is going on. -/
theorem CloseOk.keep (close : sys.CloseOk) (notEmpty : sys.requestsListEmpty = false)
    (same : (after.closing, after.closePending, after.removed, after.requestsListEmpty) =
      (sys.closing, sys.closePending, sys.removed, sys.requestsListEmpty)) : after.CloseOk := by
  simp only [Prod.mk.injEq] at same
  obtain ⟨closing, pending, removed, empty⟩ := same
  constructor
  · rw [closing]
    exact close.closing
  · rw [pending, removed]
    exact close.pending
  · rw [empty, notEmpty]
    nofun

theorem Ready.closeOk (ready : sys.Ready stage)
    (same : (after.closing, after.closePending, after.removed, after.requestsListEmpty) =
      (sys.closing, sys.closePending, sys.removed, sys.requestsListEmpty)) : after.CloseOk := by
  apply CloseOk.keep ⟨ready.closing, ready.pending, ?_⟩ ready.notEmpty same
  rw [ready.notEmpty]
  nofun

/-- The list has run empty. -/
theorem Ready.rest (ready : sys.Ready stage) (list : sys.requestList = []) :
    { sys with requestsListEmpty := sys.requestsListEmpty || sys.closePending }.Serial := by
  obtain ⟨⟨staged, nodes, known, homes, members, leaves, called, joined, paired, spinning⟩, ops,
    running, alone, recs, closing, pending, notEmpty⟩ := ready
  refine ⟨stage, ⟨fun req => (staged req).congr rfl, nodesOk_congr nodes rfl, known, homes, members, leaves, called, joined, paired, spinning⟩,
    .quiet ops running list alone recs, closing, pending, ?_⟩
  intro empty
  simp only [notEmpty, Bool.false_or] at empty
  exact ⟨pending empty, list, ops, running⟩

/-- One group changes, with its members or without, and stays well formed. -/
theorem nodesOk_update {node : Nat} {changed : McastNode} {list : List Nat}
    (ok : ∀ node, sys.NodeOk node) (nodes : after.nodes = update sys.nodes node changed)
    (members : after.members = update sys.members node list)
    (connections : changed.connections = list.length) (nodup : list.Nodup)
    (state : (changed.mcastState = .connected ∧ changed.hMcast = true ∧ list ≠ []) ∨
      (changed.mcastState = .idle ∧ list = [])) (other : Nat) : after.NodeOk other := by
  by_cases same : other = node
  · subst same
    constructor
    · rw [nodes, members, update_self, update_self]
      exact connections
    · rw [members, update_self]
      exact nodup
    · rw [nodes, members, update_self, update_self]
      exact state
  · apply (ok other).congr
    · rw [nodes, update_of_ne same]
    · rw [members, update_of_ne same]

theorem recs_update {changed : McastNode} {except : Option Nat}
    (recs : ∀ other, other ≠ node → (sys.nodes other).mcastState = .connected →
      except ≠ some other → (sys.nodes other).recStatus = 0)
    (nodes : after.nodes = update sys.nodes node changed)
    (own : changed.mcastState = .connected → except ≠ some node → changed.recStatus = 0) :
    after.Recs except := by
  intro other connected apart
  rw [nodes] at connected ⊢
  rw [update_apply] at connected ⊢
  split_ifs at connected ⊢ with same
  · exact own connected (same ▸ apart)
  · exact recs other same connected apart

theorem Staged.uncalled {stage : McastStage} (staged : sys.Staged req stage)
    (none : stage.calls = 0) {call : UserCall} (mem : call ∈ sys.userCalls) : call.req ≠ req := by
  rintro rfl
  have calls := staged.calls
  rw [none, Nat.zero_mul] at calls
  simpa using countP_eq_zero.mp calls call mem

/-- The first request goes to the SA. -/
theorem Ready.start {nodes : Nat → McastNode} (ready : sys.Ready stage)
    (head : sys.requestList.head? = some req) (ok : ∀ node, { sys with nodes }.NodeOk node)
    (recs : { sys with nodes }.Recs none) (home : sys.node req.id ∈ sys.mcastList)
    (join : ∀ id, req = .join id → (nodes (sys.node req.id)).mcastState = .idle ∧
      (nodes (sys.node req.id)).hMcast = true)
    (leave : ∀ id, req = .leave id → sys.members (sys.node req.id) = [id]) :
    { (sys.hand req).setState req .running with
      nodes, saOps := ⟨req, sys.node req.id⟩ :: sys.saOps }.Serial := by
  obtain ⟨queued, staged⟩ := ready.first head
  have handed : sys.handed req = 0 := Nat.le_zero.mp staged.handed
  refine ⟨update stage req .atSa, ?_, .atSa ⟨req, sys.node req.id⟩
    (congrArg (_ :: ·) ready.ops) ready.running ⟨head, update_self ..,
      ready.alone.begin (.inl rfl), rfl, home, join, leave⟩ recs, ready.closeOk rfl⟩
  refine ready.core.step rfl ?_ ⟨staged.listed, staged.accepted, ?_, ?_, staged.calls, ?_⟩
    (nodesOk_congr ok rfl) (by rw [queued]; nofun) (.inl rfl) (fun _ _ => .inl) (fun _ _ => .inl)
    fun _ mem => .inl ⟨mem, rfl⟩
  · intro other distinct
    exact view_eq rfl rfl rfl (update_of_ne distinct ..) rfl (update_of_ne distinct ..) rfl
  · exact staged.cancelled.trans (by simp)
  · simp [setState, hand, handed, McastStage.waits]
  · simp [setState]

theorem Ready.startJoin (ready : sys.Ready stage) (head : sys.requestList.head? = some (.join id))
    (idle : (sys.nodes (sys.node id)).mcastState = .idle) : (sys.startJoin id).Serial := by
  have ok := ready.core.nodes (sys.node id)
  refine ready.start head (fun node => ?_) ?_ (ready.core.homes id (ready.first head).1) ?_ nofun
  · exact @nodesOk_update sys (sys.setNode _ fun node => { node with hMcast := true }) _ _ _
      ready.core.nodes rfl (update_eq_self ..).symm ok.connections ok.nodup
      (.inr ⟨idle, ok.idle idle⟩) node
  · refine recs_update (fun _ _ => ready.recs _) rfl fun connected => ?_
    cases idle.symm.trans connected
  · intro _ _
    simp [hand, setState, setNode, McastReqId.id, idle]

theorem calls_callUser_self (sys : McastSys) (req : McastReqId) (context status : Nat) :
    (sys.callUser req context status).calls req = sys.calls req + 1 := by
  simp [calls, callUser]

theorem calls_callUser_of_ne (sys : McastSys) {other : McastReqId} (distinct : other ≠ req)
    (context status : Nat) : (sys.callUser req context status).calls other = sys.calls other := by
  simp [calls, callUser, Ne.symm distinct]

/-- What a change of a join request leaves of it is left of all. -/
theorem setJoin_proj {α : Type} (sys : McastSys) {id : Nat} {change : McastJoin → McastJoin}
    (proj : McastJoin → α) (keeps : proj (change (sys.joins id)) = proj (sys.joins id)) (other : Nat) :
    proj ((sys.setJoin id change).joins other) = proj (sys.joins other) := by
  unfold setJoin
  by_cases same : other = id
  · subst same
    simpa using keeps
  · simp [update_of_ne same]

theorem due_eq (cb : ∀ id, (after.joins id).leaveCb = (sys.joins id).leaveCb) (req : McastReqId) :
    after.due req = sys.due req := by
  cases req with
  | join id => rfl
  | leave id => simp only [due, cb]

theorem Ready.startLeave (ready : sys.Ready stage) (head : sys.requestList.head? = some (.leave id))
    (last : (sys.nodes (sys.node id)).connections = 1) : (sys.startLeave id).Serial := by
  have member := ready.core.leaves id (ready.first head).1
  have ok := ready.core.nodes (sys.node id)
  have handle := (ok.connected member).2
  have only : sys.members (sys.node id) = [id] := by
    rw [ok.connections] at last
    obtain ⟨first, single⟩ := length_eq_one_iff.mp last
    rw [single, mem_singleton] at member
    rw [single, member]
  have home : sys.node id ∈ sys.mcastList := by
    by_contra unknown
    rw [ready.core.known _ unknown] at member
    cases member
  have started : sys.startLeave id = { (sys.hand (.leave id)).setState (.leave id) .running with
      saOps := ⟨.leave id, sys.node id⟩ :: sys.saOps } := by
    unfold McastSys.startLeave
    exact if_pos handle
  rw [started]
  refine ready.start head ready.core.nodes ready.recs home nofun ?_
  rintro _ ⟨⟩
  exact only

theorem Ready.failJoin {status : Nat} (ready : sys.Ready stage)
    (head : sys.requestList.head? = some (.join id))
    (idle : (sys.nodes (sys.node id)).mcastState = .idle) (failed : status ≠ 0) :
    (sys.failJoin id status .saCallback).Serial := by
  obtain ⟨queued, staged⟩ := ready.first head
  have handed : sys.handed (.join id) = 0 := Nat.le_zero.mp staged.handed
  refine ⟨update stage (.join id) .called, ?_, .busy _ ready.ops
    (congrArg (McastCall.failed id .saCallback :: ·) ready.running) ?_, ready.closeOk rfl⟩
  · refine ready.core.step rfl ?_ ⟨?_, staged.accepted, ?_, ?_, ?_, ?_⟩
      (nodesOk_congr ready.core.nodes rfl)
      (by rw [queued]; nofun) (.inl rfl) (fun _ _ => .inl) (fun _ _ => .inl) ?_
    · intro other distinct
      exact view_eq (count_erase_of_ne distinct) rfl rfl (update_of_ne distinct ..)
        (calls_callUser_of_ne sys distinct _ _) (update_of_ne distinct ..) rfl
    · have listed := staged.listed
      simp only [McastSys.failJoin, setOutcome, setState, hand, callUser, count_erase_self, listed]
      rfl
    · exact staged.cancelled.trans (by simp)
    · simp [McastSys.failJoin, setOutcome, setState, hand, callUser, handed, McastStage.waits]
    · exact (calls_callUser_self sys _ _ _).trans (by rw [staged.calls]; rfl)
    · simp [McastSys.failJoin, setOutcome, setState, callUser]
    · intro call mem
      rcases mem_cons.mp mem with rfl | old
      · exact .inr ⟨rfl, update_self .., rfl, fun _ _ success => absurd success failed⟩
      · exact .inl ⟨old, update_of_ne (staged.uncalled rfl old) ..⟩
  · exact .failed (ready.alone.finish (.inl rfl) rfl) idle (update_self ..) ready.recs

theorem erase_eq_nil_of_single {list : List McastReqId} (single : list = [req]) : list.erase req = [] := by
  simp [single]

/-- A new membership. -/
theorem mem_cons_members {home : Nat} :
    other ∈ update members home (id :: members home) node ↔
      other ∈ members node ∨ other = id ∧ node = home := by
  rw [update_apply]
  split_ifs with same
  · simp [same, or_comm]
  · simp [same]

theorem Ready.joinConnected {ret : McastReturn} (ready : sys.Ready stage)
    (head : sys.requestList.head? = some (.join id))
    (connected : (sys.nodes (sys.node id)).mcastState = .connected)
    (fits : ret ≠ .saCallback → sys.requestList = [.join id]) :
    (sys.joinConnected id ret).Serial := by
  obtain ⟨queued, staged⟩ := ready.first head
  have success : (sys.nodes (sys.node id)).recStatus = 0 := ready.recs _ connected nofun
  have ok := ready.core.nodes (sys.node id)
  have handle : (sys.nodes (sys.node id)).hMcast = true := by
    rcases ok.state with ⟨-, handle, -⟩ | ⟨idle, -⟩
    · exact handle
    · cases idle.symm.trans connected
  have new : id ∉ sys.members (sys.node id) := by
    intro member
    have waits := (ready.core.members _ id member).2
    rw [queued] at waits
    cases waits
  have nodes node : (sys.joinConnected id ret).NodeOk node :=
    @nodesOk_update sys (sys.joinConnected id ret) _
      { sys.nodes (sys.node id) with connections := (sys.nodes (sys.node id)).connections + 1 } _
      ready.core.nodes rfl rfl (congrArg (· + 1) ok.connections) (nodup_cons.mpr ⟨new, ok.nodup⟩)
      (.inl ⟨connected, handle, nofun⟩) node
  have members : (sys.joinConnected id ret).members =
      update sys.members (sys.node id) (id :: sys.members (sys.node id)) := rfl
  refine ⟨update stage (.join id) .called, ?_, .busy _ ready.ops
    (congrArg (McastCall.joined id ret :: ·) ready.running) ?_, ready.closeOk rfl⟩
  · refine ready.core.step rfl ?_ ⟨?_, staged.accepted, ?_, ?_, ?_, ?_⟩ nodes
      (by rw [queued]; nofun) (.inl rfl) ?_ ?_ ?_
    · intro other distinct
      exact view_eq (count_erase_of_ne distinct) rfl rfl rfl
        (calls_callUser_of_ne sys distinct _ _) (update_of_ne distinct ..) rfl
    · have listed := staged.listed
      simp only [McastSys.joinConnected, setOutcome, setState, setMembers, setNode, callUser,
        count_erase_self, listed]
      rfl
    · exact staged.cancelled.trans (by simp)
    · exact Nat.le_trans staged.handed (Nat.zero_le _)
    · exact (calls_callUser_self sys _ _ _).trans (by rw [staged.calls]; rfl)
    · simp [McastSys.joinConnected, setOutcome, setState, callUser]
    · intro node other mem
      rcases mem_cons_members.mp mem with old | ⟨rfl, rfl⟩
      · exact .inl old
      · exact .inr ⟨rfl, rfl, ready.core.homes _ queued, rfl⟩
    · intro node other mem
      exact .inl (mem_cons_members.mpr (.inl mem))
    · intro call mem
      rcases mem_cons.mp mem with rfl | old
      · refine .inr ⟨rfl, (update_self ..).trans (congrArg some success.symm), rfl, ?_⟩
        rintro _ ⟨⟩ -
        rw [members, update_self]
        exact mem_cons_self
      · exact .inl ⟨old, update_of_ne (staged.uncalled rfl old) ..⟩
  · refine .joined (ready.alone.finish (.inl rfl) rfl) (update_self ..) ?_ ?_
    · intro own
      exact erase_eq_nil_of_single (fits own)
    · exact recs_update (fun _ _ => ready.recs _) rfl fun _ _ => success

theorem mem_callLeave {context status : Nat} {call : UserCall}
    (mem : call ∈ (sys.callLeave id context status).userCalls) :
    call = ⟨.leave id, context, status⟩ ∧ (sys.joins id).leaveCb = true ∨ call ∈ sys.userCalls := by
  simp only [callLeave] at mem
  split at mem
  case isTrue cb =>
    rcases mem_cons.mp mem with new | old
    · exact .inl ⟨new, cb⟩
    · exact .inr old
  case isFalse => exact .inr mem

theorem calls_callLeave_self (sys : McastSys) (id context status : Nat) :
    (sys.callLeave id context status).calls (.leave id) = sys.calls (.leave id) + sys.due (.leave id) := by
  unfold callLeave calls due
  dsimp only
  split
  case isTrue => simp
  case isFalse => rfl

theorem calls_callLeave_of_ne (sys : McastSys) {other : McastReqId} (distinct : other ≠ .leave id)
    (context status : Nat) : (sys.callLeave id context status).calls other = sys.calls other := by
  unfold callLeave calls
  dsimp only
  split
  case isTrue => simp [Ne.symm distinct]
  case isFalse => rfl

/-- The end of a membership. -/
theorem mem_erase_members {left : Nat}
    (mem : other ∈ update members left ((members left).erase id) node) :
    other ∈ members node := by
  rw [update_apply] at mem
  split_ifs at mem with same
  · exact same ▸ mem_of_mem_erase mem
  · exact mem

theorem mem_members_erase (left : Nat) (mem : other ∈ members node) :
    other ∈ update members left ((members left).erase id) node ∨ McastReqId.leave id = .leave other := by
  by_cases own : other = id
  · exact .inr (congrArg _ own.symm)
  · left
    rw [update_apply]
    split_ifs with same
    · exact (mem_erase_of_ne own).mpr (same ▸ mem)
    · exact mem

theorem Ready.reduceLeave {ret : McastReturn} (ready : sys.Ready stage)
    (head : sys.requestList.head? = some (.leave id))
    (others : (sys.nodes (sys.node id)).connections ≠ 1)
    (fits : ret ≠ .saCallback → sys.requestList = [.leave id]) :
    (sys.reduceLeave id ret).Serial := by
  obtain ⟨queued, staged⟩ := ready.first head
  have member := ready.core.leaves id queued
  have ok := ready.core.nodes (sys.node id)
  have connected := ok.connected member
  have keeps {α : Type} (proj : McastJoin → α)
      (same : ∀ join : McastJoin, proj { join with reqDeregStatus := 0 } = proj join) (other : Nat) :
      proj ((sys.reduceLeave id ret).joins other) = proj (sys.joins other) :=
    @setJoin_proj α sys id (fun join => { join with reqDeregStatus := 0 }) proj (same _) other
  have fixed : (sys.reduceLeave id ret).fixed = sys.fixed := by
    unfold McastSys.fixed
    rw [Prod.mk.injEq, Prod.mk.injEq, Prod.mk.injEq]
    exact ⟨rfl, rfl, rfl, funext (keeps (fun join => (join.node, join.context)) fun _ => rfl)⟩
  have due := due_eq (keeps McastJoin.leaveCb fun _ => rfl)
  have remain : (sys.members (sys.node id)).erase id ≠ [] := by
    intro none
    have length := length_erase_of_mem member
    have positive := length_pos_of_mem member
    rw [none, length_nil] at length
    rw [ok.connections] at others
    omega
  have nodes node : (sys.reduceLeave id ret).NodeOk node := by
    refine @nodesOk_update sys (sys.reduceLeave id ret) _
      { sys.nodes (sys.node id) with
        connections := (sys.nodes (sys.node id)).connections - 1,
        connectedReqList := (sys.nodes (sys.node id)).connectedReqList.erase id }
      ((sys.members (sys.node id)).erase id) ready.core.nodes rfl rfl ?_ (ok.nodup.erase id)
      (.inl ⟨connected.1, connected.2, remain⟩) node
    rw [length_erase_of_mem member, ← ok.connections]
  refine ⟨update stage (.leave id) .called, ?_, .busy _ ready.ops
    (congrArg (McastCall.reduced id ret :: ·) ready.running) ?_, ready.closeOk rfl⟩
  · refine ready.core.step fixed ?_ ⟨?_, staged.accepted, ?_, ?_, ?_, ?_⟩ nodes
      (by rw [queued]; rintro ⟨⟩) (.inl rfl) ?_ ?_ ?_
    · intro other distinct
      exact view_eq (count_erase_of_ne distinct) rfl rfl rfl
        (calls_callLeave_of_ne _ distinct _ _) (update_of_ne distinct ..) (due other)
    · have listed := staged.listed
      simp only [McastSys.reduceLeave, setJoin, setOutcome, setState, setMembers, setNode, callLeave,
        count_erase_self, listed]
      rfl
    · exact staged.cancelled.trans (by simp)
    · exact Nat.le_trans staged.handed (Nat.zero_le _)
    · refine (calls_callLeave_self _ _ _ _).trans ?_
      refine (congrArg (· + (sys.reduceLeave id ret).due (.leave id)) staged.calls).trans ?_
      simp [McastStage.calls]
    · simp [McastSys.reduceLeave, setOutcome, setState, setJoin, callLeave]
    · intro node other mem
      exact .inl (mem_erase_members mem)
    · intro node other mem
      exact mem_members_erase _ mem
    · intro call mem
      rcases mem_callLeave mem with ⟨rfl, -⟩ | old
      · exact .inr ⟨rfl, update_self .., keeps McastJoin.context (fun _ => rfl) id, by rintro _ ⟨⟩⟩
      · exact .inl ⟨old, update_of_ne (staged.uncalled rfl old) ..⟩
  · refine .reduced (ready.alone.finish (.inl rfl) rfl) ?_ ?_
    · intro own
      exact erase_eq_nil_of_single (fits own)
    · exact recs_update (fun _ _ => ready.recs _) rfl fun _ => ready.recs _ connected.1

/-- A group that nobody has joined or waits for is forgotten. -/
theorem Core.forget {list : List Nat} (core : sys.Core stage)
    (shorter : ∀ node ∈ sys.mcastList, node ∉ list → sys.members node = [])
    (none : ∀ req, stage req ≠ .queued) : { sys with mcastList := list }.Core stage := by
  obtain ⟨staged, nodes, known, -, members, leaves, called, joined, paired, spinning⟩ := core
  refine ⟨fun req => (staged req).congr rfl, nodesOk_congr nodes rfl, ?_, fun id queued => absurd queued (none _), members, leaves, called,
    joined, paired, spinning⟩
  intro node unknown
  by_cases mem : node ∈ sys.mcastList
  · exact shorter node mem unknown
  · exact known node mem

theorem Ready.refuse
    (ready : sys.Ready stage) (list : sys.requestList = [.join id])
    (state : sys.reqState (.join id) = .running)
    (idle : (sys.nodes (sys.node id)).mcastState = .idle) (nodeAllocated : Bool) :
    ((sys.hand (.join id)).refuse (.joinCall id nodeAllocated)).Serial := by
  obtain ⟨queued, staged⟩ : _ ∧ sys.Staged (.join id) .queued := ready.first (by simp [list])
  have handed : sys.handed (.join id) = 0 := Nat.le_zero.mp staged.handed
  have empty := erase_eq_nil_of_single list
  have ok := ready.core.nodes (sys.node id)
  have core : { ((sys.hand (.join id)).setAccepted (.join id) false).setNode (sys.node id) fun node =>
        { node with connectedReqList := node.connectedReqList.erase id } with
      requestList := sys.requestList.erase (.join id) }.Core (update stage (.join id) .refused) := by
    refine ready.core.step rfl ?_ ⟨?_, ?_, ?_, ?_, staged.calls, ?_⟩
      (nodesOk_update ready.core.nodes rfl (update_eq_self _ _).symm ok.connections ok.nodup ok.state)
      (by rw [queued]; nofun) (.inl rfl) (fun _ _ => .inl) (fun _ _ => .inl)
      fun _ mem => .inl ⟨mem, rfl⟩
    · intro other distinct
      exact view_eq (count_erase_of_ne distinct) (update_of_ne distinct ..) rfl
        (update_of_ne distinct ..) rfl rfl rfl
    · simp only [empty]
      rfl
    · exact update_self ..
    · exact staged.cancelled.trans (by simp)
    · simp [setNode, setAccepted, hand, handed, McastStage.waits]
    · intro scheduled
      cases state.symm.trans scheduled
  have unqueued req : update stage (.join id) .refused req ≠ .queued := by
    by_cases same : req = .join id
    · rw [same, update_self]
      nofun
    · rw [update_of_ne same]
      intro waits
      have listed := (ready.core.staged req).listed
      rw [waits, list, count_cons_of_ne (Ne.symm same), count_nil] at listed
      cases listed
  have shorter : ∀ node ∈ sys.mcastList, node ∉
      (if nodeAllocated then sys.mcastList.erase (sys.node id) else sys.mcastList) →
        sys.members node = [] := by
    intro node mem gone
    split at gone
    case isTrue =>
      have same : node = sys.node id := by
        by_contra distinct
        exact gone ((mem_erase_of_ne distinct).mpr mem)
      rw [same]
      exact (ready.core.nodes _).idle idle
    case isFalse => exact absurd mem gone
  exact ⟨_, core.forget shorter unqueued, .quiet ready.ops ready.running empty (ready.alone.finish (.inl rfl) rfl)
    (recs_update (fun _ _ => ready.recs _) rfl (ready.recs _)), ready.closeOk rfl⟩

/-- The next request is looked at. -/
theorem Ready.processNext {ret : McastReturn}
    (ready : sys.Ready stage)
    (fits : ret = .saCallback ∨ sys.requestList = [] ∨ ∃ req, sys.requestList = [req] ∧
      ∀ id, req = .join id → sys.reqState req = .running ∧
        ∃ nodeAllocated, ret = .joinCall id nodeAllocated) (status : Nat) :
    (sys.processNext ret status).Serial := by
  unfold McastSys.processNext
  cases list : sys.requestList with
  | nil => simpa only [list] using ready.rest list
  | cons req rest =>
    have single (own : ret ≠ .saCallback) : sys.requestList = [req] ∧
        ∀ id, req = .join id → sys.reqState req = .running ∧
          ∃ nodeAllocated, ret = .joinCall id nodeAllocated := by
      rcases fits with queue | empty | ⟨only, single, known⟩
      · exact absurd queue own
      · rw [list] at empty
        cases empty
      · obtain ⟨rfl, rfl⟩ : req = only ∧ rest = [] := by simpa [list] using single
        exact ⟨list, known⟩
    have head : sys.requestList.head? = some req := by rw [list]; rfl
    cases req with
    | join id =>
      have ok := ready.core.nodes (sys.node id)
      dsimp only
      rcases ok.state with ⟨connected, -⟩ | ⟨idle, -⟩
      · simp only [connected]
        exact ready.joinConnected head connected fun own => (single own).1
      · simp only [idle]
        split
        case isTrue => exact ready.startJoin head idle
        case isFalse failed =>
          split
          case isTrue queue =>
            subst queue
            exact ready.failJoin head idle failed
          case isFalse own =>
            obtain ⟨only, known⟩ := single own
            obtain ⟨state, nodeAllocated, rfl⟩ := known id rfl
            exact ready.refuse only state idle nodeAllocated
    | leave id =>
      have queued := ready.queued (mem_of_mem_head? head)
      have connected := ((ready.core.nodes _).connected (ready.core.leaves id queued)).1
      dsimp only
      simp only [connected]
      split
      case isTrue last => exact ready.startLeave head last
      case isFalse others => exact ready.reduceLeave head others fun own => (single own).1

end McastSys
end WinOFED.Al
