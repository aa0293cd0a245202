import WinOFED.Al.McastProcess

/-! Runs of the multicast manager. -/
namespace WinOFED.Al
open Transition List Option McastSys
open Function (forall_update_iff update update_eq_self update_of_ne update_self)

namespace McastSys
variable {after sys : McastSys} {stage : McastReqId → McastStage} {req : McastReqId}
  {call : McastCall} {id node saStatus status : Nat} {ret : McastReturn} {op : SaOp}
  {joins : Nat → McastJoin}

/-- One group changes in what it does not need. -/
theorem nodesOk_setNode {changed : McastNode} (ok : ∀ node, sys.NodeOk node)
    (nodes : after.nodes = update sys.nodes node changed)
    (members : after.members = sys.members)
    (connections : changed.connections = (sys.nodes node).connections)
    (state : changed.mcastState = (sys.nodes node).mcastState)
    (hMcast : (sys.nodes node).mcastState = .connected → changed.hMcast = (sys.nodes node).hMcast)
    (other : Nat) : after.NodeOk other := by
  refine @nodesOk_update sys after node changed (sys.members node) ok nodes ?_ ?_ (ok node).nodup ?_ other
  · rw [members, update_eq_self]
  · rw [connections, (ok node).connections]
  · rcases (ok node).state with ⟨connected, handle, some⟩ | idle
    · left
      rw [state, hMcast connected]
      exact ⟨connected, handle, some⟩
    · right
      rw [state]
      exact idle

/-- The parts of a join request that others rely on. -/
def key (sys : McastSys) (id : Nat) : Nat × Nat × Bool :=
  ((sys.joins id).node, (sys.joins id).context, (sys.joins id).leaveCb)

theorem key_setJoin (sys : McastSys) (id : Nat) {change : McastJoin → McastJoin}
    (keeps : ∀ join, ((change join).node, (change join).context, (change join).leaveCb) =
      (join.node, join.context, join.leaveCb)) (other : Nat) :
    (sys.setJoin id change).key other = sys.key other :=
  setJoin_proj sys (fun join => (join.node, join.context, join.leaveCb)) (keeps _) other

theorem fixed_of_key (keys : ∀ id, after.key id = sys.key id)
    (same : (after.mcastList, after.removed, after.spinning) =
      (sys.mcastList, sys.removed, sys.spinning)) : after.fixed = sys.fixed := by
  simp only [Prod.mk.injEq] at same
  obtain ⟨list, removed, spinning⟩ := same
  have joins : (fun id => ((after.joins id).node, (after.joins id).context)) =
      fun id => ((sys.joins id).node, (sys.joins id).context) := by
    funext id
    have agree := keys id
    simp only [key, Prod.mk.injEq] at agree
    rw [agree.1, agree.2.1]
  unfold fixed
  rw [list, removed, spinning, joins]

theorem due_of_key (keys : ∀ id, after.key id = sys.key id) (req : McastReqId) :
    after.due req = sys.due req := by
  apply due_eq
  intro id
  have agree := keys id
  simp only [key, Prod.mk.injEq] at agree
  exact agree.2.2

/-- A call that was the only one running goes on under the lock. -/
theorem Active.callOk (active : sys.Active stage) (mem : call ∈ sys.running) :
    sys.saOps = [] ∧ sys.running = [call] ∧ sys.CallOk stage call := by
  cases active with
  | quiet _ running => simp [running] at mem
  | atSa op _ running => simp [running] at mem
  | busy current ops running callOk =>
    obtain rfl : call = current := by simpa [running] using mem
    exact ⟨ops, running, callOk⟩

theorem CloseOk.notEmpty (close : sys.CloseOk)
    (going : sys.removed = false ∨ sys.requestList ≠ [] ∨ sys.running ≠ []) :
    sys.requestsListEmpty = false := by
  by_contra empty
  rw [Bool.not_eq_false] at empty
  obtain ⟨removed, list, -, running⟩ := close.empty empty
  rcases going with stays | waiting | busy
  · cases stays.symm.trans removed
  · exact waiting list
  · exact busy running

theorem erase_running (running : sys.running = [call]) : sys.running.erase call = [] := by
  simp [running]

/-- A request that was called back is off the list. -/
theorem Core.erase_of_called (core : sys.Core stage) (called : stage req = .called) :
    sys.requestList = sys.requestList.erase req := by
  refine (erase_of_not_mem fun mem => ?_).symm
  have listed := (core.staged req).of_mem mem
  rw [called] at listed
  cases listed

section
variable (core : sys.Core stage) (close : sys.CloseOk) (ops : sys.saOps = [])
include core close ops

/-- A request that was called back is taken off the list and marked, and its group with it. -/
theorem Ready.mark {requestList : List McastReqId} {nodes : Nat → McastNode}
    {reqState : McastReqId → ReqState} {current : Option McastReqId} (running : sys.running = [call])
    (called : stage req = .saCalling ∨ stage req = .called) (alone : Alone stage current)
    (fits : current = none ∨ current = some req) (list : requestList = sys.requestList.erase req)
    (keys : ∀ id, { sys with joins }.key id = sys.key id)
    (states : ∀ other, other ≠ req → reqState other = sys.reqState other)
    (state : reqState req ≠ .scheduled) (ok : ∀ node, { sys with nodes }.NodeOk node)
    (recs : { sys with nodes }.Recs none) :
    { sys with requestList, joins, nodes, reqState, running := sys.running.erase call }.Ready
      (update stage req .called) := by
  have due := due_of_key (by exact keys)
  refine ⟨?_, ops, erase_running running, alone.finish fits rfl, recs, close.closing, close.pending,
    close.notEmpty (by simp [running])⟩
  refine core.step (fixed_of_key (by exact keys) rfl) ?_ ?_ (nodesOk_congr ok rfl) ?_ (.inl rfl)
    (fun _ _ => .inl) (fun _ _ => .inl) fun _ mem => .inl ⟨mem, rfl⟩
  · intro other distinct
    exact view_eq (by rw [list, count_erase_of_ne distinct]) rfl rfl rfl rfl
      (states other distinct) (due other)
  · have staged := core.staged req
    rcases called with called | called
    all_goals
      rw [called] at staged
      refine ⟨?_, staged.accepted, staged.cancelled.trans (by simp), staged.handed, ?_,
        fun scheduled => absurd scheduled state⟩
      · rw [list, count_erase_self, staged.listed]
        rfl
      · exact staged.calls.trans (congrArg (McastStage.called.calls * ·) (due req).symm)
  · rcases called with called | called
    all_goals
      rw [called]
      nofun

theorem Serial.resume_failed (running : sys.running = [.failed id .saCallback])
    (callOk : sys.CallOk stage (.failed id .saCallback)) (status : Nat) :
    (sys.resume (.failed id .saCallback) status).Serial := by
  obtain ⟨alone, idle, called, recs⟩ := callOk
  unfold resume
  refine @Ready.processNext (update stage (.join id) .called) _ _ ?_ (.inl rfl) status
  refine .mark core close ops running (.inr called) alone (.inl rfl) (core.erase_of_called called)
    ?_ ?_ ?_ ?_ ?_
  · exact @key_setJoin sys id (fun join => { join with cbFinished := true }) fun _ => rfl
  · intro other distinct
    exact update_of_ne distinct ..
  · simp [setState]
  · refine nodesOk_setNode core.nodes rfl rfl rfl rfl ?_
    intro connected
    cases idle.symm.trans connected
  · refine recs_update (fun _ _ => recs _) rfl fun connected => ?_
    cases idle.symm.trans connected

omit core close ops in
/-- After the callback of a request that did not come from the queue the list is empty. -/
theorem fits_of_empty (fits : ret ≠ .saCallback → sys.requestList = []) :
    ret = .saCallback ∨ sys.requestList = [] ∨ ∃ req, sys.requestList = [req] ∧
      ∀ id, req = .join id → sys.reqState req = .running ∧
        ∃ nodeAllocated, ret = .joinCall id nodeAllocated := by
  by_cases queue : ret = .saCallback
  · exact .inl queue
  · exact .inr (.inl (fits queue))

theorem Serial.resume_joined (running : sys.running = [.joined id ret])
    (callOk : sys.CallOk stage (.joined id ret)) (status : Nat) :
    (sys.resume (.joined id ret) status).Serial := by
  obtain - | ⟨alone, called, fits, recs⟩ := callOk
  unfold resume
  refine @Ready.processNext (update stage (.join id) .called) _ _ ?_ (by exact fits_of_empty fits) status
  refine .mark core close ops running (.inr called) alone (.inl rfl) (core.erase_of_called called)
    ?_ ?_ ?_ (nodesOk_setNode core.nodes rfl rfl rfl rfl fun _ => rfl)
    (recs_update (fun _ _ => recs _) rfl (recs _))
  · exact @key_setJoin sys id (fun join => { join with cbFinished := true }) fun _ => rfl
  · intro other distinct
    exact update_of_ne distinct ..
  · simp [setState]

/-- Nothing is left to do for a leave that was called back. -/
theorem Serial.resume_reduced (running : sys.running = [.reduced id ret])
    (callOk : sys.CallOk stage (.reduced id ret)) (status : Nat) :
    (sys.resume (.reduced id ret) status).Serial := by
  obtain - | - | ⟨alone, fits, recs⟩ := callOk
  unfold resume
  refine @Ready.processNext stage _ _ ?_ (by exact fits_of_empty fits) status
  refine ⟨?_, ops, erase_running running, alone, recs, close.closing, close.pending,
    close.notEmpty (by simp [running])⟩
  obtain ⟨staged, nodes, known, homes, members, leaves, called, joined, paired, spinning⟩ := core
  exact ⟨fun req => (staged req).congr rfl, nodesOk_congr nodes rfl, known, homes, members, leaves, called, joined, paired, spinning⟩

/-- The user is told how the join ended. -/
theorem Serial.resume_joinDone (running : sys.running = [.joinDone id node saStatus])
    (callOk : sys.CallOk stage (.joinDone id node saStatus)) (status : Nat) :
    (sys.resume (.joinDone id node saStatus) status).Serial := by
  obtain - | - | - | ⟨rfl, head, atSa, alone, outcome, home, member, idle, recs⟩ := callOk
  have staged := core.staged (.join id)
  rw [atSa] at staged
  have known := setNode_nodes_self sys (sys.node id) fun node =>
    { node with recContext := (sys.joins id).context, recStatus := saStatus }
  refine ⟨update stage (.join id) .saCalling, ?_, .busy _ ops
    (congrArg (McastCall.joinCb id (sys.node id) saStatus :: ·) (erase_running running)) ?_,
    close.keep (close.notEmpty (by simp [running])) rfl⟩
  · refine core.step rfl ?_ ⟨staged.listed, staged.accepted, ?_, staged.handed, ?_, staged.scheduled⟩
      (nodesOk_setNode core.nodes rfl rfl rfl rfl fun _ => rfl) (by rw [atSa]; nofun) (.inl rfl)
      (fun _ _ => .inl) (fun _ _ => .inl) ?_
    · intro other distinct
      exact view_eq rfl rfl rfl rfl (calls_callUser_of_ne sys distinct _ _) rfl rfl
    · exact staged.cancelled.trans (by simp)
    · exact (calls_callUser_self sys _ _ _).trans (by rw [staged.calls]; rfl)
    · intro call mem
      rcases mem_cons.mp mem with rfl | old
      · refine .inr ⟨rfl, outcome, rfl, ?_⟩
        rintro _ ⟨⟩ success
        exact member success
      · exact .inl ⟨old, rfl⟩
  · refine .joinCb rfl head (update_self ..) (alone.begin (.inr rfl)) home ?_ ?_
    · intro failed
      exact (congrArg McastNode.mcastState known).trans (idle failed)
    · refine recs_update ?_ rfl fun connected _ => ?_
      · intro other distinct connected _
        exact recs other connected fun own => distinct (some.inj own).symm
      · by_contra failed
        cases (idle failed).symm.trans connected

/-- The user is told that the group was left; the context is that on record. -/
theorem Serial.resume_leaveDone (running : sys.running = [.leaveDone id node saStatus])
    (callOk : sys.CallOk stage (.leaveDone id node saStatus))
    (care : (sys.joins id).leaveCb = true → (sys.nodes node).recContext = (sys.joins id).context)
    (status : Nat) : (sys.resume (.leaveDone id node saStatus) status).Serial := by
  obtain - | - | - | - | - | ⟨rfl, head, atSa, alone, outcome, recs⟩ := callOk
  have staged := core.staged (.leave id)
  rw [atSa] at staged
  have keys := @key_setJoin sys id (fun join => { join with reqDeregStatus := saStatus }) fun _ => rfl
  have nodeEq : (sys.resume (.leaveDone id (sys.node id) saStatus) status).node id = sys.node id :=
    congrArg Prod.fst (keys id)
  refine ⟨update stage (.leave id) .saCalling, ?_, .busy _ ops
    (congrArg (McastCall.leaveCb id (sys.node id) :: ·) (erase_running running)) ?_,
    close.keep (close.notEmpty (by simp [running])) rfl⟩
  · refine core.step (fixed_of_key (by exact keys) rfl) ?_
      ⟨staged.listed, staged.accepted, ?_, staged.handed, ?_, staged.scheduled⟩
      (nodesOk_congr core.nodes rfl)
      (by rw [atSa]; rintro ⟨⟩) (.inl rfl) (fun _ _ => .inl) (fun _ _ => .inl) ?_
    · intro other distinct
      exact view_eq rfl rfl rfl rfl (calls_callLeave_of_ne _ distinct _ _) rfl
        (due_of_key (by exact keys) other)
    · exact staged.cancelled.trans (by simp)
    · refine (calls_callLeave_self _ _ _ _).trans ?_
      refine (congrArg (· + (sys.resume (.leaveDone id (sys.node id) saStatus) status).due (.leave id))
        staged.calls).trans ?_
      simp [McastStage.calls]
    · intro call mem
      rcases mem_callLeave mem with ⟨rfl, cb⟩ | old
      · exact .inr ⟨rfl, outcome, care ((congrArg (·.2.2) (keys id)).symm.trans cb), by rintro _ ⟨⟩⟩
      · exact .inl ⟨old, rfl⟩
  · exact .leaveCb nodeEq.symm head (update_self ..) (alone.begin (.inr rfl)) recs

theorem Serial.resume_leaveCb (running : sys.running = [.leaveCb id node])
    (callOk : sys.CallOk stage (.leaveCb id node)) (status : Nat) :
    (sys.resume (.leaveCb id node) status).Serial := by
  obtain - | - | - | - | - | - | ⟨rfl, -, calling, alone, recs⟩ := callOk
  have staged := core.staged (.leave id)
  rw [calling] at staged
  unfold resume
  refine @Ready.processNext (update stage (.leave id) .called) _ _ ?_ (.inl rfl) status
  exact .mark core close ops running (.inl calling) alone (.inr rfl) rfl (fun _ => rfl)
    (fun _ _ => rfl) (fun scheduled => nomatch staged.scheduled scheduled)
    (nodesOk_setNode core.nodes rfl rfl rfl rfl fun _ => rfl)
    (recs_update (fun _ _ => recs _) rfl (recs _))

theorem Serial.resume_joinCb (running : sys.running = [.joinCb id node saStatus])
    (callOk : sys.CallOk stage (.joinCb id node saStatus)) (status : Nat) :
    (sys.resume (.joinCb id node saStatus) status).Serial := by
  obtain - | - | - | - | ⟨rfl, -, calling, alone, -, idle, recs⟩ := callOk
  have staged := core.staged (.join id)
  rw [calling] at staged
  have keys := @key_setJoin sys id (fun join => { join with cbFinished := true }) fun _ => rfl
  unfold resume
  refine @Ready.processNext (update stage (.join id) .called) _ _ ?_ (.inl rfl) status
  split
  case isTrue =>
    refine .mark core close ops running (.inl calling) alone (.inr rfl) rfl (by exact keys) ?_ ?_
      (nodesOk_setNode core.nodes rfl rfl rfl rfl fun _ => rfl)
      (recs_update (fun _ _ => recs _) rfl (recs _))
    · intro other distinct
      exact update_of_ne distinct ..
    · simp
  case isFalse failed =>
    refine .mark core close ops running (.inl calling) alone (.inr rfl) rfl (by exact keys)
      (fun _ _ => rfl) (fun scheduled => nomatch staged.scheduled scheduled)
      (nodesOk_setNode core.nodes rfl rfl rfl rfl ?_)
      (recs_update (fun _ _ => recs _) rfl ?_)
    all_goals
      intro connected
      cases (idle failed).symm.trans connected

end

/-- A call goes on. -/
theorem Serial.resume (serial : sys.Serial) (mem : call ∈ sys.running)
    (care : sys.McastCare (.resume call status)) : (sys.resume call status).Serial := by
  obtain ⟨stage, core, active, close⟩ := serial
  obtain ⟨ops, running, callOk⟩ := active.callOk mem
  cases call with
  | failed id ret =>
    obtain rfl : ret = .saCallback := by
      cases callOk
      rfl
    exact resume_failed core close ops running callOk status
  | joined id ret => exact resume_joined core close ops running callOk status
  | reduced id ret => exact resume_reduced core close ops running callOk status
  | joinDone id node saStatus => exact resume_joinDone core close ops running callOk status
  | joinCb id node saStatus => exact resume_joinCb core close ops running callOk status
  | leaveDone id node saStatus => exact resume_leaveDone core close ops running callOk care status
  | leaveCb id node => exact resume_leaveCb core close ops running callOk status

theorem OpOk.waiting (opOk : sys.OpOk stage op) : sys.requestList ≠ [] := by
  intro empty
  have head := opOk.head
  simp [empty] at head

theorem erase_ops (ops : sys.saOps = [op]) : sys.saOps.erase op = [] := by
  simp [ops]

/-- The SA has ended the request it had, which goes on to its callback. -/
theorem Core.saDone {saOps : List SaOp} {running : List McastCall} {nodes : Nat → McastNode}
    {members : Nat → List Nat} (core : sys.Core stage) (atSa : stage req = .atSa)
    (keys : ∀ id, { sys with joins }.key id = sys.key id)
    (ok : ∀ node, { sys with nodes, members }.NodeOk node)
    (grown : ∀ node, ∀ id ∈ members node, id ∈ sys.members node ∨
      req = .join id ∧ sys.node id = node ∧ node ∈ sys.mcastList ∧ McastStage.atSa.waits = false)
    (kept : ∀ node, ∀ id ∈ sys.members node, id ∈ members node ∨ req = .leave id) :
    { sys with
      saOps, running, nodes, members, joins
      reqState := update sys.reqState req .runningCb
      outcome := update sys.outcome req (some status) }.Core stage := by
  have staged := core.staged req
  rw [atSa] at staged
  have stays : update stage req .atSa = stage := by rw [← atSa, update_eq_self]
  rw [← stays]
  refine core.step (fixed_of_key (by exact keys) rfl) ?_
    ⟨staged.listed, staged.accepted, staged.cancelled, staged.handed, ?_, ?_⟩
    (nodesOk_congr ok rfl) (by rw [atSa]; nofun) (.inl rfl) grown kept ?_
  · intro other distinct
    exact view_eq rfl rfl rfl rfl rfl (update_of_ne distinct ..) (due_of_key (by exact keys) other)
  · exact staged.calls.trans (by simp [McastStage.calls])
  · simp
  · intro call mem
    exact .inl ⟨mem, update_of_ne (staged.uncalled rfl mem) ..⟩

/-- The SA has ended a join. -/
theorem Serial.endJoin (core : sys.Core stage) (close : sys.CloseOk)
    (ops : sys.saOps = [⟨.join id, sys.node id⟩]) (running : sys.running = [])
    (opOk : sys.OpOk stage ⟨.join id, sys.node id⟩) (recs : sys.Recs none) (status : Nat) :
    (sys.endJoin ⟨.join id, sys.node id⟩ id status).Serial := by
  obtain ⟨idle, handle⟩ := opOk.join id rfl
  have atSa : stage (.join id) = .atSa := opOk.atSa
  have none := (core.nodes _).idle idle
  have keys := @key_setJoin sys id (fun join => { join with reqRegStatus := status }) fun _ => rfl
  have notEmpty := close.notEmpty (.inr (.inl opOk.waiting))
  unfold McastSys.endJoin
  dsimp only
  split
  case isTrue success =>
    subst success
    refine ⟨stage, core.saDone atSa keys ?_ ?_ ?_, .busy _ (erase_ops ops)
      (congrArg (McastCall.joinDone id (sys.node id) 0 :: ·) running) ?_, close.keep notEmpty rfl⟩
    · refine nodesOk_update core.nodes rfl rfl ?_ ?_ (.inl ⟨rfl, handle, cons_ne_nil _ _⟩)
      · exact congrArg (· + 1) (core.nodes (sys.node id)).connections
      · exact (congrArg (List.Nodup <| id :: ·) none).mpr (nodup_singleton id)
    · intro node other mem
      rcases mem_cons_members.mp mem with old | ⟨rfl, rfl⟩
      · exact .inl old
      · exact .inr ⟨rfl, rfl, opOk.home, rfl⟩
    · intro node other mem
      exact .inl (mem_cons_members.mpr (.inl mem))
    · refine .joinDone (congrArg Prod.fst (keys id)).symm opOk.head atSa opOk.alone
        (update_self ..) opOk.home ?_ (absurd rfl) ?_
      · intro _
        simp [setMembers]
      · exact recs_update (fun node _ connected _ => recs node connected (by rintro ⟨⟩)) rfl
          fun _ apart => absurd rfl apart
  case isFalse failed =>
    refine ⟨stage, core.saDone atSa keys core.nodes (fun _ _ => .inl) fun _ _ => .inl,
      .busy _ (erase_ops ops) (congrArg (McastCall.joinDone id (sys.node id) status :: ·) running)
      ?_, close.keep notEmpty rfl⟩
    exact .joinDone (congrArg Prod.fst (keys id)).symm opOk.head atSa opOk.alone
      (update_self ..) opOk.home (fun success => absurd success failed) (fun _ => idle)
      fun node connected _ => recs node connected (by rintro ⟨⟩)

/-- The SA has ended a leave. -/
theorem Serial.endLeave (core : sys.Core stage) (close : sys.CloseOk)
    (ops : sys.saOps = [⟨.leave id, sys.node id⟩]) (running : sys.running = [])
    (opOk : sys.OpOk stage ⟨.leave id, sys.node id⟩) (recs : sys.Recs none) (status : Nat) :
    (sys.endLeave ⟨.leave id, sys.node id⟩ id status).Serial := by
  have only : sys.members (sys.node id) = [id] := opOk.leave id rfl
  have atSa : stage (.leave id) = .atSa := opOk.atSa
  have none : (sys.members (sys.node id)).erase id = [] := by simp [only]
  have notEmpty := close.notEmpty (.inr (.inl opOk.waiting))
  refine ⟨stage, core.saDone atSa (fun _ => rfl) ?_ ?_ ?_, .busy _ (erase_ops ops)
    (congrArg (McastCall.leaveDone id (sys.node id) status :: ·) running) ?_, close.keep notEmpty rfl⟩
  · refine @nodesOk_update sys _ (sys.node id) { sys.nodes (sys.node id) with
        mcastState := .idle, connections := (sys.nodes (sys.node id)).connections - 1 }
      ((sys.members (sys.node id)).erase id) core.nodes rfl rfl ?_ ?_ (.inr ⟨rfl, none⟩)
    · rw [none, (core.nodes (sys.node id)).connections, only]
      rfl
    · rw [none]
      exact nodup_nil
  · intro node other mem
    exact .inl (mem_erase_members mem)
  · intro node other mem
    exact mem_members_erase _ mem
  · exact .leaveDone rfl opOk.head atSa opOk.alone (update_self ..)
      (recs_update (fun _ _ => recs _) rfl nofun)

/-- The SA has ended the operation it had. -/
theorem Serial.saDone (serial : sys.Serial) (mem : op ∈ sys.saOps) (done : (match op.req with
      | .join _ => sys.saJoinDone op status
      | .leave _ => sys.saLeaveDone op status) = some after) : after.Serial := by
  obtain ⟨stage, core, active, close⟩ := serial
  obtain ⟨ops, running, opOk, recs⟩ := active.opOk mem
  obtain ⟨req, node⟩ := op
  obtain rfl : node = sys.node req.id := opOk.node
  obtain ⟨rest, list⟩ := head?_eq_some_iff.mp opOk.head
  cases req with
  | join id =>
    simp only [saJoinDone, list, some.injEq] at done
    subst done
    exact endJoin core close ops running opOk recs status
  | leave id =>
    simp only [saLeaveDone, list, some.injEq] at done
    subst done
    exact endLeave core close ops running opOk recs status

/-- What is going on is not touched by a step that keeps the current request first and adds
groups at most. -/
theorem Active.frame {stage' : McastReqId → McastStage} (active : sys.Active stage)
    (same : (after.saOps, after.running, after.members, after.outcome) =
      (sys.saOps, sys.running, sys.members, sys.outcome))
    (stages : ∀ req, stage' req = stage req ∨
      (stage req).current = false ∧ (stage' req).current = false ∧ stage req ≠ .called)
    (head : ∀ req, (stage req).current = true → sys.requestList.head? = some req →
      after.requestList.head? = some req) (empty : sys.requestList = [] → after.requestList = [])
    (keys : ∀ req, (stage req).waits = false → after.node req.id = sys.node req.id)
    (known : ∀ node ∈ sys.mcastList, node ∈ after.mcastList)
    (nodes : ∀ node, after.nodes node = sys.nodes node ∨
      node ∉ sys.mcastList ∧ (after.nodes node).mcastState = .idle) : after.Active stage' := by
  simp only [Prod.mk.injEq] at same
  obtain ⟨ops', running', members', outcome'⟩ := same
  have current req (isCurrent : (stage req).current = true) : stage' req = stage req := by
    rcases stages req with same | ⟨ended, -⟩
    · exact same
    · cases ended.symm.trans isCurrent
  have held {req : McastReqId} {value : McastStage} (known : stage req = value)
      (isCurrent : value.current = true) (first : sys.requestList.head? = some req) :
      after.requestList.head? = some req ∧ stage' req = value ∧ after.node req.id = sys.node req.id := by
    subst known
    refine ⟨head req isCurrent first, current req isCurrent, keys req ?_⟩
    cases known : stage req <;> simp_all [McastStage.current, McastStage.waits]
  have called req (isCalled : stage req = .called) : stage' req = .called := by
    rcases stages req with same | ⟨-, -, apart⟩
    · exact same.trans isCalled
    · exact absurd isCalled apart
  have recsKept {except : Option Nat} (recs : sys.Recs except) : after.Recs except := by
    intro node connected apart
    rcases nodes node with unchanged | ⟨-, idle⟩
    · rw [unchanged] at connected ⊢
      exact recs node connected apart
    · cases idle.symm.trans connected
  have aloneKept {req : Option McastReqId} (alone : Alone stage req) : Alone stage' req := by
    intro other isCurrent
    apply alone other
    rcases stages other with same | ⟨-, ended, -⟩
    · rw [← same]
      exact isCurrent
    · cases ended.symm.trans isCurrent
  have idleKept {node : Nat} (idle : (sys.nodes node).mcastState = .idle) :
      (after.nodes node).mcastState = .idle := by
    rcases nodes node with unchanged | ⟨-, idle⟩
    · rw [unchanged, idle]
    · exact idle
  have homeKept {node : Nat} (home : node ∈ sys.mcastList) : after.nodes node = sys.nodes node := by
    rcases nodes node with unchanged | ⟨unknown, -⟩
    · exact unchanged
    · exact absurd home unknown
  cases active with
  | quiet ops running list alone recs =>
    exact .quiet (ops'.trans ops) (running'.trans running) (empty list) (aloneKept alone) (recsKept recs)
  | atSa op ops running opOk recs =>
    obtain ⟨first, atSa, own⟩ := held opOk.atSa rfl opOk.head
    refine .atSa op (ops'.trans ops) (running'.trans running) ⟨first, atSa, aloneKept opOk.alone,
      opOk.node.trans own.symm, known _ opOk.home, ?_, ?_⟩ (recsKept recs)
    · rw [homeKept opOk.home]
      exact opOk.join
    · rw [members']
      exact opOk.leave
  | busy call ops running callOk =>
    refine .busy call (ops'.trans ops) (running'.trans running) ?_
    cases callOk with
    | @failed id alone idle isCalled recs =>
      have own : after.node id = sys.node id := keys (.join id) (by rw [isCalled]; rfl)
      refine .failed (aloneKept alone) ?_ (called _ isCalled) (recsKept recs)
      rw [own]
      exact idleKept idle
    | joined alone isCalled fits recs =>
      exact .joined (aloneKept alone) (called _ isCalled) (fun own => empty (fits own)) (recsKept recs)
    | reduced alone fits recs =>
      exact .reduced (aloneKept alone) (fun own => empty (fits own)) (recsKept recs)
    | joinDone own first atSa alone outcome home member idle recs =>
      obtain ⟨first, atSa, same⟩ := held atSa rfl first
      refine .joinDone (own.trans same.symm) first atSa (aloneKept alone) ?_ (known _ home) ?_
        (fun failed => idleKept (idle failed)) (recsKept recs)
      · rw [outcome']
        exact outcome
      · rw [members']
        exact member
    | joinCb own first calling alone home idle recs =>
      obtain ⟨first, calling, same⟩ := held calling rfl first
      exact .joinCb (own.trans same.symm) first calling (aloneKept alone) (known _ home)
        (fun failed => idleKept (idle failed)) (recsKept recs)
    | leaveDone own first atSa alone outcome recs =>
      obtain ⟨first, atSa, same⟩ := held atSa rfl first
      refine .leaveDone (own.trans same.symm) first atSa (aloneKept alone) ?_ (recsKept recs)
      rw [outcome']
      exact outcome
    | leaveCb own first calling alone recs =>
      obtain ⟨first, calling, same⟩ := held calling rfl first
      exact .leaveCb (own.trans same.symm) first calling (aloneKept alone) (recsKept recs)

theorem stages_update {further : McastStage} (idle : (stage req).current = false)
    (idle' : further.current = false) (uncalled : stage req ≠ .called) (other : McastReqId) :
    update stage req further other = stage other ∨ (stage other).current = false ∧
      (update stage req further other).current = false ∧ stage other ≠ .called := by
  by_cases same : other = req
  · subst same
    rw [update_self]
    exact .inr ⟨idle, idle', uncalled⟩
  · exact .inl (update_of_ne same ..)

theorem Staged.insertTail (staged : sys.Staged req .fresh) (state : ReqState) :
    (sys.insertTail req state).Staged req .queued := by
  constructor
  · have listed := staged.listed
    simp only [McastSys.insertTail, setState, count_append, listed, count_singleton_self]
    rfl
  · exact update_self ..
  · exact staged.cancelled.trans (by simp)
  · exact staged.handed
  · exact staged.calls
  · exact fun _ => rfl

theorem view_insertTail {other : McastReqId} (distinct : other ≠ req) (state : ReqState) :
    (sys.insertTail req state).view other = sys.view other := by
  refine view_eq ?_ (update_of_ne distinct ..) rfl rfl rfl (update_of_ne distinct ..) rfl
  simp [McastSys.insertTail, setState, count_append, Ne.symm distinct]

/-- A fresh request is queued: a join in a known group, or a leave of a member. -/
theorem Core.insertTail (core : sys.Core stage) (fresh : stage req = .fresh)
    (home : ∀ id, req = .join id → sys.node id ∈ sys.mcastList)
    (member : ∀ id, req = .leave id → id ∈ sys.members (sys.node id) ∧ stage (.join id) ≠ .fresh)
    (state : ReqState) : (sys.insertTail req state).Core (update stage req .queued) := by
  have staged := core.staged req
  rw [fresh] at staged
  constructor
  · refine (forall_update_iff _ (sys.insertTail req state).Staged).mpr ⟨staged.insertTail state, ?_⟩
    intro other distinct
    exact (core.staged other).congr (view_insertTail distinct state)
  · exact nodesOk_congr core.nodes rfl
  · exact core.known
  · intro id queued
    obtain ⟨same, -⟩ | ⟨-, old⟩ := update_cases queued
    · exact home id same.symm
    · exact core.homes id old
  · intro node id mem
    obtain ⟨known, waits⟩ := core.members node id mem
    refine ⟨known, ?_⟩
    have distinct : McastReqId.join id ≠ req := by
      rintro rfl
      rw [fresh] at waits
      cases waits
    rw [update_of_ne distinct]
    exact waits
  · intro id queued
    obtain ⟨same, -⟩ | ⟨-, old⟩ := update_cases queued
    · exact (member id same.symm).1
    · exact core.leaves id old
  · exact core.called
  · intro stays call mem id isJoin success unleft
    exact core.joined stays call mem id isJoin success (stage_of_update unleft nofun).2
  · intro id unjoined
    have unjoined := (stage_of_update unjoined nofun).2
    have notLeave : McastReqId.leave id ≠ req := by
      rintro rfl
      exact (member id rfl).2 unjoined
    rw [update_of_ne notLeave]
    exact core.paired id unjoined
  · exact core.spinning

/-- A fresh request is queued, and processed if the list was empty. -/
theorem Serial.schedule (core : sys.Core stage) (active : sys.Active stage) (close : sys.CloseOk)
    (stays : sys.removed = false) (fresh : stage req = .fresh)
    (home : ∀ id, req = .join id → sys.node id ∈ sys.mcastList)
    (member : ∀ id, req = .leave id → id ∈ sys.members (sys.node id) ∧ stage (.join id) ≠ .fresh)
    (care : sys.requestList = [] → sys.running = [])
    (fits : ∀ id, req = .join id → ∃ nodeAllocated, ret = .joinCall id nodeAllocated) (status : Nat) :
    (sys.schedule req ret status).Serial := by
  have notEmpty := close.notEmpty (.inl stays)
  unfold McastSys.schedule
  split
  case isTrue list =>
    cases active with
    | atSa op _ _ opOk => exact absurd list opOk.waiting
    | busy call _ running =>
      rw [care list] at running
      cases running
    | quiet ops running _ alone recs =>
      refine @Ready.processNext (update stage req .queued) _ _ ?_ ?_ status
      · exact ⟨core.insertTail fresh home member .running, ops, running, alone.finish (.inl rfl) rfl,
          recs, close.closing, close.pending, notEmpty⟩
      · refine .inr (.inr ⟨req, ?_, ?_⟩)
        · simp [McastSys.insertTail, setState, list]
        · intro id isJoin
          exact ⟨update_self .., fits id isJoin⟩
  case isFalse waiting =>
    refine ⟨_, core.insertTail fresh home member .scheduled, active.frame rfl ?_ ?_ ?_
      (fun _ _ => rfl) (fun _ known => known) fun _ => .inl rfl, close.keep notEmpty rfl⟩
    · exact stages_update (by rw [fresh]; rfl) rfl (by rw [fresh]; rintro ⟨⟩)
    · intro other _ head
      simp only [McastSys.insertTail, setState, head?_append, head, some_or]
    · exact fun empty => absurd empty waiting

theorem Staged.of_new {stage : McastStage} (staged : sys.Staged req stage) (new : sys.IsNew req) :
    stage = .fresh := by
  have accepted := staged.accepted.symm.trans new.1
  have waits := staged.scheduled new.2
  cases stage <;> simp_all [McastStage.accepted, McastStage.waits]

/-- Requests are filled in: one in use keeps its group and its context, and its leave, if in use,
whether it has a callback. -/
theorem Core.rejoin {waiting : List Nat} {removed closePending : Bool}
    {closing : Option McastClose} (core : sys.Core stage)
    (stays : removed = false → sys.removed = false)
    (kept : ∀ id, stage (.join id) ≠ .fresh →
      (joins id).node = sys.node id ∧ (joins id).context = (sys.joins id).context)
    (leaveCb : ∀ id, stage (.leave id) ≠ .fresh → (joins id).leaveCb = (sys.joins id).leaveCb) :
    { sys with joins, waiting, removed, closePending, closing }.Core stage := by
  have called call (mem : call ∈ sys.userCalls) : stage (.join call.req.id) ≠ .fresh := by
    intro fresh
    refine (core.staged call.req).uncalled ?_ mem rfl
    cases known : call.req with
    | join id =>
      rw [known] at fresh
      exact congrArg McastStage.calls fresh
    | leave id =>
      rw [known] at fresh
      exact congrArg McastStage.calls (core.paired id fresh)
  refine ⟨?_, nodesOk_congr core.nodes rfl, core.known, ?_, ?_, ?_, ?_, ?_, core.paired, core.spinning⟩
  · intro req
    have staged := core.staged req
    cases req with
    | join id => exact staged.congr rfl
    | leave id =>
      by_cases fresh : stage (.leave id) = .fresh
      -- A fresh leave was not called back, whether it is to be or not.
      · rw [fresh] at staged ⊢
        exact ⟨staged.listed, staged.accepted, staged.cancelled, staged.handed,
          staged.calls.trans (by simp [McastStage.calls]), staged.scheduled⟩
      · refine staged.congr (view_eq rfl rfl rfl rfl rfl rfl ?_)
        simp only [due, leaveCb id fresh]
  · intro id queued
    show (joins id).node ∈ sys.mcastList
    rw [(kept id (by rw [queued]; rintro ⟨⟩)).1]
    exact core.homes id queued
  · intro node id mem
    have member := core.members node id mem
    refine ⟨(kept id fun fresh => ?_).1.trans member.1, member.2⟩
    rw [fresh] at member
    cases member.2
  · intro id queued
    show id ∈ sys.members (joins id).node
    rw [(kept id fun fresh => by rw [core.paired id fresh] at queued; cases queued).1]
    exact core.leaves id queued
  · intro call mem
    rw [(kept _ (called call mem)).2]
    exact core.called call mem
  · intro still call mem id isJoin success unleft
    have used := called call mem
    rw [isJoin] at used
    show id ∈ sys.members (joins id).node
    rw [(kept id used).1]
    exact core.joined (stays still) call mem id isJoin success unleft

/-- A request is filled in whose leave was not used before, and keeps its group and its context
if the join was. -/
theorem Core.refill (core : sys.Core stage) (unleft : stage (.leave id) = .fresh) (join : McastJoin)
    (keeps : stage (.join id) = .fresh ∨ join.node = sys.node id ∧ join.context = (sys.joins id).context) :
    { sys with joins := update sys.joins id join }.Core stage := by
  refine core.rejoin (fun stays => stays) ?_ ?_
  · intro other used
    by_cases same : other = id
    · subst same
      rw [update_self]
      exact keeps.resolve_left used
    · rw [update_of_ne same]
      exact ⟨rfl, rfl⟩
  · intro other used
    rw [update_of_ne]
    rintro rfl
    exact used unleft

theorem Core.getMcastNode (core : sys.Core stage) (mgid : Nat) :
    (sys.getMcastNode mgid).Core stage ∧ mgid ∈ (sys.getMcastNode mgid).mcastList := by
  unfold McastSys.getMcastNode
  split
  case isTrue known => exact ⟨core, known⟩
  case isFalse unknown =>
    refine ⟨?_, mem_append_right _ mem_cons_self⟩
    have none := core.known mgid unknown
    obtain ⟨staged, nodes, known, homes, members, leaves, called, joined, paired, spinning⟩ := core
    refine ⟨fun req => (staged req).congr rfl, ?_, ?_, ?_, members, leaves, called, joined, paired,
      spinning⟩
    · refine @nodesOk_update sys _ mgid {} [] nodes rfl ?_ rfl nodup_nil (.inr ⟨rfl, rfl⟩)
      rw [← none, update_eq_self]
      rfl
    · intro node missing
      apply known node
      exact fun mem => missing (mem_append_left _ mem)
    · intro id queued
      exact mem_append_left _ (homes id queued)

/-- A new group changes nothing else. -/
theorem getMcastNode_eq (sys : McastSys) (mgid : Nat) : ∃ mcastList nodes,
    sys.getMcastNode mgid = { sys with mcastList, nodes } ∧ sys.mcastList ⊆ mcastList ∧
      ∀ node, nodes node = sys.nodes node ∨ node ∉ sys.mcastList ∧ (nodes node).mcastState = .idle := by
  unfold getMcastNode
  split
  · exact ⟨_, _, rfl, fun _ mem => mem, fun _ => .inl rfl⟩
  case isFalse unknown =>
    refine ⟨_, _, rfl, fun _ mem => mem_append_left _ mem, fun node => ?_⟩
    by_cases same : node = mgid
    · subst same
      exact .inr ⟨unknown, by rw [update_self]⟩
    · exact .inl (update_of_ne same ..)

/-- `mcast_mgr_join_mcast` keeps the order. -/
theorem Serial.joinMcast (serial : sys.Serial) (new : sys.IsNew (.join id))
    (care : sys.requestList = [] → sys.running = []) (mgid context status : Nat) :
    (sys.joinMcast id mgid context status).Serial := by
  unfold McastSys.joinMcast
  split
  case isTrue => exact serial
  case isFalse found =>
    obtain ⟨stage, core, active, close⟩ := serial
    have fresh := (core.staged (.join id)).of_new new
    have stays : sys.removed = false := by simpa using found
    have notEmpty := close.notEmpty (.inl stays)
    obtain ⟨allocated, home⟩ := core.getMcastNode mgid
    obtain ⟨mcastList, nodes, eq, known, others⟩ := getMcastNode_eq sys mgid
    rw [eq] at allocated home ⊢
    have filled := allocated.refill (core.paired id fresh) ⟨mgid, context, false, 0, 0, false⟩ (.inl fresh)
    have kept : { sys with
        mcastList, nodes, joins := update sys.joins id ⟨mgid, context, false, 0, 0, false⟩
        }.Active stage := by
      refine active.frame rfl (fun _ => .inl rfl) (fun _ _ head => head) (fun empty => empty) ?_
        known others
      intro req waits
      have distinct : req.id ≠ id := by
        intro same
        cases req with
        | join other =>
          rw [show other = id from same, fresh] at waits
          cases waits
        | leave other =>
          rw [show other = id from same, core.paired id fresh] at waits
          cases waits
      simp only [node, update_of_ne distinct]
    refine schedule filled kept (close.keep notEmpty rfl) stays fresh ?_ (by rintro _ ⟨⟩) care ?_ status
    · intro other isJoin
      cases isJoin
      simpa [node] using home
    · intro other isJoin
      cases isJoin
      exact ⟨_, rfl⟩

/-- `mcast_mgr_leave_mcast` keeps the order. -/
theorem Serial.leaveMcast {leaveCb : Bool} (serial : sys.Serial)
    (lawful : LawfulMcast sys (.leave id leaveCb status))
    (care : sys.requestList = [] → sys.running = []) :
    (sys.leaveMcast id leaveCb status).Serial := by
  obtain ⟨stage, core, active, close⟩ := serial
  obtain ⟨stays, new, call, mem, isJoin, success⟩ := lawful
  have fresh := (core.staged (.leave id)).of_new new
  have member := core.joined stays call mem id isJoin success fresh
  have notEmpty := close.notEmpty (.inl stays)
  have nodeEq := @setJoin_proj Nat sys id (fun join => { join with leaveCb := leaveCb })
    McastJoin.node rfl
  have kept : (sys.setJoin id fun join => { join with leaveCb := leaveCb }).Active stage :=
    active.frame rfl (fun _ => .inl rfl) (fun _ _ head => head)
      (fun empty => empty) (fun req _ => nodeEq req.id) (fun _ known => known) fun _ => .inl rfl
  have filled : (sys.setJoin id fun join => { join with leaveCb := leaveCb }).Core stage :=
    core.refill fresh _ (.inr ⟨rfl, rfl⟩)
  refine schedule filled kept (close.keep notEmpty rfl) stays fresh nofun ?_ care nofun status
  intro other same
  cases same
  constructor
  · rw [show (sys.setJoin id fun join => { join with leaveCb := leaveCb }).node id = sys.node id from
      nodeEq id]
    exact member
  · intro unjoined
    have waits := (core.members _ id member).2
    rw [unjoined] at waits
    cases waits

/-- Nothing changes that the requests and the groups rely on. -/
theorem Core.congr {waiting : List Nat} {removed closePending : Bool}
    {closing : Option McastClose} (core : sys.Core stage)
    (stays : removed = false → sys.removed = false)
    (keys : ∀ id, { sys with joins }.key id = sys.key id) :
    { sys with joins, waiting, removed, closePending, closing }.Core stage :=
  core.rejoin stays (fun id _ => ⟨congrArg Prod.fst (keys id), congrArg (·.2.1) (keys id)⟩)
    fun id _ => congrArg (·.2.2) (keys id)

theorem Active.congr {waiting : List Nat} {removed closePending : Bool}
    {closing : Option McastClose} (active : sys.Active stage)
    (keys : ∀ id, { sys with joins }.key id = sys.key id) :
    { sys with joins, waiting, removed, closePending, closing }.Active stage :=
  active.frame rfl (fun _ => .inl rfl) (fun _ _ head => head) (fun empty => empty)
    (fun req _ => congrArg Prod.fst (keys req.id)) (fun _ known => known) fun _ => .inl rfl

/-- A wait changes nothing of the requests. -/
theorem Serial.wait {waiting : List Nat} (serial : sys.Serial)
    (keys : ∀ id, { sys with joins }.key id = sys.key id) : { sys with joins, waiting }.Serial := by
  obtain ⟨stage, core, active, close⟩ := serial
  exact ⟨stage, core.congr id keys, active.congr keys, close.closing, close.pending, close.empty⟩

theorem head_erase {list : List McastReqId} {other : McastReqId} (distinct : other ≠ req)
    (head : list.head? = some other) : (list.erase req).head? = some other := by
  obtain ⟨rest, rfl⟩ := head?_eq_some_iff.mp head
  rw [erase_cons_tail (by simpa using distinct)]
  rfl

/-- `mcast_mgr_cancel_join` takes a request off that waits, or waits itself. -/
theorem Serial.cancelJoin (serial : sys.Serial) (lawful : LawfulMcast sys (.cancel id)) :
    (sys.cancelJoin id).Serial := by
  obtain ⟨stays, accepted, uncancelled⟩ := lawful
  unfold McastSys.cancelJoin
  split
  case h_1 scheduled =>
    obtain ⟨stage, core, active, close⟩ := serial
    have staged := core.staged (.join id)
    have queued : stage (.join id) = .queued := by
      have waits := staged.scheduled scheduled
      have known := staged.accepted.symm.trans accepted
      cases current : stage (.join id) with
      | queued => rfl
      | cancelled =>
        rw [staged.cancelled.mpr current] at uncancelled
        cases uncancelled
      | _ => simp_all [McastStage.waits, McastStage.accepted]
    rw [queued] at staged
    have notEmpty := close.notEmpty (.inl stays)
    refine ⟨update stage (.join id) .cancelled, ?_, active.frame rfl ?_ ?_ ?_
      (fun _ _ => rfl) (fun _ known => known) fun _ => .inl rfl, close.keep notEmpty rfl⟩
    · refine core.step rfl ?_ ⟨?_, staged.accepted, ?_, staged.handed, staged.calls, fun _ => rfl⟩
        (nodesOk_congr core.nodes rfl)
        (by rw [queued]; rintro ⟨⟩) (.inr ⟨rfl, queued⟩) (fun _ _ => .inl) (fun _ _ => .inl)
        fun _ mem => .inl ⟨mem, rfl⟩
      · intro other distinct
        exact view_eq (count_erase_of_ne distinct) rfl (update_of_ne distinct ..) rfl rfl rfl rfl
      · have listed := staged.listed
        simp only [count_erase_self, listed]
        rfl
      · simp
    · exact stages_update (by rw [queued]; rfl) rfl (by rw [queued]; rintro ⟨⟩)
    · intro other isCurrent head
      apply head_erase _ head
      rintro rfl
      rw [queued] at isCurrent
      cases isCurrent
    · intro empty
      simp [empty]
  case h_2 | h_3 => exact serial.wait fun _ => rfl
  case h_4 => exact serial

/-- A close that finds leaves only waits for them. -/
theorem closeScan_leaves (sys : McastSys) (list : List McastReqId)
    (leaves : ∀ req ∈ list, req = .leave req.id) (pending : Bool) :
    sys.closeScan pending list = if pending || !list.isEmpty then
      { sys with closePending := true, closing := some .waitEmpty } else sys.closeEnd := by
  induction list generalizing pending with
  | nil => simp [closeScan]
  | cons req rest ih =>
    obtain ⟨id, rfl⟩ : ∃ id, req = .leave id := ⟨_, leaves req mem_cons_self⟩
    rw [closeScan, ih (forall_mem_cons.mp leaves).2]
    simp

section
variable (serial : sys.Serial)
include serial

/-- The groups are freed when nothing is going on. -/
theorem Serial.closeEnd (removed : sys.removed = true) (list : sys.requestList = [])
    (running : sys.running = []) : sys.closeEnd.Serial := by
  obtain ⟨stage, core, active, close⟩ := serial
  have unqueued req : stage req ≠ .queued := by
    intro queued
    have listed := (core.staged req).listed
    rw [queued, list, count_nil] at listed
    cases listed
  cases active with
  | atSa op _ _ opOk => exact absurd list opOk.waiting
  | busy call _ busy =>
    rw [running] at busy
    cases busy
  | quiet ops _ _ alone recs =>
    refine ⟨stage, ⟨fun req => (core.staged req).congr rfl, fun node => ?_, fun _ _ => rfl,
      fun id queued => absurd queued (unqueued _), nofun, fun id queued => absurd queued (unqueued _),
      core.called, ?_, core.paired, core.spinning⟩, .quiet ops running list alone nofun,
      ⟨nofun, close.pending, close.empty⟩⟩
    · exact ⟨rfl, nodup_nil, .inr ⟨rfl, rfl⟩⟩
    · intro stays
      cases removed.symm.trans stays

/-- `mcast_mgr_close_port_mgr` begins. -/
theorem Serial.close (care : sys.McastCare .close) :
    ({ sys with removed := true }.closeScan false sys.requestList).Serial := by
  obtain ⟨running, leaves⟩ := care
  have removed : { sys with removed := true }.Serial := by
    obtain ⟨stage, core, active, close⟩ := serial
    refine ⟨stage, core.congr nofun fun _ => rfl, active.congr fun _ => rfl, close.closing,
      fun _ => rfl, fun empty => ⟨rfl, (close.empty empty).2⟩⟩
  rw [closeScan_leaves _ _ leaves]
  split
  case isTrue =>
    obtain ⟨stage, core, active, close⟩ := removed
    exact ⟨stage, core.congr nofun fun _ => rfl, active.congr fun _ => rfl,
      fun wait closing => (some.inj closing).symm, fun _ => rfl, close.empty⟩
  case isFalse pending =>
    have list : sys.requestList = [] := by simpa using pending
    exact removed.closeEnd rfl list running

/-- The wait of a close ends. -/
theorem Serial.closeResume (stepped : sys.closeResume = some after) : after.Serial := by
  have close : sys.CloseOk := by
    obtain ⟨-, -, -, close⟩ := serial
    exact close
  unfold McastSys.closeResume at stepped
  split at stepped
  case h_1 => cases stepped
  case h_2 closing => cases close.closing _ closing
  case h_3 =>
    simp only [ite_none_right_eq_some, some.injEq] at stepped
    obtain ⟨signalled, rfl⟩ := stepped
    obtain ⟨removed, list, -, running⟩ := close.empty signalled
    exact serial.closeEnd removed list running

/-- One event keeps the order. -/
theorem Serial.next {event : McastEvent} (lawful : LawfulMcast sys event)
    (care : sys.McastCare event) (stepped : sys.next event = some after) : after.Serial := by
  unfold McastSys.next at stepped
  split at stepped
  case isTrue => cases stepped
  case isFalse =>
    cases event with
    | join id mgid context status =>
      cases stepped
      exact serial.joinMcast lawful care mgid context status
    | leave id leaveCb status =>
      cases stepped
      exact serial.leaveMcast lawful care
    | cancel id =>
      cases stepped
      exact serial.cancelJoin lawful
    | cancelled id =>
      simp only [ite_none_right_eq_some, some.injEq] at stepped
      obtain ⟨-, rfl⟩ := stepped
      exact serial.wait (@key_setJoin sys id (fun join => { join with cbFinished := false }) fun _ => rfl)
    | saDone op status =>
      simp only [ite_none_right_eq_some] at stepped
      exact serial.saDone stepped.1 stepped.2
    | resume call status =>
      simp only [ite_none_right_eq_some, some.injEq] at stepped
      obtain ⟨mem, rfl⟩ := stepped
      exact serial.resume mem care
    | close =>
      simp only [ite_none_left_eq_some, some.injEq, Bool.not_eq_true] at stepped
      obtain ⟨-, rfl⟩ := stepped
      exact serial.close care
    | closeResume => exact serial.closeResume stepped

end
end McastSys

/-- Users keep to their part, and the conditions hold that the manager does not enforce. -/
def SerialCare (sys : McastSys) (event : McastEvent) : Prop :=
  LawfulMcast sys event ∧ sys.McastCare event

instance (sys : McastSys) (event : McastEvent) : Decidable (SerialCare sys event) :=
  inferInstanceAs (Decidable (_ ∧ _))

theorem McastSys.serial_initial : McastSys.initial.Serial := by
  refine ⟨fun _ => .fresh, ⟨fun req => ?_, fun node => ⟨rfl, nodup_nil, .inr ⟨rfl, rfl⟩⟩,
    fun _ _ => rfl, nofun, nofun, nofun, nofun, nofun, fun _ _ => rfl, rfl⟩,
    .quiet rfl rfl rfl nofun nofun, ⟨nofun, nofun, nofun⟩⟩
  exact ⟨rfl, rfl, by simp [initial], Nat.le_refl 0, by simp [calls, initial,
    McastStage.calls], fun _ => rfl⟩

/-- In a run that keeps to the conditions the requests are served one at a time and every
user is called back once, with the status and the context of the request. -/
theorem mcastSound_of_reachable {sys : McastSys} (reachable : mcastMachine.Reachable SerialCare sys) :
    sys.McastSound := by
  suffices serial : sys.Serial from serial.sound
  apply reachable.invariant
  · rintro _ rfl
    exact serial_initial
  · intro before event after serial care stepped
    exact serial.next care.1 care.2 stepped

/-- Two users join a group. The second leaves, then the first, while a third waits to join
again, which fails. -/
def orderedEvents : List McastEvent :=
  [.join 1 0 11 0, .saDone ⟨.join 1, 0⟩ 0, .resume (.joinDone 1 0 0) 0, .resume (.joinCb 1 0 0) 0,
   .join 2 0 12 0, .resume (.joined 2 (.joinCall 2 false)) 0,
   .leave 2 true 0, .resume (.reduced 2 .leaveCall) 0,
   .leave 1 true 0, .join 3 0 13 0, .saDone ⟨.leave 1, 0⟩ 0, .resume (.leaveDone 1 0 0) 0,
   .resume (.leaveCb 1 0) 7]

/-- All five requests end with one callback each, the last with its failure. -/
theorem orderedEvents_sound : ∃ sys,
    Machine.run McastSys.next .initial orderedEvents = some sys ∧
      sys.running = [.failed 3 .saCallback] ∧
      sys.userCalls = [⟨.join 3, 13, 7⟩, ⟨.leave 1, 11, 0⟩, ⟨.leave 2, 12, 0⟩, ⟨.join 2, 12, 0⟩,
        ⟨.join 1, 11, 0⟩] ∧ sys.McastSound := by
  have careful : Machine.Guarded McastSys.next SerialCare .initial orderedEvents := by
    decide +kernel
  obtain ⟨sys, ended, running, calls⟩ : ∃ sys,
      Machine.run McastSys.next .initial orderedEvents = some sys ∧
        (sys.running = [.failed 3 .saCallback] ∧ sys.userCalls = [⟨.join 3, 13, 7⟩,
          ⟨.leave 1, 11, 0⟩, ⟨.leave 2, 12, 0⟩, ⟨.join 2, 12, 0⟩, ⟨.join 1, 11, 0⟩]) :=
    Machine.run_of_any (by decide +kernel)
  have reached : mcastMachine.Reachable SerialCare sys := .run (.initial rfl) careful ended
  exact ⟨sys, ended, running, calls, mcastSound_of_reachable reached⟩

/-- Two users join a group, and leave in the order in which they came. -/
def crossedEvents : List McastEvent :=
  [.join 1 0 11 0, .saDone ⟨.join 1, 0⟩ 0, .resume (.joinDone 1 0 0) 0, .resume (.joinCb 1 0 0) 0,
   .join 2 0 12 0, .resume (.joined 2 (.joinCall 2 false)) 0,
   .leave 1 true 0, .resume (.reduced 1 .leaveCall) 0,
   .leave 2 true 0, .saDone ⟨.leave 2, 0⟩ 0, .resume (.leaveDone 2 0 0) 0]

/-- The second leave is called back with the context of the first join. -/
theorem crossedEvents_context : ∃ sys, mcastMachine.Reachable LawfulMcast sys ∧
    (sys.joins 2).context = 12 ∧ ⟨.leave 2, 11, 0⟩ ∈ sys.userCalls :=
  Machine.reaches_of_any rfl crossedEvents (by decide +kernel) (by decide +kernel)

/-- A join of another group comes while a user is told that the first group was joined
already. -/
def doubledEvents : List McastEvent :=
  [.join 1 0 11 0, .saDone ⟨.join 1, 0⟩ 0, .resume (.joinDone 1 0 0) 0, .resume (.joinCb 1 0 0) 0,
   .join 2 0 12 0, .join 3 1 13 0, .resume (.joined 2 (.joinCall 2 false)) 0]

/-- It is handed to the SA twice. -/
theorem doubledEvents_handed : ∃ sys, mcastMachine.Reachable LawfulMcast sys ∧
    sys.handed (.join 3) = 2 ∧ sys.saOps = [⟨.join 3, 1⟩, ⟨.join 3, 1⟩] :=
  Machine.reaches_of_any rfl doubledEvents (by decide +kernel) (by decide +kernel)

end WinOFED.Al
