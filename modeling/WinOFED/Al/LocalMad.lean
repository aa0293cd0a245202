import WinOFED.Al.SmaCache

/-! The work requests that a special QP does not send.

They are discarded, looped back, answered by the service, or forwarded to the adapter by the
asynchronous processing thread. Each call that may fail is an input of the model. -/
namespace WinOFED.Al

/-- What is done for a work request. -/
inductive LocalAct
  /-- `ib_get_mad` gives an element. -/
  | getMad
  | putMad
  | recvDone (accepted : Bool)
  /-- `__complete_send_mad`. -/
  | sendDone
  | pnpPoll
  /-- `local_mad_wr` becomes null. -/
  | clearWr
  | resumeSends
  /-- `in_use_cnt` is decremented. -/
  | release
deriving DecidableEq, Repr

/-- What the functions return to `local_mad_send`. -/
inductive LocalStatus
  | success | notDone | error
deriving DecidableEq, Repr

/-- The MADs that `local_mad_send` tells apart. -/
inductive LocalMad
  | discard
  | loopback
  /-- A packet of the two subnet management classes. -/
  | subn (smp : Smp)
  /-- A MAD of another class. -/
  | other (isSet : Bool)

def LocalMad.isSet : LocalMad → Bool
  | .subn smp => smp.method = .set
  | .other isSet => isSet
  | .discard | .loopback => false

/-- What a sender expects, and which calls succeed. -/
structure LocalCalls where
  respExpected : Bool
  /-- `ib_get_mad`. -/
  pool : Bool
  /-- `al_local_mad`. -/
  localMad : Bool
  /-- `mad_disp_recv_done`. -/
  recvDone : Bool

/-- What is done, and the status. -/
abbrev LocalRun := List LocalAct × LocalStatus

namespace LocalCalls
variable (calls : LocalCalls) (svc : SplQpSvc)

/-- `get_resp_mad`, and what follows if it succeeds. -/
def getRespMad (rest : LocalRun) : LocalRun :=
  if calls.pool then (.getMad :: rest.1, rest.2) else ([.sendDone], .error)

def completeLocalMad : LocalRun :=
  ([.recvDone calls.recvDone, .sendDone], if calls.recvDone then .success else .error)

/-- The end of `loopback_mad` is that of `complete_local_mad`. -/
def loopbackMad : LocalRun := calls.getRespMad calls.completeLocalMad

/-- The two attributes that the service knows can only be read. -/
def processNode (smp : Smp) : LocalRun :=
  if smp.method ≠ .get then ([.sendDone], .error) else calls.getRespMad calls.completeLocalMad

def processNodeInfo (smp : Smp) : LocalRun := calls.processNode smp

def processNodeDesc (smp : Smp) : LocalRun := calls.processNode smp

/-- The calls with which `__process_subn_mad` comes to an outcome. -/
def processSubn (smp : Smp) (outcome : SubnOutcome) : LocalRun :=
  match outcome, smp.attrId with
  | .notDone, _ => ([], .notDone)
  | .completed, .nodeInfo => calls.processNodeInfo smp
  | .completed, .nodeDesc => calls.processNodeDesc smp
  | _, _ => calls.getRespMad calls.completeLocalMad

def fwdLocalMad (isSet : Bool) : LocalRun :=
  -- There is no need to look for changes after a Get.
  let status : LocalStatus := if isSet then .success else .notDone
  if calls.respExpected then
    calls.getRespMad <|
      if calls.localMad = false then ([.putMad, .sendDone], .error)
      else if calls.recvDone then ([.recvDone true, .sendDone], status)
      else ([.recvDone false, .putMad, .sendDone], .error)
  else ([.sendDone], if calls.localMad then status else .error)

def sendLocalMadCb (isSet : Bool) : List LocalAct :=
  let (acts, status) := calls.fwdLocalMad isSet
  acts ++ (if status = .success then [.pnpPoll] else []) ++ [.clearWr, .resumeSends, .release]

/-- The end of `local_mad_send`, with the item that it queues for the thread. -/
def finish (isSet : Bool) (run : LocalRun) : List LocalAct :=
  run.1 ++ if run.2 = .notDone then calls.sendLocalMadCb isSet else [.clearWr, .release]

/-- `local_mad_send`, with the thread that follows it. -/
def localMadSend (mad : LocalMad) : List LocalAct :=
  calls.finish mad.isSet <|
    match mad with
    | .discard => ([.sendDone], .error)
    | .loopback => calls.loopbackMad
    | .subn smp => calls.processSubn smp (svc.processSubnMad smp calls.pool).2
    | .other _ => ([], .notDone)

end LocalCalls

/-- One completion, after it one release of the service, and an element that was taken is
accepted by the dispatcher or goes back to the pool. -/
structure Conserves (acts : List LocalAct) : Prop where
  once : acts.filter (· matches .sendDone | .clearWr | .release) = [.sendDone, .clearWr, .release]
  element : acts.filter (· matches .getMad | .putMad | .recvDone true) ∈
    [[], [.getMad, .putMad], [.getMad, .recvDone true]]

instance (acts : List LocalAct) : Decidable (Conserves acts) :=
  decidable_of_iff (_ ∧ _) ⟨fun ⟨once, element⟩ => ⟨once, element⟩, fun ⟨once, element⟩ => ⟨once, element⟩⟩

/-- The outcome is a response of the service. -/
def Responds (smp : Smp) (outcome : SubnOutcome) : Prop :=
  match outcome, smp.attrId with
  | .notDone, _ => False
  | .completed, .nodeInfo | .completed, .nodeDesc => smp.method = .get
  | _, _ => True

/-- With an element from the pool, the service has a response of its own. -/
def Answers (svc : SplQpSvc) : LocalMad → Prop
  | .discard | .other _ => False
  | .loopback => True
  | .subn smp => Responds smp (svc.processSubnMad smp true).2

namespace LocalCalls
variable (calls : LocalCalls) (svc : SplQpSvc)

/-- A response of the service that is not accepted is lost. -/
def Loses : Prop := calls.pool = true ∧ calls.recvDone = false

variable (isSet : Bool)

/-- The asynchronous path gives back what is not accepted. -/
theorem conserves_sendLocalMadCb : Conserves (calls.sendLocalMadCb isSet) := by
  obtain ⟨respExpected, pool, localMad, recvDone⟩ := calls
  revert respExpected pool localMad recvDone isSet
  decide

theorem conserves_answer :
    Conserves (calls.finish isSet (calls.getRespMad calls.completeLocalMad)) ↔ ¬ calls.Loses := by
  obtain ⟨respExpected, pool, localMad, recvDone⟩ := calls
  unfold Loses
  revert respExpected pool localMad recvDone isSet
  decide

theorem conserves_processNode (smp : Smp) :
    Conserves (calls.finish isSet (calls.processNode smp)) ↔ ¬ (smp.method = .get ∧ calls.Loses) := by
  unfold processNode
  split_ifs with other
  · refine iff_of_true ?_ fun ⟨get, _⟩ => other get
    exact (by decide : Conserves [.sendDone, .clearWr, .release])
  · rw [conserves_answer, not_ne_iff.mp other, eq_self, true_and]

theorem conserves_processSubn (smp : Smp) (outcome : SubnOutcome) :
    Conserves (calls.finish isSet (calls.processSubn smp outcome)) ↔
      ¬ (Responds smp outcome ∧ calls.Loses) := by
  unfold processSubn Responds
  split
  · exact iff_of_true (calls.conserves_sendLocalMadCb isSet) fun lost => lost.1
  · exact calls.conserves_processNode isSet smp
  · exact calls.conserves_processNode isSet smp
  · rw [conserves_answer, true_and]

/-- Exactly the responses of the service itself that the dispatcher does not accept are lost. -/
theorem localMadSend_conserves_iff (mad : LocalMad) :
    Conserves (calls.localMadSend svc mad) ↔ ¬ (Answers svc mad ∧ calls.Loses) := by
  cases mad with
  | discard =>
    refine iff_of_true ?_ fun lost => lost.1
    exact (by decide : Conserves [.sendDone, .clearWr, .release])
  | loopback => exact (calls.conserves_answer _).trans (by rw [Answers, true_and])
  | subn smp =>
    refine (calls.conserves_processSubn _ smp _).trans ?_
    cases pool : calls.pool with
    | true => rfl
    | false => simp [Loses, pool]
  | other isSet => exact iff_of_true (calls.conserves_sendLocalMadCb isSet) fun lost => lost.1

/-- A forwarded Set whose response is not accepted. -/
theorem forwarded_conserves :
    Conserves (localMadSend ⟨true, true, true, false⟩ {} (.other true)) :=
  (localMadSend_conserves_iff ..).mpr fun lost => lost.1

/-- A looped back MAD that no client is registered for. -/
theorem loopback_lost :
    ¬ Conserves (localMadSend ⟨false, true, true, false⟩ {} .loopback) := by
  decide

end LocalCalls
end WinOFED.Al
