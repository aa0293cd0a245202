import WinOFED.Mad.SendService

/-! Every send completes exactly once.

A send is followed through the lists of its service. `SendSvc.view` collects what
they hold for one send and `Phase` lists the shapes a view can take, in the order
in which a send passes through them. -/
namespace WinOFED.Mad
open List

/-- What a service holds for one send. -/
@[ext]
structure SendView where
  /-- Its tracking structures on `send_list`. -/
  listed : List SendHandle := []
  /-- Work requests on the QP. -/
  posted : Nat := 0
  /-- Completed work requests still to be processed. -/
  completing : Nat := 0
  /-- Completions whose response is still to be delivered. -/
  responding : Nat := 0
  /-- Completions of which only the send callback is still to be made. -/
  reporting : Nat := 0
  /-- Responses delivered. -/
  responses : Nat := 0
  /-- Send callbacks invoked. -/
  callbacks : Nat := 0
  /-- Returns to the pool without a callback. -/
  released : Nat := 0

namespace SendSvc

/-- The entries of `send_list` for one send. -/
def listed (svc : SendSvc) (id : Nat) : List SendHandle :=
  (svc.sendList.filter (·.1 = id)).map (·.2)

/-- The service as one send sees it. -/
def view (svc : SendSvc) (id : Nat) : SendView where
  listed := svc.listed id
  posted := svc.posted.count id
  completing := svc.completing.countP (·.1 = id)
  responding := svc.pending.countP fun completion => completion.id = id ∧ completion.resp.isSome
  reporting := svc.pending.countP fun completion => completion.id = id ∧ completion.resp.isNone
  responses := svc.respLog.count id
  callbacks := svc.sendLog.countP (·.1 = id)
  released := svc.internalLog.count id

/-- A view of the other sends is not affected by changes to one. -/
structure OthersKept (before after : SendSvc) (id : Nat) : Prop where
  svcType : after.svcType = before.svcType
  accepted : after.accepted = before.accepted
  view : ∀ other, other ≠ id → after.view other = before.view other

/-- A change to what the service holds for one send. -/
structure Acts (before : SendSvc) (id : Nat) (own : SendView) (after : SendSvc) : Prop
    extends OthersKept before after id where
  mine : after.view id = own

theorem find_eq_head? (svc : SendSvc) (id : Nat) : svc.find id = (svc.listed id).head? := by
  simp only [find, listed, head?_map, ← head?_filter]
  rfl

theorem listed_update (svc : SendSvc) (id other : Nat) (handle : SendHandle) :
    (svc.update id handle).listed other =
      if other = id then (svc.listed id).map fun _ => handle else svc.listed other := by
  simp only [listed, update]
  split
  next wanted =>
    subst wanted
    induction svc.sendList with
    | nil => rfl
    | cons entry rest ih => by_cases same : entry.1 = other <;> simp [same, ih]
  next distinct =>
    induction svc.sendList with
    | nil => rfl
    | cons entry rest ih =>
      by_cases same : entry.1 = id
      · simp [same, ih, Ne.symm distinct]
      · simp only [map_cons, if_neg same, filter_cons]
        split <;> simp [ih]

theorem listed_remove (svc : SendSvc) (id other : Nat) :
    (svc.remove id).listed other = if other = id then [] else svc.listed other := by
  simp only [listed, remove, filter_filter]
  split
  next same =>
    subst same
    simp
  next distinct =>
    congr 1
    refine filter_congr fun entry _ => ?_
    by_cases wanted : entry.1 = other <;> simp [wanted, distinct]

namespace Acts
variable {svc after : SendSvc} {id : Nat} {view : SendView} (acts : svc.Acts id view after)
include acts

theorem trans {next : SendView} {last : SendSvc} (second : after.Acts id next last) :
    svc.Acts id next last :=
  ⟨⟨second.svcType.trans acts.svcType, second.accepted.trans acts.accepted,
    fun other distinct => (second.view other distinct).trans (acts.view other distinct)⟩, second.mine⟩

theorem post : svc.Acts id { view with posted := view.posted + 1 } (after.post id) := by
  refine acts.trans ⟨⟨rfl, rfl, fun other distinct => ?_⟩, ?_⟩
  · simp [SendSvc.view, SendSvc.post, listed, distinct.symm]
  · rw [← acts.mine]
    simp [SendSvc.view, SendSvc.post, listed]

end Acts

section
variable (svc : SendSvc) (id : Nat)
include svc id

theorem acts_update (handle : SendHandle) :
    svc.Acts id { svc.view id with listed := (svc.listed id).map fun _ => handle }
      (svc.update id handle) := by
  refine ⟨⟨rfl, rfl, fun other distinct => SendView.ext ?_ rfl rfl rfl rfl rfl rfl rfl⟩,
    SendView.ext ?_ rfl rfl rfl rfl rfl rfl rfl⟩
  · exact (svc.listed_update id other handle).trans (if_neg distinct)
  · exact (svc.listed_update id id handle).trans (if_pos rfl)

theorem acts_complete (resp : Option MadElement) (status : WcStatus) :
    svc.Acts id
      { svc.view id with
        listed := []
        responding := (svc.view id).responding + if resp.isSome then 1 else 0
        reporting := (svc.view id).reporting + if resp.isNone then 1 else 0 }
      (svc.complete id resp status) := by
  have listed := svc.listed_remove id
  refine ⟨⟨rfl, rfl, fun other distinct => SendView.ext ?_ rfl rfl ?_ ?_ rfl rfl rfl⟩,
    SendView.ext ?_ rfl rfl ?_ ?_ rfl rfl rfl⟩
  · exact (listed other).trans (if_neg distinct)
  · simp [view, complete, remove, distinct.symm]
  · simp [view, complete, remove, distinct.symm]
  · exact (listed id).trans (if_pos rfl)
  · cases resp <;> simp [view, complete, remove]
  · cases resp <;> simp [view, complete, remove]

/-- The return of an internal send to its pool. -/
theorem acts_release :
    svc.Acts id { svc.view id with listed := [], released := (svc.view id).released + 1 }
      { svc.remove id with internalLog := svc.internalLog ++ [id] } := by
  have listed := svc.listed_remove id
  refine ⟨⟨rfl, rfl, fun other distinct => SendView.ext ?_ rfl rfl rfl rfl rfl rfl ?_⟩,
    SendView.ext ?_ rfl rfl rfl rfl rfl rfl ?_⟩
  · exact (listed other).trans (if_neg distinct)
  · simp [view, distinct.symm]
  · exact (listed id).trans (if_pos rfl)
  · simp [view]

end
end SendSvc

/-- The shapes of the view of one send, given the element that was accepted under its
name. Only sends of users wait, respond and report; only internal ones are released. -/
inductive Phase (svcType : MadSvcType) : Option MadElement → SendView → Prop
  | unsent : Phase svcType none {}
  | posted {element : MadElement} {handle : SendHandle} (active : handle.retryTime = maxTime)
      (kind : isInternalSend svcType handle.pSendMad = isInternalSend svcType element) :
      Phase svcType (some element) { listed := [handle], posted := 1 }
  | completing {element : MadElement} {handle : SendHandle} (active : handle.retryTime = maxTime)
      (kind : isInternalSend svcType handle.pSendMad = isInternalSend svcType element) :
      Phase svcType (some element) { listed := [handle], completing := 1 }
  | waiting {element : MadElement} {handle : SendHandle}
      (user : isInternalSend svcType handle.pSendMad = false)
      (kind : isInternalSend svcType handle.pSendMad = isInternalSend svcType element) :
      Phase svcType (some element) { listed := [handle] }
  | responding {element : MadElement} (user : isInternalSend svcType element = false) :
      Phase svcType (some element) { responding := 1 }
  | reporting {element : MadElement} {responses : Nat} (bounded : responses ≤ 1)
      (user : isInternalSend svcType element = false) :
      Phase svcType (some element) { reporting := 1, responses }
  | reported {element : MadElement} {responses : Nat} (bounded : responses ≤ 1)
      (user : isInternalSend svcType element = false) :
      Phase svcType (some element) { responses, callbacks := 1 }
  | released {element : MadElement} (internal : isInternalSend svcType element = true) :
      Phase svcType (some element) { released := 1 }

/-- Every send of a service is in one of the phases. -/
def InPhases (svc : SendSvc) : Prop :=
  ∀ id, Phase svc.svcType svc.accepted[id]? (svc.view id)

namespace InPhases
variable {svc : SendSvc} {id : Nat} {handle : SendHandle}

/-- A step that concerns one send only has to keep that send in a phase. -/
theorem of_acts {after : SendSvc} {view : SendView} (phases : InPhases svc)
    (acts : svc.Acts id view after) (phase : Phase svc.svcType svc.accepted[id]? view) :
    InPhases after := by
  intro other
  rw [acts.svcType, acts.accepted]
  by_cases same : other = id
  · subst same
    rwa [acts.mine]
  · rw [acts.view other same]
    exact phases other

section
variable (phases : InPhases svc) (listed : handle ∈ svc.listed id)
include phases listed

/-- A listed send is active or waits, and is the only one of its name. -/
theorem of_listed : ∃ element, svc.accepted[id]? = some element ∧
      isInternalSend svc.svcType handle.pSendMad = isInternalSend svc.svcType element ∧
      (handle.retryTime = maxTime ∧ svc.view id = { listed := [handle], posted := 1 } ∨
        handle.retryTime = maxTime ∧ svc.view id = { listed := [handle], completing := 1 } ∨
        isInternalSend svc.svcType handle.pSendMad = false ∧
          svc.view id = { listed := [handle] }) := by
  have phase := phases id
  change handle ∈ (svc.view id).listed at listed
  generalize svc.view id = view, svc.accepted[id]? = accepted at *
  cases phase with
  | posted active kind =>
    obtain rfl := mem_singleton.mp listed
    exact ⟨_, rfl, kind, .inl ⟨active, rfl⟩⟩
  | completing active kind =>
    obtain rfl := mem_singleton.mp listed
    exact ⟨_, rfl, kind, .inr (.inl ⟨active, rfl⟩)⟩
  | waiting user kind =>
    obtain rfl := mem_singleton.mp listed
    exact ⟨_, rfl, kind, .inr (.inr ⟨user, rfl⟩)⟩
  | unsent | responding _ | reporting _ _ | reported _ _ | released _ => cases listed

/-- A listed send whose retry time is set has no work request. -/
theorem waiting_of_inactive (inactive : handle.retryTime ≠ maxTime) :
    isInternalSend svc.svcType handle.pSendMad = false ∧ svc.view id = { listed := [handle] } := by
  obtain ⟨_, _, _, ⟨active, _⟩ | ⟨active, _⟩ | waiting⟩ := phases.of_listed listed
  · exact absurd active inactive
  · exact absurd active inactive
  · exact waiting

/-- An overwritten tracking structure keeps its phase if it stays of the same kind and
does not lose its mark of being active. -/
theorem update_same {changed : SendHandle}
    (kind : isInternalSend svc.svcType changed.pSendMad = isInternalSend svc.svcType handle.pSendMad)
    (active : handle.retryTime = maxTime → changed.retryTime = maxTime) :
    InPhases (svc.update id changed) := by
  obtain ⟨element, accepted, same, shape⟩ := phases.of_listed listed
  refine phases.of_acts (svc.acts_update id changed) ?_
  have one : svc.listed id = [handle] := by
    have projected : (svc.view id).listed = [handle] := by
      rcases shape with ⟨_, shape⟩ | ⟨_, shape⟩ | ⟨_, shape⟩ <;> rw [shape]
    exact projected
  rw [one, accepted]
  rcases shape with ⟨was, shape⟩ | ⟨was, shape⟩ | ⟨user, shape⟩
  · rw [shape]
    exact .posted (active was) (kind.trans same)
  · rw [shape]
    exact .completing (active was) (kind.trans same)
  · rw [shape]
    exact .waiting (kind.trans user) (kind.trans same)

end

theorem acts_update_of_waiting (waiting : svc.view id = { listed := [handle] })
    (changed : SendHandle) : svc.Acts id { listed := [changed] } (svc.update id changed) := by
  have acts := svc.acts_update id changed
  have one : svc.listed id = [handle] := congrArg SendView.listed waiting
  rwa [waiting, one] at acts

section Waiting
variable (phases : InPhases svc) (waiting : svc.view id = { listed := [handle] })
include phases waiting

theorem accepted_of_waiting :
    ∃ element, svc.accepted[id]? = some element ∧
      isInternalSend svc.svcType handle.pSendMad = isInternalSend svc.svcType element := by
  have listed : handle ∈ svc.listed id := by
    change handle ∈ (svc.view id).listed
    simp [waiting]
  obtain ⟨element, accepted, kind, _⟩ := phases.of_listed listed
  exact ⟨element, accepted, kind⟩

variable {changed : SendHandle}

theorem update_waiting (user : isInternalSend svc.svcType changed.pSendMad = false)
    (kind : isInternalSend svc.svcType changed.pSendMad =
      isInternalSend svc.svcType handle.pSendMad) : InPhases (svc.update id changed) := by
  obtain ⟨element, accepted, same⟩ := phases.accepted_of_waiting waiting
  refine phases.of_acts (acts_update_of_waiting waiting changed) ?_
  rw [accepted]
  exact .waiting user (kind.trans same)

/-- A waiting send may be queued again. -/
theorem requeue (kind : isInternalSend svc.svcType changed.pSendMad =
      isInternalSend svc.svcType handle.pSendMad) (active : changed.retryTime = maxTime) :
    InPhases ((svc.update id changed).post id) := by
  obtain ⟨element, accepted, same⟩ := phases.accepted_of_waiting waiting
  refine phases.of_acts (acts_update_of_waiting waiting changed).post ?_
  rw [accepted]
  exact .posted active (kind.trans same)

/-- A waiting send of a user may be taken off the list and reported. -/
theorem complete (user : isInternalSend svc.svcType handle.pSendMad = false)
    (resp : Option MadElement) (status : WcStatus) : InPhases (svc.complete id resp status) := by
  obtain ⟨element, accepted, same⟩ := phases.accepted_of_waiting waiting
  refine phases.of_acts (svc.acts_complete id resp status) ?_
  rw [waiting, accepted]
  cases resp with
  | none => exact .reporting (Nat.zero_le 1) (same ▸ user)
  | some _ => exact .responding (same ▸ user)

end Waiting
end InPhases

/-! ### The service entry points -/

variable {sendJitter : UInt32} {handle : SendHandle} {svcType : MadSvcType} {checked : CheckedList}
  {results : List CheckResult} {timeStamp curTime : UInt64}

/-- Setting the retry time only rewrites the element's timeout. -/
theorem isInternalSend_setRetryTime {changed : SendHandle}
    (set : setRetryTime handle sendJitter timeStamp = some changed) (svcType : MadSvcType) :
    isInternalSend svcType changed.pSendMad = isInternalSend svcType handle.pSendMad := by
  obtain ⟨-, ⟨⟩⟩ := Option.ite_none_left_eq_some.mp set
  rfl

/-- Initialization leaves a send active and of the kind of its element: internal
sends do not use RMPP. -/
theorem initSendMad_ok {ready : SendHandle} {avStatus : IbStatus}
    (success : initSendMad svcType handle avStatus = .ok ready) :
    ready.retryTime = maxTime ∧
      isInternalSend svcType ready.pSendMad = isInternalSend svcType handle.pSendMad := by
  simp only [initSendMad] at success
  split at success
  next =>
    split_ifs at success
    cases success
    exact ⟨rfl, rfl⟩
  next version rmpp =>
    have user : isInternalSend svcType handle.pSendMad = false := by
      cases svcType <;> simp_all [doesSendReqRmpp]
    split at success
    · cases success
    · split at success
      · cases success
        rw [user]
        cases svcType <;> simp [isInternalSend, RmppMad.setRespTime]
      · cases success

namespace InPhases
variable {svc : SendSvc}

variable {handle : SendHandle} {id : Nat} {status : WcStatus} {completion : Completion}

theorem of_find (found : svc.find id = some handle) : handle ∈ svc.listed id := by
  rw [svc.find_eq_head?] at found
  exact mem_of_mem_head? found

section
variable (phases : InPhases svc)
include phases

/-- A new active send starts out posted; the other sends do not notice. -/
theorem accept {element : MadElement} (active : handle.retryTime = maxTime)
    (kind : isInternalSend svc.svcType handle.pSendMad = isInternalSend svc.svcType element) :
    InPhases { svc with
      accepted := svc.accepted ++ [element]
      sendList := svc.sendList ++ [(svc.accepted.length, handle)]
      posted := svc.posted ++ [svc.accepted.length] } := by
  intro id
  by_cases new : id = svc.accepted.length
  · have unsent : svc.view id = {} := by
      have phase := phases id
      rw [new, getElem?_eq_none (Nat.le_refl _)] at phase
      rw [new]
      generalize svc.view svc.accepted.length = view at phase
      cases phase
      rfl
    have shape : Phase svc.svcType (some element)
        { svc.view id with
          listed := svc.listed id ++ [handle], posted := (svc.view id).posted + 1 } := by
      have unlisted : svc.listed id = [] := congrArg SendView.listed unsent
      rw [unsent, unlisted]
      exact .posted active kind
    subst new
    simpa [SendSvc.view, SendSvc.listed] using shape
  · have phase := phases id
    have older : (svc.accepted ++ [element])[id]? = svc.accepted[id]? := by
      rcases Nat.lt_or_gt_of_ne new with below | above
      · exact getElem?_append_left below
      · rw [getElem?_eq_none (by simp; omega), getElem?_eq_none (by omega)]
    simpa [SendSvc.view, SendSvc.listed, older, Ne.symm new] using phase

theorem ibSendMad (element : MadElement) (tracking : Option SendHandle) (avStatus : IbStatus) :
    InPhases (ibSendMad svc element tracking avStatus) := by
  unfold Mad.ibSendMad
  split
  · exact phases
  next recycled =>
    split
    · exact phases
    next ready success =>
      obtain ⟨active, kind⟩ := initSendMad_ok success
      simp only
      split
      · exact phases.accept rfl kind
      · exact phases.accept active kind

theorem ibCancelMad (id : Nat) : InPhases (ibCancelMad svc id) := by
  unfold Mad.ibCancelMad
  split
  · exact phases
  next handle found => exact phases.update_same (of_find found) rfl fun was => was

theorem ibDelayMad (id : Nat) (delayMs : UInt32) : InPhases (ibDelayMad svc id delayMs) := by
  unfold Mad.ibDelayMad
  split
  · exact phases
  next handle found =>
    split
    next active => exact phases.update_same (of_find found) rfl fun was => was
    next inactive =>
      exact phases.update_same (of_find found) rfl fun was => absurd was (by simpa using inactive)

end

/-- A matching send is a listed send of a user. -/
theorem of_madSvcMatchRecv {mad : MadElement} (found : madSvcMatchRecv svc mad = some (id, handle)) :
    handle ∈ svc.listed id := by
  simpa [SendSvc.listed] using List.mem_of_find?_eq_some found

section
variable (phases : InPhases svc) (mad : MadElement)
include phases mad

theorem processRecvResp : InPhases (processRecvResp svc mad) := by
  unfold Mad.processRecvResp
  split
  · exact phases
  next id handle found =>
    have listed := of_madSvcMatchRecv found
    split
    next => exact phases.update_same listed rfl fun was => was
    next inactive =>
      obtain ⟨user, waiting⟩ := phases.waiting_of_inactive listed (by simpa using inactive)
      exact phases.complete waiting user _ _

theorem processRmppAck : InPhases (processRmppAck svc mad) := by
  unfold Mad.processRmppAck
  split
  · exact phases
  next id handle found =>
    have listed := of_madSvcMatchRecv found
    split
    · exact phases
    · simp only
      split
      next => exact phases.update_same listed rfl fun was => was
      next inactive =>
        obtain ⟨user, waiting⟩ := phases.waiting_of_inactive listed (by simpa [acceptAck] using inactive)
        split_ifs
        · exact phases.complete waiting user _ _
        · exact phases.requeue waiting rfl rfl
        · exact phases.update_waiting waiting user rfl

theorem processRmppNack : InPhases (processRmppNack svc mad) := by
  unfold Mad.processRmppNack
  split
  · exact phases
  next id handle found =>
    have listed := of_madSvcMatchRecv found
    split
    next => exact phases.update_same listed rfl fun was => was
    next inactive =>
      obtain ⟨user, waiting⟩ := phases.waiting_of_inactive listed (by simpa using inactive)
      exact phases.complete waiting user _ _

theorem wholeRecvDone : InPhases (wholeRecvDone svc mad) := by
  unfold Mad.wholeRecvDone
  split_ifs
  · exact phases
  · exact phases.processRecvResp mad
  · exact phases

theorem madSvcRecvDone (reassembled : Option MadElement) :
    InPhases (madSvcRecvDone svc mad reassembled) := by
  unfold Mad.madSvcRecvDone
  split_ifs
  · exact phases
  · cases reassembled with
    | none => exact phases
    | some whole => exact phases.wholeRecvDone whole
  · exact phases.processRmppAck mad
  · exact phases.processRmppNack mad
  · exact phases.wholeRecvDone mad

end

/-- A completed work request belongs to an active send. -/
theorem of_completing (phases : InPhases svc) (outstanding : (id, status) ∈ svc.completing) :
    ∃ element handle, svc.accepted[id]? = some element ∧
      isInternalSend svc.svcType handle.pSendMad = isInternalSend svc.svcType element ∧
      svc.view id = { listed := [handle], completing := 1 } := by
  have counted : 0 < (svc.view id).completing := by
    simpa [SendSvc.view, countP_pos_iff] using ⟨status, outstanding⟩
  have phase := phases id
  generalize svc.view id = view, svc.accepted[id]? = accepted at *
  cases phase with
  | completing active kind => exact ⟨_, _, rfl, kind, rfl⟩
  | unsent | posted | waiting | responding | reporting | reported | released =>
    exact absurd counted (by simp)

theorem acts_erase_completing (outstanding : (id, status) ∈ svc.completing) :
    svc.Acts id { svc.view id with completing := (svc.view id).completing - 1 }
      { svc with completing := svc.completing.erase (id, status) } := by
  refine ⟨⟨rfl, rfl, fun other distinct => SendView.ext rfl rfl ?_ rfl rfl rfl rfl rfl⟩,
    SendView.ext rfl rfl ?_ rfl rfl rfl rfl rfl⟩
  · simp [SendSvc.view, countP_erase, distinct.symm]
  · simp [SendSvc.view, countP_erase, outstanding]

section
variable (phases : InPhases svc)
include phases

/-- The processing of a completed work request. Once the request is no longer
outstanding, a send of a user is one that waits. -/
theorem madSvcSendDone {after : SendSvc}
    (outstanding : (id, status) ∈ svc.completing)
    (done : madSvcSendDone { svc with completing := svc.completing.erase (id, status) } id status sendJitter timeStamp = some after) :
    InPhases after := by
  obtain ⟨element, handle, accepted, kind, shape⟩ := phases.of_completing outstanding
  have acts := acts_erase_completing outstanding
  rw [shape] at acts
  generalize taken : { svc with completing := svc.completing.erase (id, status) } = before at *
  have svcType := acts.svcType
  have view : before.view id = { listed := [handle] } := acts.mine
  have listed : before.listed id = [handle] := congrArg SendView.listed view
  simp only [Mad.madSvcSendDone, SendSvc.find_eq_head?, listed] at done
  simp only [head?_cons, Option.bind_eq_bind, Option.bind_some, svcType] at done
  split at done
  next internal =>
    cases done
    refine phases.of_acts (acts.trans (before.acts_release id)) ?_
    rw [view, accepted]
    exact .released (kind ▸ internal)
  next user =>
    have user : isInternalSend svc.svcType handle.pSendMad = false := by simpa using user
    have waiting : InPhases before := by
      refine phases.of_acts acts ?_
      rw [accepted]
      exact .waiting user kind
    split at done
    · cases done
      exact waiting.complete view (svcType ▸ user) _ _
    · split at done
      · cases done
        exact waiting.requeue view rfl rfl
      · obtain ⟨changed, set, result⟩ := Option.bind_eq_some_iff.mp done
        cases result
        have same := isInternalSend_setRetryTime set before.svcType
        exact waiting.update_waiting view (same.trans (svcType ▸ user)) same

theorem of_posted (outstanding : id ∈ svc.posted) :
    ∃ element handle, svc.accepted[id]? = some element ∧ handle.retryTime = maxTime ∧
      isInternalSend svc.svcType handle.pSendMad = isInternalSend svc.svcType element ∧
      svc.view id = { listed := [handle], posted := 1 } := by
  have counted : 0 < (svc.view id).posted := count_pos_iff.mpr outstanding
  have phase := phases id
  generalize svc.view id = view, svc.accepted[id]? = accepted at *
  cases phase with
  | posted active kind => exact ⟨_, _, rfl, active, kind, rfl⟩
  | unsent | completing | waiting | responding | reporting | reported | released =>
    exact absurd counted (by simp)

theorem madDispSendDone (outstanding : id ∈ svc.posted) (status : WcStatus) :
    InPhases (madDispSendDone svc id status) := by
  obtain ⟨element, handle, accepted, active, kind, shape⟩ := phases.of_posted outstanding
  have acts : svc.Acts id
      { svc.view id with
        posted := (svc.view id).posted - 1, completing := (svc.view id).completing + 1 }
      (Mad.madDispSendDone svc id status) :=
    ⟨⟨rfl, rfl, fun other distinct => by
      simp [SendSvc.view, Mad.madDispSendDone, SendSvc.listed, count_erase, distinct.symm]⟩, by
      simp [SendSvc.view, Mad.madDispSendDone, SendSvc.listed]⟩
  refine phases.of_acts acts ?_
  rw [shape, accepted]
  exact .completing active kind

theorem notifyRecv (pending : completion ∈ svc.pending) (response : completion.resp.isSome) :
    InPhases (notifyRecv svc completion) := by
  have counted : 0 < (svc.view completion.id).responding :=
    countP_pos_iff.mpr ⟨completion, pending, by simpa using response⟩
  have answered : completion.resp ≠ none := Option.isSome_iff_ne_none.mp response
  have acts : svc.Acts completion.id
      { svc.view completion.id with
        responding := (svc.view completion.id).responding - 1
        reporting := (svc.view completion.id).reporting + 1
        responses := (svc.view completion.id).responses + 1 }
      (Mad.notifyRecv svc completion) := by
    refine ⟨⟨rfl, rfl, fun other distinct => ?_⟩, ?_⟩
    · simp [SendSvc.view, SendSvc.listed, Mad.notifyRecv, countP_erase, distinct.symm]
    · simp [SendSvc.view, SendSvc.listed, Mad.notifyRecv, countP_erase, pending, response, answered]
  refine phases.of_acts acts ?_
  have phase := phases completion.id
  generalize svc.view completion.id = before, svc.accepted[completion.id]? = accepted at *
  cases phase with
  | responding user => simpa using Phase.reporting (Nat.le_refl 1) user
  | unsent | posted | completing | waiting | reporting | reported | released =>
    exact absurd counted (by simp)

theorem notifySend (pending : completion ∈ svc.pending) (response : completion.resp.isNone) :
    InPhases (notifySend svc completion) := by
  have counted : 0 < (svc.view completion.id).reporting :=
    countP_pos_iff.mpr ⟨completion, pending, by simpa using response⟩
  have unanswered : completion.resp = none := Option.isNone_iff_eq_none.mp response
  have acts : svc.Acts completion.id
      { svc.view completion.id with
        reporting := (svc.view completion.id).reporting - 1
        callbacks := (svc.view completion.id).callbacks + 1 }
      (Mad.notifySend svc completion) := by
    refine ⟨⟨rfl, rfl, fun other distinct => ?_⟩, ?_⟩
    · simp [SendSvc.view, SendSvc.listed, Mad.notifySend, countP_erase, distinct.symm]
    · simp [SendSvc.view, SendSvc.listed, Mad.notifySend, countP_erase, pending, unanswered]
  refine phases.of_acts acts ?_
  have phase := phases completion.id
  generalize svc.view completion.id = before, svc.accepted[completion.id]? = accepted at *
  cases phase with
  | reporting bounded user => simpa using Phase.reported bounded user
  | unsent | posted | completing | waiting | responding | reported | released =>
    exact absurd counted (by simp)

theorem destroyingMadSvc : InPhases (destroyingMadSvc svc) := by
  intro id
  have phase := phases id
  have listed : (Mad.destroyingMadSvc svc).listed id =
      (svc.listed id).map fun handle => { handle with canceled := true } := by
    simp only [SendSvc.listed, Mad.destroyingMadSvc, filter_map, map_map]
    rfl
  have view : (Mad.destroyingMadSvc svc).view id =
      { svc.view id with
        listed := (svc.view id).listed.map fun handle => { handle with canceled := true } } :=
    SendView.ext listed rfl rfl rfl rfl rfl rfl rfl
  rw [view]
  change Phase svc.svcType svc.accepted[id]? _
  generalize svc.view id = before, svc.accepted[id]? = accepted at *
  cases phase with
  | unsent => exact .unsent
  | posted active kind => exact .posted active kind
  | completing active kind => exact .completing active kind
  | waiting user kind => exact .waiting user kind
  | responding user => exact .responding user
  | reporting bounded user => exact .reporting bounded user
  | reported bounded user => exact .reported bounded user
  | released internal => exact .released internal

end
end InPhases

/-! ### The pass over the send list -/

namespace CheckResult

/-- What stays on the list. -/
def kept : CheckResult → List SendHandle
  | .keep handle | .queue handle => [handle]
  | .drop _ => []

/-- The number of work requests queued. -/
def queued : CheckResult → Nat
  | .queue _ => 1
  | .keep _ | .drop _ => 0

/-- The number of completions to report. -/
def dropped : CheckResult → Nat
  | .drop _ => 1
  | .keep _ | .queue _ => 0

/-- The results that fit a send: only one without a work request is queued again or
dropped, and a kept one stays active if it was. -/
def Fits (svcType : MadSvcType) (handle : SendHandle) : CheckResult → Prop
  | .keep changed =>
      isInternalSend svcType changed.pSendMad = isInternalSend svcType handle.pSendMad ∧
        (handle.retryTime = maxTime → changed.retryTime = maxTime)
  | .queue changed =>
      isInternalSend svcType changed.pSendMad = isInternalSend svcType handle.pSendMad ∧
        changed.retryTime = maxTime ∧ handle.retryTime ≠ maxTime
  | .drop _ => handle.retryTime ≠ maxTime

end CheckResult

theorem checkSend_fits {result : CheckResult}
    (checked : checkSend handle curTime sendJitter timeStamp = some result) (svcType : MadSvcType) :
    result.Fits svcType handle := by
  unfold checkSend at checked
  split at checked
  · cases checked
    exact ⟨rfl, fun was => was⟩
  next inactive =>
    have inactive : handle.retryTime ≠ maxTime := by simpa using inactive
    dsimp only at checked
    split_ifs at checked
    · cases checked
      exact inactive
    · cases checked
      exact ⟨rfl, fun was => was⟩
    · cases checked
      exact ⟨rfl, rfl, inactive⟩
    · obtain ⟨changed, set, rfl⟩ := Option.map_eq_some_iff.mp checked
      exact ⟨isInternalSend_setRetryTime set svcType, fun was => absurd was inactive⟩
    · cases checked
      exact ⟨rfl, rfl, inactive⟩
    · cases checked
      exact inactive

/-- What a pass over the list does to the entries of one send. -/
structure CheckedList.Selects (checked : CheckedList) (id : Nat) (results : List CheckResult) :
    Prop where
  kept : (checked.kept.filter (·.1 = id)).map (·.2) = results.flatMap CheckResult.kept
  queued : checked.queued.count id = (results.map CheckResult.queued).sum
  dropped : (checked.dropped.countP fun completion => completion.id = id ∧ completion.resp.isNone) =
    (results.map CheckResult.dropped).sum
  unanswered : (checked.dropped.countP fun completion =>
    completion.id = id ∧ completion.resp.isSome) = 0

/-- The pass treats the entries of a send one by one. -/
theorem checkList_selects {timeStamp : Nat → UInt64} (id : Nat)
    {list : List (Nat × SendHandle)}
    (pass : checkList curTime sendJitter timeStamp list = some checked) :
    ∃ results : List CheckResult, checked.Selects id results ∧ List.Forall₂ (fun handle result =>
        checkSend handle curTime sendJitter (timeStamp id) = some result)
        ((list.filter (·.1 = id)).map (·.2)) results := by
  induction list generalizing checked with
  | nil =>
    cases pass
    exact ⟨[], ⟨rfl, rfl, rfl, rfl⟩, .nil⟩
  | cons entry rest ih =>
    obtain ⟨name, handle⟩ := entry
    simp only [checkList, Option.bind_eq_bind, Option.bind_eq_some_iff] at pass
    obtain ⟨result, one, later, others, final⟩ := pass
    obtain ⟨results, ⟨kept, queued, dropped, unanswered⟩, related⟩ := ih others
    simp only [Bool.decide_and, Bool.decide_eq_true] at dropped unanswered
    by_cases same : name = id
    · subst same
      refine ⟨result :: results, ?_, ?_⟩
      · cases result with
        | keep changed | queue changed | drop changed =>
          cases final
          constructor <;>
            simp only [CheckResult.kept, CheckResult.queued, CheckResult.dropped, kept, queued,
              dropped, unanswered, filter_cons, count_cons, countP_cons,
              map_cons, sum_cons, flatMap_cons, Bool.decide_and,
              Bool.decide_eq_true] <;>
            simp [kept, Nat.add_comm]
      · simp only [filter_cons, decide_true, if_true, map_cons]
        exact .cons one related
    · refine ⟨results, ?_, by simpa [same] using related⟩
      cases result with
      | keep changed | queue changed | drop changed =>
        cases final
        constructor <;>
          simp only [kept, queued, dropped, unanswered, filter_cons, count_cons,
            countP_cons, Bool.decide_and, Bool.decide_eq_true] <;>
          simp [same, kept]

theorem SendSvc.view_checkSendQueue {svc : SendSvc} {id : Nat}
    (selects : checked.Selects id results) :
    ({ svc with
      sendList := checked.kept
      posted := svc.posted ++ checked.queued
      pending := svc.pending ++ checked.dropped } : SendSvc).view id =
      { svc.view id with
        listed := results.flatMap CheckResult.kept
        posted := (svc.view id).posted + (results.map CheckResult.queued).sum
        reporting := (svc.view id).reporting + (results.map CheckResult.dropped).sum } := by
  refine SendView.ext selects.kept ?_ rfl ?_ ?_ rfl rfl rfl
  · simp only [view, count_append, selects.queued]
  · simp only [view, countP_append, selects.unanswered, Nat.add_zero]
  · simp only [view, countP_append, selects.dropped]

/-- One send during a pass over the list. -/
theorem Phase.checkSend {accepted : Option MadElement} {view : SendView}
    (phase : Phase svcType accepted view)
    (fits : List.Forall₂ (fun handle result => CheckResult.Fits svcType handle result)
      view.listed results) :
    Phase svcType accepted
      { view with
        listed := results.flatMap CheckResult.kept
        posted := view.posted + (results.map CheckResult.queued).sum
        reporting := view.reporting + (results.map CheckResult.dropped).sum } := by
  cases phase with
  | unsent =>
    cases fits
    exact .unsent
  | responding user =>
    cases fits
    exact .responding user
  | reporting bounded user =>
    cases fits
    exact .reporting bounded user
  | reported bounded user =>
    cases fits
    exact .reported bounded user
  | released internal =>
    cases fits
    exact .released internal
  | posted active kind =>
    obtain ⟨result, _, fit, rest, rfl⟩ := forall₂_cons_left_iff.mp fits
    cases rest
    cases result with
    | keep changed => exact .posted (fit.2 active) (fit.1.trans kind)
    | queue changed => exact absurd active fit.2.2
    | drop status => exact absurd active fit
  | completing active kind =>
    obtain ⟨result, _, fit, rest, rfl⟩ := forall₂_cons_left_iff.mp fits
    cases rest
    cases result with
    | keep changed => exact .completing (fit.2 active) (fit.1.trans kind)
    | queue changed => exact absurd active fit.2.2
    | drop status => exact absurd active fit
  | waiting user kind =>
    obtain ⟨result, _, fit, rest, rfl⟩ := forall₂_cons_left_iff.mp fits
    cases rest
    cases result with
    | keep changed => exact .waiting (fit.1.trans user) (fit.1.trans kind)
    | queue changed => exact .posted fit.2.1 (fit.1.trans kind)
    | drop status => exact .reporting (Nat.zero_le 1) (kind ▸ user)

namespace InPhases
variable {svc : SendSvc}

theorem checkSendQueue {after : SendSvc}
    {timeStamp : Nat → UInt64} (phases : InPhases svc)
    (pass : checkSendQueue svc curTime sendJitter timeStamp = some after) : InPhases after := by
  simp only [Mad.checkSendQueue, Option.bind_eq_bind, Option.bind_eq_some_iff] at pass
  obtain ⟨checked, list, final⟩ := pass
  cases final
  intro id
  obtain ⟨results, selects, related⟩ := checkList_selects id list
  rw [SendSvc.view_checkSendQueue selects]
  exact (phases id).checkSend (related.imp fun _ _ checked => checkSend_fits checked svc.svcType)

/-- Every event keeps all sends in their phases. -/
theorem step {after : SendSvc} {event : SendEvent} (phases : InPhases svc)
    (transition : sendStep svc event = some after) : InPhases after := by
  cases event with
  | send element tracking avStatus =>
    cases transition
    exact phases.ibSendMad element tracking avStatus
  | wrDone id status =>
    obtain ⟨outstanding, final⟩ := Option.ite_none_right_eq_some.mp transition
    cases final
    exact phases.madDispSendDone outstanding status
  | sendDone id status sendJitter timeStamp =>
    obtain ⟨outstanding, final⟩ := Option.ite_none_right_eq_some.mp transition
    exact phases.madSvcSendDone outstanding final
  | recv mad reassembled =>
    cases transition
    exact phases.madSvcRecvDone mad reassembled
  | cancel id =>
    cases transition
    exact phases.ibCancelMad id
  | delay id delayMs =>
    cases transition
    exact phases.ibDelayMad id delayMs
  | timer curTime sendJitter timeStamp => exact phases.checkSendQueue transition
  | destroying =>
    cases transition
    exact phases.destroyingMadSvc
  | notifyRecv completion =>
    obtain ⟨⟨pending, response⟩, final⟩ := Option.ite_none_right_eq_some.mp transition
    cases final
    exact phases.notifyRecv pending response
  | notifySend completion =>
    obtain ⟨⟨pending, response⟩, final⟩ := Option.ite_none_right_eq_some.mp transition
    cases final
    exact phases.notifySend pending response

theorem empty (svcType : MadSvcType) : InPhases (.empty svcType) := fun id => by
  simpa [SendSvc.empty, SendSvc.view, SendSvc.listed] using Phase.unsent

/-- All sends are in a phase after any run. -/
theorem of_reachable (reachable : sendMachine.Reachable (fun _ _ => True) svc) : InPhases svc :=
  reachable.invariant (fun _ ⟨svcType, start⟩ => start ▸ empty svcType)
    fun _ _ _ phases _ transition => phases.step transition

end InPhases

/-- `__notify_send_comp`: all the callbacks of a send that left the list. -/
def notifySendComp (svc : SendSvc) (completion : Completion) : SendSvc :=
  match completion.resp with
  | some _ => notifySend (notifyRecv svc completion) { completion with resp := none }
  | none => notifySend svc completion

/-- The send named `id` is completed once. -/
structure CompletesOnce (svc : SendSvc) (id : Nat) : Prop where
  /-- It is on the list, or its callbacks are being made, or its one send callback was
  made: nothing else, and one of these once. -/
  once : (svc.view id).listed.length + (svc.view id).responding + (svc.view id).reporting +
    (svc.view id).callbacks = 1
  /-- Off the list, its send callback was made or making the callbacks makes it. -/
  reported : svc.listed id = [] → (svc.view id).callbacks = 1 ∨
    ∃ completion ∈ svc.pending, completion.id = id ∧
      ((notifySendComp svc completion).view id).callbacks = 1
  /-- There is at most one work request for it. -/
  outstanding : (svc.view id).posted + (svc.view id).completing ≤ 1
  /-- While there is one, the send is on the list. -/
  held : 0 < (svc.view id).posted + (svc.view id).completing → (svc.view id).listed.length = 1
  /-- At most one response is delivered or about to be. -/
  responses : (svc.view id).responses + (svc.view id).responding ≤ 1

/-- The send named `id` is not made known to the user: it goes back to its pool, once,
when its work request completes. -/
structure ReleasesOnce (svc : SendSvc) (id : Nat) : Prop where
  once : (svc.view id).listed.length + (svc.view id).released = 1
  silent : (svc.view id).responding = 0 ∧ (svc.view id).reporting = 0 ∧
    (svc.view id).responses = 0 ∧ (svc.view id).callbacks = 0
  outstanding : (svc.view id).posted + (svc.view id).completing ≤ 1
  held : 0 < (svc.view id).posted + (svc.view id).completing → (svc.view id).listed.length = 1

/-- A completion that is still due can be found and made. -/
theorem exists_notifySendComp {svc : SendSvc} {id : Nat}
    (due : 0 < (svc.view id).responding + (svc.view id).reporting)
    (silent : (svc.view id).callbacks = 0) :
    ∃ completion ∈ svc.pending, completion.id = id ∧
      ((notifySendComp svc completion).view id).callbacks = 1 := by
  have found : ∃ completion ∈ svc.pending, completion.id = id := by
    rcases Nat.add_pos_iff_pos_or_pos.mp due with answered | unanswered
    · obtain ⟨completion, pending, wanted⟩ := countP_pos_iff.mp answered
      exact ⟨completion, pending, (of_decide_eq_true wanted).1⟩
    · obtain ⟨completion, pending, wanted⟩ := countP_pos_iff.mp unanswered
      exact ⟨completion, pending, (of_decide_eq_true wanted).1⟩
  obtain ⟨completion, pending, rfl⟩ := found
  refine ⟨completion, pending, rfl, ?_⟩
  unfold notifySendComp
  cases completion.resp <;> simpa [SendSvc.view, notifySend, notifyRecv, countP_append] using silent

/-- After any interleaving of sends, work completions, received MADs, cancels, delays,
timer firings, destruction and callbacks, every MAD that was accepted completes once;
RMPP control MADs, which the service takes for its own, are released once instead. -/
theorem completesOnce_of_accepted {svc : SendSvc} {id : Nat} {element : MadElement}
    (reachable : sendMachine.Reachable (fun _ _ => True) svc)
    (accepted : svc.accepted[id]? = some element) :
    if isInternalSend svc.svcType element then ReleasesOnce svc id else CompletesOnce svc id := by
  have phase := InPhases.of_reachable reachable id
  have listed : (svc.view id).listed = svc.listed id := rfl
  have due := @exists_notifySendComp svc id
  rw [accepted] at phase
  split
  next internal =>
    suffices shape : ∀ view : SendView, Phase svc.svcType (some element) view →
        view.listed.length + view.released = 1 ∧
        (view.responding = 0 ∧ view.reporting = 0 ∧ view.responses = 0 ∧ view.callbacks = 0) ∧
        view.posted + view.completing ≤ 1 ∧
        (0 < view.posted + view.completing → view.listed.length = 1) by
      obtain ⟨once, silent, outstanding, held⟩ := shape _ phase
      exact ⟨once, silent, outstanding, held⟩
    rintro view phase
    cases phase with
    | posted | completing | released => simp
    | waiting user kind | responding user | reporting _ user | reported _ user => simp_all
  next user =>
    suffices shape : ∀ view : SendView, Phase svc.svcType (some element) view →
        view.listed.length + view.responding + view.reporting + view.callbacks = 1 ∧
        view.posted + view.completing ≤ 1 ∧
        (0 < view.posted + view.completing → view.listed.length = 1) ∧
        view.responses + view.responding ≤ 1 by
      obtain ⟨once, outstanding, held, responses⟩ := shape _ phase
      refine ⟨once, fun off => ?_, outstanding, held, responses⟩
      rw [listed, off] at once
      by_cases made : (svc.view id).callbacks = 1
      · exact .inl made
      · simp only [length_nil] at once
        exact .inr (due (by omega) (by omega))
    rintro view phase
    cases phase with
    | posted | completing | waiting | responding => simp
    | reporting bounded | reported bounded => simpa using bounded
    | released internal => exact absurd internal user

theorem reachable_of_run {events : List SendEvent} {svc : SendSvc}
    (ended : Transition.Machine.run sendStep (.empty svcType) events = some svc) :
    sendMachine.Reachable (fun _ _ => True) svc :=
  .run (.initial ⟨svcType, rfl⟩) (Transition.Machine.guarded_of_forall (fun _ _ => trivial) _ _) ended

/-- A MAD of the subnet administration class with the given RMPP type. -/
def sampleRequest (rmppType : UInt8) : MadElement :=
  { buf :=
      { commonHdr :=
          { baseVer := 1, mgmtClass := ibMclassSubnAdm, classVer := 2, method := 1, status := 0
            classSpec := 0, transId := 5, attrId := 0, resv := 0, attrMod := 0 }
        rmppVersion := 0, rmppType, rmppFlags := 0, rmppStatus := 0, segNum := 0
        paylenNewwin := 0, data := [] }
    size := 36, alMadBuf := false, remoteLid := 0, remoteQp := 1, rmppVersion := 0
    timeoutMs := 100, retryCnt := 0, respExpected := false }

/-- Send one MAD and let its work request complete. -/
def sampleSending (rmppType : UInt8) : List SendEvent :=
  [.send (sampleRequest rmppType)
      (some { pSendMad := sampleRequest 0, pRespMad := none, retryTime := 0, delay := 0
              retryCnt := 0, canceled := false, usesRmpp := false, ackSeg := 0, curSeg := 0
              segLimit := 0, totalSeg := 0 })
      .success,
    .wrDone 0 .success, .sendDone 0 .success 0 0]

/-- A request without RMPP header has its callback due once its work request is done. -/
theorem request_completesOnce : ∃ svc,
    Transition.Machine.run sendStep (.empty .default) (sampleSending 0) = some svc ∧
    svc.accepted[0]? = some (sampleRequest 0) ∧ CompletesOnce svc 0 ∧ svc.listed 0 = [] := by
  refine ⟨_, rfl, rfl, ?_, rfl⟩
  exact @completesOnce_of_accepted _ 0 (sampleRequest 0)
    (@reachable_of_run .default (sampleSending 0) _ rfl) rfl

/-- An ACK that a user sends leaves the list without a callback made or due. -/
theorem control_unreported : ∃ svc,
    sendMachine.Reachable (fun _ _ => True) svc ∧
    svc.accepted[0]? = some (sampleRequest ibRmppTypeAck) ∧ svc.listed 0 = [] ∧
    svc.pending = [] ∧ svc.sendLog = [] ∧ ¬ CompletesOnce svc 0 := by
  refine ⟨_, @reachable_of_run .default (sampleSending ibRmppTypeAck) _ rfl, rfl, rfl, rfl, rfl,
    fun completes => ?_⟩
  exact absurd completes.once (by decide)

end WinOFED.Mad
