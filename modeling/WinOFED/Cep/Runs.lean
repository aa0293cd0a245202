import WinOFED.Cep.Cleanup

/-! Everything the CEP manager does is a sequence of moves, so that its books are in order in
every state that is reached. -/
namespace WinOFED.Cep
open Complib Transition List Option CepMgr
variable {possible : Fault → Prop} {mgr mid after : CepMgr} {cep id : CepId} {kcep : Kcep}

/-! ### REQs that wait send nothing -/

/-- Nothing is sent for a CEP that is in the list of its listener. -/
def CepMgr.Unsent (mgr : CepMgr) : Prop := ∀ cep, mgr.Queued cep → ∀ mad, (mad, cep) ∉ mgr.sends

namespace CepMgr.Unsent

section
variable (unsent : mgr.Unsent)
include unsent

theorem mono (queued : ∀ cep, after.Queued cep → mgr.Queued cep)
    (sends : ∀ send, send ∈ after.sends → send ∈ mgr.sends) : after.Unsent :=
  fun cep later mad sent => unsent cep (queued cep later) mad (sends _ sent)

theorem touch (touches : mgr.Touches after cep)
    (sends : ∀ send, send ∈ after.sends → send ∈ mgr.sends) : after.Unsent :=
  unsent.mono (fun _ => touches.queued.mp) sends

/-- A MAD is sent for a CEP that is in no list. -/
theorem send {mad : MadId} (touches : mgr.Touches after cep) (free : ¬ mgr.Queued cep)
    (sends : after.sends = (mad, cep) :: mgr.sends) : after.Unsent := by
  intro id later other sent
  rw [touches.queued] at later
  rw [sends, mem_cons, Prod.mk.injEq] at sent
  obtain ⟨_, rfl⟩ | sent := sent
  · exact free later
  · exact unsent id later other sent

theorem enqueueReq {listener : CepId} (new : ∀ mad, (mad, cep) ∉ mgr.sends)
    (queued : queueMad mgr listener (some cep) = some after) : after.Unsent := by
  have grown : ∀ {after : CepMgr} {kListener next : Kcep}, mgr.ceps listener = some kListener →
      after.ceps = (mgr.setCep listener next).ceps → after.sends = mgr.sends →
      next.madList = kListener.madList ++ [some cep] → after.Unsent := by
    rintro after kListener next here ceps sends list id ⟨other, kOther, there, member⟩ mad
    rw [sends]
    rw [ceps] at there
    obtain ⟨rfl, rfl⟩ | ⟨-, there⟩ := of_ceps_setCep there
    · rw [list, mem_append, mem_singleton, some.injEq] at member
      obtain member | rfl := member
      · exact unsent _ ⟨other, kListener, here, member⟩ mad
      · exact new mad
    · exact unsent _ ⟨other, kOther, there, member⟩ mad
  obtain ⟨kListener, here, ⟨_, rfl⟩ | ⟨_, rfl⟩ | ⟨_, _, rfl⟩⟩ := queueMad_inv queued
  · exact unsent
  · exact grown here (by rfl) (by rfl) (by rfl)
  · exact grown here (by rfl) (by rfl) (by rfl)

end
end CepMgr.Unsent

theorem CepMgr.Touches.of_insertCep {saved : Kcep} {misread : Misread} {result : Inserted}
    (here : mgr.ceps cep = some kcep)
    (inserted : insertCep (mgr.setCep cep saved) cep misread = some (result, after))
    (list : saved.madList = kcep.madList) : mgr.Touches after cep := by
  obtain ⟨held, ceps, _, same, _⟩ := insertCep_stored inserted
  exact ⟨kcep, held, here, ceps, by rw [same, list]⟩

/-- A new CEP has no MADs. -/
theorem CepMgr.queued_create {allocated grown : Bool}
    (created : createCep mgr allocated grown = some (cep, mid)) (later : mid.Queued id) :
    mgr.Queued id := by
  obtain ⟨cid, size, free, rfl, _, rfl⟩ := createCep_inv created
  obtain ⟨listener, held, listening, member⟩ := later
  obtain ⟨-, rfl⟩ | ⟨-, listening⟩ := of_ceps_setCep listening
  · cases member
  · exact ⟨listener, held, listening, member⟩

theorem CepMgr.queued_freeCep (cid : Nat) (later : (mgr.freeCep cep cid).Queued id) : mgr.Queued id := by
  obtain ⟨listener, held, listening, member⟩ := later
  exact ⟨listener, held, (ite_none_left_eq_some.mp listening).2, member⟩

theorem Move.unsent {fault : Option Fault} (move : Move fault mgr after) (sound : mgr.Sound)
    (unsent : mgr.Unsent) : after.Unsent := by
  cases move with
  | turn here keeps _ _ _ _ => exact unsent.touch (.set here keeps.madList) fun _ => id
  | unlink removed =>
    have sends : after.sends = mgr.sends := by
      obtain ⟨_, _, _, _, _, _, rfl⟩ := removeCep_inv removed
      rfl
    exact unsent.touch (.of_removeCep removed) (by rw [sends]; exact fun _ => id)
  | refuse here _ | park here _ | drepDestroy here _ | quiet here | release _ here
  | enter here _ _ _ | leave here _ _ | retire here _ _ _ _ | retireParked here _ _
  | hangUp here _ _ => exact unsent.touch ⟨_, _, here, rfl, rfl⟩ fun _ => id
  | transmit mad here _ free => exact unsent.send ⟨_, _, here, rfl, rfl⟩ free rfl
  | completeOther _ here _ => exact unsent.touch (.refl here) fun _ => mem_of_mem_erase
  | complete _ here _ _ _ | completeDreq _ here _ _ =>
    exact unsent.touch ⟨_, _, here, rfl, rfl⟩ fun _ => mem_of_mem_erase
  | enqueue _ queued =>
    exact unsent.touch (.of_queueMad queued) (by
      obtain ⟨_, _, ⟨_, rfl⟩ | ⟨_, rfl⟩ | ⟨_, _, rfl⟩⟩ := queueMad_inv queued <;> exact fun _ => id)
  | enqueueReq _ _ _ _ _ new _ queued => exact unsent.enqueueReq new queued
  | poll here first => exact unsent.mono (fun _ => queued_poll here first) fun _ => id
  | create owner created here =>
    refine unsent.mono (fun _ later => queued_create created later) fun _ sent => ?_
    rwa [← createCep_sends created]
  | unbind unbound =>
    obtain ⟨_, _, rfl⟩ := unbindCep_inv unbound
    exact unsent
  | linkReq here _ _ inserted _ =>
    exact unsent.touch (.of_insertCep here inserted rfl) (by rw [insertCep_sends inserted]; exact fun _ => id)
  | linkRep here _ inserted cancelled =>
    have touches := (CepMgr.Touches.of_insertCep here inserted rfl).trans
      (.of_update cancelled fun _ => rfl)
    obtain ⟨_, _, rfl⟩ := update_eq_some.mp cancelled
    exact unsent.touch touches (by rw [setCep, insertCep_sends inserted]; exact fun _ => id)
  | bounceRep here _ inserted _ restored =>
    have touches := (CepMgr.Touches.of_insertCep here inserted rfl).trans (.of_update restored fun _ => rfl)
    obtain ⟨_, _, rfl⟩ := update_eq_some.mp restored
    exact unsent.touch touches (by rw [setCep, insertCep_sends inserted]; exact fun _ => id)
  | @hangUpDreq _ _ kcep mad here connected _ =>
    exact unsent.send ⟨_, _, here, rfl, rfl⟩
      (sound.not_queued here (by revert connected; cases kcep.state <;> decide)) rfl
  | free here _ _ _ freed =>
    obtain ⟨kcep, _, rfl⟩ := destroyCep_inv freed
    exact unsent.mono (fun _ later => queued_freeCep kcep.cid later) fun _ => id
  | renumber | getMad => exact unsent

/-! ### Send completions -/

/-- `__remove_cep` reads and changes only the CEP and the maps. -/
theorem removeCep_frame (mgr : CepMgr) (cep : CepId) (sends : List (MadId × CepId))
    (callbacks timewaitList : List CepId) :
    removeCep { mgr with sends, callbacks, timewaitList } cep =
      (removeCep mgr cep).map fun cut => { cut with sends, callbacks, timewaitList } := by
  cases here : mgr.ceps cep with
  | none => simp [removeCep, here]
  | some kcep =>
    cases byId : removeMarked mgr.connIdMap cep kcep.remoteCommId with
    | none => simp [removeCep, here, byId]
    | some connIdMap =>
      cases byQpn : removeMarked mgr.connQpMap cep kcep.remoteQpn with
      | none => simp [removeCep, here, byId, byQpn]
      | some connQpMap => simp [removeCep, here, byId, byQpn, setCep]

/-- A connection is given up because its MAD was not answered. -/
theorem timeout_moves {mad : MadId} (sent : (mad, cep) ∈ mgr.sends)
    (here : mgr.ceps cep = some kcep) (own : kcep.pSendMad = some mad)
    (connecting : kcep.state.connecting) (sending : kcep.state.sent)
    (removed : removeCep (mgr.endSend mad cep) cep = some mid)
    (idle : mid.update cep (fun kcep => { kcep with pSendMad := none, state := .idle }) =
      some after) : Moves possible mgr after ∧ mgr.Touches after cep := by
  have frame := removeCep_frame mgr cep (mgr.sends.erase (mad, cep)) (cep :: mgr.callbacks) mgr.timewaitList
  rw [endSend] at removed
  rw [frame] at removed
  obtain ⟨cut, before, rfl⟩ := map_eq_some_iff.mp removed
  obtain ⟨kcep', connIdMap, connQpMap, there, _, _, rfl⟩ := removeCep_inv before
  obtain rfl : kcep = kcep' := some.inj (here.symm.trans there)
  obtain ⟨held, again, rfl⟩ := update_eq_some.mp idle
  obtain rfl : _ = held := some.inj ((ceps_setCep_self _ cep _).symm.trans again)
  let cleared : Kcep := { kcep with remoteCommId := 0, remoteQpn := 0 }
  have sent' : (mad, cep) ∈ ((mgr.setConn connIdMap connQpMap).setCep cep cleared).sends := sent
  have move := Move.complete sent' (ceps_setCep_self ..) own (.abort connecting sending) fun _ => .inr rfl
  refine ⟨(Moves.clean (.unlink before)).trans (.clean move), ?_⟩
  exact (CepMgr.Touches.of_removeCep before).trans ⟨_, _, ceps_setCep_self .., rfl, rfl⟩

theorem cepMadSendCb_moves {mad : MadId} (unsent : mgr.Unsent)
    (faults : ∀ fault ∈ mgr.faults (.sendDone mad cep), possible fault)
    (done : cepMadSendCb mgr mad cep = some after) : Moves possible mgr after := by
  unfold cepMadSendCb at done
  obtain ⟨sent, done⟩ := ite_none_right_eq_some.mp done
  have free : ¬ mgr.Queued cep := fun queued => unsent cep queued mad sent
  simp only [bind_eq_bind, bind_eq_some_iff] at done
  obtain ⟨kcep, here, done⟩ := done
  split at done
  next other =>
    cases done
    exact .clean (.completeOther sent here other)
  next own =>
    rw [ne_eq, not_not] at own
    split at done
    iterate 4 next was =>
        obtain ⟨cut, removed, done⟩ := bind_eq_some_iff.mp done
        obtain ⟨idle, updated, queued⟩ := bind_eq_some_iff.mp done
        obtain ⟨moves, touches⟩ := timeout_moves sent here own (by rw [was]; rfl)
          (by rw [was]; rfl) removed updated
        exact moves.queueFree touches free queued
    next was =>
      cases done
      exact .clean (.completeDreq sent here own (.inr ⟨was, rfl⟩))
    next was =>
      cases done
      have move := Move.complete sent here own (.other (by rw [was]; rfl)) fun alone => .inl alone
      exact .clean move
    next was =>
      have move := Move.completeDreq sent here own (.inl ⟨was, rfl⟩)
      exact (Moves.clean move).queueFree ⟨_, _, here, rfl, rfl⟩ free done
    next was =>
      have finish : Finish none kcep.state .established := was ▸ .lap
      have move := Move.complete sent here own finish nofun
      exact (Moves.clean move).queueFree ⟨_, _, here, rfl, rfl⟩ free done
    next reqSent reqMraRcvd repSent repMraRcvd dreqDestroy _ dreqSent lapSent =>
      obtain delayed | silent : kcep.state = .lapMraRcvd ∨ kcep.state.sent = false := by
        cases known : kcep.state <;> first | exact .inl rfl | exact .inr rfl | contradiction
      · have finish : Finish (some .lapTimeout) kcep.state kcep.state := delayed ▸ .delayed
        have moves : Moves possible mgr _ :=
          .one (.complete sent here own finish fun alone => .inl alone) (by
            rintro one ⟨⟩
            exact faults _ (by simp [CepMgr.faults, here, delayed, own]))
        exact moves.queueFree ⟨_, _, here, rfl, rfl⟩ free done
      · have move := Move.complete sent here own (.other silent) fun alone => .inl alone
        exact (Moves.clean move).queueFree ⟨_, _, here, rfl, rfl⟩ free done

theorem callbackDone_moves (done : callbackDone mgr cep = some after) : Moves possible mgr after := by
  unfold callbackDone at done
  obtain ⟨running, done⟩ := ite_none_right_eq_some.mp done
  obtain ⟨kcep, here, rfl⟩ := update_eq_some.mp done
  exact .clean (.release running here)

/-! ### The timewait timer -/

section
variable (sound : mgr.Sound)
include sound

/-- A CEP without references in the list of the timer has been cleaned up. -/
theorem CepMgr.Sound.destroyed (listed : cep ∈ mgr.timewaitList)
    (here : mgr.ceps cep = some kcep) (unused : kcep.refCnt = 0) : kcep.state = .destroy := by
  have parked := (sound.timewait.listed cep).mp listed
  rw [view_of_ceps here, some.injEq] at parked
  have counted := sound.refs.counted (view_of_ceps here _)
  have cleaned : kcep.state.cleaned := by
    by_contra live
    rw [if_neg live] at counted
    omega
  revert parked cleaned
  cases kcep.state <;> decide

theorem leaveTimewait_moves {expired : CepId → Bool}
    (listed : cep ∈ mgr.timewaitList) (left : leaveTimewait expired mgr cep = some after) :
    Moves possible mgr after ∧ ∀ other ≠ cep, other ∈ mgr.timewaitList → other ∈ after.timewaitList := by
  simp only [leaveTimewait, bind_eq_bind, bind_eq_some_iff] at left
  obtain ⟨kcep, here, left⟩ := left
  split at left
  · cases left
    exact ⟨.refl, fun _ _ still => still⟩
  · split at left
    · cases left
      exact ⟨.refl, fun _ _ still => still⟩
    next unused =>
      rw [ne_eq, not_not] at unused
      have destroyed := sound.destroyed listed here unused
      obtain ⟨cut, removed, left⟩ := bind_eq_some_iff.mp left
      rw [if_pos destroyed] at left
      have frame := removeCep_frame mgr cep mgr.sends mgr.callbacks (mgr.timewaitList.erase cep)
      rw [frame] at removed
      obtain ⟨base, before, rfl⟩ := map_eq_some_iff.mp removed
      obtain ⟨kcep', connIdMap, connQpMap, there, _, _, rfl⟩ := removeCep_inv before
      obtain rfl : kcep = kcep' := some.inj (here.symm.trans there)
      refine ⟨(Moves.clean (.unlink before)).trans (.clean ?_), fun other ne still => ?_⟩
      · exact .free (ceps_setCep_self ..) destroyed unused rfl left
      · obtain ⟨_, _, rfl⟩ := destroyCep_inv left
        exact (mem_erase_of_ne ne).mpr still

theorem processTimewait_moves {expired : CepId → Bool}
    (processed : processTimewait mgr expired = some after) : Moves possible mgr after := by
  have walk : ∀ list : List CepId, list.Nodup → ∀ {mgr : CepMgr}, mgr.Sound →
      (∀ cep ∈ list, cep ∈ mgr.timewaitList) →
      list.foldlM (leaveTimewait expired) mgr = some after → Moves possible mgr after := by
    intro list
    induction list with
    | nil =>
      intro _ mgr _ _ ended
      cases ended
      exact .refl
    | cons cep rest ih =>
      intro nodup mgr sound listed walked
      obtain ⟨outside, nodup⟩ := nodup_cons.mp nodup
      rw [foldlM_cons] at walked
      obtain ⟨mid, left, walked⟩ := bind_eq_some_iff.mp walked
      obtain ⟨moves, others⟩ := leaveTimewait_moves sound (listed cep (mem_cons_self ..)) left
      refine moves.trans (ih nodup (moves.sound sound) (fun other member => ?_) walked)
      refine others other (fun same => outside (same ▸ member)) ?_
      exact listed other (mem_cons_of_mem _ member)
  exact walk mgr.timewaitList sound.timewait.nodup sound (fun _ listed => listed) processed

/-! ### Calls -/

/-- The client has been given the CEP: it is in no list that it still has to poll. -/
def CepMgr.given (mgr : CepMgr) (cep : CepId) : Bool :=
  (List.range mgr.nextCep).all fun listener =>
    (mgr.ceps listener).all fun kcep => !kcep.madList.contains (some cep)

/-- Calls are made for the CIDs that the clients have been given. -/
def CepMgr.owned (mgr : CepMgr) : CepEvent → Bool
  | .call handle cid _ =>
      match lookupCep mgr (some handle) cid with
      | some (some cep) => mgr.given cep
      | _ => true
  | _ => true

theorem CepMgr.Sound.not_queued_of_given (given : mgr.given cep) : ¬ mgr.Queued cep := by
  rintro ⟨listener, kcep, here, member⟩
  have below := sound.cids.below (view_of_ceps here _)
  have none := all_eq_true.mp given listener (mem_range.mpr below)
  simp [here, member] at none

/-- A client cannot name a CEP that has been cleaned up. -/
theorem CepMgr.Sound.live_of_lookup {handle : Nat} {cid : UInt32}
    (found : lookupCep mgr (some handle) cid = some (some cep)) (here : mgr.ceps cep = some kcep) :
    kcep.state.cleaned = false := by
  simp only [lookupCep] at found
  split at found
  · cases found
  · split at found
    · cases found
    next owner handle' bound same =>
      cases same
      obtain ⟨rfl, ⟨⟩⟩ := ite_none_right_eq_some.mp (some.inj found)
      obtain ⟨cleaned, entry⟩ := sound.cids.bound bound
      cases cleaned with
      | true => exact absurd bound (sound.cids.clients entry)
      | false =>
        have same : mgr.cidBook.ceps _ = some (kcep.cid, kcep.state.cleaned) := view_of_ceps here _
        exact (Prod.mk.inj (some.inj (same.symm.trans entry))).2
    next same => cases same

end

theorem callCep_inv {handle : Nat} {cid : UInt32} {status : ApiStatus}
    {act : CepId → Kcep → Option (ApiStatus × CepMgr)}
    (called : callCep mgr handle cid act = some (status, after)) :
    after = mgr ∨ ∃ cep kcep, lookupCep mgr (some handle) cid = some (some cep) ∧
      mgr.ceps cep = some kcep ∧ act cep kcep = some (status, after) := by
  simp only [callCep, bind_eq_bind, bind_eq_some_iff] at called
  obtain ⟨found, looked, called⟩ := called
  cases found with
  | none =>
    cases called
    exact .inl rfl
  | some cep =>
    obtain ⟨kcep, here, called⟩ := bind_eq_some_iff.mp called
    exact .inr ⟨cep, kcep, looked, here, called⟩

theorem CepCall.act_moves {call : CepCall} {status : ApiStatus} (sound : mgr.Sound)
    (here : mgr.ceps cep = some kcep) (live : kcep.state.cleaned = false) (free : ¬ mgr.Queued cep)
    (faults : ∀ fault ∈ call.faults kcep.state, possible fault)
    (called : call.act mgr cep kcep = some (status, after)) : Moves possible mgr after := by
  cases call with
  | listen => exact cepListen_moves here free called
  | cancelListen => exact kalCepCancelListen_moves sound here called
  | preReq => exact kalCepPreReq_moves here free faults called
  | sendReq => exact alCepSendReq_moves here free called
  | preRep => exact alCepPreRep_moves here free faults called
  | sendRep => exact alCepSendRep_moves here free faults called
  | rtu => exact alCepRtu_moves here free called
  | rej => exact alCepRej_moves here called
  | mra => exact alCepMra_moves here free called
  | established => exact alCepEstablished_moves here free called
  | lap => exact alCepLap_moves here free called
  | preApr => exact alCepPreApr_moves here free faults called
  | sendApr => exact alCepSendApr_moves here free faults called
  | dreq => exact alCepDreq_moves here free faults called
  | drep => exact alCepDrep_moves here called
  | poll => exact alCepPoll_moves here called
  | destroy => exact alDestroyCep_moves sound here live free faults called

/-! ### Runs -/

/-- Every event is a sequence of moves, with only the faults the event can cause. -/
theorem CepMgr.next_moves {event : CepEvent} (sound : mgr.Sound) (unsent : mgr.Unsent)
    (owned : mgr.owned event) (stepped : mgr.next event = some after) :
    Moves (· ∈ mgr.faults event) mgr after := by
  cases event with
  | create handle allocated grown =>
    obtain ⟨⟨status, made⟩, called, rfl⟩ := map_eq_some_iff.mp stepped
    exact alCreateCep_moves called
  | call handle cid call =>
    obtain ⟨⟨status, next⟩, called, rfl⟩ := map_eq_some_iff.mp stepped
    obtain rfl | ⟨cep, kcep, looked, here, called⟩ := callCep_inv called
    · exact .refl
    have given : mgr.given cep := by
      rw [CepMgr.owned, looked] at owned
      exact owned
    refine CepCall.act_moves sound here (sound.live_of_lookup looked here)
      (sound.not_queued_of_given given) (fun fault member => ?_) called
    simp only [CepMgr.faults, stateAt_of_lookup looked here, map_some, getD_some]
    exact member
  | recv mad outcome => exact cepMadRecvCb_moves sound (fun _ member => member) stepped
  | sendDone mad cep => exact cepMadSendCb_moves unsent (fun _ member => member) stepped
  | callbackDone cep => exact callbackDone_moves stepped
  | timewait expired => exact processTimewait_moves sound stepped

theorem createCepMgr_sound (listen connId connQp : RbMap CepId) :
    (createCepMgr listen connId connQp).Sound where
  cids := by
    refine ⟨nofun, nofun, nofun, nofun, nodup_range', fun cid free => ?_⟩
    obtain ⟨_, below⟩ := mem_range'_1.mp free
    exact below
  queues := ⟨fun ⟨_, _, _, here, _⟩ => (nomatch here), nofun, nofun⟩
  listens := (rbmapInit_contains listen).congr fun _ => ⟨nofun, nofun⟩
  timewait := ⟨nodup_nil, fun _ => ⟨nofun, nofun⟩⟩
  refs := ⟨nofun, fun _ => rfl⟩
  known := nofun

/-- The clients call for what they have been given, and no fault occurs of those to avoid. -/
def CepMgr.Avoids (avoided : List Fault) (mgr : CepMgr) (event : CepEvent) : Prop :=
  mgr.owned event = true ∧ ∀ fault ∈ mgr.faults event, fault ∉ avoided

instance (avoided : List Fault) (mgr : CepMgr) (event : CepEvent) :
    Decidable (mgr.Avoids avoided event) := inferInstanceAs (Decidable (_ ∧ _))

theorem Moves.keeps {inv : CepMgr → Prop} (moves : Moves possible mgr after) (sound : mgr.Sound)
    (kept : ∀ {fault mgr after}, Move fault mgr after → (∀ one, fault = some one → possible one) →
      mgr.Sound → inv mgr → inv after) (holds : inv mgr) : inv after := by
  induction moves with
  | refl => exact holds
  | tail earlier step ih =>
    obtain ⟨fault, move, allowed⟩ := step
    exact kept move allowed (Moves.sound earlier sound) ih

/-- The rule of invariants: what every move keeps, but for the faults that are avoided, holds
in every state that is reached without them. -/
theorem invariant_of_moves {inv : CepMgr → Prop} {avoided : List Fault}
    (base : ∀ listen connId connQp, inv (createCepMgr listen connId connQp))
    (kept : ∀ {fault mgr after}, Move fault mgr after → (∀ one, fault = some one → one ∉ avoided) →
      mgr.Sound → inv mgr → inv after)
    (reachable : cepMachine.Reachable (CepMgr.Avoids avoided) mgr) :
    mgr.Sound ∧ mgr.Unsent ∧ inv mgr := by
  induction reachable with
  | initial start =>
    obtain ⟨listen, connId, connQp, rfl⟩ := start
    exact ⟨createCepMgr_sound .., fun _ ⟨_, _, here, _⟩ => (nomatch here), base ..⟩
  | step _ careful stepped ih =>
    obtain ⟨sound, unsent, holds⟩ := ih
    obtain ⟨owned, avoids⟩ := careful
    have moves := next_moves sound unsent owned stepped
    refine ⟨moves.sound sound, moves.keeps sound (fun move _ => move.unsent) unsent,
      moves.keeps sound ?_ holds⟩
    exact fun move allowed => kept move fun one same => avoids one (allowed one same)

/-! ### Sample runs -/

/-- A manager as it is created. -/
def newMgr : CepMgr :=
  let memory : RbMap CepId := ⟨⟨fun _ _ => .nil, fun _ => .nil, fun _ => .black⟩, 0⟩
  createCepMgr memory memory memory

/-- Everything outside of the manager succeeds. -/
def Outcome.fine : Outcome := ⟨true, true, true, true⟩

/-- Nothing goes wrong while a MAD is received. -/
def RecvOutcome.fine : RecvOutcome := ⟨.fine, fun _ => (0, 0), true, true, true⟩

theorem newMgr_initial : cepMachine.initial newMgr := ⟨_, _, _, rfl⟩

theorem newMgr_reachable {guard : CepMgr → CepEvent → Prop} {events : List CepEvent}
    (guarded : Machine.Guarded CepMgr.next guard newMgr events)
    (ended : Machine.run CepMgr.next newMgr events = some mgr) :
    cepMachine.Reachable guard mgr :=
  .run (.initial newMgr_initial) guarded ended

end WinOFED.Cep
