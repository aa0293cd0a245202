import WinOFED.Cep.Sound

/-! The moves keep the books of the CEP manager, whatever faults they are marked by. -/
namespace WinOFED.Cep
open Complib List Option CepState

/-- A listen that is entered is in the map. -/
theorem enterListen_contains {table after : ListenTable} {member : CepId → Prop} {cep : CepId}
    {info : ListenInfo} {allocated : Bool} (contains : table.map.Contains member)
    (fresh : ¬ member cep) (entered : enterListen table cep info allocated = some (.success, after)) :
    after.map.Contains fun other => other = cep ∨ member other := by
  obtain ⟨place, search, outcome⟩ := contains.search fun listen => listenProbe info (table.params listen)
  unfold enterListen at entered
  split at entered
  · cases entered
  rw [search] at entered
  simp only [bind_eq_bind, bind_some] at entered
  obtain ⟨item, found, _⟩ | ⟨ended, inserts⟩ := outcome
  · rw [found, if_pos (by simp [rbmapEnd])] at entered
    cases entered
  · rw [if_neg (not_not_intro ended)] at entered
    split at entered
    · cases entered
    obtain ⟨grown, inserted, holds⟩ := inserts cep fresh
    rw [inserted] at entered
    cases entered
    exact holds

/-- The manager without a CEP that had a CID. -/
def CepMgr.freeCep (mgr : CepMgr) (cep : CepId) (cid : Nat) : CepMgr :=
  { mgr.setCid cid { mgr.cidVector cid with hAl := none } with
    freeCids := cid :: mgr.freeCids
    ceps := fun id => if id = cep then none else mgr.ceps id }

theorem destroyCep_inv {mgr after : CepMgr} {cep : CepId} (freed : destroyCep mgr cep = some after) :
    ∃ kcep, mgr.ceps cep = some kcep ∧ after = mgr.freeCep cep kcep.cid := by
  simp only [destroyCep, bind_eq_bind, bind_eq_some_iff, some.injEq] at freed
  obtain ⟨kcep, here, same⟩ := freed
  exact ⟨kcep, here, same.symm⟩

theorem CepMgr.view_freeCep {β : Type*} (mgr : CepMgr) (cep : CepId) (cid : Nat) (field : Kcep → β) :
    (mgr.freeCep cep cid).view field = Function.update (mgr.view field) cep none := by
  funext id
  by_cases equal : id = cep
  · simp [CepMgr.view, freeCep, equal]
  · simp [CepMgr.view, freeCep, equal]

namespace CepMgr.Sound
variable {mgr next : CepMgr} {cep : CepId} {kcep : Kcep} {fault : Option Fault}

/-! ### Lists of MADs -/

section
variable (sound : mgr.Sound)
include sound

/-- A MAD goes to the end of a list, in which REQs are in order afterwards. -/
theorem queueMad {sendContext1 : Option CepId} (here : mgr.ceps cep = some kcep)
    (ordered : ∀ after : Kcep, after.madList = kcep.madList ++ [sendContext1] →
      after.state = kcep.state → (mgr.setCep cep after).queueBook.Sound)
    (queued : queueMad mgr cep sendContext1 = some next) : next.Sound := by
  obtain ⟨kcep', there, cases⟩ := queueMad_inv queued
  obtain rfl : kcep = kcep' := some.inj (here.symm.trans there)
  obtain ⟨_, rfl⟩ | ⟨_, rfl⟩ | ⟨_, _, rfl⟩ := cases
  · exact sound
  · exact ⟨sound.cids_same here rfl rfl, ordered _ rfl rfl, sound.listens_same here rfl,
      sound.timewait_same here rfl, sound.refs_same here rfl rfl, sound.known_same here (by rfl)⟩
  · refine ⟨sound.cids_same here rfl rfl, ordered _ rfl rfl, sound.listens_same here rfl,
      sound.timewait_same here rfl, ?_, sound.known_same here (by rfl)⟩
    refine @refs_change mgr cep kcep _ sound here mgr.sends (cep :: mgr.callbacks) (fun other ne => ?_) ?_
    · rw [count_cons_of_ne (Ne.symm ne)]
    · simp only [count_cons_self]
      omega

theorem enqueue (free : ¬ mgr.Queued cep) (queued : Cep.queueMad mgr cep none = some next) :
    next.Sound := by
  obtain ⟨kcep, here, -⟩ := queueMad_inv queued
  refine sound.queueMad here (fun after list _ => ?_) queued
  refine sound.queues_change here ?_ fun queued => absurd queued free
  rw [list, reduceOption_append, reduceOption_singleton, toList_none, append_nil]

theorem enqueueReq {listener : CepId} {kListener : Kcep}
    (listening : mgr.ceps listener = some kListener) (listen : kListener.state = .listen)
    (here : mgr.ceps cep = some kcep) (waiting : kcep.state.waiting) (quiet : kcep.madList = [])
    (free : ¬ mgr.Queued cep) (queued : Cep.queueMad mgr listener (some cep) = some next) :
    next.Sound := by
  have other : cep ≠ listener := by
    rintro rfl
    rw [listening, some.injEq] at here
    subst here
    simp [listen, CepState.waiting] at waiting
  have unqueued : ¬ mgr.Queued listener := sound.not_queued listening (by simp [listen, CepState.waiting])
  refine sound.queueMad listening (fun after list state => ?_) queued
  have books := view_setCep mgr listener after fun kcep => (kcep.madList, kcep.state.waiting)
  unfold queueBook
  rw [books, list, state]
  refine sound.queues.push (view_of_ceps listening _) ?_ (mt queued_iff.mpr free)
    (mt queued_iff.mpr unqueued) other
  rw [queueBook, view_of_ceps here, quiet, waiting]

theorem poll {sendContext1 : Option CepId} {rest : List (Option CepId)}
    (here : mgr.ceps cep = some kcep) (first : kcep.madList = sendContext1 :: rest) :
    (mgr.setCep cep { kcep with madList := rest }).Sound := by
  refine ⟨sound.cids_same here rfl rfl, sound.queues_change here ?_ fun queued => ?_,
    sound.listens_same here rfl, sound.timewait_same here rfl, sound.refs_same here rfl rfl,
    sound.known_same here (by rfl)⟩
  · rw [first]
    cases sendContext1 with
    | none => rw [reduceOption_cons_of_none]
    | some new =>
      rw [reduceOption_cons_of_some]
      exact sublist_cons_self ..
  · rw [(sound.of_queued here queued).1] at first
    cases first

/-! ### References -/

theorem release (running : cep ∈ mgr.callbacks) (here : mgr.ceps cep = some kcep) :
    ({ mgr with callbacks := mgr.callbacks.erase cep }.setCep cep
      { kcep with refCnt := kcep.refCnt - 1 }).Sound := by
  refine ⟨sound.cids_same here rfl rfl,
    sound.queues_same here rfl fun queued => (sound.of_queued here queued).2,
    sound.listens_same here rfl, sound.timewait_same here rfl, ?_,
    sound.known_same here (by rfl)⟩
  have one := count_pos_iff.mpr running
  refine @refs_change mgr cep kcep _ sound here mgr.sends (mgr.callbacks.erase cep) (fun other ne => ?_) ?_
  · rw [count_erase_of_ne ne]
  · simp only [count_erase_self]
    omega

/-! ### Creation and binding -/

/-- Only the CID vector changes. -/
theorem setCid {cid : Nat} {entry : CidEntry} (pCep : entry.pCep = (mgr.cidVector cid).pCep)
    (bound : ∀ owner, entry.hAl = some owner → ∃ cleaned, mgr.cidBook.ceps (mgr.cidVector cid).pCep = some (cid, cleaned))
    (clients : ∀ handle, entry.hAl = some (.user handle) → (mgr.cidVector cid).hAl = some (.user handle)) :
    (mgr.setCid cid entry).Sound :=
  ⟨@CidBook.Sound.setEntry _ sound.cids cid entry pCep bound clients, sound.queues, sound.listens,
    sound.timewait, sound.refs, sound.known⟩

theorem unbind (unbound : unbindCep mgr cep = some next) : next.Sound := by
  obtain ⟨kcep, here, rfl⟩ := unbindCep_inv unbound
  have shown : mgr.cidBook.ceps cep = some (kcep.cid, kcep.state.cleaned) := view_of_ceps here _
  refine sound.setCid rfl (fun owner _ => ?_) nofun
  have entry := (sound.cids.entry shown).1
  exact ⟨_, entry ▸ shown⟩

theorem renumber {cid : Nat} (modifier : UInt8) :
    (mgr.setCid cid { mgr.cidVector cid with modifier }).Sound :=
  sound.setCid rfl (fun _ => sound.cids.bound) fun _ => id

/-- A CEP that was not there before enters the books with a CID that was free. -/
theorem insertNew {cid size : Nat} {free : List Nat} {entry : CidEntry}
    (taken : mgr.freeCids = cid :: free ∧ size = mgr.cidSize ∨ cid = mgr.cidSize ∧ size = mgr.cidSize + cepCidGrow ∧ mgr.freeCids = [] ∧ free = List.range' (mgr.cidSize + 1) (cepCidGrow - 1))
    (pCep : entry.pCep = mgr.nextCep) (localCommId : UInt32) :
    (({ mgr with cidSize := size, freeCids := free, nextCep := mgr.nextCep + 1 }.setCid cid
      entry).setCep mgr.nextCep (newKcep cid localCommId)).Sound := by
  have unseen : ∀ {β : Type} (field : Kcep → β), mgr.view field mgr.nextCep = none := by
    intro β field
    rw [view, sound.fresh]
    rfl
  refine ⟨?_, ?_, ?_, ?_, ?_, ?_⟩
  · have cids := @CidBook.Sound.create _ sound.cids cid size free entry taken pCep
    simp only [cidBook, view_setCep]
    exact cids
  · simp only [queueBook, view_setCep]
    exact sound.queues.create _
  · simp only [view_setCep]
    exact sound.listens.other (by rw [unseen]; rintro ⟨⟩) (by simp [newKcep, CepState.listening])
  · simp only [view_setCep]
    exact sound.timewait.other (by rw [unseen]; rintro ⟨⟩) (by simp [newKcep, parked])
  · refine @RefBook.Sound.change mgr.nextCep _ _ sound.refs _ (view_setCep ..) (fun _ _ => rfl) ?_
      (by rintro ⟨⟩)
    rintro refCnt cleaned ⟨⟩
    have none := sound.refs.freed (unseen _)
    change (1 : Int) = 1 + (mgr.refBook.taken mgr.nextCep : Int)
    omega
  · intro id other there
    obtain ⟨-, rfl⟩ | ⟨-, there⟩ := of_ceps_setCep there
    · rfl
    · exact sound.known there

theorem create {mid : CepMgr} {allocated grown : Bool} (owner : Option Owner)
    (created : createCep mgr allocated grown = some (cep, mid)) (here : mid.ceps cep = some kcep) :
    (bindCep mid kcep.cid owner).Sound := by
  obtain ⟨cid, size, free, rfl, taken, rfl⟩ := createCep_inv created
  rw [ceps_setCep_self, some.injEq] at here
  subst here
  have new := @insertNew mgr sound cid size free
    { hAl := owner, pCep := mgr.nextCep
      modifier := nextModifier cid (mgr.cidVector cid).modifier } taken rfl
    (commId cid (nextModifier cid (mgr.cidVector cid).modifier))
  convert new using 1
  simp only [bindCep, CepMgr.setCid, setCep, newKcep, CepMgr.mk.injEq, true_and, and_true]
  funext index
  by_cases equal : index = cid
  · simp [equal]
  · simp [equal]

end

section
variable (sound : mgr.Sound) (here : mgr.ceps cep = some kcep)
include sound here

/-- A CEP gets what a REP says. -/
theorem insertRep {localCommId : UInt32} {localCaGuid : UInt64} {lclQpn : UInt32}
    {misread : Misread} {result : Inserted}
    (sent : kcep.state = .reqSent ∨ kcep.state = .reqMraRcvd)
    (inserted : insertCep (mgr.setCep cep (saveWireRep kcep localCommId localCaGuid lclQpn)) cep misread = some (result, next)) :
    next.Sound ∧ ∀ {after}, next.ceps cep = some after → after.state = .repRcvd := by
  have active : kcep.state.active ∧ kcep.state.waiting = false := by
    rcases sent with was | was <;> rw [was] <;> decide
  constructor
  · refine sound.insert here ?_ active.1 ?_ (fun queued => ?_) inserted
    · exact ⟨rfl, rfl, rfl⟩
    · rfl
    · exact absurd queued (sound.not_queued here active.2)
  · intro after there
    obtain ⟨saved, _, _, stored, rfl⟩ := insertCep_inv inserted
    rw [ceps_setCep_self, some.injEq] at there stored
    subst stored there
    split <;> rfl

/-! ### Listening -/

theorem enter {info : ListenInfo} {allocated : Bool} {table : ListenTable}
    (idle : kcep.state = .idle) (free : ¬ mgr.Queued cep)
    (entered : enterListen mgr.listens cep info allocated = some (.success, table)) :
    (setListens mgr cep { kcep with state := .listen } table).Sound := by
  have cleaned : CepState.listen.cleaned = kcep.state.cleaned := by rw [idle]; rfl
  refine ⟨sound.cids_same here rfl cleaned,
    sound.queues_same here rfl fun queued => absurd queued free, ?_,
    sound.timewait_same here (by rw [idle]; rfl), sound.refs_same here rfl cleaned,
    sound.known_set rfl⟩
  have fresh : ¬ mgr.view (fun kcep => kcep.state.listening) cep = some true := by
    rw [view_of_ceps here, idle]
    nofun
  have holds := @enterListen_contains mgr.listens _ _ _ _ _ sound.listens fresh entered
  simp only [setListens, view_setCep]
  exact Marked.set holds

theorem leave {table : ListenTable} (listening : kcep.state = .listen)
    (left : cancelListen mgr.listens cep = some table) :
    (setListens mgr cep { kcep with state := .idle } table).Sound := by
  have cleaned : idle.cleaned = kcep.state.cleaned := by rw [listening]; rfl
  refine ⟨sound.cids_same here rfl cleaned, sound.queues_same here rfl fun _ => rfl, ?_,
    sound.timewait_same here (by rw [listening]; rfl), sound.refs_same here rfl cleaned,
    sound.known_set rfl⟩
  have inside : mgr.view (fun kcep => kcep.state.listening) cep = some true := by
    rw [view_of_ceps here, listening]
    rfl
  obtain ⟨shorter, removed, holds⟩ := sound.listens.remove inside
  rw [cancelListen, show rbmapRemoveItem mgr.listens.map _ = some shorter from removed] at left
  cases left
  simp only [setListens, view_setCep]
  exact Marked.clear (by rintro ⟨⟩) holds

/-! ### Destruction -/

/-- A CEP is cleaned up, and with it goes the reference that was charged when it was made. -/
theorem refs_clean {after : Kcep} (before : kcep.state.cleaned = false)
    (cleaned : after.state.cleaned) (refCnt : after.refCnt = kcep.refCnt - 1) :
    (mgr.setCep cep after).refBook.Sound := by
  refine @refs_change mgr cep kcep after sound here mgr.sends mgr.callbacks (fun _ _ => rfl) ?_
  simp only [before, cleaned, refCnt]
  simp only [if_true, Bool.false_eq_true, if_false]
  omega

theorem retire (active : kcep.state.active) (free : ¬ mgr.Queued cep)
    (unbound : mgr.Unbound kcep.cid) (pMad : Option MadId) :
    (retire mgr cep { kcep with pMad }).Sound := by
  obtain ⟨cleaned, listening, parked, _⟩ := facts_of_active active
  exact ⟨sound.cids_clean here rfl rfl unbound,
    sound.queues_same here rfl fun queued => absurd queued free,
    sound.listens_same here (by rw [listening]; rfl), sound.timewait_append here parked rfl,
    sound.refs_clean here cleaned rfl rfl, sound.known_set rfl⟩

/-- A CEP is cleaned up that is parked, or still sends a DREQ. -/
theorem cleanUp {state next : CepState} (was : kcep.state = state) (unbound : mgr.Unbound kcep.cid)
    (cleans : state.cleaned = false ∧ next.cleaned ∧ next.known) (idle : state.waiting = false)
    (alike : next.listening = state.listening ∧ next.parked = state.parked) :
    (mgr.setCep cep { kcep with state := next, refCnt := kcep.refCnt - 1 }).Sound := by
  subst was
  exact ⟨sound.cids_clean here rfl cleans.2.1 unbound,
    sound.queues_same here rfl fun queued => absurd queued (sound.not_queued here idle),
    sound.listens_same here alike.1, sound.timewait_same here alike.2,
    sound.refs_clean here cleans.1 cleans.2.1 rfl, sound.known_set cleans.2.2⟩

end

theorem hangUpDreq (mad : MadId) (sound : mgr.Sound) (here : mgr.ceps cep = some kcep)
    (connected : kcep.state.connected) (unbound : mgr.Unbound kcep.cid) (busySend : Bool) :
    ((mgr.startSend mad cep busySend).setCep cep
      { kcep with
        pSendMad := some mad, refCnt := kcep.refCnt + 1 - 1, state := .dreqDestroy }).Sound := by
  have facts : kcep.state.active ∧ kcep.state.waiting = false := by
    revert connected
    cases kcep.state <;> decide
  obtain ⟨cleaned, listening, parked, _⟩ := facts_of_active facts.1
  refine ⟨sound.cids_clean here rfl rfl unbound,
    sound.queues_same here rfl fun queued => absurd queued (sound.not_queued here facts.2),
    sound.listens_same here (by rw [listening]; rfl), sound.timewait_same here (by rw [parked]; rfl),
    ?_, sound.known_set rfl⟩
  refine @refs_change mgr cep kcep _ sound here ((mad, cep) :: mgr.sends) mgr.callbacks
    (fun other ne => ?_) ?_
  · simp [count_cons_of_ne (Ne.symm ne)]
  · have gone : dreqDestroy.cleaned = true := rfl
    simp only [map_cons, count_cons_self, cleaned, gone, if_true, Bool.false_eq_true, if_false]
    omega

theorem free (sound : mgr.Sound) (here : mgr.ceps cep = some kcep)
    (destroyed : kcep.state = .destroy) (unused : kcep.refCnt = 0)
    (freed : destroyCep { mgr with timewaitList := mgr.timewaitList.erase cep } cep = some next) :
    next.Sound := by
  obtain ⟨kcep', there, rfl⟩ := destroyCep_inv freed
  obtain rfl : kcep = kcep' := some.inj (here.symm.trans there)
  have unqueued : ¬ mgr.Queued cep := sound.not_queued here (by rw [destroyed]; rfl)
  refine ⟨?_, ?_, ?_, ?_, ?_, ?_⟩
  · simp only [cidBook, view_freeCep]
    exact sound.cids.release (view_of_ceps here _) rfl
  · simp only [queueBook, view_freeCep]
    exact sound.queues.release (mt queued_iff.mpr unqueued)
  · simp only [view_freeCep]
    refine sound.listens.other ?_ (by rintro ⟨⟩)
    rw [view_of_ceps here, destroyed]
    rintro ⟨⟩
  · simp only [view_freeCep]
    exact sound.timewait.erase (by rintro ⟨⟩)
  · refine @RefBook.Sound.change cep _ _ sound.refs none (view_freeCep ..) (fun _ _ => rfl) (by rintro _ _ ⟨⟩)
      fun _ => ?_
    have counted := sound.refs.counted (view_of_ceps here _)
    rw [destroyed, unused] at counted
    change mgr.refBook.taken cep = 0
    simp only [cleaned, if_true] at counted
    omega
  · intro id other found
    exact sound.known (ite_none_left_eq_some.mp found).2

end CepMgr.Sound

/-- A CEP that is sending is not in the list of a listener, does not listen and is not parked. -/
theorem CepState.facts_of_ending {state : CepState}
    (ending : state.connected ∨ state = .repRcvd ∨ state = .repMraSent ∨ state = .dreqRcvd ∨
      state = .dreqSent) : state.active ∧ state.waiting = false := by
  revert ending
  cases state <;> decide

/-- Every move keeps the books. -/
theorem Move.sound {fault : Option Fault} {mgr after : CepMgr} (move : Move fault mgr after)
    (sound : mgr.Sound) : after.Sound := by
  cases move with
  | turn here keeps turn remote cut held =>
    exact sound.stay here keeps turn.active.1 turn.active.2 held
  | unlink removed => exact sound.unlink removed
  | refuse here ready =>
    exact (sound.other _ _ _ _).still here ⟨rfl, rfl, rfl⟩ rfl
  | transmit mad here transmit free => exact sound.transmit mad here transmit free _ _
  | park here ending =>
    obtain ⟨active, busy⟩ := facts_of_ending ending
    obtain ⟨cleaned, listening, parked, _⟩ := facts_of_active active
    exact sound.parkCep here ⟨rfl, rfl, rfl⟩ (by rw [cleaned]; rfl) listening parked rfl busy
  | completeOther sent here other => exact sound.endSend sent
  | complete sent here own finish cut =>
    obtain same | ⟨before, active, busy⟩ := finish.active
    · exact (sound.endSend sent).still here ⟨rfl, rfl, rfl⟩ same
    · refine (sound.endSend sent).stay here ⟨rfl, rfl, rfl⟩ before active fun queued => ?_
      exact absurd queued (sound.not_queued here busy)
  | completeDreq sent here own ending =>
    obtain ⟨was, rfl⟩ | ⟨was, rfl⟩ := ending
    all_goals
      exact (sound.endSend sent).parkCep here ⟨rfl, rfl, rfl⟩ (by rw [was]; rfl) (by rw [was]; rfl)
        (by rw [was]; rfl) rfl (by rw [was]; rfl)
  | drepDestroy here was =>
    exact sound.parkCep here ⟨rfl, rfl, rfl⟩ (by rw [was]; rfl) (by rw [was]; rfl)
      (by rw [was]; rfl) rfl (by rw [was]; rfl)
  | enqueue free queued => exact sound.enqueue free queued
  | enqueueReq listening listen here waiting quiet _ free queued =>
    exact sound.enqueueReq listening listen here waiting quiet free queued
  | poll here first => exact sound.poll here first
  | quiet here => exact sound.still here ⟨rfl, rfl, rfl⟩ rfl
  | release running here => exact sound.release running here
  | create owner created here => exact sound.create owner created here
  | unbind unbound => exact sound.unbind unbound
  | linkReq here idle free inserted valid =>
    refine sound.insert here ?_ (by rw [idle]; rfl) ?_ (fun queued => absurd queued free) inserted
    · exact ⟨rfl, rfl, rfl⟩
    · rfl
  | linkRep here sent inserted cancelled =>
    obtain ⟨linked, there, rfl⟩ := CepMgr.update_eq_some.mp cancelled
    exact (sound.insertRep here sent inserted).1.still there ⟨rfl, rfl, rfl⟩ rfl
  | bounceRep here sent inserted failed restored =>
    obtain ⟨bounced, there, rfl⟩ := CepMgr.update_eq_some.mp restored
    obtain ⟨linked, state⟩ := sound.insertRep here sent inserted
    have before := state there
    have active : bounced.state.active ∧ bounced.state.waiting = false := by rw [before]; decide
    refine linked.stay there ⟨rfl, rfl, rfl⟩ active.1 ?_ fun queued => ?_
    · rcases sent with was | was <;> rw [was] <;> rfl
    · exact absurd queued (linked.not_queued there active.2)
  | enter here idle free entered => exact sound.enter here idle free entered
  | leave here listening left => exact sound.leave here listening left
  | retire here active quiet free unbound => exact sound.retire here active free unbound _
  | retireParked here was unbound | hangUp here was unbound =>
    exact sound.cleanUp here was unbound (by decide) rfl ⟨rfl, rfl⟩
  | hangUpDreq mad here connected unbound => exact sound.hangUpDreq mad here connected unbound _
  | free here destroyed unused remote freed => exact sound.free here destroyed unused freed
  | renumber modifier => exact sound.renumber modifier
  | getMad => exact sound.other _ _ _ _

end WinOFED.Cep
