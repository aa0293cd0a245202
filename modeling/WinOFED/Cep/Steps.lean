import WinOFED.Cep.MoveSound

/-! What the handlers of received MADs do, as moves. -/
namespace WinOFED.Cep
open Complib CepMgr Option
variable {possible : Fault → Prop} {mgr mid after : CepMgr} {cep : CepId} {kcep : Kcep}

theorem Fault.when_allowed {fault : Fault} {condition : Bool} (allowed : condition → possible fault) :
    ∀ one, fault.when condition = some one → possible one := by
  intro one
  rw [Fault.when]
  split
  next holds =>
    rintro ⟨⟩
    exact allowed holds
  · nofun

namespace Moves

theorem refl : Moves possible mgr mgr := Relation.ReflTransGen.refl

theorem one {fault : Option Fault} (move : Move fault mgr after)
    (allowed : ∀ one, fault = some one → possible one) : Moves possible mgr after :=
  .single ⟨fault, move, allowed⟩

theorem clean (move : Move none mgr after) : Moves possible mgr after := one move nofun

theorem trans (first : Moves possible mgr mid) (second : Moves possible mid after) :
    Moves possible mgr after := Relation.ReflTransGen.trans first second

theorem sound (moves : Moves possible mgr after) (sound : mgr.Sound) : after.Sound := by
  induction moves with
  | refl => exact sound
  | tail _ step ih =>
    obtain ⟨fault, move, _⟩ := step
    exact move.sound ih

end Moves

variable {fault : Option Fault} {reason : UInt16} {listener id : CepId} {outcome : RecvOutcome}
  {req : ReqMad} {remoteCommId localCommId : UInt32} {localCaGuid : UInt64} {next : Kcep}

/-! ### CEPs in the lists of listeners -/

theorem CepMgr.queued_setCep {after : Kcep} (here : mgr.ceps cep = some kcep)
    (list : after.madList.reduceOption = kcep.madList.reduceOption) :
    (mgr.setCep cep after).Queued id ↔ mgr.Queued id := by
  have same : some id ∈ after.madList ↔ some id ∈ kcep.madList := by
    rw [← List.reduceOption_mem_iff, list, List.reduceOption_mem_iff]
  constructor
  · rintro ⟨listener, other, there, member⟩
    obtain ⟨rfl, rfl⟩ | ⟨-, there⟩ := of_ceps_setCep there
    · exact ⟨listener, kcep, here, same.mp member⟩
    · exact ⟨listener, other, there, member⟩
  · rintro ⟨listener, other, there, member⟩
    by_cases equal : listener = cep
    · subst equal
      rw [here, some.injEq] at there
      exact ⟨listener, after, ceps_setCep_self .., same.mpr (by rwa [there])⟩
    · exact ⟨listener, other, by rwa [ceps_setCep_of_ne _ _ equal], member⟩

theorem CepMgr.ceps_setCep_congr {held : Kcep} (ceps : after.ceps = (mgr.setCep cep held).ceps)
    (next : Kcep) : (after.setCep cep next).ceps = (mgr.setCep cep next).ceps := by
  funext id
  by_cases equal : id = cep
  · rw [equal, ceps_setCep_self, ceps_setCep_self]
  · rw [ceps_setCep_of_ne _ _ equal, ceps_setCep_of_ne _ _ equal, ceps, ceps_setCep_of_ne _ _ equal]

theorem CepMgr.queued_congr {other : CepMgr} (same : mgr.ceps = other.ceps) :
    mgr.Queued id ↔ other.Queued id := by
  rw [Queued, Queued, same]

/-- The CEP after `__insert_cep` is the one stored before, but without the remote identifiers if
it is not in the maps. -/
theorem insertCep_stored {saved : Kcep} {misread : Misread} {result : Inserted}
    (inserted : insertCep (mgr.setCep cep saved) cep misread = some (result, after)) :
    ∃ held, after.ceps = (mgr.setCep cep held).ceps ∧ held.stage = saved.stage ∧
      held.madList = saved.madList ∧ (result ≠ .inserted → held.remote = (0, 0)) := by
  obtain ⟨kcep, connIdMap, connQpMap, stored, rfl⟩ := insertCep_inv inserted
  rw [ceps_setCep_self, some.injEq] at stored
  subst stored
  have ceps := fun held => congrArg ceps (setCep_setCep mgr cep saved held)
  split_ifs with success
  · exact ⟨saved, ceps _, rfl, rfl, fun failed => absurd success failed⟩
  · exact ⟨_, ceps _, rfl, rfl, fun _ => rfl⟩

/-- A CEP changes, and the REQs in its list do not. -/
def CepMgr.Touches (mgr after : CepMgr) (cep : CepId) : Prop :=
  ∃ kcep next, mgr.ceps cep = some kcep ∧ after.ceps = (mgr.setCep cep next).ceps ∧
    next.madList.reduceOption = kcep.madList.reduceOption

namespace CepMgr.Touches

section
variable (here : mgr.ceps cep = some kcep)
include here

theorem refl : mgr.Touches mgr cep := ⟨kcep, kcep, here, by rw [setCep_same here], rfl⟩

theorem set (list : next.madList = kcep.madList) :
    mgr.Touches (mgr.setCep cep next) cep := ⟨kcep, next, here, rfl, by rw [list]⟩

theorem park (list : next.madList = kcep.madList) :
    mgr.Touches (mgr.park cep next) cep := ⟨kcep, next, here, rfl, by rw [list]⟩

end

theorem trans (first : mgr.Touches mid cep) (second : mid.Touches after cep) : mgr.Touches after cep := by
  obtain ⟨kcep, next, here, ceps, list⟩ := first
  obtain ⟨kcep', last, there, ceps', list'⟩ := second
  rw [ceps, ceps_setCep_self, some.injEq] at there
  subst there
  exact ⟨kcep, last, here, ceps'.trans (ceps_setCep_congr ceps last), list'.trans list⟩

theorem other (touches : mgr.Touches after cep) (ne : id ≠ cep) : after.ceps id = mgr.ceps id := by
  obtain ⟨_, next, _, ceps, _⟩ := touches
  rw [ceps, ceps_setCep_of_ne _ _ ne]

theorem queued (touches : mgr.Touches after cep) : after.Queued id ↔ mgr.Queued id := by
  obtain ⟨kcep, next, here, ceps, list⟩ := touches
  rw [queued_congr ceps, queued_setCep here list]

theorem of_queueMad (queued : queueMad mgr cep none = some after) : mgr.Touches after cep := by
  have list : ∀ list : List (Option CepId), (list ++ [none]).reduceOption = list.reduceOption := by
    intro list
    rw [List.reduceOption_append, List.reduceOption_singleton, toList_none, List.append_nil]
  obtain ⟨kcep, here, ⟨_, rfl⟩ | ⟨_, rfl⟩ | ⟨_, _, rfl⟩⟩ := queueMad_inv queued
  · exact .refl here
  · exact ⟨kcep, _, here, rfl, list _⟩
  · exact ⟨kcep, _, here, rfl, list _⟩

theorem of_removeCep (removed : removeCep mgr cep = some after) : mgr.Touches after cep := by
  obtain ⟨kcep, _, _, here, _, _, rfl⟩ := removeCep_inv removed
  exact ⟨kcep, _, here, rfl, rfl⟩

theorem of_update {change : Kcep → Kcep} (updated : mgr.update cep change = some after)
    (same : ∀ kcep, (change kcep).madList = kcep.madList) : mgr.Touches after cep := by
  obtain ⟨kcep, here, rfl⟩ := update_eq_some.mp updated
  exact ⟨kcep, _, here, rfl, by rw [same]⟩

end CepMgr.Touches

/-! ### REJ -/

theorem Kcep.abort_of_quiet (kcep : Kcep) (silent : kcep.state.sent = false)
    (unprepared : kcep.state.prep = false) : kcep.abort .idle = { kcep with state := .idle } := by
  simp [Kcep.abort, silent, unprepared]

/-- A connection is aborted and its CEP taken out of the maps. -/
theorem abort_moves {change : Kcep → Kcep} (here : mgr.ceps cep = some kcep)
    (connecting : kcep.state.connecting) (removed : removeCep mgr cep = some mid)
    (same : ∀ held, held.state = kcep.state → change held = held.abort .idle)
    (aborted : mid.update cep change = some after) : Moves possible mgr after := by
  obtain ⟨kcep', connIdMap, connQpMap, there, _, _, rfl⟩ := removeCep_inv removed
  obtain rfl : kcep = kcep' := some.inj (here.symm.trans there)
  rw [update_setCep, some.injEq, same _ (by rfl)] at aborted
  subst aborted
  let cleared : Kcep := { kcep with remoteCommId := 0, remoteQpn := 0 }
  refine (Moves.clean (.unlink removed)).trans (.clean ?_)
  have keeps : cleared.Keeps (cleared.abort .idle) := ⟨rfl, rfl, rfl⟩
  have move := Move.turn (ceps_setCep_self (mgr.setConn connIdMap connQpMap) cep cleared) keeps (.abort connecting) (.inl rfl)
    (fun _ => .inr (.inl rfl)) fun _ => rfl
  rwa [setCep_setCep] at move

/-- A CEP that is in no listener's list changes and gets a MAD. -/
theorem Moves.queueFree (moves : Moves possible mgr mid) (touches : mgr.Touches mid cep)
    (free : ¬ mgr.Queued cep) (queued : queueMad mid cep none = some after) :
    Moves possible mgr after :=
  moves.trans (.clean (.enqueue (mt touches.queued.mp free) queued))

theorem Moves.queue (moves : Moves possible mgr mid) (touches : mgr.Touches mid cep)
    (sound : mgr.Sound) (here : mgr.ceps cep = some kcep) (busy : kcep.state.waiting = false)
    (queued : queueMad mid cep none = some after) : Moves possible mgr after :=
  moves.queueFree touches (sound.not_queued here busy) queued

theorem processRej_inv (rejected : processRej mgr cep reason = some after) :
    ∃ kcep, mgr.ceps cep = some kcep ∧
      (after = mgr ∨
        (kcep.state.connecting ∧ kcep.state ≠ .reqRcvd ∧ ∃ cut idle,
          removeCep mgr cep = some cut ∧
          cut.update cep (fun kcep => kcep.abort .idle) = some idle ∧
          queueMad idle cep none = some after) ∨
        (kcep.state = .reqRcvd ∧ ∃ cut, removeCep mgr cep = some cut ∧
          cut.update cep (fun kcep => { kcep with state := .idle }) = some after) ∨
        (kcep.state.connected ∧
          queueMad (mgr.park cep
            { kcep with pMad := if kcep.state.prep then none else kcep.pMad, state := .timewait })
            cep none = some after)) := by
  simp only [processRej, bind_eq_bind, bind_eq_some_iff] at rejected
  obtain ⟨kcep, here, rejected⟩ := rejected
  refine ⟨kcep, here, ?_⟩
  split at rejected
  -- the states of a connection that is being established
  iterate 9 next state =>
      rw [state]
      split at rejected
      · exact .inl (some.inj rejected).symm
      · obtain ⟨cut, removed, rejected⟩ := bind_eq_some_iff.mp rejected
        obtain ⟨idle, aborted, queued⟩ := bind_eq_some_iff.mp rejected
        exact .inr (.inl ⟨rfl, nofun, cut, idle, removed, aborted, queued⟩)
  · next state =>
      obtain ⟨cut, removed, idle⟩ := bind_eq_some_iff.mp rejected
      exact .inr (.inr (.inl ⟨state, cut, removed, idle⟩))
  -- those of one that is established
  iterate 7 next state => exact .inr (.inr (.inr ⟨by rw [state]; rfl, rejected⟩))
  · exact .inl (some.inj rejected).symm

/-- A connection ends without a DREQ of this side. -/
theorem Move.parkOther (here : mgr.ceps cep = some kcep)
    (ending : kcep.state.connected ∨ kcep.state = .repRcvd ∨ kcep.state = .repMraSent ∨
      kcep.state = .dreqRcvd) :
    Move none mgr (mgr.park cep
      { kcep with pMad := if kcep.state.prep then none else kcep.pMad, state := .timewait }) := by
  have other : kcep.state ≠ .dreqSent := by
    rintro was
    simp [was, CepState.connected] at ending
  have move := Move.park here (by tauto)
  rwa [if_neg other] at move

theorem processRej_moves (sound : mgr.Sound) (rejected : processRej mgr cep reason = some after) :
    Moves possible mgr after := by
  obtain ⟨kcep, here, rfl | ⟨connecting, other, cut, idle, removed, aborted, queued⟩ |
    ⟨state, cut, removed, idle⟩ | ⟨connected, queued⟩⟩ := processRej_inv rejected
  · exact .refl
  · have touches := (Touches.of_removeCep removed).trans (.of_update aborted fun _ => rfl)
    refine (abort_moves here connecting removed (fun _ _ => rfl) aborted).queue touches sound here ?_ queued
    revert connecting other
    cases kcep.state <;> decide
  · refine abort_moves here (by rw [state]; rfl) removed (fun held same => ?_) idle
    exact (held.abort_of_quiet (by rw [same, state]; rfl) (by rw [same, state]; rfl)).symm
  · refine (Moves.clean (.parkOther here (.inl connected))).queue (.park here (by rfl)) sound here ?_ queued
    revert connected
    cases kcep.state <;> decide

theorem processStale_moves {outcome : Outcome} (sound : mgr.Sound)
    (stale : processStale mgr cep outcome = some after) : Moves possible mgr after := by
  unfold processStale at stale
  split at stale
  · exact processRej_moves sound stale
  · cases stale
    exact .refl

/-- A REJ changes only the CEP it is for. -/
theorem CepMgr.Touches.of_processRej (rejected : processRej mgr cep reason = some after) :
    mgr.Touches after cep := by
  obtain ⟨kcep, here, rfl | ⟨_, _, cut, idle, removed, aborted, queued⟩ |
    ⟨_, cut, removed, idle⟩ | ⟨_, queued⟩⟩ := processRej_inv rejected
  · exact .refl here
  · exact ((Touches.of_removeCep removed).trans (.of_update aborted fun _ => rfl)).trans
      (.of_queueMad queued)
  · exact (Touches.of_removeCep removed).trans (.of_update idle fun _ => rfl)
  · exact (Touches.park here (by rfl)).trans (.of_queueMad queued)

/-- A CEP that was made for a REQ and is in no map stays so when another one is found to be
stale. -/
theorem processStale_waiting {stale : CepId} {outcome : Outcome} (sound : mgr.Sound)
    (here : mgr.ceps cep = some kcep) (waiting : kcep.state.waiting) (remote : kcep.remote = (0, 0))
    (free : ¬ mgr.Queued cep) (processed : processStale mgr stale outcome = some after) :
    ∃ held, after.ceps cep = some held ∧ held.state.waiting ∧ held.remote = (0, 0) ∧
      ¬ after.Queued cep := by
  unfold processStale at processed
  split at processed
  · have touches := Touches.of_processRej processed
    have free' : ¬ after.Queued cep := mt touches.queued.mp free
    by_cases same : cep = stale
    · subst same
      obtain ⟨kcep', there, rfl | ⟨connecting, other, _⟩ | ⟨_, cut, removed, idle⟩ |
        ⟨connected, _⟩⟩ := processRej_inv processed
      · exact ⟨kcep, here, waiting, remote, free⟩
      · obtain rfl : kcep = kcep' := some.inj (here.symm.trans there)
        exfalso
        revert waiting connecting other
        cases kcep.state <;> decide
      · obtain ⟨held, again, rfl⟩ := update_eq_some.mp idle
        obtain ⟨_, _, _, _, _, _, rfl⟩ := removeCep_inv removed
        rw [ceps_setCep_self, some.injEq] at again
        subst again
        exact ⟨_, ceps_setCep_self .., rfl, rfl, free'⟩
      · obtain rfl : kcep = kcep' := some.inj (here.symm.trans there)
        exfalso
        revert waiting connected
        cases kcep.state <;> decide
    · exact ⟨kcep, (touches.other same).trans here, waiting, remote, free'⟩
  · cases processed
    exact ⟨kcep, here, waiting, remote, free⟩

/-! ### REQ -/

/-- What `__lookup_listen` finds listens. -/
theorem lookupListen_listening (sound : mgr.Sound) {req : ListenReq}
    (found : lookupListen mgr.listens req = some (some listener)) :
    ∃ kcep, mgr.ceps listener = some kcep ∧ kcep.state = .listen := by
  obtain ⟨place, search, outcome⟩ := RbMap.Contains.search sound.listens
    fun cep => (lookupVerdict req (mgr.listens.params cep)).side
  unfold lookupListen at found
  change (rbmapSearch mgr.listenMap _).bind _ = _ at found
  rw [search] at found
  simp only [bind_some] at found
  obtain ⟨item, stopped, marked, _⟩ | ⟨ended, _⟩ := outcome
  · rw [stopped] at found
    have same : item = listener := by
      dsimp only at found
      split at found
      · exact some.inj (some.inj found)
      · cases found
      · cases found
    rw [← same]
    obtain ⟨kcep, here, listening⟩ := map_eq_some_iff.mp marked
    exact ⟨kcep, here, of_decide_eq_true listening⟩
  · rw [ended] at found
    cases found

theorem acceptReq_inv (accepted : acceptReq mgr listener req outcome = some after) :
    after = mgr ∨ ∃ cep made kcep owner result linked,
      createCep mgr outcome.allocated outcome.grown = some (cep, made) ∧
      made.ceps cep = some kcep ∧
      insertCep ((bindCep made kcep.cid owner).setCep cep (saveWireReq kcep req)) cep
        outcome.misread = some (result, linked) ∧
      (result = .inserted ∧ queueMad linked listener (some cep) = some after ∨
        ∃ other stale, result ≠ .inserted ∧ processStale linked other outcome.stale = some stale ∧
          discardCep stale cep = some after) := by
  unfold acceptReq at accepted
  split at accepted
  · exact .inl (some.inj accepted).symm
  next cep made created =>
    simp only [bind_eq_bind, bind_eq_some_iff, Prod.exists] at accepted
    obtain ⟨kcep, here, kListener, _, result, linked, inserted, accepted⟩ := accepted
    refine .inr ⟨cep, made, kcep, _, result, linked, created, here, inserted, ?_⟩
    cases result with
    | inserted => exact .inl ⟨rfl, accepted⟩
    | stale other =>
      obtain ⟨stale, processed, discarded⟩ := bind_eq_some_iff.mp accepted
      exact .inr ⟨other, stale, nofun, processed, discarded⟩
    | astray => cases accepted

/-- A new CEP is in no list. -/
theorem createCep_free {allocated grown : Bool} (sound : mgr.Sound)
    (created : createCep mgr allocated grown = some (cep, mid)) :
    mgr.ceps cep = none ∧ ¬ mid.Queued cep ∧ (∀ id ≠ cep, mid.ceps id = mgr.ceps id) ∧
      ∃ kcep, mid.ceps cep = some kcep ∧ kcep.state = .idle ∧ kcep.madList = [] ∧ kcep.remote = (0, 0) := by
  obtain ⟨cid, size, free, rfl, _, rfl⟩ := createCep_inv created
  refine ⟨sound.fresh, ?_, fun id ne => ceps_setCep_of_ne _ _ ne, _, ceps_setCep_self .., rfl, rfl, rfl⟩
  rintro ⟨listener, other, there, member⟩
  obtain ⟨-, rfl⟩ | ⟨-, there⟩ := of_ceps_setCep there
  · cases member
  · have waiting := sound.queues.waiting (queued_iff.mp ⟨listener, other, there, member⟩)
    obtain ⟨old, before, _⟩ := map_eq_some_iff.mp waiting
    rw [sound.fresh] at before
    cases before

/-- Nothing is sent for a CEP that does not exist. -/
theorem CepMgr.Sound.unsent (sound : mgr.Sound) (fresh : mgr.ceps cep = none) (mad : MadId) :
    (mad, cep) ∉ mgr.sends := by
  intro sent
  have taken : mgr.refBook.taken cep = 0 := sound.refs.freed (by simp [refBook, view, fresh])
  have counted : 0 < (mgr.sends.map Prod.snd).count cep := List.count_pos_iff.mpr (List.mem_map_of_mem sent)
  simp only [RefBook.taken, refBook] at taken
  omega

theorem createCep_sends {allocated grown : Bool}
    (created : createCep mgr allocated grown = some (cep, mid)) : mid.sends = mgr.sends := by
  obtain ⟨_, _, _, _, _, rfl⟩ := createCep_inv created
  rfl

theorem insertCep_sends {misread : Misread} {result : Inserted}
    (inserted : insertCep mgr cep misread = some (result, after)) : after.sends = mgr.sends := by
  obtain ⟨_, _, _, _, rfl⟩ := insertCep_inv inserted
  rfl

theorem unbound_bindCep (mgr : CepMgr) (cid : Nat) : (bindCep mgr cid (some .internal)).Unbound cid := by
  intro handle
  simp [bindCep, setCid]

/-- A CEP that was made for a REQ and is in no map and no list is thrown away. -/
theorem discardCep_moves (here : mgr.ceps cep = some kcep) (waiting : kcep.state.waiting)
    (remote : kcep.remote = (0, 0)) (free : ¬ mgr.Queued cep)
    (discarded : discardCep mgr cep = some after) : Moves possible mgr after := by
  have facts : kcep.state.active ∧ kcep.state ≠ .dreqSent ∧ kcep.state.prep = false := by
    revert waiting
    cases kcep.state <;> decide
  obtain ⟨active, quiet, unprepared⟩ := facts
  simp only [discardCep, bind_eq_bind, bind_eq_some_iff, some.injEq] at discarded
  obtain ⟨loose, unbound, parked, updated, rfl⟩ := discarded
  obtain ⟨kcep', there, rfl⟩ := unbindCep_inv unbound
  obtain rfl : kcep = kcep' := some.inj (here.symm.trans there)
  obtain ⟨kcep', again, rfl⟩ := update_eq_some.mp updated
  obtain rfl : kcep = kcep' := some.inj (here.symm.trans again)
  refine (Moves.clean (.unbind unbound)).trans (.clean ?_)
  have move := Move.retire again active quiet free (unbound_bindCep mgr kcep.cid)
  simp only [unprepared, Bool.false_and, Fault.when, Bool.false_eq_true, if_false] at move
  obtain ⟨commId, qpn⟩ := Prod.mk.injEq .. ▸ remote
  convert move using 2
  simp only [retire, commId, qpn]

theorem acceptReq_moves {kListener : Kcep} (sound : mgr.Sound)
    (listening : mgr.ceps listener = some kListener) (listen : kListener.state = .listen)
    (valid : req.lclQpn ≠ 0) (zero : req.localCommId = 0 → possible .zeroReq)
    (accepted : acceptReq mgr listener req outcome = some after) : Moves possible mgr after := by
  obtain rfl | ⟨cep, made, kcep, owner, result, linked, created, here, inserted, accepted⟩ :=
    acceptReq_inv accepted
  · exact .refl
  obtain ⟨fresh, free, same, kcep', there, idle, quiet, _⟩ := createCep_free sound created
  obtain rfl : kcep = kcep' := some.inj (here.symm.trans there)
  have other : listener ≠ cep := by
    rintro rfl
    rw [fresh] at listening
    cases listening
  have born : Moves possible mgr linked := by
    refine (Moves.clean (.create owner created here)).trans ?_
    refine .one (.linkReq here idle free inserted valid) (Fault.when_allowed fun localCommId => ?_)
    exact zero (of_decide_eq_true localCommId)
  obtain ⟨held, ceps, stage, list, cleared⟩ := insertCep_stored inserted
  have state : held.state = .reqRcvd := congrArg Stage.state stage
  have here' : linked.ceps cep = some held := by
    rw [ceps]
    exact ceps_setCep_self ..
  have free' : ¬ linked.Queued cep := by
    rw [queued_congr ceps]
    exact fun queued => free ((queued_setCep here (by rw [list]; rfl)).mp queued)
  obtain ⟨rfl, queued⟩ | ⟨other, stale, failed, processed, discarded⟩ := accepted
  · have unchanged : made.sends = mgr.sends := createCep_sends created
    have sends : linked.sends = mgr.sends := (insertCep_sends inserted).trans unchanged
    refine born.trans (.clean (.enqueueReq ?_ listen here' (by rw [state]; rfl) ?_ ?_ free' queued))
    · rw [ceps, ceps_setCep_of_ne _ _ other]
      exact (same listener other).trans listening
    · rw [list]
      exact quiet
    · rw [sends]
      exact sound.unsent fresh
  · refine (born.trans (processStale_moves (born.sound sound) processed)).trans ?_
    obtain ⟨kStale, there', waiting, remote, free''⟩ := processStale_waiting (born.sound sound) here'
      (by rw [state]; rfl) (cleared failed) free' processed
    exact discardCep_moves there' waiting remote free'' discarded

theorem reqHandler_moves (sound : mgr.Sound) (zero : req.localCommId = 0 → possible .zeroReq)
    (handled : reqHandler mgr req outcome = some after) : Moves possible mgr after := by
  unfold reqHandler at handled
  split at handled
  · cases handled
    exact .refl
  next valid =>
    simp only [not_or] at valid
    simp only [bind_eq_bind, bind_eq_some_iff] at handled
    obtain ⟨known, _, handled⟩ := handled
    cases known with
    | some old =>
      cases handled
      exact .refl
    | none =>
      obtain ⟨found, looked, handled⟩ := bind_eq_some_iff.mp handled
      cases found with
      | none =>
        cases handled
        exact .refl
      | some listener =>
        obtain ⟨kListener, listening, listen⟩ := lookupListen_listening sound looked
        exact acceptReq_moves sound listening listen valid.2 zero handled

/-! ### The other MADs -/

theorem handleMad_inv {accepts : Kcep → Bool} {handle : CepId → Kcep → Option CepMgr}
    (handled : handleMad mgr remoteCommId accepts handle = some after) :
    after = mgr ∨ ∃ cep kcep, lookupCep mgr none remoteCommId = some (some cep) ∧
      mgr.ceps cep = some kcep ∧ handle cep kcep = some after := by
  simp only [handleMad, bind_eq_bind, bind_eq_some_iff] at handled
  obtain ⟨found, looked, handled⟩ := handled
  cases found with
  | none => exact .inl (some.inj handled).symm
  | some cep =>
    obtain ⟨kcep, here, handled⟩ := bind_eq_some_iff.mp handled
    split at handled
    · exact .inr ⟨cep, kcep, looked, here, handled⟩
    · exact .inl (some.inj handled).symm

theorem CepMgr.stateAt_of_lookup {handle : Option Nat} {cid : UInt32}
    (looked : lookupCep mgr handle cid = some (some cep)) (here : mgr.ceps cep = some kcep) :
    mgr.stateAt handle cid = some kcep.state := by
  simp [stateAt, looked, here]

/-- A CEP makes a transition and gets the MAD that caused it. -/
theorem turn_queue (sound : mgr.Sound) (here : mgr.ceps cep = some kcep)
    (turn : Turn fault kcep.stage next.stage) (keeps : kcep.Keeps next)
    (remote : next.remote = kcep.remote) (cut : next.state.alone → kcep.state.alone)
    (busy : kcep.state.waiting = false) (allowed : ∀ one, fault = some one → possible one)
    (queued : queueMad (mgr.setCep cep next) cep none = some after) : Moves possible mgr after := by
  have move := Move.turn here keeps turn (.inl remote) (fun alone => .inl (cut alone))
    fun queued => absurd queued (sound.not_queued here busy)
  exact (Moves.one move allowed).queue (.set here keeps.madList) sound here busy queued

/-- A MAD tells that the one the CEP sends was received. -/
theorem confirm_queue (sound : mgr.Sound) (here : mgr.ceps cep = some kcep)
    (sent : kcep.state = .repSent ∨ kcep.state = .repMraRcvd ∨ kcep.state = .lapSent ∨
      kcep.state = .lapMraRcvd)
    (queued : queueMad (mgr.setCep cep { kcep with pSendMad := none, state := .established }) cep
      none = some after) : Moves possible mgr after := by
  have keeps : kcep.Keeps { kcep with pSendMad := none, state := .established } := ⟨rfl, rfl, rfl⟩
  refine turn_queue sound here (.confirm sent) keeps rfl nofun ?_ nofun queued
  rcases sent with state | state | state | state <;> rw [state] <;> rfl

theorem CepState.withMra_facts {state : CepState} {msgMraed : Fin 4} (sent : state.sent)
    (msg : 1 <<< msgMraed.val = state.msg) (first : state.mra = false) :
    state.withMra ≠ state ∧ state.waiting = false ∧ (state.withMra.alone → state.alone) := by
  revert sent msg first
  revert msgMraed
  cases state <;> decide

theorem mraHandler_moves {msgMraed : Fin 4} (sound : mgr.Sound)
    (handled : mraHandler mgr localCommId remoteCommId msgMraed = some after) :
    Moves possible mgr after := by
  obtain rfl | ⟨cep, kcep, _, here, handled⟩ := handleMad_inv handled
  · exact .refl
  split at handled
  · cases handled
    exact .refl
  next sent =>
    split at handled
    · cases handled
      exact .refl
    next first =>
      simp only [not_or, not_not, ne_eq] at sent
      obtain ⟨delayed, busy, cut⟩ := CepState.withMra_facts sent.1 sent.2 (Bool.eq_false_iff.mpr first)
      have keeps : kcep.Keeps { kcep with state := kcep.state.withMra } := ⟨rfl, rfl, rfl⟩
      have turn : Turn none kcep.stage { kcep with state := kcep.state.withMra }.stage :=
        .delay delayed
      exact turn_queue sound here turn keeps rfl cut busy nofun handled

theorem rejHandler_moves {ariLen : UInt8} {caGuid : UInt64} (sound : mgr.Sound)
    (handled : rejHandler mgr localCommId remoteCommId reason ariLen caGuid = some after) :
    Moves possible mgr after := by
  unfold rejHandler at handled
  split at handled
  · cases handled
    exact .refl
  · simp only [bind_eq_bind, bind_eq_some_iff] at handled
    obtain ⟨found, _, handled⟩ := handled
    cases found with
    | none =>
      cases handled
      exact .refl
    | some cep =>
      obtain ⟨kcep, here, handled⟩ := bind_eq_some_iff.mp handled
      split at handled
      · cases handled
        exact .refl
      · exact processRej_moves sound handled

/-- A REP is accepted, or it is taken for a stale one and the REQ goes on. -/
theorem repHandler_inv {lclQpn : UInt32}
    (handled : repHandler mgr localCommId remoteCommId localCaGuid lclQpn outcome = some after) :
    after = mgr ∨ ∃ cep kcep result linked mid, mgr.ceps cep = some kcep ∧
      (kcep.state = .reqSent ∨ kcep.state = .reqMraRcvd) ∧
      insertCep (mgr.setCep cep (saveWireRep kcep localCommId localCaGuid lclQpn)) cep
        outcome.misread = some (result, linked) ∧
      (result = .inserted ∧ linked.update cep (fun kcep => { kcep with pSendMad := none }) = some mid ∧
          queueMad mid cep none = some after ∨
        result ≠ .inserted ∧
          linked.update cep (fun saved => { saved with state := kcep.state }) = some mid ∧
          processStale mid cep outcome.stale = some after) := by
  obtain rfl | ⟨cep, kcep, _, here, handled⟩ := handleMad_inv handled
  · exact .inl rfl
  dsimp only at handled
  split at handled
  iterate 2 next state =>
      simp only [bind_eq_bind, bind_eq_some_iff, Prod.exists] at handled
      obtain ⟨result, linked, inserted, handled⟩ := handled
      cases result with
      | inserted =>
        obtain ⟨mid, updated, queued⟩ := bind_eq_some_iff.mp handled
        exact .inr ⟨cep, kcep, _, linked, mid, here, by simp [state], inserted, .inl ⟨rfl, updated, queued⟩⟩
      | stale | astray =>
        obtain ⟨mid, updated, stale⟩ := bind_eq_some_iff.mp handled
        exact .inr ⟨cep, kcep, _, linked, mid, here, by simp [state], inserted,
          .inr ⟨nofun, updated, stale⟩⟩
  · exact .inl (some.inj handled).symm

section
variable (sound : mgr.Sound)
include sound

theorem repHandler_moves {lclQpn : UInt32} (zero : localCommId = 0 ∨ lclQpn = 0 → possible .zeroRep)
    (handled : repHandler mgr localCommId remoteCommId localCaGuid lclQpn outcome = some after) :
    Moves possible mgr after := by
  obtain rfl | ⟨cep, kcep, result, linked, mid, here, sent, inserted, answered⟩ := repHandler_inv handled
  · exact .refl
  obtain ⟨rfl, cancelled, queued⟩ | ⟨failed, restored, stale⟩ := answered
  · have moves : Moves possible mgr mid := by
      refine .one (.linkRep here sent inserted cancelled) (Fault.when_allowed fun invalid => ?_)
      exact zero (of_decide_eq_true invalid)
    obtain ⟨held, ceps, _, list, _⟩ := insertCep_stored inserted
    have touches : mgr.Touches mid cep :=
      Touches.trans ⟨kcep, held, here, ceps, by rw [list]; rfl⟩ (.of_update cancelled fun _ => rfl)
    refine moves.queue touches sound here ?_ queued
    rcases sent with state | state <;> rw [state] <;> rfl
  · have moves : Moves possible mgr mid := .clean (.bounceRep here sent inserted failed restored)
    exact moves.trans (processStale_moves (moves.sound sound) stale)

theorem rtuHandler_moves (handled : rtuHandler mgr localCommId remoteCommId = some after) :
    Moves possible mgr after := by
  obtain rfl | ⟨cep, kcep, _, here, handled⟩ := handleMad_inv handled
  · exact .refl
  split at handled
  next state => exact confirm_queue sound here (.inl state) handled
  next state => exact confirm_queue sound here (.inr (.inl state)) handled
  · cases handled
    exact .refl

theorem aprHandler_moves (handled : aprHandler mgr localCommId remoteCommId = some after) :
    Moves possible mgr after := by
  obtain rfl | ⟨cep, kcep, _, here, handled⟩ := handleMad_inv handled
  · exact .refl
  split at handled
  next state => exact confirm_queue sound here (.inr (.inr (.inl state))) handled
  next state => exact confirm_queue sound here (.inr (.inr (.inr state))) handled
  · cases handled
    exact .refl

theorem dreqHandler_moves {remoteQpn : UInt32}
    (handled : dreqHandler mgr localCommId remoteCommId remoteQpn = some after) :
    Moves possible mgr after := by
  obtain rfl | ⟨cep, kcep, _, here, handled⟩ := handleMad_inv handled
  · exact .refl
  split at handled
  iterate 3 next state =>
      have keeps : kcep.Keeps { kcep with pSendMad := none, state := .dreqRcvd } := ⟨rfl, rfl, rfl⟩
      exact turn_queue sound here (.disconnect (by simp [state])) keeps rfl nofun
        (by rw [state]; rfl) nofun handled
  iterate 5 next state =>
      have keeps : kcep.Keeps { kcep with state := .dreqRcvd } := ⟨rfl, rfl, rfl⟩
      exact turn_queue sound here (.disconnected (by rw [state]; rfl) (by rw [state]; rfl)) keeps rfl
        nofun (by rw [state]; rfl) nofun handled
  · cases handled
    exact .refl

theorem drepHandler_moves (handled : drepHandler mgr localCommId remoteCommId = some after) :
    Moves possible mgr after := by
  obtain rfl | ⟨cep, kcep, _, here, handled⟩ := handleMad_inv handled
  · exact .refl
  split at handled
  next state =>
    have move := Move.park here (.inr (.inr (.inr (.inr state))))
    rw [if_pos state, if_neg (by rw [state]; decide)] at move
    exact (Moves.clean move).queue (.park here rfl) sound here (by rw [state]; rfl) handled
  next state =>
    cases handled
    exact .clean (.drepDestroy here state)
  · cases handled
    exact .refl

theorem lapHandler_moves
    (early : mgr.stateAt none remoteCommId = some .repSent ∨ mgr.stateAt none remoteCommId = some .repMraRcvd → possible .lapEarly)
    (handled : lapHandler mgr localCommId remoteCommId outcome = some after) :
    Moves possible mgr after := by
  obtain rfl | ⟨cep, kcep, looked, here, handled⟩ := handleMad_inv handled
  · exact .refl
  have found := stateAt_of_lookup looked here
  have keeps : kcep.Keeps { kcep with state := .lapRcvd } := ⟨rfl, rfl, rfl⟩
  split at handled
  iterate 2 next state =>
      split at handled
      · cases handled
        exact .refl
      · rw [state] at found
        refine turn_queue sound here (.loadEarly (by simp [state])) keeps rfl nofun
          (by rw [state]; rfl) ?_ handled
        rintro one ⟨⟩
        exact early (by simp [found])
  next state =>
    split at handled
    · cases handled
      exact .refl
    · have turn : Turn none kcep.stage { kcep with state := .lapRcvd }.stage := by
        rw [Kcep.stage, state]
        exact .load
      exact turn_queue sound here turn keeps rfl nofun (by rw [state]; rfl) nofun handled
  · cases handled
    exact .refl

/-- A received MAD. -/
theorem cepMadRecvCb_moves {mad : CmMad} (faults : ∀ fault ∈ mad.faults mgr, possible fault)
    (handled : cepMadRecvCb mgr outcome mad = some after) : Moves possible mgr after := by
  cases mad with
  | req req =>
    refine reqHandler_moves sound (fun zero => ?_) handled
    exact faults _ (by simp [CmMad.faults, zero])
  | mra => exact mraHandler_moves sound handled
  | rej => exact rejHandler_moves sound handled
  | rep =>
    refine repHandler_moves sound (fun zero => ?_) handled
    exact faults _ (by simp [CmMad.faults, zero])
  | rtu => exact rtuHandler_moves sound handled
  | dreq => exact dreqHandler_moves sound handled
  | drep => exact drepHandler_moves sound handled
  | lap =>
    refine lapHandler_moves sound (fun early => ?_) handled
    exact faults _ (by simp [CmMad.faults, early])
  | apr => exact aprHandler_moves sound handled

end
end WinOFED.Cep
