import WinOFED.Cep.Lists
import WinOFED.Cep.ListenLookup

/-! Every move keeps the books of the CEP manager. -/
namespace WinOFED.Cep
open Complib CepState

/-- States that occur. -/
def CepState.known : CepState → Bool
  | sreqSent | sreqRcvd | error => false
  | _ => true

def CepState.listening (state : CepState) : Bool := state = .listen

/-- The books are in order. -/
structure CepMgr.Sound (mgr : CepMgr) : Prop where
  cids : mgr.cidBook.Sound
  queues : mgr.queueBook.Sound
  listens : Marked mgr.listenMap (mgr.view fun kcep => kcep.state.listening)
  timewait : Listed mgr.timewaitList (mgr.view fun kcep => kcep.state.parked)
  refs : mgr.refBook.Sound
  known : ∀ {cep kcep}, mgr.ceps cep = some kcep → kcep.state.known

namespace CepMgr.Sound
variable {mgr : CepMgr} {cep : CepId} {kcep after : Kcep}

theorem fresh (sound : mgr.Sound) : mgr.ceps mgr.nextCep = none := by
  cases there : mgr.ceps mgr.nextCep with
  | none => rfl
  | some old => exact absurd (sound.cids.below (view_of_ceps there _)) (Nat.lt_irrefl _)

section
variable (sound : mgr.Sound) (here : mgr.ceps cep = some kcep)
include sound here

theorem cids_same (cid : after.cid = kcep.cid)
    (cleaned : after.state.cleaned = kcep.state.cleaned) :
    (mgr.setCep cep after).cidBook.Sound := by
  have same := @view_setCep_same _ _ _ _ here after
    (fun kcep => (kcep.cid, kcep.state.cleaned)) (by rw [cid, cleaned])
  have books : (mgr.setCep cep after).cidBook = mgr.cidBook := by simp only [cidBook, same]; rfl
  exact books ▸ sound.cids

theorem cids_clean (cid : after.cid = kcep.cid) (cleaned : after.state.cleaned)
    (unbound : mgr.Unbound kcep.cid) : (mgr.setCep cep after).cidBook.Sound := by
  have books : (mgr.setCep cep after).cidBook =
      { mgr.cidBook with ceps := Function.update mgr.cidBook.ceps cep (some (kcep.cid, true)) } := by
    simp only [cidBook, view_setCep, cid, cleaned]
    rfl
  exact books ▸ sound.cids.clean (view_of_ceps here _) unbound

theorem queues_change (fewer : after.madList.reduceOption.Sublist kcep.madList.reduceOption)
    (held : mgr.Queued cep → after.madList = [] ∧ after.state.waiting) :
    (mgr.setCep cep after).queueBook.Sound := by
  have books := view_setCep mgr cep after fun kcep => (kcep.madList, kcep.state.waiting)
  unfold queueBook
  rw [books]
  exact sound.queues.change (view_of_ceps here _) fewer fun queued => held (queued_iff.mpr queued)

/-- A CEP in the list of a listener is waiting and has no MADs. -/
theorem of_queued (queued : mgr.Queued cep) : kcep.madList = [] ∧ kcep.state.waiting := by
  have waiting := sound.queues.waiting (queued_iff.mp queued)
  rw [queueBook, view_of_ceps here, Option.some.injEq, Prod.mk.injEq] at waiting
  exact waiting

theorem queues_same (list : after.madList = kcep.madList)
    (held : mgr.Queued cep → after.state.waiting) : (mgr.setCep cep after).queueBook.Sound := by
  refine sound.queues_change here (by rw [list]) fun queued => ⟨?_, held queued⟩
  rw [list, (sound.of_queued here queued).1]

theorem listens_same (same : after.state.listening = kcep.state.listening) :
    Marked mgr.listenMap ((mgr.setCep cep after).view fun kcep => kcep.state.listening) := by
  rw [view_setCep_same here same]
  exact sound.listens

theorem timewait_same (same : after.state.parked = kcep.state.parked) :
    Listed mgr.timewaitList ((mgr.setCep cep after).view fun kcep => kcep.state.parked) := by
  rw [view_setCep_same here same]
  exact sound.timewait

theorem timewait_append (before : kcep.state.parked = false) (parked : after.state.parked) :
    Listed (mgr.timewaitList ++ [cep]) ((mgr.setCep cep after).view fun kcep => kcep.state.parked) := by
  rw [view_setCep, parked]
  refine sound.timewait.append ?_
  rw [view_of_ceps here, before]
  simp

theorem refs_same (refCnt : after.refCnt = kcep.refCnt)
    (cleaned : after.state.cleaned = kcep.state.cleaned) :
    (mgr.setCep cep after).refBook.Sound := by
  have same := @view_setCep_same _ _ _ _ here after
    (fun kcep => (kcep.refCnt, kcep.state.cleaned)) (by rw [refCnt, cleaned])
  have books : (mgr.setCep cep after).refBook = mgr.refBook := by simp only [refBook, same]; rfl
  exact books ▸ sound.refs

/-- The references of a CEP change with those that are taken for it. -/
theorem refs_change {sends : List (MadId × CepId)} {callbacks : List CepId}
    (others : ∀ other ≠ cep, (sends.map Prod.snd).count other + callbacks.count other = (mgr.sends.map Prod.snd).count other + mgr.callbacks.count other)
    (own : after.refCnt + (if kcep.state.cleaned then 0 else 1) + ((mgr.sends.map Prod.snd).count cep + mgr.callbacks.count cep : Nat) = kcep.refCnt + (if after.state.cleaned then 0 else 1) + ((sends.map Prod.snd).count cep + callbacks.count cep : Nat)) :
    ({ mgr with sends, callbacks }.setCep cep after).refBook.Sound := by
  refine sound.refs.change (view_setCep { mgr with sends, callbacks } cep after _) others ?_ (by simp)
  intro refCnt cleaned same
  simp only [Option.some.injEq, Prod.mk.injEq] at same
  obtain ⟨rfl, rfl⟩ := same
  have counted := sound.refs.counted (view_of_ceps here _)
  simp only [RefBook.taken, refBook, setCep] at counted ⊢
  omega

end

theorem known_set (sound : mgr.Sound) (known : after.state.known) :
    ∀ {id kcep}, (mgr.setCep cep after).ceps id = some kcep → kcep.state.known := by
  intro id other there
  obtain ⟨-, rfl⟩ | ⟨-, there⟩ := of_ceps_setCep there
  · exact known
  · exact sound.known there

section
variable (sound : mgr.Sound) (here : mgr.ceps cep = some kcep)
include sound here

theorem known_same (same : after.state = kcep.state) :
    ∀ {id kcep}, (mgr.setCep cep after).ceps id = some kcep → kcep.state.known :=
  sound.known_set (same ▸ sound.known here)

/-- A CEP changes that is in the same lists as before. -/
theorem change (keeps : kcep.Keeps after) (cleaned : after.state.cleaned = kcep.state.cleaned)
    (listening : after.state.listening = kcep.state.listening)
    (parked : after.state.parked = kcep.state.parked) (known : after.state.known)
    (held : mgr.Queued cep → after.state.waiting) : (mgr.setCep cep after).Sound :=
  ⟨sound.cids_same here keeps.cid cleaned, sound.queues_same here keeps.madList held,
    sound.listens_same here listening, sound.timewait_same here parked,
    sound.refs_same here keeps.refCnt cleaned, sound.known_set known⟩

theorem not_queued (busy : kcep.state.waiting = false) : ¬ mgr.Queued cep := by
  intro queued
  simp [(sound.of_queued here queued).2] at busy

end

/-- The books do not show the connection maps, the MAD pool and what sends have come upon. -/
theorem other (sound : mgr.Sound) (connIdMap connQpMap : RbMap CepId) (nextMad : MadId)
    (busySend : Bool) : { mgr with connIdMap, connQpMap, nextMad, busySend }.Sound :=
  ⟨sound.cids, sound.queues, sound.listens, sound.timewait, sound.refs, sound.known⟩

end CepMgr.Sound

/-! ### The states of the moves -/

theorem CepState.facts_of_active {state : CepState} (active : state.active) :
    state.cleaned = false ∧ state.listening = false ∧ state.parked = false ∧ state.known := by
  revert active
  cases state <;> decide

theorem CepState.facts_of_parked {state : CepState} (parked : state.parked) :
    state.listening = false ∧ state.known := by
  revert parked
  cases state <;> decide

variable {fault : Option Fault}

theorem Turn.active {before after : Stage} (turn : Turn fault before after) :
    before.state.active ∧ after.state.active := by
  cases turn <;> dsimp only
  case still active => exact ⟨active, active⟩
  case prepareReq first => rcases first with rfl | rfl <;> decide
  case prepareReply state _ _ _ replying => revert replying; cases state <;> decide
  case lose state _ _ prep => revert prep; cases state <;> decide
  case forget active _ => exact ⟨active, active⟩
  case withdraw => decide
  case abort state _ _ connecting => revert connecting; cases state <;> decide
  case stray prepared => rcases prepared with rfl | rfl <;> decide
  case delay state _ _ delayed => revert delayed; cases state <;> decide
  case ready answered => rcases answered with rfl | rfl <;> decide
  case confirm sent => rcases sent with rfl | rfl | rfl | rfl <;> decide
  case answer prepared => rcases prepared with rfl | rfl <;> decide
  case disconnect sent => rcases sent with rfl | rfl | rfl <;> decide
  case disconnected state _ _ connected _ => revert connected; cases state <;> decide
  case load => decide
  case loadEarly sent => rcases sent with rfl | rfl <;> decide

theorem Transmit.active {before after : CepState} (transmit : Transmit fault before after) :
    before.active ∧ after.active := by
  cases transmit with
  | req => decide
  | rep prepared => rcases prepared with rfl | rfl <;> decide
  | lap => decide
  | dreq connected _ => revert connected; cases before <;> decide

/-- The end of a MAD leaves a CEP active, or as it is. -/
theorem Finish.active {before after : CepState} (finish : Finish fault before after) :
    after = before ∨ before.active ∧ after.active ∧ before.waiting = false := by
  cases finish with
  | abort connecting sent => revert connecting sent; cases before <;> decide
  | lap => decide
  | delayed => exact .inl rfl
  | other => exact .inl rfl

/-! ### The moves -/

namespace CepMgr.Sound
variable {mgr next : CepMgr} {cep : CepId} {kcep after : Kcep} {fault : Option Fault}

section
variable (sound : mgr.Sound)
include sound

/-- A CEP that stays active. -/
theorem stay (here : mgr.ceps cep = some kcep) (keeps : kcep.Keeps after)
    (before : kcep.state.active) (active : after.state.active)
    (held : mgr.Queued cep → after.state.waiting) : (mgr.setCep cep after).Sound := by
  obtain ⟨cleaned, listening, parked, _⟩ := facts_of_active before
  obtain ⟨cleaned', listening', parked', known⟩ := facts_of_active active
  exact sound.change here keeps (cleaned'.trans cleaned.symm) (listening'.trans listening.symm)
    (parked'.trans parked.symm) known held

/-- A CEP whose state does not change. -/
theorem still (here : mgr.ceps cep = some kcep) (keeps : kcep.Keeps after)
    (same : after.state = kcep.state) : (mgr.setCep cep after).Sound := by
  refine sound.change here keeps (by rw [same]) (by rw [same]) (by rw [same]) ?_ fun queued => ?_
  · rw [same]
    exact sound.known here
  · rw [same]
    exact (sound.of_queued here queued).2

theorem unlink (removed : removeCep mgr cep = some next) : next.Sound := by
  obtain ⟨kcep, connIdMap, connQpMap, here, _, _, rfl⟩ := removeCep_inv removed
  exact (sound.other connIdMap connQpMap mgr.nextMad mgr.busySend).still here ⟨rfl, rfl, rfl⟩ rfl

/-- The CEP `__insert_cep` was called for, with what was stored in it before. -/
theorem insert {saved : Kcep} {misread : Misread} {result : Inserted}
    (here : mgr.ceps cep = some kcep) (keeps : kcep.Keeps saved) (before : kcep.state.active)
    (active : saved.state.active) (held : mgr.Queued cep → saved.state.waiting)
    (inserted : insertCep (mgr.setCep cep saved) cep misread = some (result, next)) :
    next.Sound := by
  obtain ⟨kcep', connIdMap, connQpMap, there, rfl⟩ := insertCep_inv inserted
  rw [ceps_setCep_self, Option.some.injEq] at there
  subst there
  have stored := sound.stay here keeps before active held
  refine (stored.other connIdMap connQpMap mgr.nextMad mgr.busySend).still (ceps_setCep_self ..) ?_ ?_
  · split <;> exact ⟨rfl, rfl, rfl⟩
  · split <;> rfl

theorem transmit {state : CepState} (mad : MadId)
    (here : mgr.ceps cep = some kcep) (sends : Transmit fault kcep.state state)
    (free : ¬ mgr.Queued cep) (pMad : Option MadId) (busySend : Bool) :
    ((mgr.startSend mad cep busySend).setCep cep
      { kcep with pSendMad := some mad, refCnt := kcep.refCnt + 1, pMad, state }).Sound := by
  obtain ⟨before, active⟩ := sends.active
  obtain ⟨cleaned, listening, parked, _⟩ := facts_of_active before
  obtain ⟨cleaned', listening', parked', known⟩ := facts_of_active active
  refine ⟨sound.cids_same here rfl (cleaned'.trans cleaned.symm),
    sound.queues_same here rfl fun queued => absurd queued free,
    sound.listens_same here (listening'.trans listening.symm),
    sound.timewait_same here (parked'.trans parked.symm), ?_, sound.known_set known⟩
  have refs := @refs_change mgr cep kcep
    { kcep with pSendMad := some mad, refCnt := kcep.refCnt + 1, pMad, state } sound here
    ((mad, cep) :: mgr.sends) mgr.callbacks
  refine refs (fun other ne => ?_) ?_
  · simp [List.count_cons_of_ne (Ne.symm ne)]
  · simp only [List.map_cons, List.count_cons_self, cleaned, cleaned']
    omega

/-- A CEP goes to timewait. -/
theorem parkCep (here : mgr.ceps cep = some kcep) (keeps : kcep.Keeps after)
    (cleaned : after.state.cleaned = kcep.state.cleaned) (listening : kcep.state.listening = false)
    (before : kcep.state.parked = false) (parked : after.state.parked)
    (busy : kcep.state.waiting = false) : (mgr.park cep after).Sound := by
  refine ⟨sound.cids_same here keeps.cid cleaned,
    sound.queues_same here keeps.madList fun queued => absurd queued (sound.not_queued here busy),
    sound.listens_same here ?_, sound.timewait_append here before parked,
    sound.refs_same here keeps.refCnt cleaned,
    sound.known_set (facts_of_parked parked).2⟩
  rw [(facts_of_parked parked).1, listening]

/-- A reference of a CEP passes from a MAD to a callback. -/
theorem endSend {mad : MadId} (sent : (mad, cep) ∈ mgr.sends) : (mgr.endSend mad cep).Sound := by
  have counts : ∀ other, (mgr.endSend mad cep).refBook.taken other = mgr.refBook.taken other := by
    intro other
    have split : mgr.sends.Perm ((mad, cep) :: mgr.sends.erase (mad, cep)) := List.perm_cons_erase sent
    have same := (split.map Prod.snd).count_eq other
    simp only [RefBook.taken, refBook, CepMgr.endSend, List.count_cons, List.map_cons] at same ⊢
    omega
  refine ⟨sound.cids, sound.queues, sound.listens, sound.timewait, ⟨?_, ?_⟩, sound.known⟩
  · intro other refCnt cleaned there
    rw [counts]
    exact sound.refs.counted there
  · intro other there
    rw [counts]
    exact sound.refs.freed there

end
end CepMgr.Sound
end WinOFED.Cep
