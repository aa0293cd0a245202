import WinOFED.Cep.CallSteps

/-! Listening and destruction, as moves. -/
namespace WinOFED.Cep
open Complib Option CepMgr
variable {possible : Fault → Prop} {mgr mid after : CepMgr} {cep : CepId} {kcep : Kcep} {status : ApiStatus}

/-! ### Listening -/

theorem CepMgr.read_of_ceps (here : mgr.ceps cep = some kcep) : mgr.read cep = kcep := by
  rw [read, here, getD_some]

variable {next : Kcep} {table : ListenTable} {info : ListenInfo} {allocated : Bool}

theorem CepMgr.listens_setCep (here : mgr.ceps cep = some kcep)
    (same : next.toListenParams = kcep.toListenParams) :
    (mgr.setCep cep next).listens = mgr.listens := by
  have params : ∀ id, ((mgr.setCep cep next).read id).toListenParams = (mgr.read id).toListenParams := by
    intro id
    by_cases equal : id = cep
    · subst equal
      rw [read_of_ceps (ceps_setCep_self mgr id next), read_of_ceps here, same]
    · rw [read, read, ceps_setCep_of_ne _ _ equal]
  simp only [listens, params]
  rfl

/-- A listen that fails changes nothing. -/
theorem enterListen_failed {after : ListenTable} {status : ListenStatus}
    (entered : enterListen table cep info allocated = some (status, after))
    (failed : status ≠ .success) : after = table := by
  unfold enterListen at entered
  split at entered
  · cases entered
    rfl
  · obtain ⟨place, _, entered⟩ := bind_eq_some_iff.mp entered
    iterate 2
      split at entered
      · cases entered
        rfl
    obtain ⟨map, _, entered⟩ := bind_eq_some_iff.mp entered
    cases entered
    exact absurd rfl failed

section
variable (here : mgr.ceps cep = some kcep)
include here

theorem setListens_same (same : next.toListenParams = kcep.toListenParams) :
    setListens mgr cep next mgr.listens = mgr.setCep cep next := by
  have params : mgr.listens.params cep = next.toListenParams := by
    rw [same]
    exact congrArg Kcep.toListenParams (read_of_ceps here)
  rw [setListens, params]
  rfl

variable (free : ¬ mgr.Queued cep)
include free

/-- A CEP that has just become idle starts to listen. -/
theorem enter_moves (same : next.toListenParams = kcep.toListenParams)
    (list : next.madList = kcep.madList) (idle : next.state = .idle)
    (entered : enterListen mgr.listens cep info allocated = some (.success, table)) :
    Moves possible (mgr.setCep cep next) (setListens mgr cep { next with state := .listen } table) := by
  rw [← listens_setCep here same] at entered
  have move := Move.enter (ceps_setCep_self mgr cep next) idle
    (mt (queued_setCep here (by rw [list])).mp free) entered
  have again : setListens (mgr.setCep cep next) cep { next with state := .listen } table =
      setListens mgr cep { next with state := .listen } table :=
    setCep_setCep { mgr with listenMap := table.map } cep next _
  rw [again] at move
  exact .clean move

theorem cepListen_moves
    (called : cepListen mgr cep kcep info allocated = some (status, after)) :
    Moves possible mgr after := by
  have idled : kcep.state = .preReq ∨ kcep.state = .idle → Moves possible mgr (mgr.setCep cep
      { kcep with pMad := if kcep.state = .preReq then none else kcep.pMad, state := .idle }) := by
    rintro (was | was)
    · rw [if_pos was]
      exact withdraw_moves here free was
    · rw [if_neg (by rw [was]; decide)]
      have still : Turn none kcep.stage ⟨.idle, kcep.pMad, kcep.pSendMad⟩ := by
        rw [Kcep.stage, was]
        exact .still rfl
      exact turn_moves here free ⟨rfl, rfl, rfl⟩ still rfl (fun _ => by rw [was]; rfl) (by rintro _ ⟨⟩)
  unfold cepListen at called
  split at called
  iterate 2 next was =>
      simp only [bind_eq_bind, bind_eq_some_iff, Prod.exists, some.injEq, Prod.mk.injEq] at called
      obtain ⟨result, table, entered, _, rfl⟩ := called
      refine (idled (by simp [was])).trans ?_
      by_cases success : result = .success
      · subst success
        rw [if_pos rfl]
        exact enter_moves here free (by rfl) (by rfl) (by rfl) entered
      · rw [if_neg success, enterListen_failed entered success, setListens_same here (by rfl)]
        exact .refl
  · cases called
    exact .refl

/-! ### The end of a CEP -/

variable (unbound : mgr.Unbound kcep.cid)
include unbound

/-- The timer is all a CEP that is cleaned up waits for. -/
theorem retire_moves {next : Kcep} (active : kcep.state.active) (quiet : kcep.state ≠ .dreqSent)
    (kept : kcep.state.prep → kcep.state.connected → possible .keptMad)
    (mad : next = { kcep with pMad := if kcep.state.prep && !kcep.state.connected then none else kcep.pMad }) :
    Moves possible mgr (retire mgr cep next) := by
  subst mad
  refine .one (.retire here active quiet free unbound) (Fault.when_allowed fun both => ?_)
  obtain ⟨prepared, connected⟩ := Bool.and_eq_true .. ▸ both
  exact kept prepared connected

theorem retire_quiet_moves
    (quiet : kcep.state.active ∧ kcep.state ≠ .dreqSent ∧ kcep.state.prep = false) :
    Moves possible mgr (retire mgr cep kcep) := by
  obtain ⟨active, quiet, unprepared⟩ := quiet
  refine retire_moves here free unbound active quiet (fun prepared => ?_) (by simp [unprepared])
  rw [unprepared] at prepared
  cases prepared

theorem retire_connected_moves (connected : kcep.state.connected)
    (kept : kcep.state.prep → possible .keptMad) :
    Moves possible mgr (retire mgr cep kcep) := by
  have facts : kcep.state.active ∧ kcep.state ≠ .dreqSent := by
    revert connected
    cases kcep.state <;> decide
  exact retire_moves here free unbound facts.1 facts.2 (fun prepared _ => kept prepared)
    (by simp [connected])

theorem cleanupConnected_moves {outcome : Outcome} (connected : kcep.state.connected)
    (busy : kcep.state.sent → possible .busySend) (kept : kcep.state.prep → possible .keptMad)
    (cleaned : cleanupConnected mgr cep kcep outcome = some after) : Moves possible mgr after := by
  unfold cleanupConnected at cleaned
  split at cleaned
  · cases cleaned
    exact retire_connected_moves here free unbound connected kept
  · simp only [bind_eq_bind, bind_eq_some_iff] at cleaned
    obtain ⟨sent, retried, kcep', there, cleaned⟩ := cleaned
    refine (Moves.clean .getMad).trans ?_
    have here' : (getMad mgr).2.ceps cep = some kcep := here
    obtain ⟨accepted, rfl⟩ | ⟨refused, rfl⟩ := cepSendRetry_inv here' retried
    · rw [ceps_setCep_self, some.injEq] at there
      subst there
      rw [if_pos accepted, setCep_setCep] at cleaned
      cases cleaned
      refine .one (.hangUpDreq mgr.nextMad here' connected unbound) fun one fault => ?_
      split at fault
      next sending =>
        cases fault
        exact busy sending
      · exact Fault.when_allowed kept one fault
    · rw [ceps_setCep_self, some.injEq] at there
      subst there
      rw [if_neg (by simp [refused])] at cleaned
      cases cleaned
      exact (refuse_moves here' (.inr connected) busy).trans
        (retire_connected_moves (ceps_setCep_self ..) (refused_free here' free) unbound connected kept)

/-- A CEP that listens ceases to, and waits for its timer. -/
theorem cleanupListen_moves (listening : kcep.state = .listen)
    (left : cancelListen mgr.listens cep = some table) :
    Moves possible mgr (retire (setListens mgr cep kcep table) cep
      { kcep with toListenParams := table.params cep }) := by
  refine (Moves.clean (.leave here listening left)).trans ?_
  have touches : (mgr.Touches (setListens mgr cep { kcep with state := .idle } table) cep) :=
    ⟨kcep, _, here, rfl, rfl⟩
  have moves := @retire_moves possible (setListens mgr cep { kcep with state := .idle } table) cep
    _ (ceps_setCep_self ..) (mt touches.queued.mp free) unbound _ rfl nofun nofun rfl
  simp only [retire, setListens, setCep_setCep] at moves ⊢
  exact moves

end

theorem cleanupState_moves {outcome : Outcome} (sound : mgr.Sound) (here : mgr.ceps cep = some kcep)
    (live : kcep.state.cleaned = false) (free : ¬ mgr.Queued cep) (unbound : mgr.Unbound kcep.cid)
    (busy : kcep.state = .lapSent ∨ kcep.state = .lapMraRcvd → possible .busySend)
    (kept : kcep.state = .preApr ∨ kcep.state = .preAprMraSent → possible .keptMad)
    (cleaned : cleanupState mgr cep outcome = some after) : Moves possible mgr after := by
  have known := sound.known here
  simp only [cleanupState, here, bind_eq_bind, bind_some] at cleaned
  split at cleaned
  iterate 3 next was =>
      cases cleaned
      exact retire_moves here free unbound (by rw [was]; rfl) (by rw [was]; nofun) (by rw [was]; nofun)
        (by simp only [was]; rfl)
  iterate 9 next was =>
      cases cleaned
      exact retire_quiet_moves here free unbound (by rw [was]; decide)
  next was =>
    rw [was] at known
    cases known
  next was =>
    cases cleaned
    exact retire_quiet_moves here free unbound (by rw [was]; decide)
  iterate 7 next was =>
      exact cleanupConnected_moves here free unbound (by rw [was]; rfl)
        (fun sent => busy (by revert sent; rw [was]; decide))
        (fun prepared => kept (by revert prepared; rw [was]; decide)) cleaned
  next was =>
    cases cleaned
    exact .clean (.hangUp here was unbound)
  next was =>
    obtain ⟨table, left, cleaned⟩ := bind_eq_some_iff.mp cleaned
    simp only [setListens, ceps_setCep_self, bind_some] at cleaned
    cases cleaned
    exact cleanupListen_moves here free unbound was left
  next was =>
    cases cleaned
    exact .clean (.retireParked here was unbound)
  iterate 2 next was =>
      rw [was] at live
      cases live
  iterate 2 next was =>
      rw [was] at known
      cases known

/-! ### The MADs of a CEP -/

variable {outcome : CepId → Outcome} {depth : Nat} {new : CepId} {kNew : Kcep}

section
variable (here : mgr.ceps new = some kNew) (empty : kNew.madList = []) (waiting : kNew.state.waiting)
include here empty waiting

/-- A CEP that was made for a REQ has nothing else to clean up. -/
theorem cleanupCep_waiting (cleaned : cleanupCep outcome depth mgr new = some after) :
    after = retire mgr new kNew := by
  cases depth with
  | zero => cases cleaned
  | succ depth =>
    simp only [cleanupCep, here, empty, cleanupMadList, cleanupState, bind_eq_bind, bind_some] at cleaned
    split at cleaned
    case h_4 | h_14 => exact (some.inj cleaned).symm
    all_goals
      next was =>
        rw [was] at waiting
        cases waiting

/-- The manager after a REQ that was not accepted is thrown away. -/
def CepMgr.dropNew (mgr : CepMgr) (new : CepId) (kNew : Kcep) : CepMgr :=
  retire (bindCep mgr kNew.cid (some .internal)) new kNew

theorem cleanupNew_inv
    (cleaned : cleanupNew (cleanupCep outcome depth) mgr (some new) = some after) :
    after = mgr.dropNew new kNew := by
  obtain ⟨loose, unbound, cleaned⟩ := bind_eq_some_iff.mp cleaned
  obtain ⟨kNew', there, rfl⟩ := unbindCep_inv unbound
  obtain rfl : kNew = kNew' := some.inj (here.symm.trans there)
  exact cleanupCep_waiting here empty waiting cleaned

end

theorem dropNew_moves (here : mgr.ceps new = some kNew) (waiting : kNew.state.waiting)
    (free : ¬ mgr.Queued new) : Moves possible mgr (mgr.dropNew new kNew) := by
  have quiet : kNew.state.active ∧ kNew.state ≠ .dreqSent ∧ kNew.state.prep = false := by
    revert waiting
    cases kNew.state <;> decide
  have unbind : unbindCep mgr new = some (bindCep mgr kNew.cid (some .internal)) := by
    simp [unbindCep, here]
  refine (Moves.clean (.unbind unbind)).trans ?_
  exact retire_quiet_moves here free (unbound_bindCep mgr kNew.cid) quiet

theorem CepMgr.setCep_comm (mgr : CepMgr) {one two : CepId} (ne : one ≠ two) (first second : Kcep) :
    (mgr.setCep one first).setCep two second = (mgr.setCep two second).setCep one first := by
  simp only [setCep]
  congr 1
  funext id
  by_cases same : id = one
  · simp [same, ne]
  · simp [same]

theorem CepMgr.dropNew_setCep (mgr : CepMgr) (ne : new ≠ cep) (kcep kNew : Kcep) :
    (mgr.setCep cep kcep).dropNew new kNew = (mgr.dropNew new kNew).setCep cep kcep := by
  have comm := setCep_comm (bindCep mgr kNew.cid (some .internal)) ne.symm kcep
    { kNew with state := .destroy, refCnt := kNew.refCnt - 1 }
  exact congrArg (insertTimewait · new) comm

theorem CepMgr.Unbound.dropNew {cid : Nat} (unbound : mgr.Unbound cid) (new : CepId) (kNew : Kcep) :
    (mgr.dropNew new kNew).Unbound cid := by
  intro handle
  have entry := unbound handle
  simp only [CepMgr.dropNew, retire, insertTimewait, setCep, bindCep, setCid]
  split
  · rintro ⟨⟩
  · exact entry

theorem CepMgr.queued_dropNew {id : CepId} (here : mgr.ceps new = some kNew) :
    (mgr.dropNew new kNew).Queued id ↔ mgr.Queued id := by
  have touches : mgr.Touches (mgr.dropNew new kNew) new :=
    ⟨kNew, { kNew with state := .destroy, refCnt := kNew.refCnt - 1 }, here, rfl, rfl⟩
  exact touches.queued

/-- A MAD is taken from a list. -/
theorem CepMgr.queued_poll {id : CepId} {sendContext1 : Option CepId} {rest : List (Option CepId)}
    (here : mgr.ceps cep = some kcep) (first : kcep.madList = sendContext1 :: rest)
    (later : (mgr.setCep cep { kcep with madList := rest }).Queued id) : mgr.Queued id := by
  obtain ⟨listener, held, listening, member⟩ := later
  obtain ⟨rfl, rfl⟩ | ⟨-, listening⟩ := of_ceps_setCep listening
  · exact ⟨listener, kcep, here, first ▸ List.mem_cons_of_mem _ member⟩
  · exact ⟨listener, held, listening, member⟩

section
variable (sound : mgr.Sound) (here : mgr.ceps cep = some kcep)
include sound here

/-- The first REQ of a list, and what is left when it is taken from the list. -/
theorem CepMgr.Sound.first {rest : List (Option CepId)} (list : kcep.madList = some new :: rest) :
    new ≠ cep ∧ (∃ kNew, mgr.ceps new = some kNew ∧ kNew.madList = [] ∧ kNew.state.waiting) ∧
      ¬ (mgr.setCep cep { kcep with madList := rest }).Queued new := by
  have member : some new ∈ kcep.madList := list ▸ List.mem_cons_self ..
  have queued : mgr.Queued new := ⟨cep, kcep, here, member⟩
  obtain ⟨kNew, there, facts⟩ := map_eq_some_iff.mp (sound.queues.waiting (queued_iff.mp queued))
  obtain ⟨empty, waiting⟩ := Prod.mk.injEq .. ▸ facts
  refine ⟨?_, ⟨kNew, there, empty, waiting⟩, ?_⟩
  · rintro rfl
    obtain rfl : kNew = kcep := some.inj (there.symm.trans here)
    rw [empty] at list
    cases list
  · rintro ⟨listener, other, listening, again⟩
    obtain ⟨rfl, rfl⟩ | ⟨equal, listening⟩ := of_ceps_setCep listening
    · have nodup := sound.queues.nodup (view_of_ceps here _)
      rw [list, List.reduceOption_cons_of_some, List.nodup_cons] at nodup
      exact nodup.1 (List.reduceOption_mem_iff.mpr again)
    · exact equal (sound.queues.single (view_of_ceps listening _) (view_of_ceps here _) again member)

/-- `__cleanup_mad_list`. The CEP may be stored in another state meanwhile. -/
theorem cleanupMadList_moves {other : Kcep} {list : List (Option CepId)} (own : kcep.madList = list)
    (same : other.madList = list)
    (swept : cleanupMadList (cleanupCep outcome depth) cep list (mgr.setCep cep other) = some after) :
    ∃ mid, Moves possible mgr mid ∧ mid.ceps cep = some { kcep with madList := [] } ∧
      after = mid.setCep cep { other with madList := [] } ∧
      (∀ id, mid.Queued id → mgr.Queued id) ∧ ∀ cid, mgr.Unbound cid → mid.Unbound cid := by
  induction list generalizing mgr kcep other with
  | nil =>
    cases swept
    refine ⟨mgr, .refl, ?_, ?_, fun _ queued => queued, fun _ unbound => unbound⟩
    · rw [here, ← own]
    · rw [← same]
  | cons sendContext1 rest ih =>
    simp only [cleanupMadList, update_setCep, bind_eq_bind, bind_some, bind_eq_some_iff] at swept
    obtain ⟨next, dropped, swept⟩ := swept
    let taken : Kcep := { kcep with madList := rest }
    let stored : Kcep := { other with madList := rest }
    have polled : Moves possible mgr (mgr.setCep cep taken) := .clean (.poll here own)
    have there := ceps_setCep_self mgr cep taken
    have fewer : ∀ id, (mgr.setCep cep taken).Queued id → mgr.Queued id := fun _ =>
      queued_poll here own
    cases sendContext1 with
    | none =>
      cases dropped
      have again : (mgr.setCep cep taken).setCep cep stored = mgr.setCep cep stored := setCep_setCep ..
      obtain ⟨mid, moves, held, same', queued, unbound⟩ :=
        ih (polled.sound sound) there rfl rfl (again.symm ▸ swept)
      exact ⟨mid, polled.trans moves, held, same', fun id later => fewer id (queued id later),
        fun cid before => unbound cid before⟩
    | some new =>
      obtain ⟨ne, ⟨kNew, listed, empty, waiting⟩, free⟩ := sound.first here own
      have listed' : ∀ value, (mgr.setCep cep value).ceps new = some kNew := fun value =>
        (ceps_setCep_of_ne mgr value ne).trans listed
      have gone := cleanupNew_inv (listed' stored) empty waiting dropped
      have step : Moves possible mgr ((mgr.setCep cep taken).dropNew new kNew) :=
        polled.trans (dropNew_moves (listed' taken) waiting free)
      have there' : ((mgr.setCep cep taken).dropNew new kNew).ceps cep = some taken := by
        rw [dropNew_setCep mgr ne]
        exact ceps_setCep_self ..
      have again : ((mgr.setCep cep taken).dropNew new kNew).setCep cep stored = next := by
        rw [gone, dropNew_setCep mgr ne, dropNew_setCep mgr ne, setCep_setCep]
      obtain ⟨mid, moves, held, same', queued, unbound⟩ :=
        ih (step.sound sound) there' rfl rfl (again.symm ▸ swept)
      refine ⟨mid, step.trans moves, held, same', fun id later => ?_, fun cid before => ?_⟩
      · exact fewer id ((queued_dropNew (listed' taken)).mp (queued id later))
      · have still : (mgr.setCep cep taken).Unbound cid := before
        exact unbound cid (still.dropNew new kNew)

/-! ### The calls -/

theorem kalCepCancelListen_moves
    (called : kalCepCancelListen mgr cep kcep outcome = some (status, after)) :
    Moves possible mgr after := by
  unfold kalCepCancelListen at called
  obtain ⟨listening, called⟩ := ite_none_right_eq_some.mp called
  simp only [bind_eq_bind, bind_eq_some_iff, some.injEq, Prod.mk.injEq] at called
  obtain ⟨swept, cleaned, kcep', there, table, left, _, rfl⟩ := called
  rw [← setCep_same here] at cleaned
  obtain ⟨mid, moves, held, rfl, _, _⟩ := cleanupMadList_moves sound here rfl rfl cleaned
  rw [setCep_same held] at there left ⊢
  obtain rfl := some.inj (held.symm.trans there)
  exact moves.trans (.clean (.leave held listening left))

end

/-- A REQ that is not answered is dropped as a CEP that waits for one is. -/
theorem cleanupState_dropped {one : Outcome} (here : mgr.ceps cep = some kcep)
    (unanswered : kcep.state = .reqRcvd ∨ kcep.state = .reqMraSent) :
    cleanupState (mgr.setCep cep { kcep with state := .idle }) cep one =
      cleanupState mgr cep one := by
  have idle : cleanupState (mgr.setCep cep { kcep with state := .idle }) cep one =
      some (retire mgr cep kcep) := by
    simp [cleanupState, retire]
  rw [idle]
  rcases unanswered with was | was <;> simp [cleanupState, here, was]

section
variable (sound : mgr.Sound) (here : mgr.ceps cep = some kcep) (live : kcep.state.cleaned = false)
  (free : ¬ mgr.Queued cep)
include sound here live free

/-- `__cleanup_cep`, of a CEP that is stored as it is or as if its REQ was dropped. -/
theorem cleanupCep_moves {other : Kcep} (unbound : mgr.Unbound kcep.cid)
    (busy : kcep.state = .lapSent ∨ kcep.state = .lapMraRcvd → possible .busySend)
    (kept : kcep.state = .preApr ∨ kcep.state = .preAprMraSent → possible .keptMad)
    (stored : other = kcep ∨ (kcep.state = .reqRcvd ∨ kcep.state = .reqMraSent) ∧ other = { kcep with state := .idle })
    (cleaned : cleanupCep outcome depth (mgr.setCep cep other) cep = some after) :
    Moves possible mgr after := by
  cases depth with
  | zero => cases cleaned
  | succ depth =>
    simp only [cleanupCep, ceps_setCep_self, bind_eq_bind, bind_some, bind_eq_some_iff] at cleaned
    obtain ⟨swept, emptied, cleaned⟩ := cleaned
    have list : kcep.madList = other.madList := by rcases stored with rfl | ⟨_, rfl⟩ <;> rfl
    obtain ⟨mid, moves, held, rfl, queued, unbound'⟩ := cleanupMadList_moves sound here list rfl emptied
    have same : cleanupState mid cep (outcome cep) = some after := by
      rcases stored with rfl | ⟨unanswered, rfl⟩
      · rwa [setCep_same held] at cleaned
      · rwa [← cleanupState_dropped held unanswered]
    exact moves.trans (cleanupState_moves (moves.sound sound) held live
      (fun later => free (queued cep later)) (unbound' _ unbound) busy kept same)

theorem alDestroyCep_moves {noMoreEntries : Bool}
    (faults : ∀ fault ∈ (CepCall.destroy noMoreEntries outcome).faults kcep.state, possible fault)
    (called : alDestroyCep mgr cep kcep noMoreEntries outcome = some (status, after)) :
    Moves possible mgr after := by
  simp only [alDestroyCep, bind_eq_bind, bind_eq_some_iff, some.injEq, Prod.mk.injEq] at called
  obtain ⟨loose, unbound, gone, cleaned, _, rfl⟩ := called
  have unbind : Moves possible mgr loose := .clean (.unbind unbound)
  obtain ⟨kcep', there, rfl⟩ := unbindCep_inv unbound
  obtain rfl : kcep = kcep' := some.inj (here.symm.trans there)
  have sound' := unbind.sound sound
  have here' : (bindCep mgr kcep.cid (some .internal)).ceps cep = some kcep := here
  have busy : kcep.state = .lapSent ∨ kcep.state = .lapMraRcvd → possible .busySend :=
    fun sending => faults _ (by simp [CepCall.faults, sending])
  have kept : kcep.state = .preApr ∨ kcep.state = .preAprMraSent → possible .keptMad := by
    rintro (was | was) <;> exact faults _ (by simp [CepCall.faults, was])
  refine unbind.trans ?_
  split at cleaned
  next dropped =>
    exact cleanupCep_moves sound' here' live free (unbound_bindCep mgr _) busy kept
      (.inr ⟨dropped.2, rfl⟩) cleaned
  · rw [← setCep_same here'] at cleaned
    exact cleanupCep_moves sound' here' live free (unbound_bindCep mgr _) busy kept (.inl rfl) cleaned

end

theorem alCreateCep_moves {handle : Nat} {grown : Bool}
    (called : alCreateCep mgr handle allocated grown = some (status, after)) :
    Moves possible mgr after := by
  unfold alCreateCep at called
  split at called
  · cases called
    exact .refl
  next cep made created =>
    obtain ⟨kcep, here, called⟩ := bind_eq_some_iff.mp called
    cases called
    exact .clean (.create _ created here)

end WinOFED.Cep
