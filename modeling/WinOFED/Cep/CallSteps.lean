import WinOFED.Cep.Steps

/-! What the calls of the clients do, as moves. -/
namespace WinOFED.Cep
open Complib CepMgr Option
variable {possible : Fault → Prop} {mgr mid after : CepMgr} {cep : CepId} {kcep : Kcep}
  {status : ApiStatus} {outcome : Outcome}

variable {next : Kcep} {fault : Option Fault} {sid : UInt64} {qpn : UInt32} {req : UserReq}

/-- A transition that does not concern the maps, of a CEP that is in no listener's list. -/
theorem turn_moves (here : mgr.ceps cep = some kcep) (free : ¬ mgr.Queued cep)
    (keeps : kcep.Keeps next) (turn : Turn fault kcep.stage next.stage)
    (remote : next.remote = kcep.remote) (cut : next.state.alone → kcep.state.alone)
    (allowed : ∀ one, fault = some one → possible one) : Moves possible mgr (mgr.setCep cep next) :=
  .one (.turn here keeps turn (.inl remote) (fun alone => .inl (cut alone))
    fun queued => absurd queued free) allowed

/-! ### Sending with retries -/

theorem getMad_setCep (mgr : CepMgr) (cep : CepId) (kcep : Kcep) :
    (getMad (mgr.setCep cep kcep)).2 = (getMad mgr).2.setCep cep kcep := rfl

/-- The manager after the MAD service has refused a MAD. -/
def CepMgr.refused (mgr : CepMgr) (kcep : Kcep) : CepMgr :=
  { mgr with busySend := mgr.busySend || kcep.pSendMad.isSome }

section
variable (here : mgr.ceps cep = some kcep)
include here

theorem cepSendRetry_inv {mad : MadId} {sent : Bool}
    (retried : cepSendRetry mgr cep mad sent = some after) :
    sent = true ∧ after = (mgr.startSend mad cep kcep.pSendMad.isSome).setCep cep
        { kcep with pSendMad := some mad, refCnt := kcep.refCnt + 1 } ∨
      sent = false ∧ after = (mgr.refused kcep).setCep cep { kcep with pSendMad := none } := by
  simp only [cepSendRetry, here, bind_eq_bind, bind_some] at retried
  split at retried
  next accepted => exact .inl ⟨accepted, (some.inj retried).symm⟩
  next refused => exact .inr ⟨Bool.eq_false_iff.mpr refused, (some.inj retried).symm⟩

theorem refuse_moves (ready : kcep.state.prep ∨ kcep.state.connected)
    (busy : kcep.state.sent → possible .busySend) :
    Moves possible mgr ((mgr.refused kcep).setCep cep { kcep with pSendMad := none }) :=
  .one (.refuse here ready) (Fault.when_allowed busy)

theorem refused_free (free : ¬ mgr.Queued cep) :
    ¬ ((mgr.refused kcep).setCep cep { kcep with pSendMad := none }).Queued cep := by
  have same : (mgr.refused kcep).ceps cep = some kcep := here
  exact fun queued => free ((queued_setCep same (by rfl)).mp queued)

end

/-! ### REQ -/

/-- `__save_user_req` stores what leaves the CEP where it is in the protocol. -/
theorem saveUserReq_inv {stored : Bool}
    (saved : saveUserReq mgr cep kcep sid qpn req = (stored, after)) :
    ∃ base next, after = base.setCep cep next ∧ (∀ possible, Moves possible mgr base) ∧
      base.ceps = mgr.ceps ∧ kcep.Keeps next ∧ next.stage = kcep.stage ∧
      (next.remote = kcep.remote ∨ next.remote = (0, 0)) ∧ (req = .usable → stored = true) := by
  cases req with
  | noPath =>
    cases saved
    exact ⟨mgr, kcep, rfl, fun _ => .refl, rfl, ⟨rfl, rfl, rfl⟩, rfl, .inl rfl, nofun⟩
  | badPath =>
    cases saved
    exact ⟨mgr, _, rfl, fun _ => .refl, rfl, ⟨rfl, rfl, rfl⟩, rfl, .inl rfl, nofun⟩
  | usable =>
    cases saved
    exact ⟨mgr.setCid kcep.cid { mgr.cidVector kcep.cid with
        modifier := nextModifier kcep.cid (mgr.cidVector kcep.cid).modifier }, _, rfl,
      fun _ => .clean (.renumber _), rfl, ⟨rfl, rfl, rfl⟩, rfl, .inr rfl, fun _ => rfl⟩

/-- A CEP that has no remote end and is in no listener's list makes a transition to another such
state. -/
theorem alone_moves (here : mgr.ceps cep = some kcep) (free : ¬ mgr.Queued cep)
    (alone : kcep.state.alone) (keeps : kcep.Keeps next) (turn : Turn fault kcep.stage next.stage)
    (remote : next.remote = kcep.remote ∨ next.remote = (0, 0))
    (allowed : ∀ one, fault = some one → possible one) : Moves possible mgr (mgr.setCep cep next) :=
  .one (.turn here keeps turn (remote.imp_right fun zero => ⟨alone, zero⟩) (fun _ => .inl alone)
    fun queued => absurd queued free) allowed

/-- No REQ is prepared: one that was prepared before is lost. -/
theorem unprepared_moves (here : mgr.ceps cep = some kcep) (free : ¬ mgr.Queued cep)
    (first : kcep.state = .preReq ∨ kcep.state = .idle) (keeps : kcep.Keeps next)
    (state : next.state = kcep.state) (send : next.pSendMad = kcep.pSendMad)
    (mad : next.pMad = none ∨ kcep.state = .idle ∧ next.pMad = kcep.pMad)
    (remote : next.remote = kcep.remote ∨ next.remote = (0, 0))
    (lost : kcep.state = .preReq → possible .lostMad) :
    Moves possible mgr (mgr.setCep cep next) := by
  have alone : kcep.state.alone := by rcases first with was | was <;> rw [was] <;> rfl
  obtain gone | ⟨idle, kept⟩ := mad
  · have stage : next.stage = ⟨kcep.state, none, kcep.pSendMad⟩ := by
      rw [Kcep.stage, state, gone, send]
    rcases first with was | was
    · have turn : Turn (some .lostMad) kcep.stage next.stage := stage ▸ .lose (by rw [was]; rfl)
      refine alone_moves here free alone keeps turn remote ?_
      rintro one ⟨⟩
      exact lost was
    · have turn : Turn none kcep.stage next.stage := stage ▸ .forget (by rw [was]; rfl) (by rw [was]; rfl)
      exact alone_moves here free alone keeps turn remote (by rintro _ ⟨⟩)
  · have stage : next.stage = ⟨kcep.state, kcep.pMad, kcep.pSendMad⟩ := by
      rw [Kcep.stage, state, kept, send]
    have turn : Turn none kcep.stage next.stage := stage ▸ .still (by rw [idle]; rfl)
    exact alone_moves here free alone keeps turn remote (by rintro _ ⟨⟩)

theorem kalCepPreReq_inv
    (called : kalCepPreReq mgr cep kcep sid qpn req outcome = some (status, after)) :
    after = mgr ∨ (kcep.state = .preReq ∨ kcep.state = .idle) ∧ ∃ stored mid,
      saveUserReq mgr cep { kcep with pMad := if kcep.state = .preReq then none else kcep.pMad }
        sid qpn req = (stored, mid) ∧
      (after = mid ∧ (stored = true → outcome.getMad = false) ∨
        stored = true ∧ outcome.getMad = true ∧ outcome.format = true ∧
          (getMad mid).2.update cep
            (fun kcep => { kcep with pMad := some (getMad mid).1, state := .preReq }) = some after ∨
        outcome.format = false ∧
          (getMad mid).2.update cep (fun kcep => { kcep with pMad := none }) = some after) := by
  unfold kalCepPreReq at called
  split at called
  iterate 2 next was =>
      refine .inr ⟨by simp [was], ?_⟩
      dsimp only at called
      generalize saved : saveUserReq _ _ _ _ _ _ = result at called ⊢
      obtain ⟨stored, mid⟩ := result
      refine ⟨stored, mid, rfl, ?_⟩
      cases stored with
      | false =>
        cases called
        exact .inl ⟨rfl, nofun⟩
      | true =>
        dsimp only at called
        split at called
        next none =>
          cases called
          exact .inl ⟨rfl, fun _ => Bool.eq_false_iff.mpr none⟩
        next some =>
          split at called
          next formatted =>
            obtain ⟨last, updated, same⟩ := bind_eq_some_iff.mp called
            cases same
            exact .inr (.inl ⟨rfl, not_not.mp some, formatted, updated⟩)
          next failed =>
            obtain ⟨last, updated, same⟩ := bind_eq_some_iff.mp called
            cases same
            exact .inr (.inr ⟨Bool.eq_false_iff.mpr failed, updated⟩)
  · cases called
    exact .inl rfl
  · cases called
    exact .inl rfl

theorem kalCepPreReq_moves (here : mgr.ceps cep = some kcep) (free : ¬ mgr.Queued cep)
    (faults : ∀ fault ∈ (CepCall.preReq sid qpn req outcome).faults kcep.state, possible fault)
    (called : kalCepPreReq mgr cep kcep sid qpn req outcome = some (status, after)) :
    Moves possible mgr after := by
  obtain rfl | ⟨first, stored, mid, saved, prepared⟩ := kalCepPreReq_inv called
  · exact .refl
  obtain ⟨base, next, rfl, moves, ceps, keeps, stage, remote, usable⟩ := saveUserReq_inv saved
  rw [← ceps] at here
  rw [← queued_congr ceps] at free
  obtain ⟨cid, refCnt, madList⟩ := keeps
  obtain ⟨state, mad, send⟩ := Stage.mk.injEq .. ▸ stage
  have keeps : kcep.Keeps next := ⟨cid, refCnt, madList⟩
  have alone : kcep.state.alone := by rcases first with was | was <;> rw [was] <;> rfl
  have dropped : next.pMad = none ∨ kcep.state = .idle ∧ next.pMad = kcep.pMad := by
    rcases first with was | was <;> simp [mad, was]
  have lost : ¬ (req = .usable ∧ outcome.getMad ∧ outcome.format) → kcep.state = .preReq →
      possible .lostMad := by
    intro failed was
    exact faults _ (by rw [CepCall.faults, if_pos ⟨was, failed⟩]; exact .head _)
  obtain ⟨rfl, failed⟩ | ⟨rfl, got, formatted, updated⟩ | ⟨failed, updated⟩ := prepared
  · refine (moves _).trans (unprepared_moves here free first keeps state send dropped remote (lost ?_))
    rintro ⟨path, got, _⟩
    rw [failed (usable path)] at got
    cases got
  · rw [getMad_setCep, update_setCep, some.injEq] at updated
    subst updated
    have turn : Turn none kcep.stage ⟨.preReq, some base.nextMad, next.pSendMad⟩ := by
      rw [Kcep.stage, send]
      exact .prepareReq _ first.symm
    exact ((moves _).trans (.clean .getMad)).trans
      (alone_moves here free alone ⟨cid, refCnt, madList⟩ turn remote (by rintro _ ⟨⟩))
  · rw [getMad_setCep, update_setCep, some.injEq] at updated
    subst updated
    refine ((moves _).trans (.clean .getMad)).trans
      (unprepared_moves here free first ⟨cid, refCnt, madList⟩ state send (.inl rfl) remote (lost ?_))
    rintro ⟨_, _, formatted⟩
    rw [failed] at formatted
    cases formatted

/-- A MAD that was prepared is dropped, which the state should tell. -/
theorem Turn.drop {state : CepState} (active : state.active) (pMad pSendMad : Option MadId) :
    Turn (Fault.lostMad.when state.prep) ⟨state, pMad, pSendMad⟩ ⟨state, none, pSendMad⟩ := by
  cases prepared : state.prep with
  | false => exact .forget active prepared
  | true => exact .lose prepared

theorem CepState.facts_of_replying {state : CepState} (replying : state.replying) :
    state.active ∧ state.alone = false ∧ state.withPrep.alone = false := by
  revert replying
  cases state <;> decide

theorem alCepDreq_inv (called : alCepDreq mgr cep kcep outcome = some (status, after)) :
    after = mgr ∨ after = (getMad mgr).2 ∨
      kcep.state.connected ∧ kcep.state.prep = false ∧
        (kcep.state.sent → kcep.state = .lapSent ∨ kcep.state = .lapMraRcvd) ∧ ∃ sent,
          cepSendRetry (getMad mgr).2 cep mgr.nextMad outcome.send = some sent ∧
          (outcome.send = true ∧
              sent.update cep (fun kcep => { kcep with state := .dreqSent }) = some after ∨
            outcome.send = false ∧ ∃ last,
              sent.update cep (fun kcep => { kcep with state := .timewait }) = some last ∧
              after = insertTimewait last cep) := by
  unfold alCepDreq at called
  split at called
  iterate 5 next was =>
      split at called
      · cases called
        exact .inl rfl
      · dsimp only at called
        split at called
        · cases called
          exact .inr (.inl rfl)
        · obtain ⟨sent, retried, called⟩ := bind_eq_some_iff.mp called
          refine .inr (.inr ⟨by rw [was]; rfl, by rw [was]; rfl, by rw [was]; decide, sent, retried, ?_⟩)
          split at called
          next accepted =>
            obtain ⟨last, updated, called⟩ := bind_eq_some_iff.mp called
            cases called
            exact .inl ⟨accepted, updated⟩
          next refused =>
            obtain ⟨last, updated, called⟩ := bind_eq_some_iff.mp called
            cases called
            exact .inr ⟨Bool.eq_false_iff.mpr refused, last, updated, rfl⟩
  · cases called
    exact .inl rfl

/-! ### Calls on a CEP that is in no listener's list -/

section Free
variable (here : mgr.ceps cep = some kcep) (free : ¬ mgr.Queued cep)
include here free

/-- A REQ that is not sent is given up. -/
theorem withdraw_moves (prepared : kcep.state = .preReq) :
    Moves possible mgr (mgr.setCep cep { kcep with pMad := none, state := .idle }) := by
  have turn : Turn none kcep.stage { kcep with pMad := none, state := .idle }.stage := by
    rw [Kcep.stage, prepared]
    exact .withdraw
  exact turn_moves here free ⟨rfl, rfl, rfl⟩ turn rfl (fun _ => by rw [prepared]; rfl) (by rintro _ ⟨⟩)

theorem alCepSendReq_moves (called : alCepSendReq mgr cep kcep outcome = some (status, after)) :
    Moves possible mgr after := by
  unfold alCepSendReq at called
  split at called
  next prepared =>
    split at called
    · cases called
      exact withdraw_moves here free prepared
    · simp only [bind_eq_bind, bind_eq_some_iff, some.injEq, Prod.mk.injEq] at called
      obtain ⟨mad, _, sent, retried, last, updated, _, rfl⟩ := called
      obtain ⟨accepted, rfl⟩ | ⟨refused, rfl⟩ := cepSendRetry_inv here retried
      · rw [update_setCep, some.injEq, accepted] at updated
        subst updated
        have transmit : Transmit none kcep.state .reqSent := prepared ▸ .req
        have move := Move.transmit mad here transmit free
        rw [if_pos (by rw [prepared]; rfl)] at move
        exact .clean move
      · rw [update_setCep, some.injEq, refused] at updated
        subst updated
        refine (refuse_moves here (.inl (by rw [prepared]; rfl)) (by rw [prepared]; nofun)).trans ?_
        have gone := @withdraw_moves possible _ cep _ (ceps_setCep_self ..)
          (refused_free here free) prepared
        rwa [setCep_setCep] at gone
  · cases called
    exact .refl

theorem prepareReply_moves (keeps : kcep.Keeps next) (stage : next.stage = kcep.stage)
    (remote : next.remote = kcep.remote)
    (replying : kcep.state.replying)
    (lost : kcep.state.prep → ¬ (outcome.mad ∧ outcome.format) → possible .lostMad)
    (called : prepareReply mgr cep next outcome = some (status, after)) :
    Moves possible mgr after := by
  obtain ⟨state, mad, send⟩ := Stage.mk.injEq .. ▸ stage
  obtain ⟨active, joined, joined'⟩ := CepState.facts_of_replying replying
  have drop : Turn (Fault.lostMad.when kcep.state.prep) kcep.stage ⟨next.state, none, next.pSendMad⟩ := by
    rw [state, send]
    exact .drop active kcep.pMad kcep.pSendMad
  have apart : next.state.alone → kcep.state.alone := fun alone => by rwa [← state]
  have keeps' : ∀ pMad state, kcep.Keeps { next with pMad, state } :=
    fun _ _ => ⟨keeps.cid, keeps.refCnt, keeps.madList⟩
  simp only [prepareReply] at called
  split at called
  next unavailable =>
    cases called
    cases prepared : next.state.prep with
    | false =>
      have still : Turn none kcep.stage next.stage := by
        rw [stage]
        exact .still active
      exact turn_moves here free keeps still remote apart nofun
    | true =>
      refine turn_moves here free (keeps' ..) drop remote apart (Fault.when_allowed fun was => ?_)
      exact lost was fun ⟨got, _⟩ => unavailable got
  · split at called
    · cases called
      have turn : Turn none kcep.stage ⟨kcep.state.withPrep, some mgr.nextMad, kcep.pSendMad⟩ :=
        .prepareReply _ replying
      rw [← state, ← send] at turn
      refine (Moves.clean .getMad).trans
        (turn_moves here free (keeps' ..) turn remote (fun alone => ?_) nofun)
      change next.state.withPrep.alone = true at alone
      rw [state, joined'] at alone
      cases alone
    next failed =>
      cases called
      refine (Moves.clean .getMad).trans
        (turn_moves here free (keeps' ..) drop remote apart (Fault.when_allowed fun was => ?_))
      exact lost was fun ⟨_, formatted⟩ => failed formatted

theorem alCepPreRep_moves
    (faults : ∀ fault ∈ (CepCall.preRep qpn outcome).faults kcep.state, possible fault)
    (called : alCepPreRep mgr cep kcep qpn outcome = some (status, after)) :
    Moves possible mgr after := by
  unfold alCepPreRep at called
  split at called
  iterate 2 next was =>
      dsimp only at called
      refine prepareReply_moves here free ?_ (by rfl) (by rfl) (by rw [was]; rfl) ?_ called
      · exact ⟨rfl, rfl, rfl⟩
      · exact fun _ failed => faults _ (by simp [CepCall.faults, was, failed])
  iterate 2 next was =>
      dsimp only at called
      refine prepareReply_moves here free ?_ (by rfl) (by rfl) (by rw [was]; rfl) ?_ called
      · exact ⟨rfl, rfl, rfl⟩
      · rw [was]
        nofun
  · cases called
    exact .refl

theorem alCepSendRep_moves
    (faults : ∀ fault ∈ (CepCall.sendRep outcome).faults kcep.state, possible fault)
    (called : alCepSendRep mgr cep kcep outcome = some (status, after)) :
    Moves possible mgr after := by
  unfold alCepSendRep at called
  split at called
  iterate 2 next prepared =>
      split at called
      next absent =>
        cases called
        have turn : Turn (some .strayIdle) kcep.stage ⟨.idle, none, kcep.pSendMad⟩ :=
          .stray (by simp [prepared])
        refine .one (.turn here ⟨rfl, rfl, rfl⟩ turn (.inl rfl) (fun _ => .inr (.inr rfl))
          fun queued => absurd queued free) ?_
        rintro one ⟨⟩
        exact faults _ (by simp [CepCall.faults, prepared, absent])
      · simp only [bind_eq_bind, bind_eq_some_iff] at called
        obtain ⟨mad, _, sent, retried, called⟩ := called
        obtain ⟨accepted, rfl⟩ | ⟨refused, rfl⟩ := cepSendRetry_inv here retried
        · rw [if_pos accepted, update_setCep] at called
          cases called
          have transmit : Transmit none kcep.state .repSent := .rep (by simp [prepared])
          have move := Move.transmit mad here transmit free
          rw [if_pos (by rw [prepared]; rfl)] at move
          exact .clean move
        · rw [if_neg (by simp [refused])] at called
          simp only [bind_eq_some_iff, some.injEq, Prod.mk.injEq] at called
          obtain ⟨cut, removed, last, aborted, _, rfl⟩ := called
          refine (refuse_moves here (.inl (by rw [prepared]; rfl)) (by rw [prepared]; rintro ⟨⟩)).trans ?_
          refine abort_moves (ceps_setCep_self ..) (by simp only [prepared]; rfl) removed
            (fun held same => ?_) aborted
          simp only [prepared] at same
          rw [Kcep.abort, same]
          rfl
  · cases called
    exact .refl

theorem alCepRtu_moves (called : alCepRtu mgr cep kcep outcome = some (status, after)) :
    Moves possible mgr after := by
  unfold alCepRtu at called
  split at called
  iterate 2 next was =>
      iterate 2
        split at called
        · cases called
          exact .refl
      cases called
      have turn : Turn none kcep.stage ⟨.established, kcep.pMad, kcep.pSendMad⟩ := .ready (by simp [was])
      exact turn_moves here free ⟨rfl, rfl, rfl⟩ turn rfl nofun nofun
  · cases called
    exact .refl

theorem alCepMra_moves (called : alCepMra mgr cep kcep outcome = some (status, after)) :
    Moves possible mgr after := by
  unfold alCepMra at called
  split at called
  iterate 5 next was =>
      iterate 2
        split at called
        · cases called
          exact .refl
      cases called
      have turn : Turn none kcep.stage ⟨kcep.state.withMra, kcep.pMad, kcep.pSendMad⟩ :=
        .delay (by rw [was]; decide)
      exact turn_moves here free ⟨rfl, rfl, rfl⟩ turn rfl (by rw [was]; nofun) nofun
  · cases called
    exact .refl

theorem alCepEstablished_moves (called : alCepEstablished mgr cep kcep = some (status, after)) :
    Moves possible mgr after := by
  unfold alCepEstablished at called
  split at called
  iterate 2 next was =>
      cases called
      have turn : Turn none kcep.stage ⟨.established, kcep.pMad, none⟩ := .confirm (by simp [was])
      exact turn_moves here free ⟨rfl, rfl, rfl⟩ turn rfl nofun nofun
  · cases called
    exact .refl

theorem alCepLap_moves (called : alCepLap mgr cep kcep outcome = some (status, after)) :
    Moves possible mgr after := by
  unfold alCepLap at called
  split at called
  next was =>
    iterate 3
      split at called
      · cases called
        exact .refl
    refine (Moves.clean .getMad).trans ?_
    dsimp only at called
    split at called
    · cases called
      exact .refl
    · have there : (getMad mgr).2.ceps cep = some kcep := here
      obtain ⟨sent, retried, called⟩ := bind_eq_some_iff.mp called
      obtain ⟨accepted, rfl⟩ | ⟨refused, rfl⟩ := cepSendRetry_inv there retried
      · rw [if_pos accepted, update_setCep] at called
        cases called
        have transmit : Transmit none kcep.state .lapSent := was ▸ .lap
        have move := Move.transmit mgr.nextMad there transmit free
        rw [if_neg (by rw [was]; decide)] at move
        exact .clean move
      · rw [if_neg (by simp [refused])] at called
        cases called
        exact refuse_moves there (.inr (by rw [was]; rfl)) (by rw [was]; nofun)
  · cases called
    exact .refl

theorem alCepPreApr_moves
    (faults : ∀ fault ∈ (CepCall.preApr outcome).faults kcep.state, possible fault)
    (called : alCepPreApr mgr cep kcep outcome = some (status, after)) :
    Moves possible mgr after := by
  unfold alCepPreApr at called
  split at called
  iterate 2 next was =>
      refine prepareReply_moves here free ⟨rfl, rfl, rfl⟩ rfl rfl (by rw [was]; rfl) ?_ called
      exact fun _ failed => faults _ (by simp [CepCall.faults, was, failed])
  iterate 2 next was =>
      exact prepareReply_moves here free ⟨rfl, rfl, rfl⟩ rfl rfl (by rw [was]; rfl)
        (by rw [was]; nofun) called
  · cases called
    exact .refl

theorem alCepSendApr_moves
    (faults : ∀ fault ∈ (CepCall.sendApr outcome).faults kcep.state, possible fault)
    (called : alCepSendApr mgr cep kcep outcome = some (status, after)) :
    Moves possible mgr after := by
  unfold alCepSendApr at called
  split at called
  iterate 2 next was =>
      split at called
      next absent =>
        cases called
        have turn : Turn (some .lostMad) kcep.stage ⟨kcep.state, none, kcep.pSendMad⟩ :=
          .lose (by rw [was]; rfl)
        refine turn_moves here free ⟨rfl, rfl, rfl⟩ turn rfl (fun alone => alone) ?_
        rintro one ⟨⟩
        exact faults _ (by simp [CepCall.faults, was, absent])
      · obtain ⟨_, _, called⟩ := bind_eq_some_iff.mp called
        cases called
        have turn : Turn none kcep.stage ⟨.established, none, kcep.pSendMad⟩ := .answer (by simp [was])
        exact turn_moves here free ⟨rfl, rfl, rfl⟩ turn rfl nofun nofun
  · cases called
    exact .refl

theorem alCepDreq_moves
    (faults : ∀ fault ∈ (CepCall.dreq outcome).faults kcep.state, possible fault)
    (called : alCepDreq mgr cep kcep outcome = some (status, after)) :
    Moves possible mgr after := by
  obtain rfl | rfl | ⟨connected, ready, busy, sent, retried, ended⟩ := alCepDreq_inv called
  · exact .refl
  · exact .clean .getMad
  have there : (getMad mgr).2.ceps cep = some kcep := here
  have allowed : kcep.state.sent → possible .busySend := fun sending =>
    faults _ (by simp [CepCall.faults, busy sending])
  refine (Moves.clean .getMad).trans ?_
  obtain ⟨accepted, updated⟩ | ⟨refused, last, updated, rfl⟩ := ended
  · obtain ⟨_, rfl⟩ | ⟨refused, _⟩ := cepSendRetry_inv there retried
    · rw [update_setCep, some.injEq] at updated
      subst updated
      have move := Move.transmit mgr.nextMad there (.dreq connected ready) free
      rw [if_neg (by rw [ready]; nofun)] at move
      exact .one move (Fault.when_allowed allowed)
    · rw [accepted] at refused
      cases refused
  · obtain ⟨accepted, _⟩ | ⟨_, rfl⟩ := cepSendRetry_inv there retried
    · rw [refused] at accepted
      cases accepted
    · rw [update_setCep, some.injEq] at updated
      subst updated
      refine (refuse_moves there (.inr connected) allowed).trans ?_
      have move := Move.parkOther (ceps_setCep_self ((getMad mgr).2.refused kcep) cep
        { kcep with pSendMad := none }) (.inl connected)
      simp only [ready, Bool.false_eq_true, if_false, park, setCep_setCep] at move
      exact .clean move

end Free

section
variable (here : mgr.ceps cep = some kcep)
include here

theorem alCepRej_moves (called : alCepRej mgr cep kcep outcome = some (status, after)) :
    Moves possible mgr after := by
  unfold alCepRej at called
  dsimp only at called
  split at called
  iterate 2 next was =>
      simp only [bind_eq_bind, bind_eq_some_iff, some.injEq, Prod.mk.injEq] at called
      obtain ⟨cut, removed, last, aborted, _, rfl⟩ := called
      refine abort_moves here (by rw [was]; rfl) removed (fun held same => ?_) aborted
      exact (held.abort_of_quiet (by rw [same, was]; rfl) (by rw [same, was]; rfl)).symm
  iterate 2 next was =>
      cases called
      have move := Move.parkOther here (by simp [was])
      rw [if_neg (by rw [was]; decide)] at move
      exact .clean move
  · cases called
    exact .refl

theorem alCepDrep_moves (called : alCepDrep mgr cep kcep outcome = some (status, after)) :
    Moves possible mgr after := by
  unfold alCepDrep at called
  split at called
  next was =>
    iterate 2
      split at called
      · cases called
        exact .refl
    cases called
    have move := Move.parkOther here (.inr (.inr (.inr was)))
    rw [if_neg (by rw [was]; decide)] at move
    exact .clean move
  · cases called
    exact .refl

theorem alCepPoll_moves (called : alCepPoll mgr cep kcep = some (status, after)) :
    Moves possible mgr after := by
  unfold alCepPoll at called
  split at called
  · cases called
    exact .clean (.quiet here)
  next first =>
    obtain ⟨_, _, called⟩ := bind_eq_some_iff.mp called
    cases called
    exact .clean (.poll here first)

end
end WinOFED.Cep
