import WinOFED.Cep.Prepared

/-! The MAD a CEP sends.

A CEP in a state with the `CEP_STATE_SENT` bit waits for the answer to the MAD in
`p_send_mad`, which the MAD service holds. That is so as long as no LAP times out after an
MRA, no LAP is received while the REP is still being sent, and no CEP disconnects or is
destroyed while it sends a LAP. -/
namespace WinOFED.Cep
open Transition CepMgr Stage

/-- States in which nothing is being sent with retries. -/
def CepState.silent (state : CepState) : Bool :=
  (state.active || state = .listen) && !state.sent && state ≠ .dreqRcvd

/-- The state tells whether a MAD is being sent. -/
structure Stage.Outstanding (stage : Stage) : Prop where
  sent : stage.state.sent → stage.pSendMad ≠ none
  silent : stage.state.silent → stage.pSendMad = none

/-- The faults that disturb the MAD that is sent. -/
def sendFaults : List Fault := [.lapTimeout, .lapEarly, .busySend]

namespace Stage.Outstanding
variable {state next : CepState} {mad : MadId} {pMad pSendMad other : Option MadId}

theorem some (sent : state.silent = false) : Outstanding ⟨state, pMad, some mad⟩ :=
  ⟨nofun, fun silent => absurd silent (Bool.eq_false_iff.mp sent)⟩

theorem none (silent : state.sent = false) : Outstanding ⟨state, pMad, none⟩ :=
  ⟨fun sent => absurd sent (Bool.eq_false_iff.mp silent), fun _ => rfl⟩

/-- A CEP goes from one state in which nothing is sent to another one. -/
theorem stay (outstanding : Outstanding ⟨state, pMad, pSendMad⟩) (was : state.silent)
    (will : next.sent = false) : Outstanding ⟨next, other, pSendMad⟩ := by
  have nothing : pSendMad = .none := outstanding.silent was
  rw [nothing]
  exact none will

/-- A CEP is on its way out, whatever it sends. -/
theorem ending (silent : next.sent = false) (finished : next.silent = false) :
    Outstanding ⟨next, pMad, pSendMad⟩ :=
  ⟨fun sent => absurd sent (Bool.eq_false_iff.mp silent),
    fun still => absurd still (Bool.eq_false_iff.mp finished)⟩

theorem restate (outstanding : Outstanding ⟨state, pMad, pSendMad⟩)
    (sent : next.sent = state.sent) (silent : next.silent = state.silent) :
    Outstanding ⟨next, other, pSendMad⟩ :=
  ⟨fun sends => outstanding.sent (sent ▸ sends), fun still => outstanding.silent (silent ▸ still)⟩

end Stage.Outstanding

variable {before : Stage} {sendContext1 : Option CepId}

theorem Turn.outstanding {after : Stage} (turn : Turn fault before after)
    (avoided : fault ≠ some .lapEarly) (outstanding : before.Outstanding) : after.Outstanding := by
  cases turn with
  | still => exact outstanding
  | prepareReq mad first => exact outstanding.stay (by rcases first with rfl | rfl <;> rfl) rfl
  | @prepareReply state _ _ mad replying =>
    have facts : state.silent ∧ state.withPrep.sent = false := by
      revert replying
      cases state <;> decide
    exact outstanding.stay facts.1 facts.2
  | lose | forget => exact outstanding.restate rfl rfl
  | withdraw | load => exact outstanding.stay rfl rfl
  | @abort state _ _ connecting =>
    cases sent : state.sent with
    | true => exact .none rfl
    | false =>
      have silent : state.silent := by
        revert connecting sent
        cases state <;> decide
      exact outstanding.stay silent rfl
  | stray prepared | answer prepared =>
    exact outstanding.stay (by rcases prepared with rfl | rfl <;> rfl) rfl
  | @delay state _ _ delayed =>
    have facts : state.withMra.sent = state.sent ∧ state.withMra.silent = state.silent := by
      cases state <;> decide
    exact outstanding.restate facts.1 facts.2
  | ready answered => exact outstanding.stay (by rcases answered with rfl | rfl <;> rfl) rfl
  | confirm | disconnect => exact .none rfl
  | disconnected => exact .ending rfl rfl
  | loadEarly => exact absurd rfl avoided

theorem Transmit.sends {before after : CepState} (transmit : Transmit fault before after) :
    after.silent = false := by
  cases transmit <;> rfl

theorem Finish.outstanding {before after : CepState} {pMad : Option MadId}
    (finish : Finish fault before after) (avoided : fault ≠ some .lapTimeout) :
    Outstanding ⟨after, pMad, none⟩ := by
  cases finish with
  | abort | lap => exact .none rfl
  | delayed => exact absurd rfl avoided
  | other silent => exact .none silent

theorem Advance.outstanding {after : Stage} (advance : Advance fault before after)
    (allowed : ∀ one, fault = some one → one ∉ sendFaults) (outstanding : before.Outstanding) :
    after.Outstanding := by
  have avoids : ∀ one ∈ sendFaults, fault ≠ some one := fun one member same =>
    allowed one same member
  cases advance with
  | stay => exact outstanding
  | turn turn => exact turn.outstanding (avoids _ (by decide)) outstanding
  | refuse =>
    have quiet := Fault.not_of_when allowed (by decide)
    exact .none quiet
  | transmit mad transmit => exact .some transmit.sends
  | park | retire | retireParked => exact .ending rfl rfl
  | complete finish => exact finish.outstanding (avoids _ (by decide))
  | hungUp ending =>
    obtain ⟨rfl, rfl⟩ | ⟨rfl, rfl⟩ := ending
    · exact .none rfl
    · exact .none rfl
  | linkReq | enter | leave => exact outstanding.stay rfl rfl
  | linkRep => exact .none rfl
  | hangUp => exact outstanding.restate rfl rfl
  | hangUpDreq mad connected => exact .some rfl

/-! ### What the MAD service holds -/

variable {mgr after : CepMgr} {cep : CepId} {kcep : Kcep} {fault : Option Fault}

/-- The MAD service holds what the CEPs send. -/
def CepMgr.Held (mgr : CepMgr) : Prop :=
  ∀ cep kcep mad, mgr.ceps cep = some kcep → kcep.pSendMad = some mad → (mad, cep) ∈ mgr.sends

namespace CepMgr.Held
variable {next : Kcep} {mad : MadId} (held : mgr.Held) (ceps : after.ceps = (mgr.setCep cep next).ceps)
include held ceps

/-- One CEP changes, and the MAD service holds what it sends. -/
theorem replace (own : ∀ mad, next.pSendMad = some mad → (mad, cep) ∈ after.sends)
    (others : ∀ mad id, id ≠ cep → (mad, id) ∈ mgr.sends → (mad, id) ∈ after.sends) :
    after.Held := by
  intro id value mad there sending
  rw [ceps] at there
  obtain ⟨rfl, rfl⟩ | ⟨equal, there⟩ := of_ceps_setCep there
  · exact own mad sending
  · exact others mad id equal (held id value mad there sending)

theorem set (here : mgr.ceps cep = some kcep) (sends : after.sends = mgr.sends)
    (fewer : next.pSendMad = none ∨ next.pSendMad = kcep.pSendMad) : after.Held := by
  refine held.replace ceps (fun mad sending => ?_) fun _ _ _ => sends ▸ id
  obtain nothing | same := fewer
  · rw [nothing] at sending
    cases sending
  · exact sends ▸ held cep kcep mad here (same ▸ sending)

theorem send (sends : after.sends = (mad, cep) :: mgr.sends)
    (sending : next.pSendMad = some mad) : after.Held := by
  refine held.replace ceps (fun other sent => ?_) fun _ _ _ old => ?_
  · rw [sending, Option.some.injEq] at sent
    exact sends ▸ sent ▸ List.mem_cons_self ..
  · exact sends ▸ List.mem_cons_of_mem _ old

/-- A MAD comes back that the CEP does not send any more. -/
theorem complete (here : mgr.ceps cep = some kcep)
    (sends : after.sends = mgr.sends.erase (mad, cep))
    (finished : next.pSendMad = none ∨ next.pSendMad = kcep.pSendMad ∧ kcep.pSendMad ≠ some mad) :
    after.Held := by
  refine held.replace ceps (fun other sent => ?_) fun other id equal old => ?_
  · obtain nothing | ⟨same, different⟩ := finished
    · rw [nothing] at sent
      cases sent
    · rw [same] at sent
      have ne : (other, cep) ≠ (mad, cep) := by
        rintro ⟨⟩
        exact different sent
      exact sends ▸ (List.mem_erase_of_ne ne).mpr (held cep kcep other here sent)
  · have ne : (other, id) ≠ (mad, cep) := fun same => equal (congrArg Prod.snd same)
    exact sends ▸ (List.mem_erase_of_ne ne).mpr old

end CepMgr.Held

theorem Turn.fewer {after : Stage} (turn : Turn fault before after) :
    after.pSendMad = none ∨ after.pSendMad = before.pSendMad := by
  cases turn
  case confirm | disconnect => exact .inl rfl
  case abort =>
    dsimp only
    split
    · exact .inl rfl
    · exact .inr rfl
  all_goals exact .inr rfl

theorem queueMad_held (held : mgr.Held) (queued : queueMad mgr cep sendContext1 = some after) :
    after.Held := by
  obtain ⟨kcep, here, ⟨_, rfl⟩ | ⟨_, rfl⟩ | ⟨_, _, rfl⟩⟩ := queueMad_inv queued
  · exact held
  · exact held.set rfl here rfl (.inr rfl)
  · exact held.set rfl here rfl (.inr rfl)

theorem Move.held (move : Move fault mgr after) (held : mgr.Held) : after.Held := by
  cases move with
  | turn here _ turn _ _ _ => exact held.set rfl here rfl turn.fewer
  | unlink removed =>
    obtain ⟨kcep, _, _, here, _, _, rfl⟩ := removeCep_inv removed
    exact held.set rfl here rfl (.inr rfl)
  | refuse here _ | drepDestroy here _ => exact held.set rfl here rfl (.inl rfl)
  | transmit mad here _ _ | hangUpDreq mad here _ _ => exact held.send rfl rfl rfl
  | park here _ =>
    refine held.set rfl here rfl ?_
    dsimp only
    split
    · exact .inl rfl
    · exact .inr rfl
  | completeOther _ here other =>
    have same : mgr.ceps = (mgr.setCep _ _).ceps := congrArg ceps (setCep_same here).symm
    exact held.complete same here rfl (.inr ⟨rfl, other⟩)
  | complete _ here _ _ _ | completeDreq _ here _ _ => exact held.complete rfl here rfl (.inl rfl)
  | enqueue _ queued | enqueueReq _ _ _ _ _ _ _ queued => exact queueMad_held held queued
  | poll here _ | quiet here | release _ here | enter here _ _ _ | leave here _ _
  | retire here _ _ _ _ | retireParked here _ _ | hangUp here _ _ =>
    exact held.set rfl here rfl (.inr rfl)
  | create owner created here =>
    obtain ⟨cid, size, free, rfl, _, rfl⟩ := createCep_inv created
    exact held.replace rfl nofun fun _ _ _ => id
  | unbind unbound =>
    obtain ⟨_, _, rfl⟩ := unbindCep_inv unbound
    exact held
  | linkReq here _ _ inserted _ =>
    obtain ⟨stored, ceps, stage, _, _⟩ := insertCep_stored inserted
    have sends := insertCep_sends inserted
    exact held.set ceps here sends (.inr (congrArg pSendMad stage))
  | linkRep here _ inserted cancelled =>
    obtain ⟨stored, ceps, _, _, _⟩ := insertCep_stored inserted
    have sends := insertCep_sends inserted
    obtain ⟨_, _, rfl⟩ := update_eq_some.mp cancelled
    exact held.set (ceps_setCep_congr ceps _) here sends (.inl rfl)
  | bounceRep here _ inserted _ restored =>
    obtain ⟨stored, ceps, stage, _, _⟩ := insertCep_stored inserted
    obtain ⟨mid, there, rfl⟩ := update_eq_some.mp restored
    rw [ceps, ceps_setCep_self, Option.some.injEq] at there
    subst there
    have sends := insertCep_sends inserted
    exact held.set (ceps_setCep_congr ceps _) here sends (.inr (congrArg pSendMad stage))
  | free here _ _ _ freed =>
    obtain ⟨kcep, _, rfl⟩ := destroyCep_inv freed
    intro id value mad there sending
    exact held id value mad (Option.ite_none_left_eq_some.mp there).2 sending
  | renumber | getMad => exact held

/-! ### `__cep_send_retry` -/

theorem insertCep_busySend {misread : Misread} {result : Inserted}
    (inserted : insertCep mgr cep misread = some (result, after)) :
    after.busySend = mgr.busySend := by
  obtain ⟨_, _, _, _, rfl⟩ := insertCep_inv inserted
  rfl

theorem CepState.silent_of_quiet {state : CepState} (ready : state.prep ∨ state.connected)
    (quiet : ¬ state.sent) : state.silent := by
  revert ready quiet
  cases state <;> decide

/-- A CEP that begins to send is not sending. -/
theorem Transmit.silent {before next : CepState} (transmit : Transmit fault before next)
    (avoided : fault ≠ some .busySend) : before.silent := by
  cases transmit with
  | req => rfl
  | rep prepared => rcases prepared with rfl | rfl <;> rfl
  | lap => rfl
  | dreq connected _ =>
    exact CepState.silent_of_quiet (.inr connected) fun sent => avoided (if_pos sent)

/-- No MAD is sent while another one is, but for the faults. -/
theorem Move.busySend (move : Move fault mgr after) (avoided : fault ≠ some .busySend)
    (outstanding : ∀ cep kcep, mgr.ceps cep = some kcep → kcep.stage.Outstanding) :
    after.busySend = mgr.busySend := by
  have quiet : ∀ {cep kcep}, mgr.ceps cep = some kcep → kcep.state.silent →
      (mgr.busySend || kcep.pSendMad.isSome) = mgr.busySend := by
    intro cep kcep here silent
    have nothing : kcep.pSendMad = none := (outstanding cep kcep here).silent silent
    rw [nothing, Option.isSome_none, Bool.or_false]
  cases move with
  | unlink removed =>
    obtain ⟨_, _, _, _, _, _, rfl⟩ := removeCep_inv removed
    rfl
  | refuse here ready =>
    exact quiet here (CepState.silent_of_quiet ready fun sent => avoided (if_pos sent))
  | transmit mad here transmit _ => exact quiet here (transmit.silent avoided)
  | enqueue _ queued | enqueueReq _ _ _ _ _ _ _ queued =>
    obtain ⟨_, _, ⟨_, rfl⟩ | ⟨_, rfl⟩ | ⟨_, _, rfl⟩⟩ := queueMad_inv queued <;> rfl
  | create owner created here =>
    obtain ⟨_, _, _, _, _, rfl⟩ := createCep_inv created
    rfl
  | unbind unbound =>
    obtain ⟨_, _, rfl⟩ := unbindCep_inv unbound
    rfl
  | linkReq _ _ _ inserted _ =>
    have same := insertCep_busySend inserted
    exact same
  | linkRep _ _ inserted cancelled =>
    have same := insertCep_busySend inserted
    obtain ⟨_, _, rfl⟩ := update_eq_some.mp cancelled
    exact same
  | bounceRep _ _ inserted _ restored =>
    have same := insertCep_busySend inserted
    obtain ⟨_, _, rfl⟩ := update_eq_some.mp restored
    exact same
  | hangUpDreq mad here connected _ =>
    exact quiet here (CepState.silent_of_quiet (.inr connected) fun sent => avoided (if_pos sent))
  | free _ _ _ _ freed =>
    obtain ⟨_, _, rfl⟩ := destroyCep_inv freed
    rfl
  | turn | park | completeOther | complete | completeDreq | drepDestroy | poll | quiet | release
  | enter | leave | retire | retireParked | hangUp | renumber | getMad => rfl

/-! ### Runs -/

/-- In every state that is reached, a CEP whose state has the `CEP_STATE_SENT` bit sends a MAD that
the MAD service holds, and `__cep_send_retry` was never entered for one that sends. -/
theorem sends_of_reachable (reachable : cepMachine.Reachable (Avoids sendFaults) mgr) :
    (∀ cep kcep, mgr.ceps cep = some kcep → kcep.state.sent = true →
      ∃ mad, kcep.pSendMad = some mad ∧ (mad, cep) ∈ mgr.sends) ∧ mgr.busySend = false := by
  have invariant := @invariant_of_moves mgr
    (fun mgr => (∀ cep kcep, mgr.ceps cep = some kcep → kcep.stage.Outstanding) ∧ mgr.Held ∧
      mgr.busySend = false) sendFaults
    (fun _ _ _ => ⟨fun _ _ none => (nomatch none), fun _ _ _ none => (nomatch none), rfl⟩) ?_ reachable
  · obtain ⟨_, _, outstanding, held, free⟩ := invariant
    refine ⟨fun cep kcep here sent => ?_, free⟩
    obtain ⟨mad, sending⟩ := Option.ne_none_iff_exists'.mp ((outstanding cep kcep here).sent sent)
    exact ⟨mad, sending, held cep kcep mad here sending⟩
  · rintro fault mgr after move allowed _ ⟨outstanding, held, free⟩
    refine ⟨Kept.move ⟨.none rfl, Advance.outstanding⟩ move allowed outstanding, move.held held, ?_⟩
    rw [move.busySend (fun busy => allowed _ busy (by decide)) outstanding]
    exact free

/-- A REQ is sent. -/
def sentEvents : List CepEvent :=
  [.create 0 true true, .call 0 1 (.preReq 7 5 .usable .fine), .call 0 1 (.sendReq .fine)]

/-- The REQ is held by the CEP and is with the service. -/
theorem sentEvents_held : ∃ mgr kcep mad, Machine.run next newMgr sentEvents = some mgr ∧
    mgr.ceps 0 = some kcep ∧ kcep.state = .reqSent ∧ kcep.pSendMad = some mad ∧
    (mad, 0) ∈ mgr.sends := by
  have careful : Machine.Guarded next (Avoids sendFaults) newMgr sentEvents := by
    decide +kernel
  obtain ⟨mgr, ended, stored⟩ : ∃ mgr, Machine.run next newMgr sentEvents = some mgr ∧
      (mgr.ceps 0).map (fun kcep => kcep.state) = some .reqSent :=
    Machine.run_of_any (by decide +kernel)
  obtain ⟨kcep, here, state⟩ := Option.map_eq_some_iff.mp stored
  obtain ⟨mad, sending, held⟩ :=
    (sends_of_reachable (newMgr_reachable careful ended)).1 0 kcep here (by rw [state]; rfl)
  exact ⟨mgr, kcep, mad, ended, here, state, sending, held⟩

/-- A connection is established, and a LAP is sent. -/
def lapEvents : List CepEvent :=
  sentEvents ++ [.recv (.rep 9 0x02000001 1 3) .fine, .call 0 1 (.rtu .fine), .call 0 1 (.lap .fine)]

/-- The LAP times out after an MRA: the CEP waits for the answer to a MAD it does not send. -/
theorem lapEvents_lost : ∃ mgr kcep, cepMachine.Reachable (Avoids []) mgr ∧
    mgr.ceps 0 = some kcep ∧ kcep.state = .lapMraRcvd ∧ kcep.pSendMad = none := by
  obtain ⟨mgr, run, stored⟩ : ∃ mgr, cepMachine.Reachable (Avoids []) mgr ∧
      (mgr.ceps 0).map (fun kcep => (kcep.state, kcep.pSendMad)) = some (.lapMraRcvd, none) :=
    Machine.reaches_of_any newMgr_initial
      (lapEvents ++ [.recv (.mra 9 0x02000001 2) .fine, .sendDone 1 0]) (by decide +kernel)
      (by decide +kernel)
  obtain ⟨kcep, here, facts⟩ := Option.map_eq_some_iff.mp stored
  obtain ⟨state, sending⟩ := Prod.mk.inj facts
  exact ⟨mgr, kcep, run, here, state, sending⟩

/-- The client disconnects while the LAP is being sent: `__cep_send_retry` loses track of it. -/
theorem lapEvents_busy : ∃ mgr, cepMachine.Reachable (Avoids []) mgr ∧
    mgr.busySend = true :=
  Machine.reaches_of_any newMgr_initial (lapEvents ++ [.call 0 1 (.dreq .fine)]) (by decide +kernel)
    (by decide +kernel)

end WinOFED.Cep
