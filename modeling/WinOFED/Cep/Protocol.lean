import WinOFED.Cep.Runs

/-! The protocol of a single CEP.

The steps of a CEP by itself are those of the protocol: whatever the manager does, each CEP
stays where it is or makes one of them. A property of single CEPs that the protocol keeps
therefore holds in every state the manager reaches. -/
namespace WinOFED.Cep
open Complib Transition CepMgr

/-- The steps of a CEP. -/
inductive Advance : Option Fault → Stage → Stage → Prop
  | stay {stage} : Advance none stage stage
  | turn {fault before after} (turn : Turn fault before after) : Advance fault before after
  | refuse {state pMad pSendMad} (ready : state.prep ∨ state.connected) :
      Advance (Fault.busySend.when state.sent) ⟨state, pMad, pSendMad⟩ ⟨state, pMad, none⟩
  | transmit {fault state next pMad pSendMad} (mad : MadId) (transmit : Transmit fault state next) :
      Advance fault ⟨state, pMad, pSendMad⟩ ⟨next, if state.prep then none else pMad, some mad⟩
  | park {state pMad pSendMad}
      (ending : state.connected ∨ state = .repRcvd ∨ state = .repMraSent ∨ state = .dreqRcvd ∨
        state = .dreqSent) :
      Advance none ⟨state, pMad, pSendMad⟩
        ⟨.timewait, if state.prep then none else pMad, if state = .dreqSent then none else pSendMad⟩
  | complete {fault state next pMad mad} (finish : Finish fault state next) :
      Advance fault ⟨state, pMad, some mad⟩ ⟨next, pMad, none⟩
  | hungUp {state next pMad pSendMad}
      (ending : state = .dreqSent ∧ next = .timewait ∨ state = .dreqDestroy ∧ next = .destroy) :
      Advance none ⟨state, pMad, pSendMad⟩ ⟨next, pMad, none⟩
  | linkReq {fault pMad pSendMad} : Advance fault ⟨.idle, pMad, pSendMad⟩ ⟨.reqRcvd, pMad, pSendMad⟩
  | linkRep {fault state pMad pSendMad} (sent : state = .reqSent ∨ state = .reqMraRcvd) :
      Advance fault ⟨state, pMad, pSendMad⟩ ⟨.repRcvd, pMad, none⟩
  | enter {pMad pSendMad} : Advance none ⟨.idle, pMad, pSendMad⟩ ⟨.listen, pMad, pSendMad⟩
  | leave {pMad pSendMad} : Advance none ⟨.listen, pMad, pSendMad⟩ ⟨.idle, pMad, pSendMad⟩
  | retire {state pMad pSendMad} (active : state.active) (quiet : state ≠ .dreqSent) :
      Advance (Fault.keptMad.when (state.prep && state.connected)) ⟨state, pMad, pSendMad⟩
        ⟨.destroy, if state.prep && !state.connected then none else pMad, pSendMad⟩
  | retireParked {pMad pSendMad} : Advance none ⟨.timewait, pMad, pSendMad⟩ ⟨.destroy, pMad, pSendMad⟩
  | hangUp {pMad pSendMad} :
      Advance none ⟨.dreqSent, pMad, pSendMad⟩ ⟨.dreqDestroy, pMad, pSendMad⟩
  | hangUpDreq {state pMad pSendMad} (mad : MadId) (connected : state.connected) :
      Advance (if state.sent then some .busySend else Fault.keptMad.when state.prep)
        ⟨state, pMad, pSendMad⟩ ⟨.dreqDestroy, pMad, some mad⟩

variable {mgr after : CepMgr} {cep : CepId} {kcep : Kcep} {fault : Option Fault}

/-- Every CEP stays where it is, makes a step, or is new. -/
def CepMgr.Advances (fault : Option Fault) (mgr after : CepMgr) : Prop :=
  ∀ cep next, after.ceps cep = some next →
    (∃ kcep made, mgr.ceps cep = some kcep ∧ (made = none ∨ made = fault) ∧
      Advance made kcep.stage next.stage) ∨
    next.stage = ⟨.idle, none, none⟩

namespace CepMgr.Advances

theorem refl : mgr.Advances fault mgr := fun _ next here => .inl ⟨next, none, here, .inl rfl, .stay⟩

theorem set {next : Kcep} (here : mgr.ceps cep = some kcep)
    (ceps : after.ceps = (mgr.setCep cep next).ceps) (advance : Advance fault kcep.stage next.stage) :
    mgr.Advances fault after := by
  intro id value there
  rw [ceps] at there
  obtain ⟨rfl, rfl⟩ | ⟨equal, there⟩ := of_ceps_setCep there
  · exact .inl ⟨kcep, fault, here, .inr rfl, advance⟩
  · exact .inl ⟨value, none, there, .inl rfl, .stay⟩

/-- A CEP changes in what the protocol is not about. -/
theorem stay {next : Kcep} (here : mgr.ceps cep = some kcep)
    (ceps : after.ceps = (mgr.setCep cep next).ceps) (same : next.stage = kcep.stage) :
    mgr.Advances none after := by
  refine set here ceps ?_
  rw [same]
  exact .stay

end CepMgr.Advances

theorem queueMad_advances {sendContext1 : Option CepId}
    (queued : queueMad mgr cep sendContext1 = some after) : mgr.Advances none after := by
  obtain ⟨kcep, here, ⟨_, rfl⟩ | ⟨_, rfl⟩ | ⟨_, _, rfl⟩⟩ := queueMad_inv queued
  · exact .refl
  · exact .stay here rfl rfl
  · exact .stay here rfl rfl

theorem createCep_advances {allocated grown : Bool} {mid : CepMgr}
    (created : createCep mgr allocated grown = some (cep, mid)) : mgr.Advances none mid := by
  obtain ⟨cid, size, free, rfl, _, rfl⟩ := createCep_inv created
  intro id next there
  obtain ⟨-, rfl⟩ | ⟨-, there⟩ := of_ceps_setCep there
  · exact .inr rfl
  · exact .inl ⟨next, none, there, .inl rfl, .stay⟩

/-- The moves of the manager are steps of its CEPs. -/
theorem Move.advances (move : Move fault mgr after) : mgr.Advances fault after := by
  cases move with
  | turn here _ turn _ _ _ => exact .set here rfl (.turn turn)
  | unlink removed =>
    obtain ⟨kcep, _, _, here, _, _, rfl⟩ := removeCep_inv removed
    exact .stay here rfl rfl
  | refuse here ready => exact .set here rfl (.refuse ready)
  | transmit mad here transmit _ => exact .set here rfl (.transmit mad transmit)
  | park here ending => exact .set here rfl (.park ending)
  | completeOther | renumber | getMad => exact .refl
  | complete _ here own finish _ =>
    refine .set here rfl ?_
    rw [Kcep.stage, own]
    exact .complete finish
  | completeDreq _ here _ ending => exact .set here rfl (.hungUp ending)
  | drepDestroy here ending => exact .set here rfl (.hungUp (.inr ⟨ending, rfl⟩))
  | enqueue _ queued | enqueueReq _ _ _ _ _ _ _ queued => exact queueMad_advances queued
  | poll here _ | quiet here | release _ here => exact .stay here rfl rfl
  | create owner created here =>
    intro id next there
    exact createCep_advances created id next there
  | unbind unbound =>
    obtain ⟨_, _, rfl⟩ := unbindCep_inv unbound
    exact .refl
  | linkReq here idle _ inserted _ =>
    obtain ⟨held, ceps, stage, _, _⟩ := insertCep_stored inserted
    refine .set here ceps ?_
    rw [stage, Kcep.stage, idle]
    exact .linkReq
  | linkRep here sent inserted cancelled =>
    obtain ⟨held, ceps, stage, _, _⟩ := insertCep_stored inserted
    obtain ⟨mid, there, rfl⟩ := update_eq_some.mp cancelled
    refine .set here (ceps_setCep_congr ceps _) ?_
    rw [ceps, ceps_setCep_self, Option.some.injEq] at there
    subst there
    obtain ⟨state, pMad, _⟩ := Stage.mk.injEq .. ▸ stage
    simp only [Kcep.stage, state, pMad]
    exact .linkRep sent
  | bounceRep here sent inserted _ restored =>
    obtain ⟨held, ceps, stage, _, _⟩ := insertCep_stored inserted
    obtain ⟨mid, there, rfl⟩ := update_eq_some.mp restored
    refine .stay here (ceps_setCep_congr ceps _) ?_
    rw [ceps, ceps_setCep_self, Option.some.injEq] at there
    subst there
    obtain ⟨_, pMad, pSendMad⟩ := Stage.mk.injEq .. ▸ stage
    simp only [Kcep.stage, pMad, pSendMad]
    rfl
  | enter here idle _ _ =>
    refine .set here rfl ?_
    rw [Kcep.stage, idle]
    exact .enter
  | leave here listening _ =>
    refine .set here rfl ?_
    rw [Kcep.stage, listening]
    exact .leave
  | retire here active quiet _ _ => exact .set here rfl (.retire active quiet)
  | retireParked here parked _ =>
    refine .set here rfl ?_
    rw [Kcep.stage, parked]
    exact .retireParked
  | hangUp here sent _ =>
    refine .set here rfl ?_
    rw [Kcep.stage, sent]
    exact .hangUp
  | hangUpDreq mad here connected _ => exact .set here rfl (.hangUpDreq mad connected)
  | free here _ _ _ freed =>
    obtain ⟨kcep, _, rfl⟩ := destroyCep_inv freed
    intro id next there
    exact .inl ⟨next, none, (Option.ite_none_left_eq_some.mp there).2, .inl rfl, .stay⟩

theorem Fault.not_of_when {fault : Fault} {condition : Bool} {avoided : List Fault}
    (allowed : ∀ one, fault.when condition = some one → one ∉ avoided) (member : fault ∈ avoided) :
    condition = false := by
  by_contra holds
  rw [Bool.not_eq_false] at holds
  exact allowed fault (by rw [Fault.when, if_pos holds]) member

/-- A property of CEPs that their steps keep, but for the faults that are avoided. -/
structure Stage.Kept (avoided : List Fault) (property : Stage → Prop) : Prop where
  new : property ⟨.idle, none, none⟩
  step : ∀ {fault before after}, Advance fault before after →
    (∀ one, fault = some one → one ∉ avoided) → property before → property after

variable {avoided : List Fault} {property : Stage → Prop}

theorem Stage.Kept.move (kept : Stage.Kept avoided property) (move : Move fault mgr after)
    (allowed : ∀ one, fault = some one → one ∉ avoided)
    (holds : ∀ cep kcep, mgr.ceps cep = some kcep → property kcep.stage) :
    ∀ cep kcep, after.ceps cep = some kcep → property kcep.stage := by
  intro cep next there
  obtain ⟨kcep, made, before, same, advance⟩ | idle := move.advances cep next there
  · refine kept.step advance (fun one some => ?_) (holds cep kcep before)
    obtain rfl | rfl := same
    · cases some
    · exact allowed one some
  · rw [idle]
    exact kept.new

/-- Such a property is true of every CEP in every state that is reached without these faults. -/
theorem Stage.Kept.of_reachable (kept : Stage.Kept avoided property)
    (reachable : cepMachine.Reachable (Avoids avoided) mgr) (here : mgr.ceps cep = some kcep) :
    property kcep.stage := by
  have invariant := @invariant_of_moves mgr
    (fun mgr => ∀ cep kcep, mgr.ceps cep = some kcep → property kcep.stage) avoided
    (fun _ _ _ _ _ none => nomatch none) (fun move allowed _ holds => kept.move move allowed holds)
    reachable
  exact invariant.2.2 cep kcep here

end WinOFED.Cep
