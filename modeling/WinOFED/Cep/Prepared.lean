import WinOFED.Cep.Protocol

/-! The MAD a CEP has prepared.

The state of a CEP tells by its `CEP_STATE_PREP` bit whether a MAD has been prepared. It is
right as long as no attempt to prepare a MAD again fails, no APR is refused for want of an
agent, and no CEP is destroyed with an APR prepared. -/
namespace WinOFED.Cep
open Transition CepMgr Stage

/-- The state tells whether a MAD has been prepared. -/
def Stage.Prepared (stage : Stage) : Prop := stage.state.prep = stage.pMad.isSome

namespace CepState
variable {state : CepState}

theorem prep_withPrep (replying : state.replying) : state.withPrep.prep := by
  revert replying
  cases state <;> decide

@[simp] theorem prep_withMra : state.withMra.prep = state.prep := by
  cases state <;> decide

theorem unprepared_of_sent (sent : state.sent) : state.prep = false := by
  revert sent
  cases state <;> decide

end CepState

namespace Stage.Prepared
variable {state next : CepState} {mad : MadId} {pMad pSendMad sending : Option MadId}

theorem some (prep : state.prep = true) : Prepared ⟨state, some mad, pSendMad⟩ := prep

theorem none (unprepared : state.prep = false) : Prepared ⟨state, none, pSendMad⟩ := unprepared

section
variable (prepared : Prepared ⟨state, pMad, pSendMad⟩)
include prepared

theorem eq_none (unprepared : state.prep = false) : pMad = .none := by
  have same : state.prep = pMad.isSome := prepared
  rwa [unprepared, eq_comm, Option.isSome_eq_false_iff, Option.isNone_iff_eq_none] at same

/-- A CEP that leaves a state in which nothing is prepared for another one. -/
theorem leave (was : state.prep = false) (will : next.prep = false) : Prepared ⟨next, pMad, sending⟩ := by
  rw [prepared.eq_none was]
  exact none will

/-- What was prepared is given up. -/
theorem giveUp (will : next.prep = false) :
    Prepared ⟨next, if state.prep then .none else pMad, sending⟩ := by
  split
  · exact none will
  next was => exact prepared.leave (Bool.eq_false_iff.mpr was) will

end
end Stage.Prepared

variable {fault : Option Fault}

theorem Turn.prepared {before after : Stage} (turn : Turn fault before after)
    (avoided : fault ≠ some .lostMad) (prepared : before.Prepared) : after.Prepared := by
  cases turn with
  | still => exact prepared
  | prepareReq => exact .some rfl
  | prepareReply mad replying => exact .some (CepState.prep_withPrep replying)
  | lose => exact absurd rfl avoided
  | forget _ unprepared => exact .none unprepared
  | withdraw | stray | answer => exact .none rfl
  | abort => exact prepared.giveUp rfl
  | delay => exact CepState.prep_withMra.trans prepared
  | ready answered => exact prepared.leave (by rcases answered with rfl | rfl <;> rfl) rfl
  | confirm sent => exact prepared.leave (by rcases sent with rfl | rfl | rfl | rfl <;> rfl) rfl
  | disconnect sent => exact prepared.leave (by rcases sent with rfl | rfl | rfl <;> rfl) rfl
  | disconnected _ ready => exact prepared.leave ready rfl
  | load => exact prepared.leave rfl rfl
  | loadEarly sent => exact prepared.leave (by rcases sent with rfl | rfl <;> rfl) rfl

theorem Transmit.unprepared {before after : CepState} (transmit : Transmit fault before after) :
    after.prep = false := by
  cases transmit <;> rfl

theorem Finish.prepared {before after : CepState} {mad : MadId} {pMad : Option MadId}
    (finish : Finish fault before after) (prepared : Prepared ⟨before, pMad, some mad⟩) :
    Prepared ⟨after, pMad, none⟩ := by
  cases finish with
  | abort _ sent => exact prepared.leave (CepState.unprepared_of_sent sent) rfl
  | lap => exact prepared.leave rfl rfl
  | delayed | other => exact prepared

theorem Advance.prepared {before after : Stage} (advance : Advance fault before after)
    (allowed : ∀ one, fault = some one → one ∉ [Fault.lostMad, .keptMad])
    (prepared : before.Prepared) : after.Prepared := by
  cases advance with
  | stay | refuse => exact prepared
  | turn turn => exact turn.prepared (fun lost => allowed _ lost (.head _)) prepared
  | transmit mad transmit => exact prepared.giveUp transmit.unprepared
  | park => exact prepared.giveUp rfl
  | complete finish => exact finish.prepared prepared
  | hungUp ending =>
    obtain ⟨rfl, rfl⟩ | ⟨rfl, rfl⟩ := ending
    · exact prepared.leave rfl rfl
    · exact prepared.leave rfl rfl
  | linkReq | enter | leave | retireParked | hangUp => exact prepared.leave rfl rfl
  | linkRep sent => exact prepared.leave (by rcases sent with rfl | rfl <;> rfl) rfl
  | @retire state pMad pSendMad active quiet =>
    have kept := Fault.not_of_when allowed (by decide)
    cases connected : state.connected with
    | false =>
      rw [Bool.not_false, Bool.and_true]
      exact prepared.giveUp rfl
    | true =>
      rw [connected, Bool.and_true] at kept
      rw [kept, Bool.false_and]
      exact prepared.leave kept rfl
  | @hangUpDreq state _ _ mad connected =>
    refine prepared.leave ?_ rfl
    cases sent : state.sent with
    | true => exact CepState.unprepared_of_sent sent
    | false =>
      rw [sent] at allowed
      exact Fault.not_of_when allowed (by decide)

/-- In every state that is reached, the state of a CEP has the `CEP_STATE_PREP` bit if and only if
it has a MAD prepared, so that it has none when it is on its way out. -/
theorem prep_iff_of_reachable {mgr : CepMgr}
    (reachable : cepMachine.Reachable (Avoids [.lostMad, .keptMad]) mgr) {cep : CepId}
    {kcep : Kcep} (here : mgr.ceps cep = some kcep) :
    (kcep.state.prep = true ↔ kcep.pMad ≠ none) ∧
      (kcep.state = .timewait ∨ kcep.state = .destroy ∨ kcep.state = .dreqDestroy →
        kcep.pMad = none) := by
  have prepared : Prepared ⟨kcep.state, kcep.pMad, kcep.pSendMad⟩ :=
    Kept.of_reachable ⟨.none rfl, Advance.prepared⟩ reachable here
  constructor
  · rw [show kcep.state.prep = kcep.pMad.isSome from prepared, Option.isSome_iff_ne_none]
  · rintro (was | was | was) <;> exact prepared.eq_none (by rw [was]; rfl)

/-- A REQ is prepared. -/
def preparedEvents : List CepEvent :=
  [.create 0 true true, .call 0 1 (.preReq 7 5 .usable .fine)]

/-- The prepared REQ is held by the CEP. -/
theorem preparedEvents_prep : ∃ mgr kcep, Machine.run next newMgr preparedEvents = some mgr ∧
    mgr.ceps 0 = some kcep ∧ kcep.state = .preReq ∧ kcep.pMad ≠ none := by
  have careful : Machine.Guarded next (Avoids [.lostMad, .keptMad]) newMgr
      preparedEvents := by
    decide +kernel
  obtain ⟨mgr, ended, stored⟩ : ∃ mgr, Machine.run next newMgr preparedEvents = some mgr ∧
      (mgr.ceps 0).map (fun kcep => kcep.state) = some .preReq :=
    Machine.run_of_any (by decide +kernel)
  obtain ⟨kcep, here, state⟩ := Option.map_eq_some_iff.mp stored
  have prepared := (prep_iff_of_reachable (newMgr_reachable careful ended) here).1
  exact ⟨mgr, kcep, ended, here, state, prepared.mp (by rw [state]; rfl)⟩

/-- A REQ is prepared again with a path that cannot be used. -/
def badPathEvents : List CepEvent :=
  preparedEvents ++ [.call 0 1 (.preReq 7 5 .badPath .fine)]

/-- The MAD is gone, and the state says that it is there: to send it is undefined. -/
theorem badPathEvents_lost : ∃ mgr kcep, cepMachine.Reachable (Avoids []) mgr ∧
    mgr.ceps 0 = some kcep ∧ kcep.state.prep = true ∧ kcep.pMad = none ∧
    mgr.next (.call 0 1 (.sendReq .fine)) = none := by
  obtain ⟨mgr, run, stored, undefined⟩ : ∃ mgr, cepMachine.Reachable (Avoids []) mgr ∧
      (mgr.ceps 0).map (fun kcep => (kcep.state.prep, kcep.pMad)) = some (true, none) ∧
        (mgr.next (.call 0 1 (.sendReq .fine))).isNone = true :=
    Machine.reaches_of_any newMgr_initial badPathEvents (by decide +kernel) (by decide +kernel)
  obtain ⟨kcep, here, facts⟩ := Option.map_eq_some_iff.mp stored
  obtain ⟨prep, pMad⟩ := Prod.mk.inj facts
  exact ⟨mgr, kcep, run, here, prep, pMad, Option.isNone_iff_eq_none.mp undefined⟩

end WinOFED.Cep
