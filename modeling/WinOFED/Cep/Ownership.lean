import WinOFED.Cep.ConnLinks

/-! What refers to a CEP, whatever fails in a run. -/
namespace WinOFED.Cep
open Transition CepMgr List

section
variable {mgr : CepMgr} (reachable : cepMachine.Reachable (Avoids []) mgr)
include reachable

theorem books_of_reachable : mgr.Sound ∧ mgr.Unsent := by
  have invariant := @invariant_of_moves mgr (fun _ => True) [] (fun _ _ _ => trivial)
    (fun _ _ _ _ => trivial) reachable
  exact ⟨invariant.1, invariant.2.1⟩

/-- A CEP has one reference until it is cleaned up, and one for each MAD being sent and each
callback running. None of these outlives it. -/
theorem refCnt_of_reachable :
    (∀ cep kcep, mgr.ceps cep = some kcep →
      kcep.refCnt = (if kcep.state.cleaned then 0 else 1) +
        ((mgr.sends.map Prod.snd).count cep + mgr.callbacks.count cep : Nat)) ∧
    ∀ cep, cep ∈ mgr.sends.map Prod.snd ∨ cep ∈ mgr.callbacks → mgr.ceps cep ≠ none := by
  obtain ⟨sound, -⟩ := books_of_reachable reachable
  refine ⟨fun _ _ here => sound.refs.counted (view_of_ceps here _), ?_⟩
  intro cep refers gone
  have unused := sound.refs.freed (congrArg (Option.map _) gone)
  obtain ⟨sends, callbacks⟩ := Nat.add_eq_zero_iff.mp unused
  exact refers.elim (count_eq_zero.mp sends) (count_eq_zero.mp callbacks)

/-- A REQ waits at one listener, once. The CEP made for it is there, has no MADs of its own and
sends none before it is handed out. -/
theorem waitingReqs_of_reachable : mgr.queueBook.Sound ∧ mgr.Unsent := by
  obtain ⟨sound, unsent⟩ := books_of_reachable reachable
  exact ⟨sound.queues, unsent⟩

end

theorem reqEvent_queued : ∃ mgr, cepMachine.Reachable (Avoids []) mgr ∧ mgr.callbacks = [0] ∧
    (mgr.ceps 0).map Kcep.madList = some [some 1] :=
  Machine.reaches_of_any newMgr_initial [.create 0 true true, listenEvent, reqEvent 9]
    (by decide +kernel) (by decide +kernel)

theorem reqEvent_referred : ∃ mgr : CepMgr, mgr.callbacks = [0] ∧ mgr.ceps 0 ≠ none := by
  obtain ⟨mgr, reachable, callbacks, -⟩ := reqEvent_queued
  exact ⟨mgr, callbacks, (refCnt_of_reachable reachable).2 0 (.inr (by simp [callbacks]))⟩

theorem reqEvent_waiting : ∃ mgr : CepMgr, (mgr.ceps 0).map Kcep.madList = some [some 1] ∧
    mgr.queueBook.Sound := by
  obtain ⟨mgr, reachable, -, queued⟩ := reqEvent_queued
  exact ⟨mgr, queued, (waitingReqs_of_reachable reachable).1⟩

end WinOFED.Cep
