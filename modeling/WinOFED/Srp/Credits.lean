import WinOFED.Srp.Session

/-! No request of an SRP session waits while there are credits.

A thread in `__srp_repost_io_request` looks at the pending list and at the limit again
before it leaves. So a pending request can only be stranded by an append that follows a
stale test of `srp_post_io_request`, or by credits that come with an unmatched response,
after which nobody looks. -/
namespace WinOFED.Srp
open Transition

/-- A repost loop looks at the pending list again. -/
def PostReturn.looks : PostReturn → Bool
  | .caller => false
  | .repost _ => true

/-- The thread is yet to look at the pending list or at the limit in
`__srp_repost_io_request`. -/
def Phase.looks : Phase → Bool
  | .sending _ ret | .posting _ ret | .counting ret | .failing _ ret => ret.looks
  | .reposting _ | .limitTest _ | .looping _ | .popping _ => true
  | _ => false

@[simp] theorem PostReturn.looks_phase (ret : PostReturn) : ret.phase.looks = ret.looks := by
  cases ret <;> rfl

namespace SrpSys

/-- Nothing waits, or there are no credits, or some thread is about to look. -/
def Watched (sys : SrpSys) : Prop :=
  sys.pendingDescriptors = [] ∨ sys.requestLimit ≤ sys.requestThreashold ∨
    ∃ thread, (sys.threads thread).looks = true

/-- No thread is inside the data path. -/
def Quiescent (sys : SrpSys) : Prop := ∀ thread, sys.threads thread = .idle

/-- No request is left waiting while there are credits. -/
def NotStranded (sys : SrpSys) : Prop :=
  sys.Quiescent → sys.pendingDescriptors ≠ [] → sys.requestLimit ≤ sys.requestThreashold

/-- The steps of a thread after which a waiting request may be overlooked: the append to
the pending list, the credits of an unmatched response, and the credit taken for a new
request when the counter wraps around. They are harmless while there are no credits, or
while some thread is about to look. -/
def CreditCare (sys : SrpSys) : SrpEvent → Prop
  | .advance thread ok =>
    match sys.threads thread with
    | .appending _ =>
      sys.requestLimit ≤ sys.requestThreashold ∨ ∃ other, (sys.threads other).looks = true
    | .unmatched delta =>
      ok = true → sys.pendingDescriptors = [] ∨
        atomic32 (sys.requestLimit + delta) ≤ sys.requestThreashold ∨
          ∃ other, (sys.threads other).looks = true
    | .counting .caller => atomic32 (sys.requestLimit - 1) ≤ sys.requestLimit
    | _ => True
  | _ => True

variable {sys after : SrpSys} {thread : Nat}

theorem Watched.notStranded (watched : sys.Watched) : sys.NotStranded := by
  intro quiescent waiting
  rcases watched with empty | low | ⟨thread, looks⟩
  · exact absurd empty waiting
  · exact low
  · rw [quiescent thread] at looks
    cases looks

@[simp] theorem goto_threads (sys : SrpSys) (thread : Nat) (phase : Phase) :
    (sys.goto thread phase).threads = Function.update sys.threads thread phase := rfl

/-- A thread that looks keeps the session watched, whatever it has done. -/
theorem watched_of_looks {phase : Phase} (looks : phase.looks = true) :
    (sys.goto thread phase).Watched := by
  refine .inr (.inr ⟨thread, ?_⟩)
  simpa using looks

/-- A thread that looks still does after a step, of its own or of another. -/
theorem looks_goto {other : Nat} {phase : Phase}
    (keeps : (sys.threads thread).looks = true → phase.looks = true)
    (looks : (sys.threads other).looks = true) :
    ∃ other, ((sys.goto thread phase).threads other).looks = true := by
  refine ⟨other, ?_⟩
  by_cases own : other = thread
  · subst own
    simpa using keeps looks
  · simpa [Function.update_of_ne own] using looks

/-- A thread goes on without adding a request or a credit, and looks if it was to look. -/
theorem Watched.move {after : SrpSys} {phase : Phase} (watched : sys.Watched)
    (threads : after.threads = (sys.goto thread phase).threads)
    (keeps : (sys.threads thread).looks = true → phase.looks = true)
    (pending : sys.pendingDescriptors = [] → after.pendingDescriptors = [])
    (limit : sys.requestLimit ≤ sys.requestThreashold →
      after.requestLimit ≤ after.requestThreashold) : after.Watched := by
  rcases watched with empty | low | ⟨other, looks⟩
  · exact .inl (pending empty)
  · exact .inr (.inl (limit low))
  · refine .inr (.inr ?_)
    rw [threads]
    exact looks_goto keeps looks

/-- A thread that is not to look goes on without adding a request or a credit. -/
theorem Watched.pass {current next : Phase} (watched : sys.Watched)
    (phase : sys.threads thread = current) (quiet : current.looks = false)
    (same : (after.threads, after.requestLimit, after.requestThreashold) =
      ((sys.goto thread next).threads, sys.requestLimit, sys.requestThreashold))
    (pending : sys.pendingDescriptors = [] → after.pendingDescriptors = []) : after.Watched := by
  simp only [Prod.mk.injEq] at same
  obtain ⟨threads, limit, threshold⟩ := same
  refine watched.move threads (fun looks => ?_) pending (by rw [limit, threshold]; exact id)
  rw [phase, quiet] at looks
  cases looks

theorem erase_eq_nil {list : List Nat} (srb : Nat) (empty : list = []) : list.erase srb = [] := by
  rw [empty, List.erase_nil]

/-- One step of a thread keeps the session watched. -/
theorem Watched.advance {ok : Bool} (watched : sys.Watched)
    (care : sys.CreditCare (.advance thread ok)) (stepped : sys.advance thread ok = some after) :
    after.Watched := by
  unfold SrpSys.advance at stepped
  unfold CreditCare at care
  cases phase : sys.threads thread
  all_goals simp only [phase, Option.some.injEq, reduceCtorEq] at stepped care
  all_goals try subst stepped
  case testing | unmatchedTest | leaving | finishing | abortFailing | resetEnding =>
    exact watched.pass phase rfl rfl id
  case appending srb =>
    rcases care with low | ⟨other, looks⟩
    · exact .inr (.inl low)
    · exact .inr (.inr (looks_goto (by simp [phase, Phase.looks]) looks))
  case sending srb ret =>
    unfold postSendDescriptor
    split
    · exact watched.move rfl (by rw [phase]; exact id) id id
    · exact watched.move rfl (by rw [phase]; exact id) id id
  case posting srb ret =>
    unfold postSendDone
    split
    · exact watched.move rfl (by rw [phase]; exact id) id id
    · exact watched.move rfl (by rw [phase]; exact id) id id
  case counting ret =>
    cases ret with
    | repost first => exact watched_of_looks rfl
    | caller => exact watched.move rfl (by rw [phase]; exact id) id fun low => Int.le_trans care low
  case failing srb ret =>
    exact watched.move rfl (by rw [phase, PostReturn.looks_phase]; exact id) id id
  case unmatched delta =>
    split at stepped
    case isFalse =>
      cases stepped
      exact watched.pass phase rfl rfl id
    case isTrue posted =>
      cases stepped
      rcases care posted with empty | low | ⟨other, looks⟩
      · exact .inl empty
      · exact .inr (.inl low)
      · exact .inr (.inr (looks_goto (by simp [phase, Phase.looks]) looks))
  case processing srb rsp =>
    unfold process
    dsimp only
    split
    · exact watched_of_looks rfl
    · exact watched.pass phase rfl rfl id
  case reposting srb =>
    split
    case isTrue empty => exact .inl empty
    case isFalse => exact watched_of_looks rfl
  case limitTest srb =>
    split at stepped
    case isTrue low =>
      cases stepped
      exact .inr (.inl low)
    case isFalse =>
      cases stepped
      exact watched_of_looks rfl
  case looping srb =>
    split
    case isTrue => exact watched_of_looks rfl
    case isFalse high => exact .inr (.inl (Int.not_lt.mp high))
  case popping srb =>
    unfold popPending
    split
    case h_1 empty => exact .inl empty
    case h_2 => exact watched_of_looks rfl
  case aborting abort target =>
    unfold abortPending
    split
    · exact watched.pass phase rfl rfl (erase_eq_nil _)
    · exact watched.pass phase rfl rfl id
  case abortingSent abort target =>
    unfold abortSent
    dsimp only
    split
    · split
      · exact watched.pass phase rfl rfl id
      · exact watched.pass phase rfl rfl id
    · exact watched.pass phase rfl rfl id
  case resetPending reset lun taken =>
    unfold resetPendingStep
    split
    · exact watched.pass phase rfl rfl (erase_eq_nil _)
    · exact watched.pass phase rfl rfl id
  case resetSent reset lun taken =>
    unfold resetSentStep
    split
    · exact watched.pass phase rfl rfl id
    · exact watched.pass phase rfl rfl id

/-- One event keeps the session watched. -/
theorem Watched.next {event : SrpEvent} (watched : sys.Watched)
    (care : sys.CreditCare event) (stepped : sys.next event = some after) : after.Watched := by
  cases event
  all_goals simp only [SrpSys.next, Option.ite_none_right_eq_some, Option.some.injEq] at stepped
  case post thread srb iu lun =>
    obtain ⟨⟨free, -⟩, rfl⟩ := stepped
    unfold postIoRequest
    split
    · exact watched.pass free rfl rfl id
    · split
      · exact watched.pass free rfl rfl id
      · exact watched.pass free rfl rfl id
  case response thread rsp =>
    obtain ⟨⟨free, -⟩, rfl⟩ := stepped
    unfold response
    split
    · exact watched.pass free rfl rfl id
    · exact watched.pass free rfl rfl id
  case abort | lunReset =>
    obtain ⟨⟨free, -⟩, rfl⟩ := stepped
    exact watched.pass free rfl rfl id
  case advance thread ok => exact watched.advance care stepped
  case connection connected paused =>
    subst stepped
    exact watched

end SrpSys

variable {sys : SrpSys}

theorem watched_of_reachable (reachable : srpMachine.Reachable SrpSys.CreditCare sys) : sys.Watched := by
  apply reachable.invariant
  · rintro _ ⟨requestLimit, rfl⟩
    exact .inl rfl
  · intro before event after watched care stepped
    exact watched.next care stepped

/-- In a run whose appends and unmatched credits are taken with care no request is left
waiting while there are credits. -/
theorem notStranded_of_reachable {sys : SrpSys}
    (reachable : srpMachine.Reachable SrpSys.CreditCare sys) : sys.NotStranded :=
  (watched_of_reachable reachable).notStranded

theorem initial_reachable {guard : SrpSys → SrpEvent → Prop} {requestLimit : Int}
    {events : List SrpEvent}
    (guarded : Machine.Guarded SrpSys.next guard (.initial requestLimit) events)
    (ended : Machine.run SrpSys.next (.initial requestLimit) events = some sys) :
    srpMachine.Reachable guard sys :=
  Machine.Reachable.run (.initial ⟨requestLimit, rfl⟩) guarded ended

/-- Care without regard to the other threads. -/
def SrpSys.DryCare (sys : SrpSys) : SrpEvent → Prop
  | .advance thread ok =>
    match sys.threads thread with
    | .appending _ => sys.requestLimit ≤ sys.requestThreashold
    | .unmatched delta =>
      ok = true → sys.pendingDescriptors = [] ∨
        atomic32 (sys.requestLimit + delta) ≤ sys.requestThreashold
    | .counting .caller => atomic32 (sys.requestLimit - 1) ≤ sys.requestLimit
    | _ => True
  | _ => True

instance (sys : SrpSys) (event : SrpEvent) : Decidable (LawfulSrp sys event) := by
  unfold LawfulSrp
  split <;> infer_instance

instance (sys : SrpSys) (event : SrpEvent) : Decidable (sys.DryCare event) := by
  unfold SrpSys.DryCare
  repeat' split
  all_goals infer_instance

/-- The steps that lose, double or overwrite an SRB do not happen: an abort finds its
command on neither list, a reset finds no command of its unit at the target and none in
the hands of another thread, and a request whose `post_send` fails is still on the sent
list. -/
def SrpSys.Undisturbed (sys : SrpSys) : SrpEvent → Prop
  | .advance thread ok =>
    match sys.threads thread with
    | .posting srb _ => ok = false → srb ∈ sys.sentDescriptors
    | .aborting _ target => sys.findMatching sys.pendingDescriptors (sys.iu target).tag = none
    | .abortingSent _ target => sys.findMatching sys.sentDescriptors (sys.iu target).tag = none
    | .resetSent _ lun _ => sys.findLun sys.sentDescriptors lun = none
    | .resetEnding reset lun taken =>
      ∀ srb ∈ sys.accepted, sys.lun srb = lun → sys.completions srb = 0 → srb ∈ reset :: taken
    | _ => True
  | _ => True

instance (sys : SrpSys) (event : SrpEvent) : Decidable (sys.Undisturbed event) := by
  unfold SrpSys.Undisturbed
  repeat' split
  all_goals infer_instance

theorem SrpSys.DryCare.creditCare {event : SrpEvent} (care : sys.DryCare event) : sys.CreditCare event := by
  cases event with
  | advance thread ok =>
    simp only [DryCare, CreditCare] at care ⊢
    cases phase : sys.threads thread with
    | appending srb =>
      simp only [phase] at care
      exact .inl care
    | unmatched delta =>
      simp only [phase] at care
      intro posted
      rcases care posted with empty | low
      · exact .inl empty
      · exact .inr (.inl low)
    | counting ret =>
      simp only [phase] at care
      cases ret with
      | caller => exact care
      | repost srb => trivial
    | _ => trivial
  | _ => trivial

/-- A response to a command with one credit. -/
def goodRsp (tag : UInt64) : SrpRsp := ⟨tag, 1, 0, false, false, false, false, false⟩

/-- The third request waits while the second, which had to wait too, is at the target. -/
def waitingEvents : List SrpEvent :=
  [.post 0 1 (.cmd 1) 0, .advance 0 true, .advance 0 true, .advance 0 true, .advance 0 true,
   .post 0 2 (.cmd 2) 0, .advance 0 true, .advance 0 true,
   .response 1 (goodRsp 1), .advance 1 true, .advance 1 true, .advance 1 true, .advance 1 true,
   .advance 1 true, .advance 1 true, .advance 1 true, .advance 1 true, .advance 1 true,
   .advance 1 true, .advance 1 true,
   .post 0 3 (.cmd 3) 0, .advance 0 true, .advance 0 true]

/-- The third request waits for the response to the second. -/
theorem waitingEvents_notStranded : ∃ sys,
    Machine.run SrpSys.next (.initial 3) waitingEvents = some sys ∧
      sys.pendingDescriptors = [3] ∧ sys.sentDescriptors = [2] ∧ sys.requestLimit = 2 ∧
        sys.completions 1 = 1 ∧ sys.NotStranded := by
  have careful : Machine.Guarded SrpSys.next SrpSys.DryCare (.initial 3)
      waitingEvents := by
    decide +kernel
  refine ⟨_, rfl, by decide +kernel, by decide +kernel, by decide +kernel, by decide +kernel, ?_⟩
  exact notStranded_of_reachable
    (initial_reachable (careful.mono fun _ _ => SrpSys.DryCare.creditCare) rfl)

/-- The second request finds no credit. Before it is appended the response to the first one
brings a credit, and finds nothing pending. -/
def strandedEvents : List SrpEvent :=
  [.post 0 1 (.cmd 1) 0, .advance 0 true, .advance 0 true, .advance 0 true, .advance 0 true,
   .post 0 2 (.cmd 2) 0, .advance 0 true,
   .response 1 (goodRsp 1), .advance 1 true, .advance 1 true, .advance 1 true,
   .advance 0 true]

/-- The second request stays pending with credits left and no response to come. -/
theorem strandedEvents_stranded : ∃ sys, srpMachine.Reachable LawfulSrp sys ∧
    sys.Quiescent ∧ sys.connected = true ∧ sys.sentDescriptors = [] ∧
      sys.pendingDescriptors = [2] ∧ sys.requestThreashold < sys.requestLimit := by
  have lawful : Machine.Guarded SrpSys.next LawfulSrp (.initial 3) strandedEvents := by
    decide +kernel
  refine ⟨_, initial_reachable lawful rfl, ?_, by decide +kernel, by decide +kernel,
    by decide +kernel, by decide +kernel⟩
  rintro (_ | _ | thread)
  · rfl
  · rfl
  · rfl

end WinOFED.Srp
