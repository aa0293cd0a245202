import WinOFED.Srp.Credits

/-! Where the SRBs of an SRP session are.

An SRB is on the pending list, on the sent list, in the hands of one thread, or complete.
A step moves SRBs between the lists, the thread that takes it and the completions; it is
enough that it keeps, for each SRB, how often it occurs there. -/
namespace WinOFED.Srp
open List
open Function (update_of_ne update_self)

/-- The SRB that a repost loop holds. -/
def PostReturn.held : PostReturn → List Nat
  | .caller => []
  | .repost srb => [srb]

/-- The SRBs in the hands of a thread. One whose `post_send` runs is on the sent list. -/
def Phase.held : Phase → List Nat
  | .idle | .unmatched _ | .unmatchedTest => []
  | .testing srb | .appending srb | .processing srb _ | .reposting srb | .limitTest srb
  | .looping srb | .popping srb | .leaving srb | .finishing srb _ => [srb]
  | .sending srb ret | .failing srb ret => srb :: ret.held
  | .posting _ ret | .counting ret => ret.held
  | .aborting abort _ | .abortingSent abort _ | .abortPosting abort | .abortFailing abort => [abort]
  | .resetPending reset _ taken | .resetSent reset _ taken | .resetEnding reset _ taken =>
    reset :: taken

/-- The SRBs that a reset has taken, with its unit. -/
def Phase.resets : Phase → List (Nat × UInt8)
  | .resetPending _ lun taken | .resetSent _ lun taken | .resetEnding _ lun taken =>
    taken.map fun srb => (srb, lun)
  | _ => []

@[simp] theorem PostReturn.held_phase (ret : PostReturn) : ret.phase.held = ret.held := by
  cases ret <;> rfl

@[simp] theorem PostReturn.resets_phase (ret : PostReturn) : ret.phase.resets = [] := by
  cases ret <;> rfl

/-- Where an SRB is. -/
inductive SrbPlace
  | fresh
  | pending
  | sent
  | held (thread : Nat)
  | completed
deriving DecidableEq

namespace SrpSys

/-- The SRB is at a place once, and nowhere else. -/
structure At (sys : SrpSys) (srb : Nat) (place : SrbPlace) : Prop where
  pending : sys.pendingDescriptors.count srb = if place = .pending then 1 else 0
  sent : sys.sentDescriptors.count srb = if place = .sent then 1 else 0
  held : ∀ thread, (sys.threads thread).held.count srb = if place = .held thread then 1 else 0
  completed : sys.completions srb = if place = .completed then 1 else 0

/-- Every issued SRB is at one place; while its IU is at the target the SRB is not complete
and its descriptor holds that IU; and no thread in the data path is stuck. -/
structure Conserved (sys : SrpSys) : Prop where
  placed : ∀ srb ∈ sys.accepted, ∃! place, place ≠ .fresh ∧ sys.At srb place
  outstanding : ∀ srb, sys.outstanding srb = true →
    sys.completions srb = 0 ∧ sys.iu srb = sys.issued srb
  unstuck : ∀ thread ok, sys.threads thread ≠ .idle → (sys.advance thread ok).isSome

variable {place : SrbPlace} {sys after : SrpSys} {srb thread reset : Nat} {list taken : List Nat}
  {lun : UInt8} {ok : Bool}

theorem At.unique {other : SrbPlace} (here : sys.At srb place) (there : sys.At srb other) :
    place = other := by
  have pending := here.pending.symm.trans there.pending
  have sent := here.sent.symm.trans there.sent
  have completed := here.completed.symm.trans there.completed
  have held thread := (here.held thread).symm.trans (there.held thread)
  cases place with
  | held thread =>
    have := held thread
    simp only [if_true] at this
    by_contra distinct
    simp [Ne.symm distinct] at this
  | _ => cases other <;> simp_all

/-- How often an SRB occurs on the lists, with one thread and among the completions. -/
def load (sys : SrpSys) (thread srb : Nat) : Nat :=
  sys.pendingDescriptors.count srb + sys.sentDescriptors.count srb +
    (sys.threads thread).held.count srb + sys.completions srb

section
variable (others : ∀ other, other ≠ thread → (sys.threads other).held.count srb = 0)
include others

/-- An SRB that no other thread holds is fresh when it occurs nowhere. -/
theorem At.fresh_of_load (none : sys.load thread srb = 0) : sys.At srb .fresh := by
  unfold load at none
  constructor
  case held =>
    intro other
    by_cases own : other = thread
    · subst own
      simp only [reduceCtorEq, if_false]
      omega
    · exact others other own
  all_goals
    simp only [reduceCtorEq, if_false]
    omega

/-- An SRB that no other thread holds and that occurs once is at one place. -/
theorem At.of_load (once : sys.load thread srb = 1) : ∃ place, sys.At srb place ∧ place ≠ .fresh := by
  unfold load at once
  have free (zero : (sys.threads thread).held.count srb = 0) (other : Nat) :
      (sys.threads other).held.count srb = 0 := by
    by_cases own : other = thread
    · rw [own, zero]
    · exact others other own
  by_cases pending : sys.pendingDescriptors.count srb = 1
  · refine ⟨.pending, ⟨by simp [pending], by simp; omega, fun other => ?_, by simp; omega⟩, nofun⟩
    simpa using free (by omega) other
  by_cases sent : sys.sentDescriptors.count srb = 1
  · refine ⟨.sent, ⟨by simp; omega, by simp [sent], fun other => ?_, by simp; omega⟩, nofun⟩
    simpa using free (by omega) other
  by_cases completed : sys.completions srb = 1
  · refine ⟨.completed, ⟨by simp; omega, by simp; omega, fun other => ?_, by simp [completed]⟩, nofun⟩
    simpa using free (by omega) other
  · refine ⟨.held thread, ⟨by simp; omega, by simp; omega, fun other => ?_, by simp; omega⟩, nofun⟩
    by_cases own : other = thread
    · subst own
      simp
      omega
    · simpa [Ne.symm own] using others other own

end

theorem At.load_eq (at_ : sys.At srb place)
    (elsewhere : ∀ other, other ≠ thread → place ≠ .held other) :
    sys.load thread srb = if place = .fresh then 0 else 1 := by
  unfold load
  rw [at_.pending, at_.sent, at_.held, at_.completed]
  cases place with
  | held other =>
    have : other = thread := by
      by_contra distinct
      exact elsewhere other distinct rfl
    simp [this]
  | _ => simp

/-- A step of one thread that keeps how often an SRB occurs keeps it at one place. -/
theorem At.step (at_ : sys.At srb place)
    (others : ∀ other, other ≠ thread → after.threads other = sys.threads other)
    (balance : after.load thread srb = sys.load thread srb) :
    ∃ place', after.At srb place' ∧ (place' = .fresh ↔ place = .fresh) := by
  by_cases apart : ∃ other, other ≠ thread ∧ place = .held other
  · obtain ⟨other, distinct, rfl⟩ := apart
    have zero : sys.load thread srb = 0 := by
      unfold load
      rw [at_.pending, at_.sent, at_.held, at_.completed]
      simp [distinct]
    rw [zero] at balance
    unfold load at balance
    refine ⟨.held other, ⟨by simp; omega, by simp; omega, fun third => ?_, by simp; omega⟩, by simp⟩
    by_cases own : third = thread
    · subst own
      simp [distinct]
      omega
    · rw [others third own]
      exact at_.held third
  · push Not at apart
    have free other (distinct : other ≠ thread) : (after.threads other).held.count srb = 0 := by
      rw [others other distinct, at_.held, if_neg (apart other distinct)]
    rw [at_.load_eq apart] at balance
    split_ifs at balance with fresh
    · exact ⟨.fresh, At.fresh_of_load free balance, by simp [fresh]⟩
    · obtain ⟨place', at', known⟩ := At.of_load free balance
      exact ⟨place', at', by simp [known, fresh]⟩

/-- What guarded runs keep. -/
structure Books (sys : SrpSys) : Prop where
  placed : ∀ srb, ∃ place, sys.At srb place ∧ (place = .fresh ↔ srb ∉ sys.accepted)
  outstanding : ∀ srb, sys.outstanding srb = true → srb ∈ sys.sentDescriptors
  unaltered : sys.iu = sys.issued
  resets : ∀ thread, ∀ entry ∈ (sys.threads thread).resets, sys.lun entry.1 = entry.2
  unstuck : ∀ thread abort, sys.threads thread ≠ .abortPosting abort

theorem advance_isSome (busy : sys.threads thread ≠ .idle)
    (unstuck : ∀ abort, sys.threads thread ≠ .abortPosting abort) (ok : Bool) :
    (sys.advance thread ok).isSome := by
  unfold advance
  cases phase : sys.threads thread with
  | idle => exact absurd phase busy
  | abortPosting abort => exact absurd phase (unstuck abort)
  | unmatched delta => cases ok <;> rfl
  | limitTest srb =>
    dsimp only
    split <;> rfl
  | _ => rfl

theorem Books.conserved (books : sys.Books) : sys.Conserved := by
  constructor
  · intro srb issued
    obtain ⟨place, at_, known⟩ := books.placed srb
    refine ⟨place, ⟨fun fresh => known.mp fresh issued, at_⟩, ?_⟩
    rintro other ⟨-, there⟩
    exact there.unique at_
  · intro srb outstanding
    obtain ⟨place, at_, -⟩ := books.placed srb
    have positive := count_pos_iff.mpr (books.outstanding srb outstanding)
    have sent : place = .sent := by
      by_contra elsewhere
      rw [at_.sent, if_neg elsewhere] at positive
      exact absurd positive (Nat.lt_irrefl 0)
    refine ⟨?_, congrFun books.unaltered srb⟩
    rw [at_.completed, sent]
    rfl
  · intro thread ok busy
    exact advance_isSome busy (books.unstuck thread) ok

/-- What no step changes, the start of a call apart. -/
def fixed (sys : SrpSys) : List Nat × (Nat → UInt8) × (Nat → Iu) × (Nat → Iu) :=
  (sys.accepted, sys.lun, sys.iu, sys.issued)

/-- A thread goes on, and every SRB occurs as often as before. -/
theorem Books.move {phase : Phase} (books : sys.Books)
    (threads : after.threads = (sys.goto thread phase).threads) (fixed : after.fixed = sys.fixed)
    (balance : ∀ srb, after.load thread srb = sys.load thread srb)
    (outstanding : ∀ srb, after.outstanding srb = true → srb ∈ after.sentDescriptors)
    (resets : ∀ entry ∈ phase.resets, sys.lun entry.1 = entry.2)
    (unstuck : ∀ abort, phase ≠ .abortPosting abort) : after.Books := by
  simp only [SrpSys.fixed, Prod.mk.injEq] at fixed
  obtain ⟨accepted, lun, iu, issued⟩ := fixed
  have others other (distinct : other ≠ thread) : after.threads other = sys.threads other := by
    rw [threads, goto_threads, update_of_ne distinct]
  have own : after.threads thread = phase := by rw [threads, goto_threads, update_self]
  constructor
  · intro srb
    obtain ⟨place, at_, known⟩ := books.placed srb
    obtain ⟨place', at', same⟩ := at_.step others (balance srb)
    refine ⟨place', at', ?_⟩
    rw [same, known, accepted]
  · exact outstanding
  · rw [iu, issued, books.unaltered]
  · intro other
    rw [lun]
    by_cases same : other = thread
    · rw [same, own]
      exact resets
    · rw [others other same]
      exact books.resets other
  · intro other
    by_cases same : other = thread
    · rw [same, own]
      exact unstuck
    · rw [others other same]
      exact books.unstuck other

/-- Where an SRB is on the sent list, taking it off takes one occurrence. -/
theorem count_erase_add (mem : srb ∈ list) (other : Nat) :
    (list.erase srb).count other + [srb].count other = list.count other := by
  have perm := (perm_cons_erase mem).count_eq other
  rw [perm, count_cons, count_cons, count_nil, Nat.zero_add]

theorem findLun_mem (found : sys.findLun list lun = some srb) : srb ∈ list ∧ sys.lun srb = lun :=
  ⟨List.mem_of_find?_eq_some found, by simpa using List.find?_some found⟩

/-- The SRB that leaves the sent list is the one no longer outstanding. -/
theorem Books.outstanding_erase (books : sys.Books) (srb other : Nat)
    (outstanding : (sys.setOutstanding srb false).outstanding other = true) :
    other ∈ sys.sentDescriptors.erase srb := by
  have distinct : other ≠ srb := by
    rintro rfl
    simp [setOutstanding] at outstanding
  simp only [setOutstanding, update_of_ne distinct] at outstanding
  exact (mem_erase_of_ne distinct).mpr (books.outstanding other outstanding)

theorem requestComplete_completions (sys : SrpSys) (srb other : Nat) :
    (sys.requestComplete srb).completions other = sys.completions other + [srb].count other := by
  unfold requestComplete
  by_cases same : other = srb
  · simp [same]
  · simp [update_of_ne same, Ne.symm same]

/-- The lists, and what else the place of an SRB depends on but for the threads. -/
def lists (sys : SrpSys) : List Nat × List Nat × (Nat → Nat) × (Nat → Bool) :=
  (sys.pendingDescriptors, sys.sentDescriptors, sys.completions, sys.outstanding)

section
variable (books : sys.Books)
include books

/-- A thread goes on with the SRBs it holds, and changes neither list. -/
theorem Books.pass {current phase : Phase} (now : sys.threads thread = current)
    (threads : after.threads = (sys.goto thread phase).threads)
    (same : (after.fixed, after.lists) = (sys.fixed, sys.lists)) (held : phase.held = current.held)
    (resets : ∀ entry ∈ phase.resets, sys.lun entry.1 = entry.2)
    (unstuck : ∀ abort, phase ≠ .abortPosting abort) : after.Books := by
  obtain ⟨fixed, lists⟩ := Prod.mk.inj same
  simp only [SrpSys.lists, Prod.mk.injEq] at lists
  obtain ⟨pending, sent, completions, outstanding⟩ := lists
  apply books.move threads fixed _ _ resets unstuck
  · intro srb
    unfold load
    rw [pending, sent, completions, threads, goto_threads, update_self, held, now]
  · rw [outstanding, sent]
    exact books.outstanding

theorem Books.postSendDescriptor {ret : PostReturn}
    (phase : sys.threads thread = .sending srb ret) :
    (sys.postSendDescriptor thread srb ret).Books := by
  unfold SrpSys.postSendDescriptor
  split
  · refine books.move rfl rfl ?_ ?_ ?_ ?_
    · intro other
      simp [load, phase, Phase.held, setOutstanding, goto, count_cons]
      omega
    · intro other outstanding
      by_cases same : other = srb
      · simp [goto, same]
      · simp only [goto, setOutstanding, update_of_ne same] at outstanding
        exact mem_append_left _ (books.outstanding other outstanding)
    · nofun
    · nofun
  · exact books.pass phase rfl rfl rfl nofun nofun

theorem Books.postSendDone {ret : PostReturn} (phase : sys.threads thread = .posting srb ret)
    (care : ok = false → srb ∈ sys.sentDescriptors) :
    (sys.postSendDone thread srb ret ok).Books := by
  unfold SrpSys.postSendDone
  split
  · exact books.pass phase rfl rfl rfl nofun nofun
  case isFalse failed =>
    have mem := care (by simpa using failed)
    refine books.move rfl rfl ?_ ?_ ?_ ?_
    · intro other
      have erased := count_erase_add mem other
      simp [load, phase, Phase.held, setOutstanding, setStatus, goto, count_cons] at erased ⊢
      omega
    · intro other outstanding
      exact books.outstanding_erase srb other outstanding
    · nofun
    · nofun

theorem Books.popPending (phase : sys.threads thread = .popping srb) :
    (sys.popPending thread srb).Books := by
  unfold SrpSys.popPending
  split
  · exact books.pass phase rfl rfl rfl nofun nofun
  case h_2 first rest pending =>
    refine books.move rfl rfl ?_ ?_ ?_ ?_
    · intro other
      simp [load, phase, pending, Phase.held, PostReturn.held, goto, count_cons]
      omega
    · exact books.outstanding
    · nofun
    · nofun

theorem Books.process {rsp : SrpRsp} (phase : sys.threads thread = .processing srb rsp) :
    (sys.process thread srb rsp ok).Books := by
  unfold SrpSys.process
  dsimp only
  split
  · exact books.pass phase rfl rfl rfl nofun nofun
  · exact books.pass phase rfl rfl rfl nofun nofun

theorem Books.resetPendingStep (phase : sys.threads thread = .resetPending reset lun taken) :
    (sys.resetPendingStep thread reset lun taken).Books := by
  have resets := books.resets thread
  simp only [phase, Phase.resets] at resets
  unfold SrpSys.resetPendingStep
  split
  case h_1 srb found =>
    obtain ⟨mem, unit⟩ := findLun_mem found
    refine books.move rfl rfl ?_ ?_ ?_ ?_
    · intro other
      have erased := count_erase_add mem other
      simp [load, phase, Phase.held, goto, count_cons] at erased ⊢
      omega
    · exact books.outstanding
    · intro entry member
      simp only [Phase.resets, map_append, mem_append] at member
      rcases member with old | new
      · exact resets entry old
      · obtain rfl : entry = (srb, lun) := by simpa using new
        exact unit
    · nofun
  case h_2 => exact books.pass phase rfl rfl rfl resets nofun

end

section
variable (books : sys.Books) (phase : sys.threads thread = .resetEnding reset lun taken)
  (all : ∀ srb ∈ sys.accepted, sys.lun srb = lun → sys.completions srb = 0 → srb ∈ reset :: taken)
include books phase all

/-- A unit is reset when all of its SRBs that are not complete are in the hands of the reset:
then the reset completes what it holds, and nothing else. -/
theorem Books.resetEnd_completions (srb : Nat) :
    ((sys.requestComplete reset).completeRequest lun).completions srb =
      (reset :: taken).count srb + sys.completions srb := by
  obtain ⟨place, at_, known⟩ := books.placed srb
  have own : (reset :: taken).count srb = if place = .held thread then 1 else 0 := by
    have := at_.held thread
    rwa [phase] at this
  have completions := requestComplete_completions sys reset srb
  unfold completeRequest
  dsimp only
  rw [completions, own]
  by_cases here : place = .held thread
  · rw [if_pos here] at own ⊢
    have zero : sys.completions srb = 0 := by simp [at_.completed, here]
    by_cases same : reset = srb
    · simp [zero, same]
    · have member : srb ∈ taken := by
        rw [count_cons_of_ne same] at own
        exact count_pos_iff.mp (by omega)
      have unit : sys.lun srb = lun := by
        apply books.resets thread (srb, lun)
        simpa [phase, Phase.resets] using member
      have issued : srb ∈ sys.accepted := by
        by_contra unissued
        rw [known.mpr unissued] at here
        cases here
      simp [requestComplete, zero, same, unit, issued]
  · rw [if_neg here] at own ⊢
    have missing : srb ∉ reset :: taken := count_eq_zero.mp own
    have distinct : reset ≠ srb := fun same => missing (same ▸ mem_cons_self)
    have quiet : (sys.accepted.contains srb && sys.lun srb == lun && sys.completions srb == 0) = false := by
      by_contra counted
      simp only [Bool.not_eq_false, Bool.and_eq_true, contains_iff_mem, beq_iff_eq] at counted
      exact missing (all srb counted.1.1 counted.1.2 counted.2)
    have alone : [reset].count srb = 0 := by simp [distinct]
    rw [alone, Nat.add_zero, Nat.zero_add]
    exact if_neg (by rw [Bool.not_eq_true]; exact quiet)

theorem Books.resetEnd : (sys.resetEnd thread reset lun).Books := by
  refine books.move rfl rfl ?_ ?_ ?_ ?_
  · intro srb
    have completions := books.resetEnd_completions phase all srb
    have ended : (sys.resetEnd thread reset lun).completions srb =
        ((sys.requestComplete reset).completeRequest lun).completions srb := rfl
    rw [← ended] at completions
    simp only [load, phase, Phase.held]
    rw [completions]
    simp [SrpSys.resetEnd, goto, completeRequest, requestComplete]
    omega
  · exact books.outstanding
  · nofun
  · nofun

end

theorem Books.complete {current phase : Phase}
    (books : sys.Books) (now : sys.threads thread = current)
    (threads : after.threads = (sys.goto thread phase).threads)
    (same : (after.fixed, after.lists) = (sys.fixed, (sys.requestComplete srb).lists))
    (held : current.held = srb :: phase.held) (resets : phase.resets = [])
    (unstuck : ∀ abort, phase ≠ .abortPosting abort) : after.Books := by
  obtain ⟨fixed, lists⟩ := Prod.mk.inj same
  simp only [SrpSys.lists, Prod.mk.injEq] at lists
  obtain ⟨pending, sent, completions, outstanding⟩ := lists
  refine books.move threads fixed ?_ ?_ (by simp [resets]) unstuck
  · intro other
    unfold load
    rw [pending, sent, completions, threads, goto_threads, update_self, now, held,
      requestComplete_completions, count_cons, count_cons, count_nil]
    simp only [requestComplete]
    omega
  · rw [outstanding, sent]
    exact books.outstanding

/-- One step of a thread keeps the books. -/
theorem Books.advance (books : sys.Books) (care : sys.Undisturbed (.advance thread ok))
    (stepped : sys.advance thread ok = some after) : after.Books := by
  unfold SrpSys.advance at stepped
  unfold Undisturbed at care
  cases phase : sys.threads thread
  all_goals simp only [phase, Option.some.injEq, reduceCtorEq] at stepped care
  all_goals try subst stepped
  case unmatchedTest | leaving => exact books.pass phase rfl rfl rfl nofun nofun
  case testing | reposting | looping =>
    split
    · exact books.pass phase rfl rfl rfl nofun nofun
    · exact books.pass phase rfl rfl rfl nofun nofun
  case unmatched | limitTest =>
    split at stepped
    · cases stepped
      exact books.pass phase rfl rfl rfl nofun nofun
    · cases stepped
      exact books.pass phase rfl rfl rfl nofun nofun
  case appending srb =>
    refine books.move rfl rfl ?_ books.outstanding nofun nofun
    intro other
    simp [load, phase, Phase.held, goto]
    omega
  case sending srb ret => exact books.postSendDescriptor phase
  case posting srb ret => exact books.postSendDone phase care
  case counting ret =>
    exact books.pass phase rfl rfl ret.held_phase (by simp) (by cases ret <;> nofun)
  case failing srb ret =>
    refine books.complete phase rfl rfl ?_ (by simp) (by cases ret <;> nofun)
    rw [PostReturn.held_phase]
    rfl
  case processing srb rsp => exact books.process phase
  case popping srb => exact books.popPending phase
  case finishing | abortFailing => exact books.complete phase rfl rfl rfl rfl nofun
  case aborting abort target =>
    simp only [abortPending, care]
    exact books.pass phase rfl rfl rfl nofun nofun
  case abortingSent abort target =>
    simp only [abortSent, care]
    exact books.pass phase rfl rfl rfl nofun nofun
  case resetPending reset lun taken => exact books.resetPendingStep phase
  case resetSent reset lun taken =>
    have resets := books.resets thread
    simp only [phase, Phase.resets] at resets
    simp only [resetSentStep, care]
    exact books.pass phase rfl rfl rfl resets nofun
  case resetEnding reset lun taken => exact books.resetEnd phase care

end SrpSys

theorem Phase.mem_held_of_resets {phase : Phase} {entry : Nat × UInt8}
    (member : entry ∈ phase.resets) : entry.1 ∈ phase.held := by
  cases phase with
  | resetPending reset lun taken | resetSent reset lun taken | resetEnding reset lun taken =>
    simp only [resets, mem_map] at member
    obtain ⟨srb, taken, rfl⟩ := member
    exact mem_cons_of_mem _ taken
  | _ => cases member

namespace SrpSys
variable {sys : SrpSys} {thread : Nat}

/-- An SRB in the hands of a thread has been issued. -/
theorem Books.accepted_of_held {srb : Nat} (books : sys.Books)
    (held : srb ∈ (sys.threads thread).held) : srb ∈ sys.accepted := by
  obtain ⟨place, at_, known⟩ := books.placed srb
  by_contra unissued
  have positive := count_pos_iff.mpr held
  rw [at_.held, known.mpr unissued] at positive
  simp at positive

/-- An SRB that was not issued before comes into the hands of a thread that had nothing to
do. -/
theorem Books.start {after : SrpSys} {srb : Nat} {iu : Iu} {lun : UInt8} {phase : Phase}
    (books : sys.Books) (fresh : srb ∉ sys.accepted) (free : sys.threads thread = .idle)
    (threads : after.threads = (sys.goto thread phase).threads)
    (same : (after.fixed, after.lists) = ((sys.accept srb iu lun).fixed, sys.lists))
    (held : phase.held = [srb]) (resets : phase.resets = [])
    (unstuck : ∀ abort, phase ≠ .abortPosting abort) : after.Books := by
  simp only [SrpSys.fixed, SrpSys.lists, accept, Prod.mk.injEq] at same
  obtain ⟨⟨accepted, luns, ius, issued⟩, pending, sent, completions, outstanding⟩ := same
  have others other (distinct : other ≠ thread) : after.threads other = sys.threads other := by
    rw [threads, goto_threads, update_of_ne distinct]
  have own : after.threads thread = phase := by rw [threads, goto_threads, update_self]
  constructor
  · intro other
    obtain ⟨place, at_, known⟩ := books.placed other
    by_cases same : other = srb
    · subst same
      have nowhere := known.mpr fresh
      subst nowhere
      refine ⟨.held thread, ⟨?_, ?_, ?_, ?_⟩, by simp [accepted]⟩
      · rw [pending, at_.pending]
        rfl
      · rw [sent, at_.sent]
        rfl
      · intro third
        by_cases mine : third = thread
        · simp [mine, own, held]
        · rw [others third mine, at_.held]
          simp [Ne.symm mine]
      · rw [completions, at_.completed]
        rfl
    · have balance : after.load thread other = sys.load thread other := by
        unfold load
        rw [pending, sent, completions, own, held, free]
        simp [Phase.held, Ne.symm same]
      obtain ⟨place', at', kept⟩ := at_.step others balance
      refine ⟨place', at', ?_⟩
      rw [kept, known, accepted, mem_cons, not_or]
      exact ⟨fun unissued => ⟨same, unissued⟩, And.right⟩
  · rw [outstanding, sent]
    exact books.outstanding
  · rw [ius, issued, books.unaltered]
  · intro other entry member
    by_cases same : other = thread
    · rw [same, own, resets] at member
      cases member
    · rw [others other same] at member
      have known := books.accepted_of_held (Phase.mem_held_of_resets member)
      have distinct : entry.1 ≠ srb := fun equal => fresh (equal ▸ known)
      rw [luns, update_of_ne distinct]
      exact books.resets other entry member
  · intro other
    by_cases same : other = thread
    · rw [same, own]
      exact unstuck
    · rw [others other same]
      exact books.unstuck other

theorem Books.response {rsp : SrpRsp} (books : sys.Books) (free : sys.threads thread = .idle) :
    (sys.response thread rsp).Books := by
  unfold SrpSys.response
  split
  case h_1 srb found =>
    have mem := List.mem_of_find?_eq_some found
    refine books.move rfl rfl ?_ (books.outstanding_erase srb) nofun nofun
    intro other
    have erased := count_erase_add mem other
    simp [load, free, Phase.held, goto, setOutstanding] at erased ⊢
    omega
  case h_2 => exact books.pass free rfl rfl rfl nofun nofun

/-- One event keeps the books. -/
theorem Books.next {after : SrpSys} {event : SrpEvent} (books : sys.Books)
    (lawful : LawfulSrp sys event) (care : sys.Undisturbed event)
    (stepped : sys.next event = some after) : after.Books := by
  cases event
  all_goals simp only [SrpSys.next, Option.ite_none_right_eq_some, Option.some.injEq] at stepped
  case post thread srb iu lun =>
    obtain ⟨⟨free, -⟩, rfl⟩ := stepped
    unfold postIoRequest
    split
    · exact books.start lawful free rfl rfl rfl rfl (by rintro _ ⟨⟩)
    · split
      · exact books.start lawful free rfl rfl rfl rfl (by rintro _ ⟨⟩)
      · exact books.start lawful free rfl rfl rfl rfl (by rintro _ ⟨⟩)
  case response thread rsp =>
    obtain ⟨⟨free, -⟩, rfl⟩ := stepped
    exact books.response free
  case abort thread abort target iu lun =>
    obtain ⟨⟨free, -⟩, rfl⟩ := stepped
    exact books.start lawful.1 free rfl rfl rfl rfl (by rintro _ ⟨⟩)
  case lunReset thread reset iu lun =>
    obtain ⟨⟨free, -⟩, rfl⟩ := stepped
    exact books.start lawful free rfl rfl rfl rfl (by rintro _ ⟨⟩)
  case advance thread ok => exact books.advance care stepped
  case connection connected paused =>
    subst stepped
    obtain ⟨placed, outstanding, unaltered, resets, unstuck⟩ := books
    refine ⟨?_, outstanding, unaltered, resets, unstuck⟩
    intro srb
    obtain ⟨place, ⟨pending, sent, held, completed⟩, known⟩ := placed srb
    exact ⟨place, ⟨pending, sent, held, completed⟩, known⟩

theorem books_initial (requestLimit : Int) : (initial requestLimit).Books := by
  refine ⟨fun srb => ⟨.fresh, ⟨rfl, rfl, fun _ => rfl, rfl⟩, ?_⟩, nofun, rfl, nofun, nofun⟩
  simp [initial]

end SrpSys

/-- The port driver keeps to its part, and no step disturbs the SRBs. -/
def ConserveCare (sys : SrpSys) (event : SrpEvent) : Prop :=
  LawfulSrp sys event ∧ sys.Undisturbed event

instance (sys : SrpSys) (event : SrpEvent) : Decidable (ConserveCare sys event) :=
  inferInstanceAs (Decidable (_ ∧ _))

/-- In a run without disturbing steps every issued SRB is at one place and is completed
once. -/
theorem conserved_of_reachable {sys : SrpSys} (reachable : srpMachine.Reachable ConserveCare sys) :
    sys.Conserved := by
  suffices books : sys.Books from books.conserved
  apply reachable.invariant
  · rintro _ ⟨requestLimit, rfl⟩
    exact SrpSys.books_initial requestLimit
  · intro before event after books care stepped
    exact books.next care.1 care.2 stepped

/-- Two requests are posted, one of which has to wait; a unit with nothing at the target is
reset; the response comes and the waiting request fails to be posted. -/
def conservedEvents : List SrpEvent :=
  [.post 0 1 (.cmd 1) 0, .advance 0 true, .advance 0 true, .advance 0 true, .advance 0 true,
   .post 0 2 (.cmd 2) 0, .advance 0 true, .advance 0 true,
   .post 0 3 (.cmd 3) 1, .advance 0 true, .advance 0 true,
   .lunReset 2 4 (.cmd 4) 1, .advance 2 true, .advance 2 true, .advance 2 true, .advance 2 true,
   .response 1 (goodRsp 1), .advance 1 true, .advance 1 true, .advance 1 true, .advance 1 true,
   .advance 1 true, .advance 1 true, .advance 1 false]

/-- Each SRB is completed once or is still held somewhere. -/
theorem conservedEvents_conserved : ∃ sys,
    Transition.Machine.run SrpSys.next (.initial 3) conservedEvents = some sys ∧
      sys.completions 3 = 1 ∧ sys.completions 4 = 1 ∧
        sys.threads 1 = .failing 2 (.repost 1) ∧ sys.Conserved := by
  have careful : Transition.Machine.Guarded SrpSys.next ConserveCare (.initial 3)
      conservedEvents := by
    decide +kernel
  exact ⟨_, rfl, by decide +kernel, by decide +kernel, by decide +kernel,
    conserved_of_reachable (initial_reachable careful rfl)⟩

/-- A request that waits for credits is aborted. -/
def abortedEvents : List SrpEvent :=
  [.post 0 1 (.cmd 1) 0, .advance 0 true, .advance 0 true,
   .abort 0 2 1 (.cmd 2) 0, .advance 0 true, .advance 0 true]

/-- The request is gone and was never completed. -/
theorem abortedEvents_lost : ∃ sys, srpMachine.Reachable LawfulSrp sys ∧
    1 ∈ sys.accepted ∧ sys.Quiescent ∧ sys.pendingDescriptors = [] ∧ sys.sentDescriptors = [] ∧
      sys.completions 1 = 0 ∧ sys.completions 2 = 1 ∧ sys.srbStatus 2 = .abortFailed := by
  have lawful : Transition.Machine.Guarded SrpSys.next LawfulSrp (.initial 2) abortedEvents := by
    decide +kernel
  refine ⟨_, initial_reachable lawful rfl, by decide +kernel, ?_, by decide +kernel,
    by decide +kernel, by decide +kernel, by decide +kernel, by decide +kernel⟩
  rintro (_ | thread)
  · rfl
  · rfl

end WinOFED.Srp
