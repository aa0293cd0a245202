import WinOFED.Transition.Machine

/-! The removal lock of a provider (`wv_provider.c`, and `wm_provider.c` with the same code).

Threads that use the device hold shared access between `DisableRemove` and
`EnableRemove`; a device removal runs between `LockRemove` and `UnlockRemove`.
A step of a thread is one access to the provider that other threads can see, so
the increments and decrements that are not interlocked take a load and a store. -/
namespace WinOFED.Winverbs
open Transition List Option

/-- Where a thread is. `running` is outside of the four functions, `locked` says
whether its caller holds the provider's mutex there. -/
inductive Pc
  | running (locked : Bool)
  | disableCheck | disablePend | disableRelease | sharedWait | sharedWoken | disableUnpend
  | disableTake
  | enableCheck (locked : Bool) | enableSet (locked : Bool)
  | lockEnter | lockClear | lockCheck | lockRelease | exclusiveWait | exclusiveWoken
  | lockLoad | lockStore | lockDone
  | exclusive
  | unlockEnter | unlockLoad | unlockStore | unlockCheck | unlockSetExclusive | unlockSetShared
  | unlockDone
  deriving DecidableEq

/-- A thread, the shared accesses it holds and the value it has loaded of `Active`. -/
structure Thread where
  pc : Pc
  depth : Nat
  loaded : Int
  deriving DecidableEq

/-- The fields of `WV_PROVIDER` that the lock is made of. The counters are `LONG`s there: each
counts calls that threads are in, so that they do not wrap below `2 ^ 31` of those. -/
structure Provider where
  lock : Bool
  pending : Int
  active : Int
  sharedEvent : Bool
  exclusive : Int
  exclusiveEvent : Bool
  deriving DecidableEq

/-- What a running thread does next. -/
inductive Call
  | acquireLock | releaseLock | disableRemove | enableRemove | lockRemove
  deriving DecidableEq

namespace Provider
variable (provider : Provider) (thread : Thread)

/-- The thread goes on at `pc`. -/
def goto (pc : Pc) : Option (Provider × Thread) := some (provider, { thread with pc })

/-- `KeAcquireGuardedMutex`, which blocks while another thread has the mutex. -/
def acquire (pc : Pc) : Option (Provider × Thread) :=
  if provider.lock then none else { provider with lock := true }.goto thread pc

variable {after : Provider × Thread}

theorem goto_eq_some {pc : Pc} :
    provider.goto thread pc = some after ↔ provider = after.1 ∧ { thread with pc } = after.2 := by
  simp [goto, Prod.ext_iff]

theorem acquire_eq_some {pc : Pc} :
    provider.acquire thread pc = some after ↔
      provider.lock.toNat = 0 ∧ { provider with lock := true } = after.1 ∧
        { thread with pc } = after.2 := by
  cases held : provider.lock <;> simp [acquire, held, goto_eq_some]

/-- `KeReleaseGuardedMutex`. -/
def release (pc : Pc) : Option (Provider × Thread) := { provider with lock := false }.goto thread pc

/-- The calls of a running thread. The caller of `DisableRemove` has the mutex;
`EnableRemove` starts with its `InterlockedDecrement`. -/
def call : Bool → Call → Option (Provider × Thread)
  | false, .acquireLock => provider.acquire thread (.running true)
  | true, .releaseLock => provider.release thread (.running false)
  | true, .disableRemove => provider.goto thread .disableCheck
  | locked, .enableRemove =>
      if thread.depth = 0 then none
      else
        { provider with active := provider.active - 1 }.goto
          { thread with depth := thread.depth - 1 } (.enableCheck locked)
  | false, .lockRemove => if thread.depth = 0 then provider.acquire thread .lockEnter else none
  | _, _ => none

/-- One step of a thread. -/
def step (choice : Call) : Pc → Option (Provider × Thread)
  | .running locked => provider.call thread locked choice
  -- DisableRemove
  | .disableCheck =>
      provider.goto thread (if 0 < provider.exclusive then .disablePend else .disableTake)
  | .disablePend => { provider with pending := provider.pending + 1 }.goto thread .disableRelease
  | .disableRelease => provider.release thread .sharedWait
  | .sharedWait => if provider.sharedEvent then provider.goto thread .sharedWoken else none
  | .sharedWoken => provider.acquire thread .disableUnpend
  | .disableUnpend => { provider with pending := provider.pending - 1 }.goto thread .disableCheck
  | .disableTake =>
      { provider with active := provider.active + 1 }.goto
        { thread with depth := thread.depth + 1 } (.running true)
  -- EnableRemove, after the decrement
  | .enableCheck locked =>
      provider.goto thread (if 0 < provider.exclusive then .enableSet locked else .running locked)
  | .enableSet locked => { provider with exclusiveEvent := true }.goto thread (.running locked)
  -- LockRemove
  | .lockEnter => { provider with exclusive := provider.exclusive + 1 }.goto thread .lockClear
  | .lockClear => { provider with sharedEvent := false }.goto thread .lockCheck
  | .lockCheck => provider.goto thread (if 0 < provider.active then .lockRelease else .lockLoad)
  | .lockRelease => provider.release thread .exclusiveWait
  | .exclusiveWait =>
      -- a synchronization event is reset by the wait that it ends
      if provider.exclusiveEvent then
        { provider with exclusiveEvent := false }.goto thread .exclusiveWoken
      else none
  | .exclusiveWoken => provider.acquire thread .lockCheck
  | .lockLoad => provider.goto { thread with loaded := provider.active } .lockStore
  | .lockStore => { provider with active := thread.loaded + 1 }.goto thread .lockDone
  | .lockDone => provider.release thread .exclusive
  -- UnlockRemove
  | .exclusive => provider.acquire thread .unlockEnter
  | .unlockEnter => { provider with exclusive := provider.exclusive - 1 }.goto thread .unlockLoad
  | .unlockLoad => provider.goto { thread with loaded := provider.active } .unlockStore
  | .unlockStore => { provider with active := thread.loaded - 1 }.goto thread .unlockCheck
  | .unlockCheck =>
      provider.goto thread
        (if 0 < provider.exclusive then .unlockSetExclusive
          else if 0 < provider.pending then .unlockSetShared else .unlockDone)
  | .unlockSetExclusive => { provider with exclusiveEvent := true }.goto thread .unlockDone
  | .unlockSetShared => { provider with sharedEvent := true }.goto thread .unlockDone
  | .unlockDone => provider.release thread (.running false)

end Provider

/-- A provider and the threads that use it. -/
structure LockSys where
  provider : Provider
  threads : List Thread
  deriving DecidableEq

namespace LockSys

/-- The thread at an index takes a step. -/
def next (sys : LockSys) (event : Nat × Call) : Option LockSys := do
  let thread ← sys.threads[event.1]?
  let (provider, moved) ← sys.provider.step thread event.2 thread.pc
  return { provider, threads := sys.threads.set event.1 moved }

/-- `WvProviderInit`, with any number of threads. -/
def Initial (sys : LockSys) : Prop :=
  sys.provider = ⟨false, 0, 0, false, 0, false⟩ ∧ ∀ thread ∈ sys.threads, thread = ⟨.running false, 0, 0⟩

/-- Any of the threads takes the next step. -/
def machine : Machine LockSys (Nat × Call) := .ofNext Initial next

/-- No thread asks for shared access while it holds some. -/
def Flat (sys : LockSys) (event : Nat × Call) : Prop :=
  event.2 = .disableRemove → ∀ thread ∈ sys.threads[event.1]?, thread.depth = 0

instance (sys : LockSys) (event : Nat × Call) : Decidable (Flat sys event) := by
  unfold Flat
  infer_instance

end LockSys

/-- The places between a removal's increment and decrement of `Active`. -/
def removingPcs : List Pc := [.lockDone, .exclusive, .unlockEnter, .unlockLoad, .unlockStore]

namespace Thread

/-- The thread has exclusive access. -/
def Removing (thread : Thread) : Prop := thread.pc ∈ removingPcs

/-- The thread waits for one of the two events. -/
def Waiting (thread : Thread) : Prop := thread.pc = .sharedWait ∨ thread.pc = .exclusiveWait

/-- The event that the thread waits for is signalled. -/
def Signalled (provider : Provider) (thread : Thread) : Prop :=
  thread.pc = .sharedWait ∧ provider.sharedEvent = true ∨
    thread.pc = .exclusiveWait ∧ provider.exclusiveEvent = true

end Thread

/-- A removal is alone, `Active` is not negative, and of threads that all wait
one can go on. -/
structure LockSys.Safe (sys : LockSys) : Prop where
  alone : ∀ i j : Nat, i ≠ j → ∀ thread ∈ sys.threads[i]?, ∀ other ∈ sys.threads[j]?,
    thread.Removing → ¬ other.Removing ∧ other.depth = 0
  nonneg : 0 ≤ sys.provider.active
  woken : sys.threads ≠ [] → (∀ thread ∈ sys.threads, thread.Waiting) →
    ∃ thread ∈ sys.threads, thread.Signalled sys.provider

/-- How many threads are at some places. -/
def among (threads : List Thread) (pcs : List Pc) : Nat := threads.countP (·.pc ∈ pcs)

/-- The shared accesses that threads hold. -/
def depth (threads : List Thread) : Nat := (threads.map Thread.depth).sum

section
variable {threads : List Thread} {thread : Thread}

theorem among_cons (pcs : List Pc) :
    among (thread :: threads) pcs = among threads pcs + if thread.pc ∈ pcs then 1 else 0 := by
  simp [among, countP_cons]

theorem depth_cons : depth (thread :: threads) = thread.depth + depth threads := List.sum_cons

theorem perm_pick {index : Nat} (found : threads[index]? = some thread) :
    threads.Perm (thread :: threads.eraseIdx index) := by
  obtain ⟨inRange, rfl⟩ := List.getElem?_eq_some_iff.mp found
  exact (getElem_cons_eraseIdx_perm inRange).symm

theorem among_le {pcs left right : List Pc} (within : ∀ pc ∈ pcs, pc ∈ left ∨ pc ∈ right) :
    among threads pcs ≤ among threads left + among threads right := by
  induction threads with
  | nil => simp [among]
  | cons thread threads ih =>
    have split := within thread.pc
    simp only [among_cons]
    grind

end

/-- The places where a thread has the provider's mutex. -/
def lockPcs : List Pc :=
  [.running true, .disableCheck, .disablePend, .disableRelease, .disableUnpend, .disableTake,
    .enableCheck true, .enableSet true, .lockEnter, .lockClear, .lockCheck, .lockRelease,
    .lockLoad, .lockStore, .lockDone, .unlockEnter, .unlockLoad, .unlockStore, .unlockCheck,
    .unlockSetExclusive, .unlockSetShared, .unlockDone]

/-- The places between the increment and the decrement of `Pending`. -/
def pendingPcs : List Pc := [.disableRelease, .sharedWait, .sharedWoken, .disableUnpend]

/-- The places between the increment and the decrement of `Exclusive`. -/
def exclusivePcs : List Pc :=
  [.lockClear, .lockCheck, .lockRelease, .exclusiveWait, .exclusiveWoken, .lockLoad, .lockStore,
    .lockDone, .exclusive, .unlockEnter]

/-- The places where a thread has loaded `Active` and not stored it yet. -/
def storePcs : List Pc := [.lockStore, .unlockStore]

/-- The places from where `LockRemove` has seen that nobody is active. -/
def grantedPcs : List Pc := .lockLoad :: .lockStore :: removingPcs

/-- The threads that will look at `Active` again or signal `ExclusiveEvent`. -/
def exclusiveWakers : List Pc :=
  [.enableCheck false, .enableCheck true, .enableSet false, .enableSet true, .lockCheck,
    .exclusiveWoken, .lockLoad, .lockStore, .unlockCheck, .unlockSetExclusive]

/-- The threads that will signal `SharedEvent` if it is for them to do so. -/
def sharedWakers : List Pc := [.unlockLoad, .unlockStore, .unlockCheck, .unlockSetShared]

/-- What every step keeps. For threads that wait, the last two fields name the
event, the counter or the threads that answer for their wake-up. -/
structure Counted (provider : Provider) (threads : List Thread) : Prop where
  lock : provider.lock.toNat = among threads lockPcs
  pending : provider.pending = among threads pendingPcs
  exclusive : provider.exclusive = among threads exclusivePcs
  active : provider.active = depth threads + among threads removingPcs
  -- the decision to take shared access stands while its thread has the mutex
  taking : 0 < among threads [.disableTake] → provider.exclusive = 0
  alone : 0 < among threads grantedPcs → depth threads = 0 ∧ among threads grantedPcs = 1
  wakesExclusive : 0 < among threads [.lockRelease, .exclusiveWait] →
    0 < provider.exclusiveEvent.toNat + provider.active + among threads exclusiveWakers
  wakesShared : 0 < among threads [.disablePend, .disableRelease, .sharedWait] →
    0 < provider.sharedEvent.toNat + provider.exclusive + among threads sharedWakers

namespace Counted
variable {provider after : Provider} {thread moved : Thread} {threads others : List Thread} {choice : Call}

theorem perm (kept : Counted provider threads) (same : threads.Perm others) : Counted provider others := by
  have counted : among others = among threads := funext fun pcs => same.symm.countP_eq _
  have held : depth others = depth threads := ((same.map Thread.depth).sum_eq).symm
  obtain ⟨lock, pending, exclusive, active, taking, alone, wakesExclusive, wakesShared⟩ := kept
  constructor <;> simp only [counted, held] <;> assumption

theorem step (kept : Counted provider (thread :: others))
    (loaded : thread.pc ∈ storePcs → thread.loaded = provider.active)
    (taken : provider.step thread choice thread.pc = some (after, moved)) :
    Counted after (moved :: others) ∧
      (0 < among others storePcs → after.active = provider.active) ∧
      (moved.pc ∈ storePcs → moved.loaded = after.active) := by
  obtain ⟨pc, held, value⟩ := thread
  obtain ⟨lock, pending, exclusive, active, taking, alone, wakesExclusive, wakesShared⟩ := kept
  have bound := Bool.toNat_le provider.lock
  have waits : among others [.lockRelease, .exclusiveWait] ≤
      among others exclusivePcs + among others exclusivePcs := among_le (by decide)
  have pends : among others [.disablePend, .disableRelease, .sharedWait] ≤
      among others pendingPcs + among others lockPcs := among_le (by decide)
  have takes : among others [.disableTake] ≤ among others lockPcs + among others lockPcs :=
    among_le (by decide)
  have grants : among others grantedPcs ≤ among others exclusivePcs + among others lockPcs :=
    among_le (by decide)
  have counts : among others grantedPcs ≤ among others removingPcs + among others lockPcs :=
    among_le (by decide)
  have stores : among others storePcs ≤ among others lockPcs + among others lockPcs := among_le (by decide)
  have storing : among others storePcs ≤ among others grantedPcs + among others grantedPcs :=
    among_le (by decide)
  cases pc
  case' running locked => cases locked <;> cases choice
  case' enableCheck locked => cases locked
  case' enableSet locked => cases locked
  all_goals simp only [Provider.step, Provider.call, Provider.goto_eq_some,
    Provider.acquire_eq_some, Provider.release, reduceCtorEq, ite_none_left_eq_some,
    ite_none_right_eq_some] at taken
  -- one goal for every outcome of the test that the thread makes
  all_goals try split at taken
  all_goals try split at taken
  all_goals
    first
      | obtain ⟨rfl, rfl⟩ := taken
      | obtain ⟨seen, rfl, rfl⟩ := taken
      | obtain ⟨seen, free, rfl, rfl⟩ := taken
  all_goals simp +decide only [among_cons, depth_cons, if_true, if_false, forall_true_left] at *
  all_goals refine ⟨?_, by grind, by simp +decide⟩
  all_goals constructor
  all_goals simp +decide only [among_cons, depth_cons, if_true, if_false, Bool.toNat_true, Bool.toNat_false]
  all_goals omega

end Counted

/-- A thread inside `DisableRemove` or before its grant in `LockRemove` holds nothing. -/
def Thread.Bare (thread : Thread) : Prop :=
  thread.pc ∈ [.disableCheck, .disablePend, .disableRelease, .sharedWait, .sharedWoken,
    .disableUnpend, .disableTake, .lockEnter, .lockClear, .lockCheck, .lockRelease, .exclusiveWait,
    .exclusiveWoken] → thread.depth = 0

theorem Thread.Bare.step {provider after : Provider} {thread moved : Thread} {choice : Call}
    (bare : thread.Bare) (flat : choice = .disableRemove → thread.depth = 0)
    (taken : provider.step thread choice thread.pc = some (after, moved)) : moved.Bare := by
  obtain ⟨pc, held, value⟩ := thread
  cases pc
  case' running locked => cases locked <;> cases choice
  all_goals simp only [Provider.step, Provider.call, Provider.goto_eq_some,
    Provider.acquire_eq_some, Provider.release, reduceCtorEq, ite_none_left_eq_some,
    ite_none_right_eq_some] at taken
  all_goals try split at taken
  all_goals try split at taken
  all_goals
    first
      | obtain ⟨-, rfl⟩ := taken
      | obtain ⟨-, -, rfl⟩ := taken
      | obtain ⟨seen, -, -, rfl⟩ := taken
  all_goals simp_all [Bare]

namespace LockSys

/-- What every state of a run has. -/
structure Kept (sys : LockSys) : Prop where
  counted : Counted sys.provider sys.threads
  loaded : ∀ thread ∈ sys.threads, thread.pc ∈ storePcs → thread.loaded = sys.provider.active
  bare : ∀ thread ∈ sys.threads, thread.Bare

variable {sys after : LockSys} {event : Nat × Call}

theorem Initial.kept (start : sys.Initial) : sys.Kept := by
  obtain ⟨provider, threads⟩ := sys
  obtain ⟨rfl, fresh⟩ := start
  have none (pcs : List Pc) (other : .running false ∉ pcs) : among threads pcs = 0 :=
    countP_eq_zero.mpr fun thread member => by simp [fresh thread member, other]
  have idle : depth threads = 0 := by
    refine sum_eq_zero fun value member => ?_
    obtain ⟨thread, there, rfl⟩ := mem_map.mp member
    rw [fresh thread there]
  refine ⟨?_, fun thread member => ?_, fun thread member => ?_⟩
  · constructor <;> simp (disch := decide) [none, idle]
  · rw [fresh thread member]
    simp [storePcs]
  · rw [fresh thread member]
    simp [Thread.Bare]

theorem Kept.next (kept : sys.Kept) (flat : Flat sys event) (taken : sys.next event = some after) :
    after.Kept := by
  obtain ⟨index, choice⟩ := event
  simp only [LockSys.next, bind_eq_bind, bind_eq_some_iff, Option.pure_def, some.injEq] at taken
  obtain ⟨thread, found, ⟨provider, moved⟩, stepped, rfl⟩ := taken
  obtain ⟨inRange, here⟩ := List.getElem?_eq_some_iff.mp found
  have later : (moved :: sys.threads.eraseIdx index).Perm (sys.threads.set index moved) := by
    have placed : (sys.threads.set index moved)[index]? = some moved := List.getElem?_set_self inRange
    exact (eraseIdx_set_eq ▸ perm_pick placed).symm
  have member : thread ∈ sys.threads := mem_of_getElem? found
  obtain ⟨counted, same, own⟩ :=
    (kept.counted.perm (perm_pick found)).step (kept.loaded thread member) stepped
  refine ⟨counted.perm later, fun other there stores => ?_, fun other there => ?_⟩
  · obtain rfl | rest := mem_cons.mp (later.mem_iff.mpr there)
    · exact own stores
    · rw [kept.loaded other (mem_of_mem_eraseIdx rest) stores,
        same (countP_pos_iff.mpr ⟨other, rest, by simpa using stores⟩)]
  · obtain rfl | rest := mem_cons.mp (later.mem_iff.mpr there)
    · exact (kept.bare thread member).step (fun call => flat call thread found) stepped
    · exact kept.bare other (mem_of_mem_eraseIdx rest)

theorem Kept.alone (kept : sys.Kept) {i j : Nat} (apart : i ≠ j) {thread other : Thread}
    (found : sys.threads[i]? = some thread) (second : sys.threads[j]? = some other)
    (removing : thread.Removing) : ¬ other.Removing ∧ other.depth = 0 := by
  have rest : other ∈ sys.threads.eraseIdx i := mem_eraseIdx_iff_getElem?.mpr ⟨j, apart.symm, second⟩
  have counted := kept.counted.perm (perm_pick found)
  have granted : thread.pc ∈ grantedPcs := .tail _ (.tail _ removing)
  have alone := counted.alone
  simp only [among_cons, depth_cons, granted, if_true] at alone
  obtain ⟨idle, one⟩ := alone (by omega)
  constructor
  · intro both
    have : 0 < among (sys.threads.eraseIdx i) grantedPcs :=
      countP_pos_iff.mpr ⟨other, rest, by simpa using .tail _ (.tail _ both)⟩
    omega
  · have : other.depth ≤ depth (sys.threads.eraseIdx i) := single_le_sum (by simp) _ (mem_map_of_mem rest)
    omega

theorem Kept.woken (kept : sys.Kept) (some : sys.threads ≠ [])
    (waiting : ∀ thread ∈ sys.threads, thread.Waiting) :
    ∃ thread ∈ sys.threads, thread.Signalled sys.provider := by
  have none (pcs : List Pc) (other : .sharedWait ∉ pcs ∧ .exclusiveWait ∉ pcs) :
      among sys.threads pcs = 0 :=
    countP_eq_zero.mpr fun thread member => by
      rcases waiting thread member with pc | pc <;> simp [pc, other]
  have idle : depth sys.threads = 0 := by
    refine sum_eq_zero fun value member => ?_
    obtain ⟨thread, there, rfl⟩ := mem_map.mp member
    rcases waiting thread there with pc | pc <;> exact kept.bare thread there (by simp [pc])
  have active := kept.counted.active
  rw [idle, none removingPcs (by decide)] at active
  by_cases removal : ∃ thread ∈ sys.threads, thread.pc = .exclusiveWait
  · obtain ⟨thread, member, pc⟩ := removal
    have wakes := kept.counted.wakesExclusive (countP_pos_iff.mpr ⟨thread, member, by simp [pc]⟩)
    rw [none exclusiveWakers (by decide), active] at wakes
    refine ⟨thread, member, .inr ⟨pc, ?_⟩⟩
    cases signalled : sys.provider.exclusiveEvent <;> simp [signalled] at wakes ⊢
  · -- nobody removes, so the last removal has released the shared waiters
    obtain ⟨thread, member⟩ := exists_mem_of_ne_nil _ some
    have shared : ∀ thread ∈ sys.threads, thread.pc = .sharedWait := fun thread member =>
      (waiting thread member).resolve_right fun pc => removal ⟨thread, member, pc⟩
    have exclusive : sys.provider.exclusive = 0 := by
      rw [kept.counted.exclusive]
      exact_mod_cast countP_eq_zero.mpr fun thread member => by
        simp [shared thread member, exclusivePcs]
    have wakes := kept.counted.wakesShared
      (countP_pos_iff.mpr ⟨thread, member, by simp [shared thread member]⟩)
    rw [none sharedWakers (by decide), exclusive] at wakes
    refine ⟨thread, member, .inl ⟨shared thread member, ?_⟩⟩
    cases signalled : sys.provider.sharedEvent <;> simp [signalled] at wakes ⊢

/-- As long as no thread asks for a second access the lock is safe, with any number of threads and
in any interleaving of their steps. -/
theorem removeLock_safe (run : machine.Reachable Flat sys) : sys.Safe := by
  have kept : sys.Kept :=
    run.invariant (fun _ start => Initial.kept start) fun _ _ _ kept flat taken => kept.next flat taken
  refine ⟨fun i j apart thread found other second => kept.alone apart found second, ?_, kept.woken⟩
  rw [kept.counted.active]
  omega

/-- Two threads that run. -/
def two : LockSys :=
  ⟨⟨false, 0, 0, false, 0, false⟩, [⟨.running false, 0, 0⟩, ⟨.running false, 0, 0⟩]⟩

theorem two_initial : two.Initial := ⟨rfl, by decide⟩

/-- The first thread takes shared access and a removal comes to wait for it. -/
def removalEvents : List (Nat × Call) :=
  (0, .acquireLock) :: List.replicate 3 (0, .disableRemove) ++ (0, .releaseLock) ::
    List.replicate 5 (1, .lockRemove)

/-- A thread that asks for a second access, as `WvEpGetRequest` does with its two
`WvEpAcquire`, waits for the removal that waits for its first one. -/
theorem nestedDisableRemove_stuck :
    ∃ sys, machine.Reachable (fun _ _ => True) sys ∧ ¬ sys.Safe := by
  obtain ⟨sys, run, waiting, silent⟩ : ∃ sys, machine.Reachable (fun _ _ => True) sys ∧
      sys.threads.map Thread.pc = [.sharedWait, .exclusiveWait] ∧
        (sys.provider.sharedEvent || sys.provider.exclusiveEvent) = false :=
    Machine.reaches_of_any two_initial
      (removalEvents ++ (0, .acquireLock) :: replicate 4 (0, .disableRemove))
      (Machine.guarded_of_forall (fun _ _ => trivial) _ _) (by decide +kernel)
  refine ⟨sys, run, fun safe => ?_⟩
  have places : ∀ thread ∈ sys.threads, thread.Waiting := fun thread member => by
    have place := waiting ▸ mem_map_of_mem (f := Thread.pc) member
    simpa [Thread.Waiting] using place
  obtain ⟨thread, -, signalled⟩ := safe.woken (by rintro none; simp [none] at waiting) places
  simp only [Bool.or_eq_false_iff] at silent
  simp [Thread.Signalled, silent] at signalled

/-- The first thread gives its access back, and the removal goes on. -/
theorem removalEvents_safe :
    ∃ sys, machine.Reachable Flat sys ∧ sys.threads.map Thread.pc = [.running false, .exclusive] ∧
      sys.Safe := by
  obtain ⟨sys, run, places⟩ : ∃ sys, machine.Reachable Flat sys ∧
      sys.threads.map Thread.pc = [.running false, .exclusive] :=
    Machine.reaches_of_any two_initial
      (removalEvents ++ replicate 3 (0, .enableRemove) ++ replicate 6 (1, .lockRemove))
      (by decide +kernel) (by decide +kernel)
  exact ⟨sys, run, places, removeLock_safe run⟩

end LockSys
end WinOFED.Winverbs
