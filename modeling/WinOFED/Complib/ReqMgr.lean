import WinOFED.Transition.Machine

/-! The request manager `cl_req_mgr_t`: requests for objects of a pool that is elsewhere, queued when
the pool does not have enough of them. -/
namespace WinOFED.Complib
open WinOFED.Transition List

/-- `cl_req_type_t`. -/
inductive ReqType
  | getSync | getAsync | getPartialOk
  deriving DecidableEq, Repr

inductive ReqStatus
  | success | pending | insufficientResources | insufficientMemory | notDone
  deriving DecidableEq, Repr

/-- `cl_request_object_t`, with the callback and contexts of the request in `data`. The number of the
request, its type, the count asked for and the counts granted so far are kept beside the source's
fields. -/
structure Request (α : Type) where
  count : Nat
  partialOk : Bool
  data : α
  number : Nat
  kind : ReqType
  asked : Nat
  grants : List Nat
  deriving DecidableEq, Repr

/-- The account of one request: what it was granted and what is left make up what it asked for, and
it is granted in parts only if its type allows that. -/
structure Request.Fair {α : Type} (request : Request α) : Prop where
  total : request.grants.sum + request.count = request.asked
  whole : request.kind ≠ .getPartialOk → request.partialOk = false ∧ request.grants = []

/-- `cl_req_mgr_t`: the request queue, and beside it the queued requests that were completed, in the
order in which they were, and the number of requests queued so far. -/
structure ReqMgr (α : Type) where
  queue : List (Request α) := []
  done : List (Request α) := []
  queued : Nat := 0
  deriving DecidableEq, Repr

namespace ReqMgr
variable {α : Type}

/-- A request enters the queue at its tail. -/
def enqueue (mgr : ReqMgr α) (count : Nat) (partialOk : Bool) (data : α) (kind : ReqType)
    (asked : Nat) (grants : List Nat) : ReqMgr α :=
  { mgr with
    queue := mgr.queue ++ [{ count, partialOk, data, number := mgr.queued, kind, asked, grants }]
    queued := mgr.queued + 1 }

/-- `cl_req_mgr_get` with the count it leaves in `p_count`. `available` is what `pfn_get_count`
returns, `memory` says whether there is a request object. -/
def get (available : Nat) (memory : Bool) (mgr : ReqMgr α) (count : Nat) (kind : ReqType)
    (data : α) : ReqStatus × Nat × ReqMgr α :=
  if mgr.queue = [] ∧ count ≤ available then (.success, count, mgr)
  else if kind = .getSync then (.insufficientResources, count, mgr)
  else if !memory then (.insufficientMemory, count, mgr)
  else if kind = .getPartialOk ∧ mgr.queue = [] then
    (.pending, available,
      mgr.enqueue (count - available) true data kind count [available])
  else (.pending, 0, mgr.enqueue count false data kind count [])

/-- `cl_req_mgr_resume`, with the count and the caller's data it hands out. -/
def resume (available : Nat) (mgr : ReqMgr α) :
    ReqStatus × Option Nat × Option α × ReqMgr α :=
  match mgr.queue with
  | [] => (.notDone, none, none, mgr)
  | request :: rest =>
      if available < request.count then
        if !request.partialOk then (.insufficientResources, none, some request.data, mgr)
        else
          let continued := { request with
            count := request.count - available
            grants := request.grants ++ [available] }
          (.pending, some available, some request.data, { mgr with queue := continued :: rest })
      else
        let completed := { request with grants := request.grants ++ [request.count] }
        (.success, some request.count, some request.data,
          { mgr with queue := rest, done := mgr.done ++ [completed] })

/-- The objects a get grants: none unless it succeeds or is pending. -/
def grantedByGet (result : ReqStatus × Nat × ReqMgr α) : Nat :=
  if result.1 = .success ∨ result.1 = .pending then result.2.1 else 0

/-- The objects a resume grants to the request at the head of the queue. -/
def grantedByResume (result : ReqStatus × Option Nat × Option α × ReqMgr α) : Nat :=
  result.2.1.getD 0

/-- Calls of the manager's functions, with the number of objects available in them. -/
inductive Call (α : Type)
  | get (available : Nat) (memory : Bool) (count : Nat) (kind : ReqType) (data : α)
  | resume (available : Nat)
  deriving DecidableEq, Repr

/-- The manager after a call; a request asks for at least one object. -/
def next (mgr : ReqMgr α) : Call α → Option (ReqMgr α)
  | .get available memory count kind data =>
      if 0 < count then some (mgr.get available memory count kind data).2.2 else none
  | .resume available => some (mgr.resume available).2.2.2

/-- A manager that `cl_req_mgr_init` has set up, and the calls made on it. -/
def machine : Machine (ReqMgr α) (Call α) := .ofNext (fun mgr => mgr = { }) next

/-- A request that allows partial grants finds no request queued before it. -/
def Call.Alone (mgr : ReqMgr α) : Call α → Prop
  | .get _ _ _ kind _ => kind = .getPartialOk → mgr.queue = []
  | .resume _ => True

/-- The queue in order: numbers ascend from the requests that were completed first to the one queued
last, every completed request got what it asked for, and all accounts are right. -/
structure Served (mgr : ReqMgr α) : Prop where
  order : ((mgr.done ++ mgr.queue).map Request.number).Pairwise (· < ·)
  numbered : ∀ request ∈ mgr.done ++ mgr.queue, request.number < mgr.queued
  fair : ∀ request ∈ mgr.queue, request.Fair
  complete : ∀ request ∈ mgr.done, request.grants.sum = request.asked
  whole : ∀ request ∈ mgr.done, request.kind ≠ .getPartialOk → request.grants = [request.asked]

variable {mgr : ReqMgr α}

theorem Served.enqueue (served : mgr.Served) {count asked : Nat} {partialOk : Bool} {data : α}
    {kind : ReqType} {grants : List Nat} (total : grants.sum + count = asked)
    (whole : kind ≠ .getPartialOk → partialOk = false ∧ grants = []) :
    (mgr.enqueue count partialOk data kind asked grants).Served where
  order := by
    simp only [ReqMgr.enqueue, ← append_assoc, map_append, map_cons, map_nil]
    rw [← map_append]
    apply pairwise_append.mpr
    refine ⟨served.order, pairwise_singleton .., ?_⟩
    intro earlier listed later last
    obtain ⟨request, known, rfl⟩ := mem_map.mp listed
    rw [mem_singleton.mp last]
    exact served.numbered request known
  numbered := by
    intro request listed
    simp only [ReqMgr.enqueue, ← append_assoc] at listed ⊢
    rcases mem_append.mp listed with old | new
    · exact Nat.lt_succ_of_lt (served.numbered request old)
    · rw [mem_singleton.mp new]
      exact Nat.lt_succ_self _
  fair := by
    intro request listed
    rcases mem_append.mp listed with old | new
    · exact served.fair request old
    · rw [mem_singleton.mp new]
      exact ⟨total, whole⟩
  complete := served.complete
  whole := served.whole

/-- What a get does: nothing to the queue, or a request that is granted what its type allows. -/
theorem Served.get (served : mgr.Served) (available : Nat) (memory : Bool) (count : Nat)
    (kind : ReqType) (data : α) : (mgr.get available memory count kind data).2.2.Served := by
  unfold ReqMgr.get
  split_ifs with short _ _ alone
  · exact served
  · exact served
  · exact served
  · have less : available < count := by
      by_contra enough
      exact short ⟨alone.2, Nat.le_of_not_lt enough⟩
    apply served.enqueue
    · simp only [sum_singleton]
      omega
    · exact fun not => absurd alone.1 not
  · apply served.enqueue
    · simp
    · exact fun _ => ⟨rfl, rfl⟩

/-- Continuing or completing the request at the head keeps the order and the accounts. -/
theorem Served.resume (served : mgr.Served) (available : Nat) : (mgr.resume available).2.2.2.Served := by
  unfold ReqMgr.resume
  cases listed : mgr.queue with
  | nil => exact served
  | cons request rest =>
    have order := served.order
    have numbered := served.numbered
    have fair := served.fair
    rw [listed] at order numbered fair
    have own : request.Fair := fair request mem_cons_self
    have others : ∀ other ∈ rest, other.Fair := (forall_mem_cons.mp fair).2
    simp only
    split_ifs with less parts
    · exact served
    · refine ⟨?_, ?_, ?_, served.complete, served.whole⟩
      · simpa using order
      · rw [forall_mem_append, forall_mem_cons] at numbered ⊢
        exact numbered
      · refine forall_mem_cons.mpr ⟨?_, others⟩
        constructor
        · have total := own.total
          simp only [sum_append, sum_singleton]
          omega
        · intro kind
          have never := (own.whole kind).1
          simp [never] at parts
    · refine ⟨?_, ?_, others, ?_, ?_⟩
      · simpa using order
      · rw [append_assoc, singleton_append, forall_mem_append, forall_mem_cons]
        rwa [forall_mem_append, forall_mem_cons] at numbered
      · refine forall_mem_append.mpr ⟨served.complete, forall_mem_singleton.mpr ?_⟩
        simpa using own.total
      · refine forall_mem_append.mpr ⟨served.whole, forall_mem_singleton.mpr fun kind => ?_⟩
        have none := (own.whole kind).2
        have total := own.total
        rw [none] at total
        simp only [none, nil_append]
        simp at total
        rw [total]

theorem served_of_next {before after : ReqMgr α} {call : Call α} (served : before.Served)
    (step : next before call = some after) : after.Served := by
  cases call with
  | get available memory count kind data =>
    obtain ⟨-, ⟨⟩⟩ := Option.ite_none_right_eq_some.mp step
    exact served.get ..
  | resume available =>
    cases step
    exact served.resume available

/-- A queued request that allows partial grants is treated as one. -/
def Marked (mgr : ReqMgr α) : Prop :=
  ∀ request ∈ mgr.queue, request.kind = .getPartialOk → request.partialOk = true

theorem Marked.get (marked : mgr.Marked) {available : Nat} {memory : Bool} {count : Nat}
    {kind : ReqType} {data : α} (alone : kind = .getPartialOk → mgr.queue = []) :
    (mgr.get available memory count kind data).2.2.Marked := by
  unfold ReqMgr.get
  split_ifs with _ _ _ plain
  · exact marked
  · exact marked
  · exact marked
  · exact forall_mem_append.mpr ⟨marked, forall_mem_singleton.mpr fun _ => rfl⟩
  · refine forall_mem_append.mpr ⟨marked, forall_mem_singleton.mpr fun parts => ?_⟩
    exact absurd ⟨parts, alone parts⟩ plain

theorem Marked.resume (marked : mgr.Marked) (available : Nat) : (mgr.resume available).2.2.2.Marked := by
  unfold ReqMgr.resume
  cases listed : mgr.queue with
  | nil => exact marked
  | cons request rest =>
    have known := marked
    unfold Marked at known
    rw [listed] at known
    simp only
    split_ifs with _ parts
    · exact marked
    · refine forall_mem_cons.mpr ⟨fun _ => ?_, (forall_mem_cons.mp known).2⟩
      simpa using parts
    · exact (forall_mem_cons.mp known).2

/-- A get is granted something only if no request is queued, all it asked for unless it allows parts,
and what is available if it does. -/
theorem granted_get (mgr : ReqMgr α) (available : Nat) (memory : Bool) (count : Nat)
    (kind : ReqType) (data : α) :
    (grantedByGet (mgr.get available memory count kind data) ≠ 0 → mgr.queue = []) ∧
    (kind ≠ .getPartialOk →
      grantedByGet (mgr.get available memory count kind data) = 0 ∨
        grantedByGet (mgr.get available memory count kind data) = count) ∧
    (kind = .getPartialOk → mgr.queue = [] → memory = true →
      grantedByGet (mgr.get available memory count kind data) = min available count) := by
  unfold get
  split_ifs with enough sync short parts
  · simp [grantedByGet, enough.1]
    omega
  · simp [grantedByGet, sync]
  · rw [Bool.not_eq_true'] at short
    simp [grantedByGet, short]
  · have less : available < count := by
      by_contra most
      exact enough ⟨parts.2, Nat.le_of_not_lt most⟩
    simp [grantedByGet, parts.1, parts.2]
    omega
  · simp [grantedByGet]
    intro kind empty
    exact absurd ⟨kind, empty⟩ parts

/-- A resume grants the head of the queue what is available, up to what is left of it, if it allows
parts, and nothing or all it asked for otherwise. -/
theorem granted_resume (served : mgr.Served) (marked : mgr.Marked) {request : Request α}
    {rest : List (Request α)} (head : mgr.queue = request :: rest) (available : Nat) :
    (request.kind = .getPartialOk → grantedByResume (mgr.resume available) =
      min available (request.asked - request.grants.sum)) ∧
    (request.kind ≠ .getPartialOk → grantedByResume (mgr.resume available) = 0 ∨
      grantedByResume (mgr.resume available) = request.asked) := by
  have listed : request ∈ mgr.queue := by
    rw [head]
    exact mem_cons_self
  have fair := served.fair request listed
  have total := fair.total
  have left : request.asked - request.grants.sum = request.count := by omega
  rw [left]
  unfold resume grantedByResume
  simp only [head]
  constructor
  · intro kind
    have parts := marked request listed kind
    by_cases less : available < request.count
    · simp [if_pos less, parts]
      omega
    · simp [if_neg less]
      omega
  · intro kind
    obtain ⟨never, none⟩ := fair.whole kind
    rw [none] at total
    by_cases less : available < request.count
    · simp [if_pos less, never]
    · simp [if_neg less]
      simp at total
      omega

/-- In every run in which a request that allows partial grants is only made while nothing is queued:
queued requests are completed in the order of their numbers and get exactly what they asked for; no
get is granted anything while a request is queued; a request that does not allow parts is granted
all or nothing, and one that does is granted what is available each time it is at the head. -/
theorem served_of_reachable {mgr : ReqMgr α}
    (reached : machine.Reachable (fun mgr call => Call.Alone mgr call) mgr) :
    ((mgr.done ++ mgr.queue).map Request.number).Pairwise (· < ·) ∧
    (∀ request ∈ mgr.done, request.grants.sum = request.asked) ∧
    (∀ request ∈ mgr.done, request.kind ≠ .getPartialOk → request.grants = [request.asked]) ∧
    (∀ available memory count kind data,
      (grantedByGet (mgr.get available memory count kind data) ≠ 0 → mgr.queue = []) ∧
      (kind ≠ .getPartialOk →
        grantedByGet (mgr.get available memory count kind data) = 0 ∨
          grantedByGet (mgr.get available memory count kind data) = count) ∧
      (kind = .getPartialOk → mgr.queue = [] → memory = true →
        grantedByGet (mgr.get available memory count kind data) = min available count)) ∧
    (∀ available request rest, mgr.queue = request :: rest →
      (request.kind = .getPartialOk → grantedByResume (mgr.resume available) =
        min available (request.asked - request.grants.sum)) ∧
      (request.kind ≠ .getPartialOk → grantedByResume (mgr.resume available) = 0 ∨
        grantedByResume (mgr.resume available) = request.asked)) := by
  have both : mgr.Served ∧ mgr.Marked := by
    refine @Machine.Reachable.invariant _ _ machine _
      (fun mgr : ReqMgr α => mgr.Served ∧ mgr.Marked) ?_ ?_ _ reached
    · rintro _ rfl
      refine ⟨⟨List.Pairwise.nil, ?_, ?_, ?_, ?_⟩, ?_⟩ <;> exact fun _ listed => nomatch listed
    · rintro before call after ⟨served, marked⟩ alone step
      refine ⟨served_of_next served step, ?_⟩
      cases call with
      | get available memory count kind data =>
        simp only [machine, Machine.ofNext, next] at step
        split at step
        · cases step
          exact marked.get alone
        · cases step
      | resume available =>
        cases step
        exact marked.resume available
  obtain ⟨served, marked⟩ := both
  exact ⟨served.order, served.complete, served.whole, granted_get mgr,
    fun available request rest head => granted_resume served marked head available⟩

/-- Three objects asked for in parts while one is there, the rest granted later. -/
theorem parts_served :
    ∃ mgr : ReqMgr Unit, Machine.run next { } [.get 1 true 3 .getPartialOk (), .resume 1] =
        some mgr ∧
      grantedByResume (mgr.resume 5) = 1 ∧
      ((mgr.done ++ mgr.queue).map Request.number).Pairwise (· < ·) := by
  have careful : Machine.Guarded next (fun mgr call => Call.Alone mgr call) ({ } : ReqMgr Unit)
      [.get 1 true 3 .getPartialOk (), .resume 1] :=
    ⟨fun _ => rfl, fun _ _ => ⟨trivial, fun _ _ => trivial⟩⟩
  obtain ⟨mgr, ended, head⟩ : ∃ mgr : ReqMgr Unit,
      Machine.run next { } [.get 1 true 3 .getPartialOk (), .resume 1] = some mgr ∧
      mgr.queue = [⟨1, true, (), 0, .getPartialOk, 3, [1, 1]⟩] := Machine.run_of_any (by decide)
  have fresh : machine.Reachable (fun mgr call => Call.Alone mgr call) ({ } : ReqMgr Unit) :=
    .initial rfl
  obtain ⟨order, _, _, _, resumed⟩ := served_of_reachable (fresh.run careful ended)
  refine ⟨mgr, ended, ?_, order⟩
  rw [(resumed 5 _ [] head).1 rfl]
  decide

/-- A request that allows partial grants is queued behind another one. When it is at the head it is
granted nothing although two objects are available. -/
theorem parts_behind_refused :
    ∃ mgr : ReqMgr Unit, Machine.run next { }
        [.get 0 true 1 .getAsync (), .get 0 true 3 .getPartialOk (), .resume 1] = some mgr ∧
      mgr.queue = [⟨3, false, (), 1, .getPartialOk, 3, []⟩] ∧
      grantedByResume (mgr.resume 2) = 0 ∧ (mgr.resume 2).1 = .insufficientResources :=
  Machine.run_of_any (by decide)

end ReqMgr
end WinOFED.Complib
