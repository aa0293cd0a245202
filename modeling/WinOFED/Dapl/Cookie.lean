import WinOFED.Transition.Machine

/-! Cookies of the requests posted on an endpoint (`dapl_cookie.c`, `dapl_ep_util.c`).

The cookies of a pool are handed out in a circle. `head` is the one handed out
last, and giving a cookie back moves `tail` to it. -/
namespace WinOFED.Dapl
open Transition

/-- `DAPL_COOKIE_BUFFER`. A cookie is its index in the pool. -/
structure CookieBuffer where
  poolSize : Nat
  head : Nat
  tail : Nat

/-- `dapls_cb_create`; the slot at `tail` is always an empty one. -/
def cbCreate (size : Nat) : CookieBuffer := ⟨size + 1, 0, 0⟩

/-- `dapls_cb_get`; `none` is `DAT_INSUFFICIENT_RESOURCES`. -/
def cbGet (buffer : CookieBuffer) : Option (Nat × CookieBuffer) :=
  let newHead := (buffer.head + 1) % buffer.poolSize
  if newHead = buffer.tail then none else some (newHead, { buffer with head := newHead })

/-- `dapls_cb_put` -/
def cbPut (buffer : CookieBuffer) (cookie : Nat) : CookieBuffer := { buffer with tail := cookie }

/-- `dapls_cb_pending` -/
def cbPending (buffer : CookieBuffer) : Nat :=
  if buffer.head = buffer.tail then 0
  else if buffer.tail < buffer.head then buffer.head - buffer.tail
  else buffer.poolSize - buffer.tail + buffer.head

/-- The requests of one endpoint. Calls of `dapl_ep_post_send_req` do not race with
each other, so that at most one cookie belongs to a call that is under way. -/
structure Endpoint where
  buffer : CookieBuffer
  posting : Option Nat
  /-- Cookies of the requests that the provider took, oldest first. -/
  posted : List Nat

/-- What happens to the requests of an endpoint. -/
inductive PostEvent
  | alloc
  /-- `dapls_ib_post_send` takes the request or refuses it. -/
  | post (accepted : Bool)
  /-- `dapli_evd_cqe_to_event` for the oldest request. -/
  | complete
  deriving DecidableEq

namespace Endpoint

/-- The endpoint after an event. -/
def next (ep : Endpoint) : PostEvent → Option Endpoint
  | .alloc =>
      match ep.posting, cbGet ep.buffer with
      | some _, _ => none
      | none, none => some ep
      | none, some (cookie, buffer) => some { ep with buffer, posting := some cookie }
  | .post accepted => ep.posting.map fun cookie =>
      if accepted then { ep with posting := none, posted := ep.posted ++ [cookie] }
      else { ep with posting := none, buffer := cbPut ep.buffer cookie }
  | .complete =>
      match ep.posted with
      | [] => none
      | cookie :: rest => some { ep with posted := rest, buffer := cbPut ep.buffer cookie }

/-- An endpoint with a new buffer of a given size. -/
def machine (size : Nat) : Machine Endpoint PostEvent :=
  .ofNext (· = ⟨cbCreate size, none, []⟩) next

/-- Cookies handed out whose request has neither completed nor been refused. -/
def outstanding (ep : Endpoint) : List Nat := ep.posted ++ ep.posting.toList

/-- The buffer agrees with the cookies outstanding. -/
structure Accounted (ep : Endpoint) : Prop where
  fresh : ∀ got ∈ cbGet ep.buffer, got.1 ∉ ep.outstanding
  pending : cbPending ep.buffer = ep.outstanding.length
  full : cbGet ep.buffer = none ↔ ep.outstanding.length + 1 = ep.buffer.poolSize

/-- No request is refused while an older one is outstanding. -/
def Alone (ep : Endpoint) (event : PostEvent) : Prop := event = .post false → ep.posted = []

instance (ep : Endpoint) (event : PostEvent) : Decidable (Alone ep event) :=
  inferInstanceAs (Decidable (_ → _))

end Endpoint

/-- The cookies are consecutive, from behind `tail` up to `head`. -/
structure Arc (buffer : CookieBuffer) (cookies : List Nat) (base : Nat) : Prop where
  tail : buffer.tail = base % buffer.poolSize
  head : buffer.head = (base + cookies.length) % buffer.poolSize
  each : cookies = (List.range' (base + 1) cookies.length).map (· % buffer.poolSize)
  room : cookies.length < buffer.poolSize

namespace Arc
variable {buffer : CookieBuffer} {cookies : List Nat} {base : Nat}

theorem newHead (arc : Arc buffer cookies base) :
    (buffer.head + 1) % buffer.poolSize = (base + 1 + cookies.length) % buffer.poolSize := by
  rw [arc.head, Nat.mod_add_mod, Nat.add_right_comm]

theorem full_iff (arc : Arc buffer cookies base) :
    (buffer.head + 1) % buffer.poolSize = buffer.tail ↔ cookies.length + 1 = buffer.poolSize := by
  rw [arc.newHead, arc.tail, Nat.add_assoc, Nat.add_comm 1]
  change base + (cookies.length + 1) ≡ base [MOD buffer.poolSize] ↔ _
  rw [Nat.add_modEq_left_iff]
  refine ⟨fun divides => ?_, fun equal => equal ▸ dvd_rfl⟩
  exact (Nat.le_of_dvd (Nat.succ_pos _) divides).antisymm' arc.room

theorem fresh (arc : Arc buffer cookies base) : (buffer.head + 1) % buffer.poolSize ∉ cookies := by
  rw [arc.newHead, arc.each]
  intro listed
  obtain ⟨place, inside, same⟩ := List.mem_map.mp listed
  rw [List.mem_range'_1] at inside
  have room := arc.room
  -- Less than one round lies between the two places.
  have zero := Nat.sub_mod_eq_zero_of_mod_eq same.symm
  rw [List.length_map, List.length_range', Nat.mod_eq_of_lt (by omega)] at zero
  omega

theorem pending (arc : Arc buffer cookies base) : cbPending buffer = cookies.length := by
  have head := arc.head
  rw [Nat.add_mod_eq_ite, ← arc.tail, Nat.mod_eq_of_lt arc.room] at head
  have low : buffer.tail < buffer.poolSize := arc.tail ▸ Nat.mod_lt _ (Nat.zero_lt_of_lt arc.room)
  have room := arc.room
  unfold cbPending
  split_ifs at head ⊢ <;> omega

theorem get (arc : Arc buffer cookies base) {got : Nat × CookieBuffer}
    (taken : cbGet buffer = some got) : Arc got.2 (cookies ++ [got.1]) base := by
  rw [cbGet, Option.ite_none_left_eq_some, arc.full_iff, Option.some_inj] at taken
  obtain ⟨short, rfl⟩ := taken
  have count : (cookies ++ [(buffer.head + 1) % buffer.poolSize]).length = cookies.length + 1 := by simp
  refine ⟨arc.tail, ?_, ?_, ?_⟩
  · rw [count, arc.newHead, Nat.add_right_comm]
    rfl
  · rw [count, List.range'_1_concat, List.map_append, ← arc.each, arc.newHead]
    rfl
  · exact count.trans_lt (Nat.lt_of_le_of_ne arc.room short)

theorem put {cookie : Nat} (arc : Arc buffer (cookie :: cookies) base) :
    Arc (cbPut buffer cookie) cookies (base + 1) := by
  obtain ⟨-, head, each, room⟩ := arc
  obtain ⟨first, rest⟩ := List.cons_eq_cons.mp each
  rw [List.length_cons, ← Nat.add_assoc, Nat.add_right_comm] at head
  exact ⟨first, head, rest, Nat.lt_of_succ_lt room⟩

end Arc

namespace Endpoint
variable {ep after : Endpoint} {event : PostEvent}

/-- The outstanding cookies lie in a row. -/
def InRow (ep : Endpoint) : Prop := ∃ base, Arc ep.buffer ep.outstanding base

theorem InRow.accounted (row : ep.InRow) : ep.Accounted := by
  obtain ⟨base, arc⟩ := row
  refine ⟨fun got taken => ?_, arc.pending, ?_⟩
  · rw [cbGet, Option.mem_def, Option.ite_none_left_eq_some, Option.some_inj] at taken
    exact taken.2 ▸ arc.fresh
  · rw [cbGet, ite_eq_left_iff, ← arc.full_iff]
    simp

theorem InRow.next (row : ep.InRow) (alone : Alone ep event) (taken : ep.next event = some after) :
    after.InRow := by
  obtain ⟨buffer, posting, posted⟩ := ep
  obtain ⟨base, arc⟩ := row
  cases event with
  | alloc =>
    cases posting with
    | some cookie => cases taken
    | none =>
      cases found : cbGet buffer with
      | none =>
        simp only [Endpoint.next, found, Option.some_inj] at taken
        exact ⟨base, taken ▸ arc⟩
      | some got =>
        simp only [Endpoint.next, found, Option.some_inj] at taken
        rw [outstanding, Option.toList, List.append_nil] at arc
        exact ⟨base, taken ▸ arc.get found⟩
  | post accepted =>
    obtain ⟨cookie, rfl, rfl⟩ := Option.map_eq_some_iff.mp taken
    cases accepted with
    | true =>
      refine ⟨base, ?_⟩
      simpa [outstanding] using arc
    | false =>
      obtain rfl := alone rfl
      exact ⟨base + 1, arc.put⟩
  | complete =>
    cases posted with
    | nil => cases taken
    | cons cookie rest =>
      cases taken
      exact ⟨base + 1, arc.put⟩

/-- As long as no request is refused while an older one is outstanding, the buffer
agrees with the cookies outstanding. -/
theorem accounted_of_reachable {size : Nat} (reachable : (machine size).Reachable Alone ep) :
    ep.Accounted := by
  apply InRow.accounted
  refine reachable.invariant ?_ ?_
  · rintro _ rfl
    exact ⟨0, rfl, rfl, rfl, Nat.succ_pos size⟩
  · intro before event after row alone taken
    exact row.next alone taken

/-- A request that is refused alone gives its cookie back. -/
theorem refusedAlone_accounted : ∃ ep, (machine 2).Reachable Alone ep ∧ ep.posted = [2] ∧
    ep.Accounted := by
  obtain ⟨ep, reachable, posted⟩ : ∃ ep, (machine 2).Reachable Alone ep ∧ ep.posted = [2] :=
    Machine.reaches_of_any rfl [.alloc, .post false, .alloc, .post true] (by decide) (by decide)
  exact ⟨ep, reachable, posted, accounted_of_reachable reachable⟩

/-- A refused request takes the accounts of an older one along. -/
theorem refusedSecond_not_accounted : ∃ ep, (machine 2).Reachable (fun _ _ => True) ep ∧
    ¬ep.Accounted := by
  obtain ⟨ep, reachable, pending, kept⟩ : ∃ ep, (machine 2).Reachable (fun _ _ => True) ep ∧
      cbPending ep.buffer = 0 ∧ ep.outstanding = [1] :=
    Machine.reaches_of_any rfl [.alloc, .post true, .alloc, .post false]
      (Machine.guarded_of_forall (fun _ _ => trivial) ..) (by decide)
  refine ⟨ep, reachable, fun accounted => ?_⟩
  have count := accounted.pending
  rw [pending, kept] at count
  cases count

end Endpoint
end WinOFED.Dapl
