import Mathlib

/-! Runs of a machine whose steps are labelled with events.

`Machine.Reachable guard` are the states that runs reach when every step taken
meets `guard`; with the trivial guard these are all reachable states. -/
namespace WinOFED.Transition

/-- What is found after an entry was stored is that entry or was there before. -/
theorem update_cases {Key Value : Type*} [DecidableEq Key] {table : Key → Value} {key other : Key}
    {entry value : Value} (changed : Function.update table key entry other = value) :
    other = key ∧ entry = value ∨ other ≠ key ∧ table other = value := by
  by_cases equal : other = key
  · exact .inl ⟨equal, by rwa [equal, Function.update_self] at changed⟩
  · exact .inr ⟨equal, by rwa [Function.update_of_ne equal] at changed⟩

/-- A labelled transition relation with its initial states. -/
structure Machine (State Event : Type*) where
  /-- States a run may start in. -/
  initial : State → Prop
  /-- `step before event after`: the event may take `before` to `after`. -/
  step : State → Event → State → Prop

namespace Machine
variable {State Event : Type*} (machine : Machine State Event)

/-- States at the end of a finite run all of whose steps meet `guard`. -/
inductive Reachable (guard : State → Event → Prop) : State → Prop
  | initial {state : State} : machine.initial state → Reachable guard state
  | step {before after : State} {event : Event} :
      Reachable guard before → guard before event → machine.step before event after →
      Reachable guard after

variable {machine} {guard : State → Event → Prop}

/-- What holds initially and is kept by every guarded step holds in every state
that guarded runs reach. -/
theorem Reachable.invariant {inv : State → Prop}
    (base : ∀ state, machine.initial state → inv state)
    (preserved : ∀ before event after, inv before → guard before event →
      machine.step before event after → inv after)
    {state : State} (reachable : machine.Reachable guard state) : inv state := by
  induction reachable with
  | initial start => exact base _ start
  | step _ guarded transition ih => exact preserved _ _ _ ih guarded transition

/-- The machine of a transition function; where it has no result there is no step. -/
def ofNext (initial : State → Prop) (next : State → Event → Option State) :
    Machine State Event where
  initial
  step before event after := next before event = some after

/-- The state after a sequence of events. -/
def run (next : State → Event → Option State) (state : State) : List Event → Option State
  | [] => some state
  | event :: rest => (next state event).bind fun after => run next after rest

variable {next : State → Event → Option State} {events : List Event} {state : State}

/-- A property of the state after a sequence of events, by evaluation. -/
theorem run_of_any {property : State → Prop} [DecidablePred property]
    (holds : (run next state events).any (fun after => decide (property after)) = true) :
    ∃ after, run next state events = some after ∧ property after := by
  cases ended : run next state events with
  | none => simp [ended] at holds
  | some after =>
    refine ⟨after, rfl, ?_⟩
    simpa [ended] using holds

/-- Every event of a sequence meets the guard when it happens. -/
def Guarded (next : State → Event → Option State) (guard : State → Event → Prop) (state : State) :
    List Event → Prop
  | [] => True
  | event :: rest =>
      guard state event ∧ ∀ after, next state event = some after → Guarded next guard after rest

instance decidableGuarded {next : State → Event → Option State}
    [∀ state event, Decidable (guard state event)] (state : State) (events : List Event) :
    Decidable (Guarded next guard state events) :=
  match events with
  | [] => isTrue trivial
  | event :: rest =>
    match taken : next state event with
    | none => decidable_of_iff (guard state event) (by simp [Guarded, taken])
    | some after =>
      have : Decidable (Guarded next guard after rest) := decidableGuarded after rest
      decidable_of_iff (guard state event ∧ Guarded next guard after rest) (by simp [Guarded, taken])

theorem guarded_of_forall (all : ∀ state event, guard state event) (state : State)
    (events : List Event) : Guarded next guard state events := by
  induction events generalizing state with
  | nil => trivial
  | cons event rest ih => exact ⟨all state event, fun after _ => ih after⟩

theorem Guarded.mono {weaker : State → Event → Prop}
    (weaken : ∀ state event, guard state event → weaker state event)
    (guarded : Guarded next guard state events) : Guarded next weaker state events := by
  induction events generalizing state with
  | nil => trivial
  | cons event rest ih =>
    exact ⟨weaken state event guarded.1, fun after taken => ih (guarded.2 after taken)⟩

theorem Reachable.run {initial : State → Prop} {state after : State}
    (reachable : (ofNext initial next).Reachable guard state)
    (guarded : Guarded next guard state events) (ended : run next state events = some after) :
    (ofNext initial next).Reachable guard after := by
  induction events generalizing state with
  | nil =>
    cases ended
    exact reachable
  | cons event rest ih =>
    obtain ⟨middle, first, others⟩ := Option.bind_eq_some_iff.mp ended
    exact ih (.step reachable guarded.1 first) (guarded.2 middle first) others

/-- What a fixed run reaches, by evaluation. -/
theorem reaches_of_any {initial property : State → Prop} [DecidablePred property]
    (start : initial state) (events : List Event) (guarded : Guarded next guard state events)
    (holds : (run next state events).any (fun after => decide (property after)) = true) :
    ∃ after, (ofNext initial next).Reachable guard after ∧ property after := by
  obtain ⟨after, ended, has⟩ := run_of_any holds
  exact ⟨after, .run (.initial start) guarded ended, has⟩

end Machine
end WinOFED.Transition
