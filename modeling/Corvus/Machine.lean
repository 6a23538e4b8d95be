import Mathlib.Logic.Relation

/-!
# Event-driven machines and their runs

A machine is a partial transition function on states, driven by events.  All
nondeterminism of a system (scheduling, failures, the passing of time, what the
environment writes) is part of the event, so a run is a sequence of events and
every run can be replayed.

Runs carry a guard on the events that may occur.  A property proved for guarded
runs says what follows from an assumption about the environment, or under which
condition on its steps a component keeps its promise.
-/

namespace Corvus

universe u v

/-- A partial transition function together with its initial states. -/
structure Machine (State : Type u) (Event : Type v) where
  initial : State → Prop
  step : State → Event → Option State

namespace Machine

variable {State : Type u} {Event : Type v}
variable {machine : Machine State Event}
variable {guard weaker : State → Event → Prop}

/-- `Runs machine guard source target`: some sequence of events, each allowed by
`guard` in the state it occurs in, leads from `source` to `target`. -/
inductive Runs (machine : Machine State Event) (guard : State → Event → Prop) :
    State → State → Prop where
  | refl (state : State) : Runs machine guard state state
  | tail {source middle target : State} {event : Event} :
      Runs machine guard source middle → guard middle event →
      machine.step middle event = some target → Runs machine guard source target

/-- A state some guarded run reaches from an initial state. -/
def Reachable (machine : Machine State Event) (guard : State → Event → Prop)
    (state : State) : Prop :=
  ∃ start, machine.initial start ∧ Runs machine guard start state

theorem Runs.trans {source middle target : State}
    (first : Runs machine guard source middle)
    (second : Runs machine guard middle target) :
    Runs machine guard source target := by
  induction second with
  | refl => exact first
  | tail _ allowed stepped ih => exact ih.tail allowed stepped

theorem Runs.mono (weaken : ∀ state event, guard state event → weaker state event)
    {source target : State} (runs : Runs machine guard source target) :
    Runs machine weaker source target := by
  induction runs with
  | refl => exact .refl _
  | tail _ allowed stepped ih => exact ih.tail (weaken _ _ allowed) stepped

/-- What one guarded step preserves, a guarded run preserves. -/
theorem Runs.invariant {property : State → Prop}
    (preserved : ∀ state event next, property state → guard state event →
      machine.step state event = some next → property next)
    {source target : State} (runs : Runs machine guard source target)
    (holds : property source) : property target := by
  induction runs with
  | refl => exact holds
  | tail _ allowed stepped ih => exact preserved _ _ _ ih allowed stepped

theorem Reachable.mono (weaken : ∀ state event, guard state event → weaker state event)
    {state : State} (reachable : machine.Reachable guard state) :
    machine.Reachable weaker state := by
  obtain ⟨start, isInitial, runs⟩ := reachable
  exact ⟨start, isInitial, runs.mono weaken⟩

theorem Reachable.extend {source target : State}
    (reachable : machine.Reachable guard source)
    (runs : Runs machine guard source target) :
    machine.Reachable guard target := by
  obtain ⟨start, isInitial, before⟩ := reachable
  exact ⟨start, isInitial, before.trans runs⟩

/-- Invariants hold in every reachable state. -/
theorem Reachable.invariant {property : State → Prop}
    (starts : ∀ state, machine.initial state → property state)
    (preserved : ∀ state event next, property state → guard state event →
      machine.step state event = some next → property next)
    {state : State} (reachable : machine.Reachable guard state) : property state := by
  obtain ⟨start, isInitial, runs⟩ := reachable
  exact runs.invariant preserved (starts start isInitial)

/-! ## Replaying a list of events -/

/-- Run the events of a list in order. -/
def execute (machine : Machine State Event) : State → List Event → Option State
  | state, [] => some state
  | state, event :: rest => (machine.step state event).bind (machine.execute · rest)

/-- Whether the guard allows every event of a replayed list. -/
def Allows (machine : Machine State Event) (guard : State → Event → Prop) :
    State → List Event → Prop
  | _, [] => True
  | state, event :: rest =>
      guard state event ∧
        ∀ next, machine.step state event = some next → machine.Allows guard next rest

theorem execute_concat (events : List Event) (event : Event) (source : State) :
    machine.execute source (events ++ [event]) =
      (machine.execute source events).bind (machine.step · event) := by
  induction events generalizing source with
  | nil =>
      rw [List.nil_append, execute, execute, Option.bind_some]
      exact Option.bind_fun_some _
  | cons first rest ih =>
      rw [List.cons_append, execute, execute, Option.bind_assoc]
      exact congrArg _ (funext ih)

/-- A replayed list whose events the guard allows is a guarded run. -/
theorem runs_of_execute {events : List Event} {source target : State}
    (replayed : machine.execute source events = some target)
    (allowed : machine.Allows guard source events) :
    Runs machine guard source target := by
  induction events generalizing source with
  | nil =>
      cases replayed
      exact .refl _
  | cons event rest ih =>
      simp only [execute, Option.bind_eq_some_iff] at replayed
      obtain ⟨next, stepped, restReplayed⟩ := replayed
      have first : Runs machine guard source next :=
        (Runs.refl source).tail allowed.1 stepped
      exact first.trans (ih restReplayed (allowed.2 next stepped))

theorem Allows.and {events : List Event} {source : State}
    (allowed : machine.Allows guard source events) (also : machine.Allows weaker source events) :
    machine.Allows (fun state event => guard state event ∧ weaker state event) source events := by
  induction events generalizing source with
  | nil => trivial
  | cons event rest ih =>
      exact ⟨⟨allowed.1, also.1⟩,
        fun next stepped => ih (allowed.2 next stepped) (also.2 next stepped)⟩

/-- A guard that allows the events of a list in every state allows the list. -/
theorem allows_of_forall {events : List Event} {source : State}
    (allowed : ∀ event ∈ events, ∀ state, guard state event) :
    machine.Allows guard source events := by
  induction events generalizing source with
  | nil => trivial
  | cons event rest ih =>
      rw [List.forall_mem_cons] at allowed
      exact ⟨allowed.1 source, fun next _ => ih allowed.2⟩

/-- A guard that holds wherever a property does allows events that keep the property. -/
theorem allows_of_invariant {property : State → Prop} {events : List Event} {source : State}
    (holds : property source)
    (allowed : ∀ state, property state → ∀ event ∈ events, guard state event)
    (preserved : ∀ state event next, event ∈ events → property state →
      machine.step state event = some next → property next) :
    machine.Allows guard source events := by
  induction events generalizing source with
  | nil => trivial
  | cons event rest ih =>
      refine ⟨allowed source holds event List.mem_cons_self, fun next stepped => ?_⟩
      refine ih (preserved source event next List.mem_cons_self holds stepped)
        (fun state has other member => allowed state has other (List.mem_cons_of_mem _ member))
        fun state other after member => preserved state other after (List.mem_cons_of_mem _ member)

/-- Whether a check accepts every event of a replayed list. -/
def accepts (machine : Machine State Event) (check : State → Event → Bool) :
    State → List Event → Bool
  | _, [] => true
  | state, event :: rest =>
      check state event &&
        ((machine.step state event).map (machine.accepts check · rest)).getD true

/-- A check that is sound for a guard wherever a property holds, and accepts events that
keep the property, shows that the guard allows them. -/
theorem allows_of_accepts {check : State → Event → Bool} {property : State → Prop}
    {events : List Event} {source : State} (holds : property source)
    (sound : ∀ state, property state → ∀ event ∈ events, check state event = true →
      guard state event)
    (preserved : ∀ state event next, event ∈ events → property state →
      machine.step state event = some next → property next)
    (accepted : machine.accepts check source events = true) :
    machine.Allows guard source events := by
  induction events generalizing source with
  | nil => trivial
  | cons event rest ih =>
      rw [accepts, Bool.and_eq_true] at accepted
      refine ⟨sound source holds event List.mem_cons_self accepted.1, fun next stepped => ?_⟩
      rw [stepped, Option.map_some, Option.getD_some] at accepted
      exact ih (preserved source event next List.mem_cons_self holds stepped)
        (fun state has other member => sound state has other (List.mem_cons_of_mem _ member))
        (fun state other after member => preserved state other after
          (List.mem_cons_of_mem _ member)) accepted.2

theorem Allows.append {first second : List Event} {source : State}
    (allowed : machine.Allows guard source first)
    (later : ∀ middle, machine.execute source first = some middle →
      machine.Allows guard middle second) :
    machine.Allows guard source (first ++ second) := by
  induction first generalizing source with
  | nil => exact later source rfl
  | cons event rest ih =>
      refine ⟨allowed.1, fun next stepped => ih (allowed.2 next stepped) fun middle executed => ?_⟩
      exact later middle (by rw [execute, stepped, Option.bind_some, executed])

end Machine

end Corvus
