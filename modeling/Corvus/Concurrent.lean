import Corvus.Machine
import Mathlib.Logic.Function.Basic

/-!
# Calls that run concurrently over shared state

A component runs calls.  Each call keeps local state and takes its steps one at
a time; between two of them any other call may take steps, things may happen to
the shared state from outside, and a call may stop for good.

Safety is proved by rely-guarantee reasoning: an invariant of the shared state,
and an assertion each call carries about the shared state, which the steps of
the others and the happenings from outside must not disturb.
-/

namespace Corvus

/-- How the calls of a component are entered and how they take steps.  A choice
resolves what a step leaves open; a happening changes the shared state without
any call taking a step. -/
structure Component (Shared Request Local Choice Happening : Type) where
  initial : Shared → Prop
  enter : Request → Shared → Local
  step : Local → Choice → Shared → Option (Local × Shared)
  happen : Happening → Shared → Option Shared

/-- The shared state together with the calls in it. -/
structure Concurrent (Shared Local : Type) where
  shared : Shared
  calls : Nat → Option Local

inductive ConcurrentEvent (Request Choice Happening : Type) where
  | start (id : Nat) (request : Request)
  | advance (id : Nat) (choice : Choice)
  | stop (id : Nat)
  | happen (happening : Happening)

namespace Component

variable {Shared Request Local Choice Happening : Type}

/-- One event of the component.  A finished call stays where it is, so that its
outcome can be read off later states. -/
def eventStep (component : Component Shared Request Local Choice Happening)
    (state : Concurrent Shared Local) :
    ConcurrentEvent Request Choice Happening → Option (Concurrent Shared Local)
  | .start id request =>
      match state.calls id with
      | some _ => none
      | none => some { state with
          calls := Function.update state.calls id
            (some (component.enter request state.shared)) }
  | .advance id choice =>
      match state.calls id with
      | none => none
      | some call =>
          match component.step call choice state.shared with
          | none => none
          | some (next, after) => some
              { shared := after, calls := Function.update state.calls id (some next) }
  | .stop id => some { state with calls := Function.update state.calls id none }
  | .happen happening =>
      match component.happen happening state.shared with
      | none => none
      | some after => some { state with shared := after }

/-- The machine of all interleavings, from no calls on. -/
def machine (component : Component Shared Request Local Choice Happening) :
    Machine (Concurrent Shared Local) (ConcurrentEvent Request Choice Happening) where
  initial state := component.initial state.shared ∧ state.calls = fun _ => none
  step := component.eventStep

variable {component : Component Shared Request Local Choice Happening}
variable {guard : Concurrent Shared Local → ConcurrentEvent Request Choice Happening → Prop}

@[simp] theorem machine_step : component.machine.step = component.eventStep := rfl

/-! ## What one event does -/

theorem start_cases {state next : Concurrent Shared Local} {id : Nat} {request : Request}
    (stepped : component.eventStep state (.start id request) = some next) :
    state.calls id = none ∧ next = { state with
      calls := Function.update state.calls id
        (some (component.enter request state.shared)) } := by
  simp only [eventStep] at stepped
  split at stepped
  · cases stepped
  · rename_i free
    cases stepped
    exact ⟨free, rfl⟩

theorem advance_cases {state next : Concurrent Shared Local} {id : Nat} {choice : Choice}
    (stepped : component.eventStep state (.advance id choice) = some next) :
    ∃ call moved after, state.calls id = some call ∧
      component.step call choice state.shared = some (moved, after) ∧
      next = { shared := after, calls := Function.update state.calls id (some moved) } := by
  simp only [eventStep] at stepped
  split at stepped
  · cases stepped
  · rename_i call found
    split at stepped
    · cases stepped
    · rename_i moved after callStepped
      cases stepped
      exact ⟨call, moved, after, found, callStepped, rfl⟩

/-- A call that can take a step takes it. -/
theorem eventStep_advance {state : Concurrent Shared Local} {id : Nat} {choice : Choice}
    {call next : Local} {after : Shared} (found : state.calls id = some call)
    (stepped : component.step call choice state.shared = some (next, after)) :
    component.eventStep state (.advance id choice) =
      some { shared := after, calls := Function.update state.calls id (some next) } := by
  simp only [eventStep, found, stepped]

theorem stop_cases {state next : Concurrent Shared Local} {id : Nat}
    (stepped : component.eventStep state (.stop id) = some next) :
    next = { state with calls := Function.update state.calls id none } := by
  cases stepped
  rfl

theorem happen_cases {state next : Concurrent Shared Local} {happening : Happening}
    (stepped : component.eventStep state (.happen happening) = some next) :
    ∃ after, component.happen happening state.shared = some after ∧
      next = { state with shared := after } := by
  simp only [eventStep] at stepped
  split at stepped
  · cases stepped
  · rename_i after happened
    cases stepped
    exact ⟨after, happened, rfl⟩

/-! ## Rely-guarantee -/

/-- The shared state has its property, and every call's own assertion about the
shared state holds. -/
structure Holds (property : Shared → Prop) (own : Shared → Local → Prop)
    (state : Concurrent Shared Local) : Prop where
  shared : property state.shared
  calls : ∀ id call, state.calls id = some call → own state.shared call

/-- What has to be shown for one event of each kind. -/
structure Obligations (component : Component Shared Request Local Choice Happening)
    (guard : Concurrent Shared Local → ConcurrentEvent Request Choice Happening → Prop)
    (property : Shared → Prop) (own : Shared → Local → Prop) : Prop where
  initially : ∀ shared, component.initial shared → property shared
  entered : ∀ state id request, Holds property own state →
    guard state (.start id request) →
    own state.shared (component.enter request state.shared)
  advanced : ∀ state id choice call next after, Holds property own state →
    guard state (.advance id choice) → state.calls id = some call →
    component.step call choice state.shared = some (next, after) →
    property after ∧ own after next
  undisturbed : ∀ state id choice call next after, Holds property own state →
    guard state (.advance id choice) → state.calls id = some call →
    component.step call choice state.shared = some (next, after) →
    ∀ other bystander, other ≠ id → state.calls other = some bystander →
      own after bystander
  happened : ∀ state happening after, Holds property own state →
    guard state (.happen happening) →
    component.happen happening state.shared = some after →
    property after ∧ ∀ id call, state.calls id = some call → own after call

variable {property : Shared → Prop} {own : Shared → Local → Prop}

theorem Obligations.preserved (obligations : Obligations component guard property own)
    {state next : Concurrent Shared Local}
    {event : ConcurrentEvent Request Choice Happening} (holds : Holds property own state)
    (allowed : guard state event) (stepped : component.eventStep state event = some next) :
    Holds property own next := by
  cases event with
  | start id request =>
      obtain ⟨_, rfl⟩ := start_cases stepped
      refine ⟨holds.shared, fun other call found => ?_⟩
      by_cases same : other = id
      · subst same
        simp only [Function.update_self, Option.some.injEq] at found
        subst found
        exact obligations.entered state other request holds allowed
      · simp only [Function.update_of_ne same] at found
        exact holds.calls other call found
  | advance id choice =>
      obtain ⟨call, moved, after, calling, callStepped, rfl⟩ := advance_cases stepped
      obtain ⟨sharedHolds, ownHolds⟩ := obligations.advanced state id choice call moved after
        holds allowed calling callStepped
      refine ⟨sharedHolds, fun other bystander found => ?_⟩
      by_cases same : other = id
      · subst same
        simp only [Function.update_self, Option.some.injEq] at found
        subst found
        exact ownHolds
      · simp only [Function.update_of_ne same] at found
        exact obligations.undisturbed state id choice call moved after holds allowed calling
          callStepped other bystander same found
  | stop id =>
      obtain rfl := stop_cases stepped
      refine ⟨holds.shared, fun other call found => ?_⟩
      by_cases same : other = id
      · subst same
        simp at found
      · simp only [Function.update_of_ne same] at found
        exact holds.calls other call found
  | happen happening =>
      obtain ⟨after, happened, rfl⟩ := happen_cases stepped
      obtain ⟨sharedHolds, ownHolds⟩ :=
        obligations.happened state happening after holds allowed happened
      exact ⟨sharedHolds, ownHolds⟩

theorem Obligations.of_runs (obligations : Obligations component guard property own)
    {source target : Concurrent Shared Local}
    (runs : component.machine.Runs guard source target)
    (holds : Holds property own source) : Holds property own target :=
  runs.invariant (fun _ _ _ before allowed stepped =>
    obligations.preserved before allowed stepped) holds

theorem Obligations.of_reachable (obligations : Obligations component guard property own)
    {state : Concurrent Shared Local} (reachable : component.machine.Reachable guard state) :
    Holds property own state := by
  obtain ⟨start, ⟨starts, noCalls⟩, runs⟩ := reachable
  refine obligations.of_runs runs ⟨obligations.initially _ starts, fun id call found => ?_⟩
  rw [noCalls] at found
  cases found

/-! ## Replaying events -/

/-- A state without calls. -/
def fresh (shared : Shared) : Concurrent Shared Local :=
  { shared, calls := fun _ => none }

/-- The state after a list of events, from a state without calls on. -/
def replay (component : Component Shared Request Local Choice Happening) (shared : Shared)
    (events : List (ConcurrentEvent Request Choice Happening)) : Concurrent Shared Local :=
  (component.machine.execute (fresh shared) events).getD (fresh shared)

/-- A replay of allowed events that are all possible is a run from a state without calls. -/
theorem runs_replay {shared : Shared}
    {events : List (ConcurrentEvent Request Choice Happening)}
    (possible : (component.machine.execute (fresh shared) events).isSome = true)
    (allowed : component.machine.Allows guard (fresh shared) events) :
    component.machine.Runs guard (fresh shared) (component.replay shared events) := by
  obtain ⟨last, replayed⟩ := Option.isSome_iff_exists.mp possible
  rw [replay, replayed, Option.getD_some]
  exact Machine.runs_of_execute replayed allowed

/-- It ends in a reachable state. -/
theorem reachable_replay {shared : Shared}
    {events : List (ConcurrentEvent Request Choice Happening)}
    (isInitial : component.initial shared)
    (possible : (component.machine.execute (fresh shared) events).isSome = true)
    (allowed : component.machine.Allows guard (fresh shared) events) :
    component.machine.Reachable guard (component.replay shared events) :=
  ⟨fresh shared, ⟨isInitial, rfl⟩, runs_replay possible allowed⟩

theorem calls_of_execute {source last : Concurrent Shared Local}
    {events : List (ConcurrentEvent Request Choice Happening)} {id : Nat}
    (replayed : component.machine.execute source events = some last)
    (absent : source.calls id = none) (notStarted : ∀ request, .start id request ∉ events) :
    last.calls id = none := by
  induction events generalizing source with
  | nil =>
      cases replayed
      exact absent
  | cons event rest ih =>
      simp only [Machine.execute, machine_step, Option.bind_eq_some_iff] at replayed
      obtain ⟨next, stepped, restReplayed⟩ := replayed
      refine ih restReplayed ?_ fun request member =>
        notStarted request (List.mem_cons_of_mem _ member)
      cases event with
      | start other request =>
          obtain ⟨_, rfl⟩ := start_cases stepped
          have different : id ≠ other := by
            rintro rfl
            exact notStarted request List.mem_cons_self
          exact (Function.update_of_ne different _ _).trans absent
      | advance other choice =>
          obtain ⟨call, _, _, found, _, rfl⟩ := advance_cases stepped
          have different : id ≠ other := by
            rintro rfl
            rw [absent] at found
            cases found
          exact (Function.update_of_ne different _ _).trans absent
      | stop other =>
          obtain rfl := stop_cases stepped
          by_cases same : id = other
          · subst same
            exact Function.update_self _ _ _
          · exact (Function.update_of_ne same _ _).trans absent
      | happen happening =>
          obtain ⟨_, _, rfl⟩ := happen_cases stepped
          exact absent

/-- A call that no event starts is not there. -/
theorem calls_of_replay {shared : Shared}
    {events : List (ConcurrentEvent Request Choice Happening)} {id : Nat}
    (notStarted : ∀ request, .start id request ∉ events) :
    (component.replay shared events).calls id = none := by
  unfold replay
  cases replayed : component.machine.execute (fresh shared) events with
  | none => rfl
  | some last => exact calls_of_execute replayed rfl notStarted

/-- All calls have one of these ids. -/
def CallsAmong (ids : List Nat) (state : Concurrent Shared Local) : Prop :=
  ∀ id, id ∉ ids → state.calls id = none

theorem CallsAmong.mem {ids : List Nat} {state : Concurrent Shared Local}
    (among : CallsAmong ids state) {id : Nat} {call : Local}
    (found : state.calls id = some call) : id ∈ ids := by
  by_contra outside
  rw [among id outside] at found
  cases found

theorem CallsAmong.eventStep {ids : List Nat} {state next : Concurrent Shared Local}
    {event : ConcurrentEvent Request Choice Happening} (among : CallsAmong ids state)
    (known : ∀ id request, event = .start id request → id ∈ ids)
    (stepped : component.eventStep state event = some next) : CallsAmong ids next := by
  intro id outside
  have replayed : component.machine.execute state [event] = some next := by
    simp [Machine.execute, stepped]
  exact calls_of_execute replayed (among id outside) fun request member =>
    outside (known id request (List.mem_singleton.mp member).symm)

/-- A check that looks only at the calls of some ids shows that a guard allows a replay, if
these are the ids of all calls. -/
theorem allows_of_accepts (ids : List Nat)
    (check : Concurrent Shared Local → ConcurrentEvent Request Choice Happening → Bool)
    {events : List (ConcurrentEvent Request Choice Happening)}
    {source : Concurrent Shared Local} (among : CallsAmong ids source)
    (known : ∀ id request, .start id request ∈ events → id ∈ ids)
    (sound : ∀ state, CallsAmong ids state → ∀ event, check state event = true →
      guard state event)
    (accepted : component.machine.accepts check source events = true) :
    component.machine.Allows guard source events :=
  Machine.allows_of_accepts among (fun state has event _ => sound state has event)
    (fun _ _ _ member has stepped => has.eventStep
      (fun id request isStart => known id request (isStart ▸ member)) stepped) accepted

end Component

end Corvus
