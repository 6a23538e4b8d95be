import Corvus.Concurrent

/-!
# Machines that refine other machines

A view takes the states of one machine to those of another.  Seen through it, a
step of the first machine is a run of the second one, of no event, one or many.
So what holds in every reachable state of the second machine holds of the view of
every reachable state of the first.

A component often hosts another: some of its calls are, for a while, calls of the
hosted component, and a part of its shared state is the shared state of the
hosted one.  A host refines what it hosts if its steps do to that part only what
a call of the hosted component does.  A component whose calls take effect at one
moment is hosted in this sense by one that takes more steps for them.
-/

namespace Corvus

universe u v w x

namespace Machine

/-- Seen through `view`, guarded runs of `concrete` are guarded runs of
`abstract`.  A step may rely on being taken in a reachable state. -/
structure Refines {State : Type u} {Event : Type v} {Seen : Type w} {SeenEvent : Type x}
    (concrete : Machine State Event) (guard : State → Event → Prop)
    (abstract : Machine Seen SeenEvent) (seenGuard : Seen → SeenEvent → Prop)
    (view : State → Seen) : Prop where
  initial : ∀ state, concrete.initial state → abstract.initial (view state)
  step : ∀ state event next, concrete.Reachable guard state → guard state event →
    concrete.step state event = some next →
    abstract.Runs seenGuard (view state) (view next)

namespace Refines

variable {State : Type u} {Event : Type v} {Seen : Type w} {SeenEvent : Type x}
variable {concrete : Machine State Event} {guard : State → Event → Prop}
variable {abstract : Machine Seen SeenEvent} {seenGuard : Seen → SeenEvent → Prop}
variable {view : State → Seen}

/-- A run from a reachable state is seen as a run. -/
theorem runs (refines : Refines concrete guard abstract seenGuard view)
    {source target : State} (reachable : concrete.Reachable guard source)
    (taken : concrete.Runs guard source target) :
    abstract.Runs seenGuard (view source) (view target) := by
  induction taken with
  | refl => exact .refl _
  | tail before allowed stepped ih =>
      exact ih.trans (refines.step _ _ _ (reachable.extend before) allowed stepped)

/-- A reachable state is seen as a reachable state. -/
theorem reachable (refines : Refines concrete guard abstract seenGuard view) {state : State}
    (reachable : concrete.Reachable guard state) :
    abstract.Reachable seenGuard (view state) := by
  obtain ⟨start, isInitial, taken⟩ := reachable
  have startReachable : concrete.Reachable guard start := ⟨start, isInitial, .refl start⟩
  exact ⟨view start, refines.initial start isInitial, refines.runs startReachable taken⟩

/-- What is seen is seen under a weaker guard as well. -/
theorem weaken {weaker : Seen → SeenEvent → Prop}
    (refines : Refines concrete guard abstract seenGuard view)
    (weaken : ∀ state event, seenGuard state event → weaker state event) :
    Refines concrete guard abstract weaker view where
  initial := refines.initial
  step state event next stateReachable allowed stepped :=
    (refines.step state event next stateReachable allowed stepped).mono weaken

/-- Refinements compose. -/
theorem trans {Last : Type u} {LastEvent : Type v} {last : Machine Last LastEvent}
    {lastGuard : Last → LastEvent → Prop} {viewLast : Seen → Last}
    (first : Refines concrete guard abstract seenGuard view)
    (second : Refines abstract seenGuard last lastGuard viewLast) :
    Refines concrete guard last lastGuard (viewLast ∘ view) where
  initial state isInitial := second.initial _ (first.initial state isInitial)
  step state event next stateReachable allowed stepped :=
    second.runs (first.reachable stateReachable)
      (first.step state event next stateReachable allowed stepped)

end Refines

/-- A guarded step is a run. -/
theorem Runs.single {State : Type u} {Event : Type v} {machine : Machine State Event}
    {guard : State → Event → Prop} {source target : State} {event : Event}
    (allowed : guard source event) (stepped : machine.step source event = some target) :
    machine.Runs guard source target :=
  (Runs.refl source).tail allowed stepped

/-- Guarded runs from the start on are runs through reachable states. -/
theorem Reachable.remember {State : Type u} {Event : Type v} {machine : Machine State Event}
    {guard : State → Event → Prop} {state : State}
    (reachable : machine.Reachable guard state) :
    machine.Reachable (fun state event => guard state event ∧ machine.Reachable guard state)
      state := by
  obtain ⟨start, isInitial, runs⟩ := reachable
  refine ⟨start, isInitial, ?_⟩
  induction runs with
  | refl => exact .refl _
  | tail before allowed stepped ih =>
      exact ih.tail ⟨allowed, start, isInitial, before⟩ stepped

end Machine

/-! ## Hosted components -/

namespace Component

variable {Shared Request Local Choice Happening : Type}
variable {PartShared PartRequest PartLocal PartChoice PartHappening : Type}

/-- What a step of a call does to the hosted call in it, if there is one, and to
the shared state of the hosted component: nothing, the start of a hosted call, a
step of it, or its end. -/
inductive PartStep
    (part : Component PartShared PartRequest PartLocal PartChoice PartHappening)
    (allowedStart : PartRequest → Prop) (allowedAdvance : PartChoice → Prop)
    (seen : PartShared) : Option PartLocal → Option PartLocal → PartShared → Prop where
  | idle (own : Option PartLocal) : PartStep part allowedStart allowedAdvance seen own own seen
  | begins {request : PartRequest} (allowed : allowedStart request) :
      PartStep part allowedStart allowedAdvance seen none (some (part.enter request seen)) seen
  | moves {call next : PartLocal} {choice : PartChoice} {after : PartShared}
      (allowed : allowedAdvance choice)
      (stepped : part.step call choice seen = some (next, after)) :
      PartStep part allowedStart allowedAdvance seen (some call) (some next) after
  | ends (call : PartLocal) :
      PartStep part allowedStart allowedAdvance seen (some call) none seen

theorem PartStep.unchanged
    {part : Component PartShared PartRequest PartLocal PartChoice PartHappening}
    {allowedStart : PartRequest → Prop} {allowedAdvance : PartChoice → Prop}
    {seen after : PartShared} {own next : Option PartLocal} (sameCall : next = own)
    (sameShared : after = seen) :
    PartStep part allowedStart allowedAdvance seen own next after := by
  subst sameCall sameShared
  exact .idle next

/-- A step within narrower bounds is one within wider bounds. -/
theorem PartStep.mono
    {part : Component PartShared PartRequest PartLocal PartChoice PartHappening}
    {allowedStart : PartRequest → Prop} {allowedAdvance wider : PartChoice → Prop}
    {seen after : PartShared} {own next : Option PartLocal}
    (step : PartStep part allowedStart allowedAdvance seen own next after)
    (widen : ∀ choice, allowedAdvance choice → wider choice) :
    PartStep part allowedStart wider seen own next after := by
  cases step with
  | idle => exact .idle own
  | begins allowed => exact .begins allowed
  | moves allowed stepped => exact .moves (widen _ allowed) stepped
  | ends call => exact .ends call

/-- The hosted component as it is seen in a state of its host. -/
def view (see : Shared → PartShared) (pick : Local → Option PartLocal)
    (state : Concurrent Shared Local) : Concurrent PartShared PartLocal where
  shared := see state.shared
  calls id := (state.calls id).bind pick

variable {host : Component Shared Request Local Choice Happening}
variable {part : Component PartShared PartRequest PartLocal PartChoice PartHappening}
variable {see : Shared → PartShared} {pick : Local → Option PartLocal}

/-- A changed call is seen as the change of the hosted call. -/
theorem view_update (shared : Shared) (calls : Nat → Option Local) (id : Nat)
    (call : Option Local) :
    view see pick { shared, calls := Function.update calls id call } =
      { shared := see shared
        calls := Function.update (view see pick { shared, calls }).calls id (call.bind pick) } := by
  unfold view
  congr 1
  funext other
  by_cases same : other = id
  · subst same
    simp only [Function.update_self]
  · simp only [Function.update_of_ne same]

/-- Setting a call to what it is changes nothing. -/
theorem update_calls_self {state : Concurrent PartShared PartLocal} {id : Nat}
    {own : Option PartLocal} (found : state.calls id = own) :
    { state with calls := Function.update state.calls id own } = state := by
  rw [← found, Function.update_eq_self]

/-- What a step does to a hosted call, the hosted component can do. -/
theorem PartStep.runs
    {partGuard : Concurrent PartShared PartLocal →
      ConcurrentEvent PartRequest PartChoice PartHappening → Prop}
    (stopAllowed : ∀ state id, partGuard state (.stop id))
    {state : Concurrent PartShared PartLocal} {id : Nat} {own next : Option PartLocal}
    {after : PartShared} (found : state.calls id = own)
    (effect : PartStep part (fun request => partGuard state (.start id request))
      (fun choice => partGuard state (.advance id choice)) state.shared own next after) :
    part.machine.Runs partGuard state
      { shared := after, calls := Function.update state.calls id next } := by
  cases effect with
  | idle =>
      rw [update_calls_self found]
      exact .refl _
  | begins allowed =>
      refine .single allowed ?_
      simp only [machine_step, eventStep, found]
  | moves allowed stepped =>
      refine .single allowed ?_
      simp only [machine_step, eventStep, found, stepped]
  | ends call => exact .single (stopAllowed state id) rfl

/-- What has to be shown of a host in one of its states, so that what it does there is
seen as a run. -/
structure HostsAt (host : Component Shared Request Local Choice Happening)
    (guard : Concurrent Shared Local → ConcurrentEvent Request Choice Happening → Prop)
    (part : Component PartShared PartRequest PartLocal PartChoice PartHappening)
    (partGuard : Concurrent PartShared PartLocal →
      ConcurrentEvent PartRequest PartChoice PartHappening → Prop)
    (see : Shared → PartShared) (pick : Local → Option PartLocal)
    (state : Concurrent Shared Local) : Prop where
  entered : ∀ id request, guard state (.start id request) →
    PartStep part (fun request => partGuard (view see pick state) (.start id request))
      (fun choice => partGuard (view see pick state) (.advance id choice))
      (see state.shared) none (pick (host.enter request state.shared)) (see state.shared)
  advanced : ∀ id choice call next after, guard state (.advance id choice) →
    state.calls id = some call → host.step call choice state.shared = some (next, after) →
    PartStep part (fun request => partGuard (view see pick state) (.start id request))
      (fun choice => partGuard (view see pick state) (.advance id choice))
      (see state.shared) (pick call) (pick next) (see after)
  stopped : ∀ state id, partGuard state (.stop id)
  happened : ∀ happening after, guard state (.happen happening) →
    host.happen happening state.shared = some after →
    see after = see state.shared ∨
      ∃ seen, partGuard (view see pick state) (.happen seen) ∧
        part.happen seen (see state.shared) = some (see after)

variable {guard : Concurrent Shared Local → ConcurrentEvent Request Choice Happening → Prop}
variable {partGuard : Concurrent PartShared PartLocal →
  ConcurrentEvent PartRequest PartChoice PartHappening → Prop}

/-- What a host does in an event, the component it hosts can do. -/
theorem HostsAt.runs {state next : Concurrent Shared Local}
    (hosts : HostsAt host guard part partGuard see pick state)
    {event : ConcurrentEvent Request Choice Happening} (allowed : guard state event)
    (stepped : host.eventStep state event = some next) :
    part.machine.Runs partGuard (view see pick state) (view see pick next) := by
  cases event with
  | start id request =>
      obtain ⟨free, rfl⟩ := start_cases stepped
      have absent : (view see pick state).calls id = none := by simp [view, free]
      rw [view_update, Option.bind_some]
      exact (hosts.entered id request allowed).runs hosts.stopped absent
  | advance id choice =>
      obtain ⟨call, moved, after, found, callStepped, rfl⟩ := advance_cases stepped
      have effect := hosts.advanced id choice call moved after allowed found callStepped
      have seenCall : (view see pick state).calls id = pick call := by simp [view, found]
      rw [view_update, Option.bind_some]
      exact effect.runs hosts.stopped seenCall
  | stop id =>
      obtain rfl := stop_cases stepped
      rw [view_update]
      have stops : part.machine.step (view see pick state) (.stop id) = some _ := rfl
      exact .single (hosts.stopped _ id) stops
  | happen happening =>
      obtain ⟨after, happened, rfl⟩ := happen_cases stepped
      rcases hosts.happened happening after allowed happened with
        same | ⟨seen, seenAllowed, seenHappened⟩
      · have unchanged : view see pick { state with shared := after } = view see pick state := by
          unfold view
          simp only [same]
        rw [unchanged]
        exact .refl _
      · refine .single seenAllowed ?_
        have stepped : part.happen seen (view see pick state).shared = some (see after) :=
          seenHappened
        simp only [machine_step, eventStep, stepped]
        rfl

/-- What has to be shown of a host: it starts as the hosted component does, and what it does
in a state it can reach is seen as a run. -/
structure Hosts (host : Component Shared Request Local Choice Happening)
    (guard : Concurrent Shared Local → ConcurrentEvent Request Choice Happening → Prop)
    (part : Component PartShared PartRequest PartLocal PartChoice PartHappening)
    (partGuard : Concurrent PartShared PartLocal →
      ConcurrentEvent PartRequest PartChoice PartHappening → Prop)
    (see : Shared → PartShared) (pick : Local → Option PartLocal) : Prop where
  initially : ∀ shared, host.initial shared → part.initial (see shared)
  hostsAt : ∀ state, host.machine.Reachable guard state →
    HostsAt host guard part partGuard see pick state

/-- A host refines the component it hosts. -/
theorem Hosts.refines (hosts : Hosts host guard part partGuard see pick) :
    Machine.Refines host.machine guard part.machine partGuard (view see pick) where
  initial state isInitial := by
    refine ⟨hosts.initially _ isInitial.1, ?_⟩
    simp only [view, isInitial.2, Option.bind_none]
  step _ _ _ reachable allowed stepped := (hosts.hostsAt _ reachable).runs allowed stepped

end Component

end Corvus
