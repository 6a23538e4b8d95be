import Corvus.Concurrent

/-!
# Calls that are started during a run

Often every change the calls of a component make to the shared state keeps what a call
asserts of it.  Then nothing has to be known of the other calls: whatever they were in
the middle of when a run began, a call that is started during the run keeps its
assertion.

A call that is there at the end of a run was there at its beginning or has been
started by one of its events, with the request it carries.
-/

namespace Corvus.Component

variable {Shared Request Local Choice Happening : Type}

/-- All changes of the shared state are within `rely`, under which a property of the
shared state and what a call asserts are kept; a call starts with its assertion, and
its own steps keep it. -/
structure Relies (component : Component Shared Request Local Choice Happening)
    (rely : Shared → Shared → Prop) (property : Shared → Prop)
    (own : Shared → Local → Prop) : Prop where
  entered : ∀ shared request, property shared → own shared (component.enter request shared)
  advanced : ∀ call choice shared next after, property shared → own shared call →
    component.step call choice shared = some (next, after) → own after next
  steps : ∀ call choice shared next after,
    component.step call choice shared = some (next, after) → rely shared after
  happens : ∀ happening shared after,
    component.happen happening shared = some after → rely shared after
  property_kept : ∀ shared after, rely shared after → property shared → property after
  own_kept : ∀ shared after call, rely shared after → own shared call → own after call

variable {component : Component Shared Request Local Choice Happening}

/-! ## Where a call comes from -/

/-- A call that is there after an event was there before it, is started by it, or takes a
step in it. -/
theorem call_before {state last : Concurrent Shared Local}
    {event : ConcurrentEvent Request Choice Happening} {id : Nat} {call : Local}
    (stepped : component.eventStep state event = some last)
    (found : last.calls id = some call) :
    state.calls id = some call ∨
      (∃ request, event = .start id request ∧ call = component.enter request state.shared) ∨
      ∃ before choice, event = .advance id choice ∧ state.calls id = some before ∧
        component.step before choice state.shared = some (call, last.shared) := by
  cases event with
  | start other request =>
      obtain ⟨_, rfl⟩ := start_cases stepped
      by_cases same : id = other
      · subst same
        simp only [Function.update_self, Option.some.injEq] at found
        exact Or.inr (Or.inl ⟨request, rfl, found.symm⟩)
      · simp only [Function.update_of_ne same] at found
        exact Or.inl found
  | advance other choice =>
      obtain ⟨before, moved, after, movingFound, callStepped, rfl⟩ := advance_cases stepped
      by_cases same : id = other
      · subst same
        simp only [Function.update_self, Option.some.injEq] at found
        subst found
        exact Or.inr (Or.inr ⟨before, choice, rfl, movingFound, callStepped⟩)
      · simp only [Function.update_of_ne same] at found
        exact Or.inl found
  | stop other =>
      obtain rfl := stop_cases stepped
      by_cases same : id = other
      · subst same
        simp at found
      · simp only [Function.update_of_ne same] at found
        exact Or.inl found
  | happen happening =>
      obtain ⟨_, _, rfl⟩ := happen_cases stepped
      exact Or.inl found

/-- A call that is there after the events of a list was there before them, or one of them
started it with its request. -/
theorem started_of_execute {asks : Local → Request}
    (entered : ∀ request shared, asks (component.enter request shared) = request)
    (kept : ∀ call choice shared next after,
      component.step call choice shared = some (next, after) → asks next = asks call)
    {events : List (ConcurrentEvent Request Choice Happening)}
    {source last : Concurrent Shared Local} {id : Nat} {call : Local}
    (executed : component.machine.execute source events = some last)
    (found : last.calls id = some call) :
    (∃ before, source.calls id = some before ∧ asks before = asks call) ∨
      .start id (asks call) ∈ events := by
  induction events generalizing source with
  | nil =>
      cases executed
      exact Or.inl ⟨call, found, rfl⟩
  | cons event rest ih =>
      simp only [Machine.execute, Option.bind_eq_some_iff] at executed
      obtain ⟨middle, stepped, restExecuted⟩ := executed
      rcases ih restExecuted with ⟨between, betweenFound, same⟩ | started
      · rcases call_before stepped betweenFound with
          before | ⟨request, rfl, rfl⟩ | ⟨before, choice, rfl, beforeFound, callStepped⟩
        · exact Or.inl ⟨between, before, same⟩
        · rw [← same, entered]
          exact Or.inr List.mem_cons_self
        · exact Or.inl ⟨before, beforeFound, (kept _ _ _ _ _ callStepped).symm.trans same⟩
      · exact Or.inr (List.mem_cons_of_mem _ started)

/-! ## What a call that is started asserts -/

variable {rely : Shared → Shared → Prop} {property : Shared → Prop}
variable {own : Shared → Local → Prop}

/-- The property holds, and one call asserts what it should, if it is there. -/
structure Keeps (property : Shared → Prop) (own : Shared → Local → Prop) (id : Nat)
    (state : Concurrent Shared Local) : Prop where
  shared : property state.shared
  call : ∀ call, state.calls id = some call → own state.shared call

/-- An event leaves the shared state as it is or changes it within `rely`. -/
theorem Relies.changes (relies : Relies component rely property own)
    {state next : Concurrent Shared Local}
    {event : ConcurrentEvent Request Choice Happening}
    (stepped : component.eventStep state event = some next) :
    next.shared = state.shared ∨ rely state.shared next.shared := by
  cases event with
  | start id request =>
      obtain ⟨_, rfl⟩ := start_cases stepped
      exact Or.inl rfl
  | advance id choice =>
      obtain ⟨call, moved, after, _, callStepped, rfl⟩ := advance_cases stepped
      exact Or.inr (relies.steps _ _ _ _ _ callStepped)
  | stop id =>
      obtain rfl := stop_cases stepped
      exact Or.inl rfl
  | happen happening =>
      obtain ⟨after, happened, rfl⟩ := happen_cases stepped
      exact Or.inr (relies.happens _ _ _ happened)

theorem Relies.preserved (relies : Relies component rely property own) {id : Nat}
    {state next : Concurrent Shared Local}
    {event : ConcurrentEvent Request Choice Happening} (keeps : Keeps property own id state)
    (stepped : component.eventStep state event = some next) : Keeps property own id next := by
  have changes := relies.changes stepped
  refine ⟨?_, fun call found => ?_⟩
  · rcases changes with same | changes
    · rw [same]
      exact keeps.shared
    · exact relies.property_kept _ _ changes keeps.shared
  · have kept (asserted : own state.shared call) : own next.shared call := by
      rcases changes with same | changes
      · rwa [same]
      · exact relies.own_kept _ _ _ changes asserted
    rcases call_before stepped found with
      before | ⟨request, rfl, rfl⟩ | ⟨before, choice, rfl, beforeFound, callStepped⟩
    · exact kept (keeps.call call before)
    · exact kept (relies.entered _ _ keeps.shared)
    · exact relies.advanced _ _ _ _ _ keeps.shared (keeps.call before beforeFound) callStepped

/-- A call that was not there when the run began asserts what it should at its end. -/
theorem Relies.of_runs (relies : Relies component rely property own)
    {guard : Concurrent Shared Local → ConcurrentEvent Request Choice Happening → Prop}
    {source target : Concurrent Shared Local} {id : Nat} {call : Local}
    (runs : component.machine.Runs guard source target) (absent : source.calls id = none)
    (holds : property source.shared) (found : target.calls id = some call) :
    own target.shared call := by
  have starts : Keeps property own id source := by
    refine ⟨holds, fun early present => ?_⟩
    rw [absent] at present
    cases present
  have preserved : ∀ state event next, Keeps property own id state → guard state event →
      component.machine.step state event = some next → Keeps property own id next :=
    fun _ _ _ keeps _ stepped => relies.preserved keeps stepped
  exact (runs.invariant preserved starts).call call found

end Corvus.Component
