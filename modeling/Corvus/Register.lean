import Corvus.Machine

/-!
# Registers of a machine

A register is something that can be read of the states of a machine, if it is
known which events write it and what, and all others leave it as it is.  After a
run it holds what was written last.
-/

namespace Corvus.Machine

universe u v w

variable {State : Type u} {Event : Type v} {Value : Type w}
variable {machine : Machine State Event}
variable {read : State → Value} {write : State → Event → Option Value}

/-- Every step writes the register or keeps it. -/
structure Register (machine : Machine State Event) (read : State → Value)
    (write : State → Event → Option Value) : Prop where
  step : ∀ state event next, machine.step state event = some next →
    read next = (write state event).getD (read state)

/-- What the events of a run write, in their order. -/
def written (machine : Machine State Event) (write : State → Event → Option Value) :
    State → List Event → List Value
  | _, [] => []
  | state, event :: rest =>
      (write state event).toList ++
        (machine.step state event).elim [] (machine.written write · rest)

theorem written_cons {state next : State} {event : Event} (rest : List Event)
    (stepped : machine.step state event = some next) :
    machine.written write state (event :: rest) =
      (write state event).toList ++ machine.written write next rest := by
  simp only [written, stepped, Option.elim_some]

/-- After a run the register holds what was written last, or what it held before. -/
theorem Register.execute (register : Register machine read write) {events : List Event}
    {source target : State} (executed : machine.execute source events = some target) :
    read target = (machine.written write source events).getLast?.getD (read source) := by
  induction events generalizing source with
  | nil =>
      cases executed
      rfl
  | cons event rest ih =>
      simp only [Machine.execute, Option.bind_eq_some_iff] at executed
      obtain ⟨next, stepped, restExecuted⟩ := executed
      rw [written_cons rest stepped, ih restExecuted, register.step source event next stepped]
      cases write source event with
      | none => rfl
      | some value =>
          cases machine.written write next rest with
          | nil => rfl
          | cons later others =>
              simp only [Option.toList_some, List.singleton_append, List.getLast?_cons_cons]
              rw [List.getLast?_eq_some_getLast (List.cons_ne_nil later others)]
              rfl

/-- What has been written was written by some event, in the state before it. -/
theorem mem_written {events : List Event} {source : State} {value : Value}
    (member : value ∈ machine.written write source events) :
    ∃ before event after state, events = before ++ event :: after ∧
      machine.execute source before = some state ∧ write state event = some value := by
  induction events generalizing source with
  | nil => cases member
  | cons event rest ih =>
      rcases List.mem_append.mp member with now | later
      · exact ⟨[], event, rest, source, rfl, rfl, Option.mem_toList.mp now⟩
      · cases stepped : machine.step source event with
        | none =>
            rw [stepped] at later
            cases later
        | some next =>
            rw [stepped] at later
            obtain ⟨before, wrote, after, state, rfl, executed, isWrite⟩ := ih later
            refine ⟨event :: before, wrote, after, state, rfl, ?_, isWrite⟩
            simp only [Machine.execute, stepped, Option.bind_some, executed]

/-- What an event of a run writes comes after what has been written before it. -/
theorem written_of_event {before rest : List Event} {event : Event} {source state : State}
    {value : Value} (executed : machine.execute source before = some state)
    (wrote : write state event = some value) :
    ∃ later, machine.written write source (before ++ event :: rest) =
      machine.written write source before ++ value :: later := by
  induction before generalizing source with
  | nil =>
      cases executed
      simp only [List.nil_append, written, wrote, Option.toList_some, List.singleton_append]
      exact ⟨_, rfl⟩
  | cons first others ih =>
      simp only [Machine.execute, Option.bind_eq_some_iff] at executed
      obtain ⟨next, stepped, restExecuted⟩ := executed
      obtain ⟨later, split⟩ := ih restExecuted
      refine ⟨later, ?_⟩
      rw [List.cons_append, written_cons _ stepped, written_cons _ stepped, split,
        List.append_assoc]

end Corvus.Machine
