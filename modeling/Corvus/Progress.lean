import Corvus.Concurrent

/-!
# Calls that come to an end

A rank of calls that every step of a call lowers bounds the number of steps the call
takes, whatever the other calls do meanwhile.  If its calls can take a step as long
as their rank is not zero, no call is ever stuck before that.
-/

namespace Corvus.Component

variable {Shared Request Local Choice Happening : Type}
variable {component : Component Shared Request Local Choice Happening} {rank : Local → Nat}

/-- Every step of a call lowers its rank. -/
def Descends (component : Component Shared Request Local Choice Happening)
    (rank : Local → Nat) : Prop :=
  ∀ call choice shared next after, component.step call choice shared = some (next, after) →
    rank next < rank call

/-- Whether an event is a step of the call. -/
def isAdvance (id : Nat) : ConcurrentEvent Request Choice Happening → Bool
  | .advance other _ => other == id
  | _ => false

/-- One event takes a step of the call off its rank, or leaves the call alone. -/
theorem Descends.event (descends : component.Descends rank)
    {state next : Concurrent Shared Local} {event : ConcurrentEvent Request Choice Happening}
    {id : Nat} {call : Local} (stepped : component.eventStep state event = some next)
    (found : state.calls id = some call) (notStopped : event ≠ .stop id) :
    ∃ later, next.calls id = some later ∧
      rank later + (isAdvance id event).toNat ≤ rank call := by
  cases event with
  | start started request =>
      obtain ⟨free, rfl⟩ := start_cases stepped
      have different : id ≠ started := by
        rintro rfl
        rw [found] at free
        cases free
      exact ⟨call, by simp only [Function.update_of_ne different, found], Nat.le_refl _⟩
  | advance moving choice =>
      obtain ⟨before, moved, after, movingFound, callStepped, rfl⟩ := advance_cases stepped
      by_cases same : id = moving
      · subst same
        rw [found] at movingFound
        cases movingFound
        have lower := descends call choice state.shared moved after callStepped
        refine ⟨moved, Function.update_self _ _ _, ?_⟩
        simp only [isAdvance, beq_self_eq_true, Bool.toNat_true]
        exact lower
      · have other : (moving == id) = false := beq_false_of_ne (Ne.symm same)
        refine ⟨call, by simp only [Function.update_of_ne same, found], ?_⟩
        simp only [isAdvance, other, Bool.toNat_false, Nat.add_zero, Nat.le_refl]
  | stop stopped =>
      obtain rfl := stop_cases stepped
      have different : id ≠ stopped := by
        rintro rfl
        exact notStopped rfl
      exact ⟨call, by simp only [Function.update_of_ne different, found], Nat.le_refl _⟩
  | happen happening =>
      obtain ⟨_, _, rfl⟩ := happen_cases stepped
      exact ⟨call, found, Nat.le_refl _⟩

/-- In any run, a call takes no more steps than its rank. -/
theorem Descends.countP_le (descends : component.Descends rank)
    {source last : Concurrent Shared Local}
    {events : List (ConcurrentEvent Request Choice Happening)} {id : Nat} {call : Local}
    (replayed : component.machine.execute source events = some last)
    (found : source.calls id = some call) (notStopped : .stop id ∉ events) :
    ∃ ending, last.calls id = some ending ∧
      rank ending + events.countP (isAdvance id) ≤ rank call := by
  induction events generalizing source call with
  | nil =>
      cases replayed
      exact ⟨call, found, Nat.le_refl _⟩
  | cons event rest ih =>
      simp only [Machine.execute, machine_step, Option.bind_eq_some_iff] at replayed
      obtain ⟨next, stepped, restReplayed⟩ := replayed
      rw [List.mem_cons, not_or] at notStopped
      obtain ⟨later, laterFound, first⟩ :=
        descends.event stepped found (Ne.symm notStopped.1)
      obtain ⟨ending, endingFound, others⟩ := ih restReplayed laterFound notStopped.2
      refine ⟨ending, endingFound, ?_⟩
      rw [List.countP_cons]
      cases advances : isAdvance id event <;> simp only [advances, Bool.toNat_true,
        Bool.toNat_false, if_true, Bool.false_eq_true, if_false] at first ⊢ <;> omega

end Corvus.Component
