import Mathlib.Data.Finset.Card

/-!
# Counting agents by what they are doing

The agents of a system are listed in the order they came up, each as the state
it is in, and keep their position.  Invariants of such systems are sums over the
agents; these lemmas say how a count changes when one or two agents do.
-/

namespace Corvus.Roster

universe u

variable {Agent : Type u} {agents : List Agent} {position : Nat} {old new : Agent}
variable {counted : Agent → Bool}

/-- The count with one agent in another state, by what the agent was and is. -/
theorem countP_set_add (found : agents[position]? = some old) :
    (agents.set position new).countP counted + (counted old).toNat =
      agents.countP counted + (counted new).toNat := by
  induction agents generalizing position with
  | nil => cases found
  | cons head rest ih =>
      cases position with
      | zero =>
          cases found
          rw [List.set_cons_zero, List.countP_cons, List.countP_cons]
          cases counted old <;> cases counted new <;> simp
      | succ position =>
          have step := ih found
          rw [List.set_cons_succ, List.countP_cons, List.countP_cons]
          omega

/-- An agent that stays on its side of the count leaves it alone. -/
theorem countP_set_same (found : agents[position]? = some old)
    (same : counted new = counted old) :
    (agents.set position new).countP counted = agents.countP counted := by
  have step : (agents.set position new).countP counted + (counted old).toNat =
      agents.countP counted + (counted new).toNat := countP_set_add found
  rw [same] at step
  omega

theorem countP_append_one :
    (agents ++ [new]).countP counted = agents.countP counted + (counted new).toNat := by
  rw [List.countP_append, List.countP_cons, List.countP_nil]
  cases counted new <;> simp

theorem countP_pos (found : agents[position]? = some old) (member : counted old = true) :
    0 < agents.countP counted :=
  List.countP_pos_iff.mpr ⟨old, List.mem_of_getElem? found, member⟩

/-- Two agents change what they are, and what one loses the other gains. -/
theorem countP_exchange {other : Nat} {oldOther newOther : Agent}
    (found : agents[position]? = some old) (foundOther : agents[other]? = some oldOther)
    (different : position ≠ other)
    (balanced : (counted new).toNat + (counted newOther).toNat =
      (counted old).toNat + (counted oldOther).toNat) :
    ((agents.set position new).set other newOther).countP counted =
      agents.countP counted := by
  have first : (agents.set position new).countP counted + (counted old).toNat =
      agents.countP counted + (counted new).toNat := countP_set_add found
  have stays : (agents.set position new)[other]? = some oldOther := by
    rw [List.getElem?_set_ne different, foundOther]
  have second : ((agents.set position new).set other newOther).countP counted +
        (counted oldOther).toNat =
      (agents.set position new).countP counted + (counted newOther).toNat :=
    countP_set_add stays
  omega

/-- Agents at different positions are counted once each. -/
theorem card_le_countP {positions : Finset Nat}
    (members : ∀ position ∈ positions, ∃ agent, agents[position]? = some agent ∧
      counted agent = true) : positions.card ≤ agents.countP counted := by
  induction agents using List.reverseRecOn generalizing positions with
  | nil =>
      have none : positions = ∅ := Finset.eq_empty_of_forall_notMem fun position isIn => by
        obtain ⟨agent, found, _⟩ := members position isIn
        cases found
      rw [none, Finset.card_empty]
      exact Nat.zero_le _
  | append_singleton rest last ih =>
      have before : ∀ position ∈ positions.erase rest.length, ∃ agent,
          rest[position]? = some agent ∧ counted agent = true := by
        intro position isIn
        obtain ⟨notLast, isIn⟩ := Finset.mem_erase.mp isIn
        obtain ⟨agent, found, member⟩ := members position isIn
        have inside := (List.getElem?_eq_some_iff.mp found).choose
        rw [List.length_append, List.length_singleton] at inside
        rw [List.getElem?_append_left (by omega)] at found
        exact ⟨agent, found, member⟩
      have rest_le := ih before
      rw [countP_append_one]
      by_cases isIn : rest.length ∈ positions
      · obtain ⟨agent, found, member⟩ := members _ isIn
        rw [List.getElem?_concat_length] at found
        cases found
        have card := Finset.card_erase_add_one isIn
        rw [member, Bool.toNat_true]
        omega
      · rw [Finset.erase_eq_of_notMem isIn] at rest_le
        omega

end Corvus.Roster
