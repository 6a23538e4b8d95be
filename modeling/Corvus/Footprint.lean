import Corvus.ExpiringStore
import Mathlib.Data.Set.Insert

/-!
# The keys an operation on a store touches

An operation touches a set of keys when it changes nothing elsewhere, its reply
follows from what is stored there, and each of the keys matters.  There is only
one such set.
-/

namespace Corvus

universe u v w

variable {Key : Type u} {Value : Type v} {Reply : Type w}

/-- The keys an operation touches. -/
structure Touches
    (run : ExpiringStore Key Value → Reply × ExpiringStore Key Value) (keys : Set Key) :
    Prop where
  frame : ∀ store, ∀ key ∉ keys, (run store).2.lookup key = store.lookup key
  determined : ∀ left right, (∀ key ∈ keys, left.lookup key = right.lookup key) →
    (run left).1 = (run right).1
  needed : ∀ key ∈ keys, (∃ store, (run store).2.lookup key ≠ store.lookup key) ∨
    ∃ left right, (∀ other, other ≠ key → left.lookup other = right.lookup other) ∧
      (run left).1 ≠ (run right).1

namespace Touches

variable {run : ExpiringStore Key Value → Reply × ExpiringStore Key Value}
variable {keys others : Set Key}

theorem subset (touches : Touches run keys) (alsoTouches : Touches run others) :
    keys ⊆ others := by
  intro key member
  by_contra notMember
  rcases touches.needed key member with ⟨store, changed⟩ | ⟨left, right, same, different⟩
  · exact changed (alsoTouches.frame store key notMember)
  · refine different (alsoTouches.determined left right fun other isOther => ?_)
    apply same
    rintro rfl
    exact notMember isOther

/-- An operation touches one set of keys only. -/
theorem unique (touches : Touches run keys) (alsoTouches : Touches run others) :
    keys = others :=
  Set.Subset.antisymm (touches.subset alsoTouches) (alsoTouches.subset touches)

end Touches

end Corvus
