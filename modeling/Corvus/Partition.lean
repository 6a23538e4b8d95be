import Corvus.ExpiringStore

/-!
# Parts of a store

Programs that share a store often keep to keys of their own.  The part of a store
under some of its keys is a store again.  An operation that looks at these keys
only does to the part what it does to the whole store; an operation that keeps
away from them does nothing to it.
-/

namespace Corvus

universe u v w

namespace ExpiringStore

variable {Key : Type u} {Value : Type v} {keep : Key → Bool}

/-- The entries under the keys that are kept. -/
def within (store : ExpiringStore Key Value) (keep : Key → Bool) : ExpiringStore Key Value where
  now := store.now
  entries key := if keep key then store.entries key else none

@[simp] theorem now_within (store : ExpiringStore Key Value) :
    (store.within keep).now = store.now := rfl

theorem lookup_within (store : ExpiringStore Key Value) {key : Key} (kept : keep key = true) :
    (store.within keep).lookup key = store.lookup key := by
  simp only [lookup, within, kept, if_true]

/-- What the part shows, the whole store shows. -/
theorem lookup_of_lookup_within {store : ExpiringStore Key Value} {key : Key}
    {entry : Entry Value} (found : (store.within keep).lookup key = some entry) :
    keep key = true ∧ store.lookup key = some entry := by
  cases kept : keep key with
  | true => exact ⟨rfl, by rwa [lookup_within store kept] at found⟩
  | false => simp [lookup, within, kept] at found

@[simp] theorem within_advance (store : ExpiringStore Key Value) (span : Nat) :
    (store.advance span).within keep = (store.within keep).advance span := rfl

@[simp] theorem within_empty : (empty : ExpiringStore Key Value).within keep = empty := by
  simp [within, empty]

section Updates

variable [DecidableEq Key]

theorem within_put (store : ExpiringStore Key Value) {key : Key} (entry : Entry Value)
    (kept : keep key = true) :
    (store.put key entry).within keep = (store.within keep).put key entry := by
  unfold within put
  congr 1
  funext other
  by_cases same : other = key
  · subst same
    simp [kept]
  · simp [Function.update_of_ne same]

theorem within_put_of_not (store : ExpiringStore Key Value) {key : Key} (entry : Entry Value)
    (notKept : keep key = false) : (store.put key entry).within keep = store.within keep := by
  unfold within put
  congr 1
  funext other
  by_cases same : other = key
  · subst same
    simp [notKept]
  · simp [Function.update_of_ne same]

theorem within_erase (store : ExpiringStore Key Value) (key : Key) :
    (store.erase key).within keep = (store.within keep).erase key := by
  unfold within erase
  congr 1
  funext other
  by_cases same : other = key
  · subst same
    simp
  · simp [Function.update_of_ne same]

theorem within_erase_of_not (store : ExpiringStore Key Value) {key : Key}
    (notKept : keep key = false) : (store.erase key).within keep = store.within keep := by
  unfold within erase
  congr 1
  funext other
  by_cases same : other = key
  · subst same
    simp [notKept]
  · simp [Function.update_of_ne same]

end Updates

end ExpiringStore

/-! ## Operations on a part -/

variable {Key : Type u} {Value : Type v} {Reply : Type w} {keep : Key → Bool}

/-- The operation works on the part as it works on the whole store. -/
def LocalTo (keep : Key → Bool)
    (run : ExpiringStore Key Value → Reply × ExpiringStore Key Value) : Prop :=
  ∀ store, run (store.within keep) = ((run store).1, (run store).2.within keep)

/-- The operation changes nothing in the part. -/
def Spares (keep : Key → Bool)
    (run : ExpiringStore Key Value → Reply × ExpiringStore Key Value) : Prop :=
  ∀ store, (run store).2.within keep = store.within keep

namespace LocalTo

variable {run : ExpiringStore Key Value → Reply × ExpiringStore Key Value}

theorem reply (isLocal : LocalTo keep run) (store : ExpiringStore Key Value) :
    (run (store.within keep)).1 = (run store).1 := by
  rw [isLocal]

theorem effect (isLocal : LocalTo keep run) (store : ExpiringStore Key Value) :
    (run (store.within keep)).2 = (run store).2.within keep := by
  rw [isLocal]

end LocalTo

end Corvus
