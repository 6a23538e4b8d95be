import Mathlib.Logic.Function.Basic

/-!
# Key-value stores whose entries expire

A store holds entries with an optional deadline on one clock.  An entry is
visible up to and including its deadline; afterwards a lookup finds nothing,
whether or not the entry has been reclaimed yet.
-/

namespace Corvus

universe u v

/-- A stored value and the last instant at which it is still visible. -/
structure Entry (Value : Type v) where
  value : Value
  expireAt : Option Nat

namespace Entry

variable {Value : Type v}

/-- Entries without a deadline are always visible. -/
def visibleAt (entry : Entry Value) (now : Nat) : Bool :=
  match entry.expireAt with
  | none => true
  | some deadline => decide (now ≤ deadline)

/-- The entry has a deadline, and it is no later than `limit`. -/
def ExpiresBy (entry : Entry Value) (limit : Nat) : Prop :=
  ∃ deadline, entry.expireAt = some deadline ∧ deadline ≤ limit

theorem visibleAt_of_le {entry : Entry Value} {earlier later : Nat}
    (ordered : earlier ≤ later) (visible : entry.visibleAt later = true) :
    entry.visibleAt earlier = true := by
  cases deadlineEq : entry.expireAt with
  | none => simp [visibleAt, deadlineEq]
  | some deadline =>
      simp only [visibleAt, deadlineEq, decide_eq_true_eq] at visible ⊢
      exact Nat.le_trans ordered visible

theorem ExpiresBy.mono {entry : Entry Value} {limit wider : Nat}
    (bounded : entry.ExpiresBy limit) (ordered : limit ≤ wider) :
    entry.ExpiresBy wider := by
  obtain ⟨deadline, deadlineEq, within⟩ := bounded
  exact ⟨deadline, deadlineEq, Nat.le_trans within ordered⟩

/-- Past its deadline an entry is not visible. -/
theorem ExpiresBy.not_visibleAt {entry : Entry Value} {limit now : Nat}
    (bounded : entry.ExpiresBy limit) (passed : limit < now) :
    entry.visibleAt now = false := by
  obtain ⟨deadline, deadlineEq, within⟩ := bounded
  simp only [visibleAt, deadlineEq, decide_eq_false_iff_not, Nat.not_le]
  exact Nat.lt_of_le_of_lt within passed

end Entry

/-- Entries by key, together with the store's clock. -/
structure ExpiringStore (Key : Type u) (Value : Type v) where
  now : Nat
  entries : Key → Option (Entry Value)

namespace ExpiringStore

variable {Key : Type u} {Value : Type v}

/-- A store that holds nothing, at the start of its clock. -/
def empty : ExpiringStore Key Value where
  now := 0
  entries := fun _ => none

/-- The entry a reader sees under a key. -/
def lookup (store : ExpiringStore Key Value) (key : Key) : Option (Entry Value) :=
  (store.entries key).filter fun entry => entry.visibleAt store.now

/-- Let time pass. -/
def advance (store : ExpiringStore Key Value) (span : Nat) : ExpiringStore Key Value :=
  { store with now := store.now + span }

/-- Put an entry under a key, replacing what was there. -/
def put [DecidableEq Key] (store : ExpiringStore Key Value) (key : Key)
    (entry : Entry Value) : ExpiringStore Key Value :=
  { store with entries := Function.update store.entries key (some entry) }

/-- Remove whatever is stored under a key. -/
def erase [DecidableEq Key] (store : ExpiringStore Key Value) (key : Key) :
    ExpiringStore Key Value :=
  { store with entries := Function.update store.entries key none }

@[simp] theorem lookup_empty (key : Key) :
    (empty : ExpiringStore Key Value).lookup key = none := rfl

@[simp] theorem now_advance (store : ExpiringStore Key Value) (span : Nat) :
    (store.advance span).now = store.now + span := rfl

theorem visibleAt_of_lookup {store : ExpiringStore Key Value} {key : Key}
    {entry : Entry Value} (found : store.lookup key = some entry) :
    entry.visibleAt store.now = true := by
  simp only [lookup, Option.filter_eq_some_iff] at found
  exact found.2

/-- Time only hides entries: what is visible later was visible before. -/
theorem lookup_of_lookup_advance {store : ExpiringStore Key Value} {span : Nat}
    {key : Key} {entry : Entry Value}
    (found : (store.advance span).lookup key = some entry) :
    store.lookup key = some entry := by
  simp only [lookup, advance, Option.filter_eq_some_iff] at found ⊢
  exact ⟨found.1, Entry.visibleAt_of_le (Nat.le_add_right _ _) found.2⟩

/-- An entry that has not reached its deadline survives the passing of time. -/
theorem lookup_advance_of_visibleAt {store : ExpiringStore Key Value} {span : Nat}
    {key : Key} {entry : Entry Value} (found : store.lookup key = some entry)
    (visible : entry.visibleAt (store.now + span) = true) :
    (store.advance span).lookup key = some entry := by
  simp only [lookup, advance, Option.filter_eq_some_iff] at found ⊢
  exact ⟨found.1, visible⟩

section Updates

variable [DecidableEq Key]

@[simp] theorem now_put (store : ExpiringStore Key Value) (key : Key)
    (entry : Entry Value) : (store.put key entry).now = store.now := rfl

@[simp] theorem now_erase (store : ExpiringStore Key Value) (key : Key) :
    (store.erase key).now = store.now := rfl

theorem lookup_put_self {store : ExpiringStore Key Value} {key : Key}
    {entry : Entry Value} (visible : entry.visibleAt store.now = true) :
    (store.put key entry).lookup key = some entry := by
  simp [lookup, put, visible]

/-- Whatever is read back under the key just written is the entry written. -/
theorem eq_of_lookup_put_self {store : ExpiringStore Key Value} {key : Key}
    {entry found : Entry Value}
    (foundEq : (store.put key entry).lookup key = some found) : found = entry := by
  simp only [lookup, put, Function.update_self, Option.filter_eq_some_iff,
    Option.some.injEq] at foundEq
  exact foundEq.1.symm

@[simp] theorem lookup_put_of_ne {store : ExpiringStore Key Value} {key other : Key}
    {entry : Entry Value} (different : other ≠ key) :
    (store.put key entry).lookup other = store.lookup other := by
  simp [lookup, put, Function.update_of_ne different]

@[simp] theorem lookup_erase_self (store : ExpiringStore Key Value) (key : Key) :
    (store.erase key).lookup key = none := by
  simp [lookup, erase]

@[simp] theorem lookup_erase_of_ne {store : ExpiringStore Key Value} {key other : Key}
    (different : other ≠ key) :
    (store.erase key).lookup other = store.lookup other := by
  simp [lookup, erase, Function.update_of_ne different]

/-- What is left after an erasure was there before. -/
theorem lookup_of_lookup_erase {store : ExpiringStore Key Value} {key other : Key}
    {entry : Entry Value} (found : (store.erase key).lookup other = some entry) :
    other ≠ key ∧ store.lookup other = some entry := by
  by_cases same : other = key
  · subst same
    simp at found
  · rw [lookup_erase_of_ne same] at found
    exact ⟨same, found⟩

end Updates

end ExpiringStore

end Corvus
