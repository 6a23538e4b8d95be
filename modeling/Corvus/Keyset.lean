import Mathlib.Data.List.Basic
import Mathlib.Order.Lattice

/-!
# Paging by key

Items are listed in strictly descending order of a key.  A page holds the first
items of the list, and the next page begins below the key of its last item.
-/

namespace Corvus.Keyset

variable {Item Key : Type} [LinearOrder Key] {key : Item → Key} {items : List Item}
  {size : Nat} {last item : Item}

/-- Each item has a greater key than all that follow it. -/
def Descending (key : Item → Key) (items : List Item) : Prop :=
  items.Pairwise fun left right => key right < key left

theorem Descending.take (sorted : Descending key items) (size : Nat) :
    Descending key (items.take size) :=
  List.Pairwise.sublist (List.take_sublist size items) sorted

/-- No item of a page is below its last item. -/
theorem Descending.last_le (sorted : Descending key items) (isLast : items.getLast? = some last)
    (member : item ∈ items) : key last ≤ key item := by
  obtain ⟨initial, rfl⟩ := List.getLast?_eq_some_iff.mp isLast
  rcases List.mem_append.mp member with before | isItem
  · exact le_of_lt ((List.pairwise_append.mp sorted).2.2 item before last List.mem_cons_self)
  · rw [List.mem_singleton.mp isItem]

/-- An item is on the page or below its last item. -/
theorem Descending.mem_take_or_below (sorted : Descending key items)
    (isLast : (items.take size).getLast? = some last) (member : item ∈ items) :
    item ∈ items.take size ∨ key item < key last := by
  rw [← List.take_append_drop size items, List.mem_append] at member
  rw [Descending, ← List.take_append_drop size items, List.pairwise_append] at sorted
  rcases member with onPage | later
  · exact Or.inl onPage
  · exact Or.inr (sorted.2.2 last (List.mem_of_getLast? isLast) item later)

/-- Something is below the last item of a page exactly when the page leaves something
out. -/
theorem Descending.exists_below_iff (sorted : Descending key items)
    (isLast : (items.take size).getLast? = some last) :
    (∃ item ∈ items, key item < key last) ↔ size < items.length := by
  constructor
  · rintro ⟨item, member, below⟩
    by_contra notLess
    rw [List.take_of_length_le (Nat.le_of_not_lt notLess)] at isLast
    exact absurd (sorted.last_le isLast member) (not_le_of_gt below)
  · intro less
    have remains : items.drop size ≠ [] := by
      intro none
      rw [List.drop_eq_nil_iff] at none
      omega
    obtain ⟨item, later⟩ := List.exists_mem_of_ne_nil _ remains
    rw [Descending, ← List.take_append_drop size items, List.pairwise_append] at sorted
    exact ⟨item, List.mem_of_mem_drop later,
      sorted.2.2 last (List.mem_of_getLast? isLast) item later⟩

end Corvus.Keyset
