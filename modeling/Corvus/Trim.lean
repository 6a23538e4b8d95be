import Mathlib.Data.List.DropRight

/-!
# Trimming by positions

Code on strings finds the first and the last position that is not blank and
takes the slice between them.  That is the text without the blanks around it.
-/

namespace Corvus.Trim

universe u

variable {Symbol : Type u} {blank : Symbol → Bool} {text : List Symbol}

/-- `find_first_not_of` -/
def firstNot (blank : Symbol → Bool) (text : List Symbol) : Option Nat :=
  text.findIdx? fun symbol => !blank symbol

/-- `find_last_not_of` -/
def lastNot (blank : Symbol → Bool) (text : List Symbol) : Option Nat :=
  (text.reverse.findIdx? fun symbol => !blank symbol).map (text.length - 1 - ·)

/-- `substr` -/
def slice (text : List Symbol) (start count : Nat) : List Symbol :=
  (text.drop start).take count

/-- The text without the blanks around it. -/
def trim (blank : Symbol → Bool) (text : List Symbol) : List Symbol :=
  (text.dropWhile blank).rdropWhile blank

theorem trim_eq_nil_iff : trim blank text = [] ↔ ∀ symbol ∈ text, blank symbol = true := by
  rw [trim, List.rdropWhile_eq_nil_iff]
  constructor
  · intro restBlank symbol member
    have parts : text.takeWhile blank ++ text.dropWhile blank = text :=
      List.takeWhile_append_dropWhile
    rw [← parts, List.mem_append] at member
    rcases member with before | after
    · exact List.mem_takeWhile_imp before
    · exact restBlank symbol after
  · intro allBlank symbol member
    exact allBlank symbol ((List.dropWhile_suffix blank).subset member)

theorem firstNot_eq_none_iff : firstNot blank text = none ↔ trim blank text = [] := by
  rw [trim_eq_nil_iff, firstNot, List.findIdx?_eq_none_iff]
  simp

theorem lastNot_eq_none_iff : lastNot blank text = none ↔ trim blank text = [] := by
  rw [trim_eq_nil_iff, lastNot, Option.map_eq_none_iff, List.findIdx?_eq_none_iff]
  simp

theorem dropWhile_eq_drop {first : Nat} (found : firstNot blank text = some first) :
    text.dropWhile blank = text.drop first := by
  induction text generalizing first with
  | nil => cases found
  | cons symbol rest ih =>
      rw [firstNot, List.findIdx?_cons] at found
      cases isBlank : blank symbol with
      | false =>
          rw [isBlank] at found
          cases found
          rw [List.dropWhile_cons_of_neg (by simp [isBlank]), List.drop_zero]
      | true =>
          rw [isBlank] at found
          obtain ⟨later, restFound, rfl⟩ := Option.map_eq_some_iff.mp found
          rw [List.dropWhile_cons_of_pos isBlank, List.drop_succ_cons]
          exact ih restFound

/-- What follows the first position has the last one in it. -/
theorem lastNot_drop {first last : Nat} (firstFound : firstNot blank text = some first)
    (lastFound : lastNot blank text = some last) :
    ∃ back, firstNot blank (text.drop first).reverse = some back ∧
      back < text.length - first ∧ last = text.length - 1 - back := by
  obtain ⟨inside, atFirst, _⟩ := List.findIdx?_eq_some_iff_getElem.mp firstFound
  have parts : (text.take first ++ text.drop first).reverse = text.reverse := by
    rw [List.take_append_drop]
  obtain ⟨back, backFound, rfl⟩ := Option.map_eq_some_iff.mp lastFound
  rw [← parts, List.reverse_append, List.findIdx?_append] at backFound
  cases found : firstNot blank (text.drop first).reverse with
  | none =>
      have isBlank := List.findIdx?_eq_none_iff.mp found text[first]
        (List.mem_reverse.mpr (List.mem_drop_iff_getElem.mpr ⟨0, by omega, rfl⟩))
      rw [isBlank] at atFirst
      cases atFirst
  | some position =>
      have bounded := (List.findIdx?_eq_some_iff_findIdx_eq.mp found).1
      rw [firstNot] at found
      rw [found, Option.some_or] at backFound
      cases backFound
      rw [List.length_reverse, List.length_drop] at bounded
      exact ⟨back, rfl, bounded, rfl⟩

theorem slice_eq_trim {first last : Nat} (firstFound : firstNot blank text = some first)
    (lastFound : lastNot blank text = some last) :
    slice text first (last - first + 1) = trim blank text := by
  obtain ⟨back, backFound, bounded, rfl⟩ := lastNot_drop firstFound lastFound
  have count : text.length - 1 - back - first + 1 = (text.drop first).length - back := by
    rw [List.length_drop]
    omega
  rw [slice, trim, dropWhile_eq_drop firstFound, List.rdropWhile, dropWhile_eq_drop backFound,
    List.reverse_drop, List.reverse_reverse, List.length_reverse, count]

/-- A text with other symbols at both ends is left as it is. -/
theorem trim_eq_self (front : ∀ symbol, text.head? = some symbol → blank symbol = false)
    (back : ∀ symbol, text.getLast? = some symbol → blank symbol = false) :
    trim blank text = text := by
  cases text with
  | nil => rfl
  | cons symbol rest =>
      have kept : (symbol :: rest).dropWhile blank = symbol :: rest :=
        List.dropWhile_cons_of_neg (by rw [front symbol rfl]; decide)
      rw [trim, kept, List.rdropWhile_eq_self_iff]
      intro nonempty
      rw [back _ (List.getLast?_eq_some_getLast nonempty)]
      decide

end Corvus.Trim
