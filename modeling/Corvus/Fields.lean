import Mathlib.Data.List.Basic

/-!
# Pieces of a text between separators

Splitting a text at its separators cuts it into maximal pieces.  Code that collects
symbols until the next separator, or searches for it, has to come to the same pieces.
-/

namespace Corvus.Fields

universe u

variable {Symbol : Type u} {separates : Symbol → Bool} {text piece : List Symbol}

/-- `piece` stands in the text, holds no separator, and cannot be made longer there. -/
def MaximalPiece (separates : Symbol → Bool) (text piece : List Symbol) : Prop :=
  ∃ before after, text = before ++ piece ++ after ∧
    (∀ symbol ∈ piece, separates symbol = false) ∧
    ∀ left right, left <:+ before → right <+: after →
      (∀ symbol ∈ left ++ piece ++ right, separates symbol = false) → left = [] ∧ right = []

/-- `piece` stands in the text between separators or the ends of the text, and holds no
separator. -/
def BoundedPiece (separates : Symbol → Bool) (text piece : List Symbol) : Prop :=
  ∃ before after, text = before ++ piece ++ after ∧
    (∀ symbol ∈ piece, separates symbol = false) ∧
    (∀ symbol, before.getLast? = some symbol → separates symbol = true) ∧
    ∀ symbol, after.head? = some symbol → separates symbol = true

theorem boundedPiece_of_maximal (maximal : MaximalPiece separates text piece) :
    BoundedPiece separates text piece := by
  obtain ⟨before, after, textEq, free, longest⟩ := maximal
  refine ⟨before, after, textEq, free, fun symbol last => ?_, fun symbol first => ?_⟩
  · by_contra noSeparator
    obtain ⟨rest, rfl⟩ := List.getLast?_eq_some_iff.mp last
    have freeLonger : ∀ other ∈ [symbol] ++ piece ++ [], separates other = false := by
      rw [Bool.not_eq_true] at noSeparator
      simpa using ⟨noSeparator, free⟩
    cases (longest [symbol] [] (List.suffix_append rest [symbol]) List.nil_prefix freeLonger).1
  · by_contra noSeparator
    obtain ⟨rest, rfl⟩ := List.head?_eq_some_iff.mp first
    have freeLonger : ∀ other ∈ [] ++ piece ++ [symbol], separates other = false := by
      rw [Bool.not_eq_true] at noSeparator
      simpa [or_imp, forall_and] using ⟨free, noSeparator⟩
    cases (longest [] [symbol] List.nil_suffix (List.prefix_append [symbol] rest) freeLonger).2

theorem maximalPiece_of_bounded (bounded : BoundedPiece separates text piece) :
    MaximalPiece separates text piece := by
  obtain ⟨before, after, textEq, free, endsBefore, endsAfter⟩ := bounded
  refine ⟨before, after, textEq, free, ?_⟩
  rintro left right ⟨further, rfl⟩ ⟨rest, rfl⟩ freeLonger
  constructor
  · cases last : left.getLast? with
    | none => exact List.getLast?_eq_none_iff.mp last
    | some symbol =>
        have separator := endsBefore symbol (by rw [List.getLast?_append, last]; rfl)
        have inLeft := List.mem_of_getLast? last
        rw [freeLonger symbol (by simp [inLeft])] at separator
        cases separator
  · cases first : right.head? with
    | none => exact List.head?_eq_none_iff.mp first
    | some symbol =>
        have separator := endsAfter symbol (by rw [List.head?_append, first]; rfl)
        have inRight := List.mem_of_head? first
        rw [freeLonger symbol (by simp [inRight])] at separator
        cases separator

theorem maximalPiece_iff : MaximalPiece separates text piece ↔ BoundedPiece separates text piece :=
  ⟨boundedPiece_of_maximal, maximalPiece_of_bounded⟩

/-- A text without separators, or the piece before its first separator and what follows. -/
theorem free_or_cut (separates : Symbol → Bool) (text : List Symbol) :
    (∀ symbol ∈ text, separates symbol = false) ∨
      ∃ first separator rest, text = first ++ separator :: rest ∧
        (∀ symbol ∈ first, separates symbol = false) ∧ separates separator = true := by
  induction text with
  | nil => exact Or.inl (by simp)
  | cons symbol rest ih =>
      cases isSeparator : separates symbol with
      | true => exact Or.inr ⟨[], symbol, rest, rfl, by simp, isSeparator⟩
      | false =>
          rcases ih with free | ⟨first, separator, later, rfl, free, separatorEq⟩
          · exact Or.inl (List.forall_mem_cons.mpr ⟨isSeparator, free⟩)
          · exact Or.inr ⟨symbol :: first, separator, later, rfl,
              List.forall_mem_cons.mpr ⟨isSeparator, free⟩, separatorEq⟩

theorem boundedPiece_of_mem (member : piece ∈ text.splitOnP separates) :
    BoundedPiece separates text piece := by
  induction size : text.length using Nat.strongRecOn generalizing text with
  | ind count ih =>
      rcases free_or_cut separates text with free | ⟨first, separator, rest, rfl, free, isSeparator⟩
      · rw [List.splitOnP_eq_singleton free, List.mem_singleton] at member
        subst member
        exact ⟨[], [], by simp, free, by simp, by simp⟩
      · rw [List.splitOnP_append_cons_of_forall_mem free separator isSeparator,
          List.mem_cons] at member
        rcases member with rfl | later
        · exact ⟨[], separator :: rest, rfl, free, by simp, by simpa using isSeparator⟩
        · have shorter : rest.length < count := by
            rw [← size, List.length_append, List.length_cons]
            omega
          obtain ⟨before, after, rfl, pieceFree, endsBefore, endsAfter⟩ := ih _ shorter later rfl
          refine ⟨first ++ separator :: before, after, by simp, pieceFree, ?_, endsAfter⟩
          intro symbol last
          rw [List.getLast?_append, List.getLast?_cons] at last
          cases beforeLast : before.getLast? with
          | none =>
              rw [beforeLast] at last
              cases last
              exact isSeparator
          | some other =>
              rw [beforeLast] at last
              cases last
              exact endsBefore other beforeLast

theorem mem_of_boundedPiece (bounded : BoundedPiece separates text piece) :
    piece ∈ text.splitOnP separates := by
  obtain ⟨before, after, rfl, free, endsBefore, endsAfter⟩ := bounded
  have inFront : piece ∈ (piece ++ after).splitOnP separates := by
    cases after with
    | nil => simp [List.splitOnP_eq_singleton free]
    | cons separator rest =>
        rw [List.splitOnP_append_cons_of_forall_mem free separator (endsAfter separator rfl)]
        exact List.mem_cons_self
  rw [List.append_assoc]
  cases last : before.getLast? with
  | none =>
      rw [List.getLast?_eq_none_iff.mp last]
      exact inFront
  | some separator =>
      obtain ⟨rest, rfl⟩ := List.getLast?_eq_some_iff.mp last
      rw [List.append_assoc, List.singleton_append,
        List.splitOnP_append_cons rest _ (endsBefore separator last)]
      exact List.mem_append_right _ inFront

/-- The pieces of a split are the maximal pieces of the text. -/
theorem mem_splitOnP_iff : piece ∈ text.splitOnP separates ↔ MaximalPiece separates text piece := by
  rw [maximalPiece_iff]
  exact ⟨boundedPiece_of_mem, mem_of_boundedPiece⟩

end Corvus.Fields
