import Mathlib.Data.List.Basic

/-!
# The first line of what a peer sends

A peer sends a text, or symbols without an end.  Its first line goes up to the first
line mark, a pair of symbols, or to the end where there is none.  A beginning of what
is sent decides the first symbols of the line, unless a mark may still be cut at its
end.
-/

namespace Corvus.Lines

universe u

variable {Symbol : Type u}

/-- What a peer sends. -/
inductive Feed (Symbol : Type u) where
  | ends (text : List Symbol)
  | endless (symbol : Nat → Symbol)

namespace Feed

/-- The symbol at a position, if there is one. -/
def at? : Feed Symbol → Nat → Option Symbol
  | .ends text, position => text[position]?
  | .endless symbol, position => some (symbol position)

/-- The first symbols. -/
def take (count : Nat) : Feed Symbol → List Symbol
  | .ends text => text.take count
  | .endless symbol => (List.range count).map symbol

theorem getElem?_take (feed : Feed Symbol) (count position : Nat) :
    (feed.take count)[position]? = if position < count then feed.at? position else none := by
  cases feed with
  | ends text => exact List.getElem?_take
  | endless symbol =>
      rw [take, List.getElem?_map]
      by_cases within : position < count
      · rw [if_pos within, List.getElem?_range within]
        rfl
      · rw [if_neg within, List.getElem?_eq_none (by simpa using within)]
        rfl

/-- Some of the symbols from a position on. -/
def slice (feed : Feed Symbol) (start count : Nat) : List Symbol :=
  (feed.take (start + count)).drop start

theorem take_take (feed : Feed Symbol) {count more : Nat} (less : count ≤ more) :
    (feed.take more).take count = feed.take count := by
  cases feed with
  | ends text => rw [take, take, List.take_take, Nat.min_eq_left less]
  | endless symbol => rw [take, take, ← List.map_take, List.take_range, Nat.min_eq_left less]

theorem take_append_slice (feed : Feed Symbol) (start count : Nat) :
    feed.take start ++ feed.slice start count = feed.take (start + count) := by
  rw [slice, ← feed.take_take (Nat.le_add_right start count), List.take_append_drop]

theorem take_length_take (feed : Feed Symbol) (count : Nat) :
    feed.take (feed.take count).length = feed.take count := by
  have less : (feed.take count).length ≤ count := by
    cases feed with
    | ends text => exact List.length_take_le count text
    | endless symbol => exact Nat.le_of_eq (by rw [take, List.length_map, List.length_range])
  rw [← feed.take_take less, List.take_length]

/-- Where nothing more comes, everything has come. -/
theorem eq_ends_of_slice {feed : Feed Symbol} {start count : Nat}
    (nothing : feed.slice start (count + 1) = []) : feed = .ends (feed.take start) := by
  cases feed with
  | ends text =>
      rw [slice, List.drop_eq_nil_iff, take, List.length_take] at nothing
      rw [take, List.take_of_length_le (by omega)]
  | endless symbol =>
      rw [slice, List.drop_eq_nil_iff, take, List.length_map, List.length_range] at nothing
      omega

/-- A line mark stands at the position. -/
def MarkAt (mark : Symbol × Symbol) (feed : Feed Symbol) (position : Nat) : Prop :=
  feed.at? position = some mark.1 ∧ feed.at? (position + 1) = some mark.2

theorem markAt_lt {mark : Symbol × Symbol} {text : List Symbol} {position : Nat}
    (isMark : (Feed.ends text).MarkAt mark position) : position + 1 < text.length :=
  (List.getElem?_eq_some_iff.mp isMark.2).1

variable [DecidableEq Symbol]

instance (mark : Symbol × Symbol) (feed : Feed Symbol) (position : Nat) :
    Decidable (feed.MarkAt mark position) :=
  inferInstanceAs (Decidable (_ ∧ _))

/-- The symbol at a position of the first line, if the line is that long. -/
def line? (mark : Symbol × Symbol) (feed : Feed Symbol) (position : Nat) : Option Symbol :=
  if ∃ before < position + 1, feed.MarkAt mark before then none else feed.at? position

end Feed

variable [DecidableEq Symbol] {mark : Symbol × Symbol} {text : List Symbol}
variable {feed other : Feed Symbol}

/-- `find`, for a line mark. -/
def findMark (mark : Symbol × Symbol) (text : List Symbol) : Option Nat :=
  (List.range text.length).find? fun position => (Feed.ends text).MarkAt mark position

/-- What stands before the first line mark. -/
def firstLine (mark : Symbol × Symbol) (text : List Symbol) : List Symbol :=
  match findMark mark text with
  | some position => text.take position
  | none => text

theorem findMark_eq_some {position : Nat} : findMark mark text = some position ↔
    (Feed.ends text).MarkAt mark position ∧
      ∀ before < position, ¬(Feed.ends text).MarkAt mark before := by
  simp only [findMark, List.find?_range_eq_some, decide_eq_true_eq, List.mem_range,
    Bool.not_eq_true', decide_eq_false_iff_not]
  constructor
  · rintro ⟨isMark, _, first⟩
    exact ⟨isMark, first⟩
  · rintro ⟨isMark, first⟩
    have := Feed.markAt_lt isMark
    exact ⟨isMark, by omega, first⟩

theorem findMark_eq_none : findMark mark text = none ↔
    ∀ position, ¬(Feed.ends text).MarkAt mark position := by
  simp only [findMark, List.find?_range_eq_none, Bool.not_eq_true', decide_eq_false_iff_not]
  constructor
  · intro noMark position isMark
    have := Feed.markAt_lt isMark
    exact noMark position (by omega) isMark
  · exact fun noMark position _ => noMark position

/-- The first line of a text, symbol by symbol. -/
theorem line?_ends (position : Nat) :
    (Feed.ends text).line? mark position = (firstLine mark text)[position]? := by
  unfold Feed.line? firstLine
  cases found : findMark mark text with
  | none =>
      rw [if_neg]
      · rfl
      · rintro ⟨before, _, isMark⟩
        exact findMark_eq_none.mp found before isMark
  | some stop =>
      obtain ⟨isMark, first⟩ := findMark_eq_some.mp found
      dsimp only
      rw [List.getElem?_take]
      by_cases within : position < stop
      · rw [if_pos within, if_neg]
        · rfl
        · rintro ⟨before, earlier, alsoMark⟩
          exact first before (by omega) alsoMark
      · rw [if_neg within, if_pos ⟨stop, by omega, isMark⟩]

/-- A symbol of the line is decided by the symbols up to the one after it. -/
theorem line?_congr {position : Nat}
    (same : ∀ before ≤ position + 1, feed.at? before = other.at? before) :
    feed.line? mark position = other.line? mark position := by
  have marks : (∃ before < position + 1, feed.MarkAt mark before) ↔
      ∃ before < position + 1, other.MarkAt mark before := by
    refine exists_congr fun before => and_congr_right fun earlier => ?_
    rw [Feed.MarkAt, Feed.MarkAt, same before (by omega), same (before + 1) (by omega)]
  unfold Feed.line?
  rw [same position (by omega)]
  exact if_congr marks rfl rfl

/-- The beginning of what is sent, up to some symbol, has as its line the first symbols of
the line: if nothing more is sent, if it has a mark, or for the symbols well inside. -/
theorem line?_take {count position : Nat} (whole : feed = .ends (feed.take count) ∨
      (∃ stop, findMark mark (feed.take count) = some stop) ∨
      position + 1 < (feed.take count).length) :
    (firstLine mark (feed.take count))[position]? = feed.line? mark position := by
  rw [← line?_ends]
  have same : ∀ before < (feed.take count).length,
      (Feed.ends (feed.take count)).at? before = feed.at? before := by
    intro before within
    have taken := feed.getElem?_take count before
    by_cases inside : before < count
    · rw [Feed.at?, taken, if_pos inside]
    · rw [if_neg inside, List.getElem?_eq_getElem within] at taken
      cases taken
  by_cases inside : position + 1 < (feed.take count).length
  · exact line?_congr fun before upTo => same before (by omega)
  · rcases whole with ended | ⟨stop, found⟩ | well
    · rw [← ended]
    · obtain ⟨isMark, _⟩ := findMark_eq_some.mp found
      have atEnd := Feed.markAt_lt isMark
      have alsoMark : feed.MarkAt mark stop :=
        ⟨(same stop (by omega)).symm.trans isMark.1, (same (stop + 1) atEnd).symm.trans isMark.2⟩
      unfold Feed.line?
      rw [if_pos ⟨stop, by omega, isMark⟩, if_pos ⟨stop, by omega, alsoMark⟩]
    · exact (inside well).elim

end Corvus.Lines
