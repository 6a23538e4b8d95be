import Mathlib.Algebra.Group.Nat.Defs
import Mathlib.Data.List.Basic

/-!
# The base 64 encoding

Three bytes are a group of 24 bits, which four symbols of a 64-symbol alphabet stand
for.  Of a last group that is not full the missing bits are zero, and padding takes the
place of the symbols that hold none of its bytes (RFC 4648, section 4).
-/

namespace Corvus.Base64

universe u

variable {Symbol : Type u} {symbol : Nat → Symbol} {pad : Symbol}

/-- The 24 bits of three bytes. -/
def group (first second third : UInt8) : Nat :=
  first.toNat * 2 ^ 16 + second.toNat * 2 ^ 8 + third.toNat

/-- Six bits of a group, counted from its end. -/
def sextet (bits place : Nat) : Nat :=
  bits / 64 ^ place % 64

/-- The encoding with an alphabet and a padding symbol. -/
def encode (symbol : Nat → Symbol) (pad : Symbol) : List UInt8 → List Symbol
  | [] => []
  | [first] =>
      let bits := group first 0 0
      [symbol (sextet bits 3), symbol (sextet bits 2), pad, pad]
  | [first, second] =>
      let bits := group first second 0
      [symbol (sextet bits 3), symbol (sextet bits 2), symbol (sextet bits 1), pad]
  | first :: second :: third :: rest =>
      let bits := group first second third
      symbol (sextet bits 3) :: symbol (sextet bits 2) :: symbol (sextet bits 1) ::
        symbol (sextet bits 0) :: encode symbol pad rest

section Group

variable (first second third : UInt8)

theorem sextet_three : sextet (group first second third) 3 = first.toNat / 4 := by
  have := first.toNat_lt
  have := second.toNat_lt
  have := third.toNat_lt
  unfold sextet group
  omega

theorem sextet_two :
    sextet (group first second third) 2 = first.toNat % 4 * 16 + second.toNat / 16 := by
  have := second.toNat_lt
  have := third.toNat_lt
  unfold sextet group
  omega

theorem sextet_one :
    sextet (group first second third) 1 = second.toNat % 16 * 4 + third.toNat / 64 := by
  have := third.toNat_lt
  unfold sextet group
  omega

theorem sextet_zero : sextet (group first second third) 0 = third.toNat % 64 := by
  unfold sextet group
  omega

end Group

/-- What an encoding consists of: padding, and symbols for the sextets of groups of the
bytes, filled up with zeros. -/
theorem mem_encode {bytes : List UInt8} {written : Symbol}
    (member : written ∈ encode symbol pad bytes) :
    written = pad ∨ ∃ first ∈ 0 :: bytes, ∃ second ∈ 0 :: bytes, ∃ third ∈ 0 :: bytes,
      ∃ place < 4, written = symbol (sextet (group first second third) place) := by
  induction bytes using encode.induct with
  | case1 => cases member
  | case2 first =>
      simp only [encode, List.mem_cons, List.not_mem_nil, or_false] at member
      rcases member with rfl | rfl | rfl | rfl
      · exact Or.inr ⟨first, by simp, 0, by simp, 0, by simp, 3, by decide, rfl⟩
      · exact Or.inr ⟨first, by simp, 0, by simp, 0, by simp, 2, by decide, rfl⟩
      · exact Or.inl rfl
      · exact Or.inl rfl
  | case3 first second =>
      simp only [encode, List.mem_cons, List.not_mem_nil, or_false] at member
      rcases member with rfl | rfl | rfl | rfl
      · exact Or.inr ⟨first, by simp, second, by simp, 0, by simp, 3, by decide, rfl⟩
      · exact Or.inr ⟨first, by simp, second, by simp, 0, by simp, 2, by decide, rfl⟩
      · exact Or.inr ⟨first, by simp, second, by simp, 0, by simp, 1, by decide, rfl⟩
      · exact Or.inl rfl
  | case4 first second third rest ih =>
      simp only [encode, List.mem_cons] at member
      rcases member with rfl | rfl | rfl | rfl | later
      · exact Or.inr ⟨first, by simp, second, by simp, third, by simp, 3, by decide, rfl⟩
      · exact Or.inr ⟨first, by simp, second, by simp, third, by simp, 2, by decide, rfl⟩
      · exact Or.inr ⟨first, by simp, second, by simp, third, by simp, 1, by decide, rfl⟩
      · exact Or.inr ⟨first, by simp, second, by simp, third, by simp, 0, by decide, rfl⟩
      · have wider : ∀ byte ∈ 0 :: rest, byte ∈ 0 :: first :: second :: third :: rest := by
          intro byte inRest
          rcases List.mem_cons.mp inRest with rfl | inRest
          · exact List.mem_cons_self
          · simp [inRest]
        rcases ih later with isPad | ⟨a, aIn, b, bIn, c, cIn, place, within, writtenEq⟩
        · exact Or.inl isPad
        · exact Or.inr ⟨a, wider a aIn, b, wider b bIn, c, wider c cIn, place, within, writtenEq⟩

end Corvus.Base64
