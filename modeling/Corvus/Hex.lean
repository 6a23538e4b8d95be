import Mathlib.Algebra.Group.Nat.Defs
import Mathlib.Data.String.Basic

/-!
# Hexadecimal digits

Bytes are written with two lower-case digits; digits of either case are read.
-/

namespace Corvus

def hexDigit (digit : Nat) : Char :=
  "0123456789abcdef".toList.getD digit '0'

def hexByte (byte : UInt8) : List Char :=
  [hexDigit (byte.toNat / 16), hexDigit (byte.toNat % 16)]

/-- The value of a digit; `none` for the characters `isxdigit` rejects. -/
def hexValue? (char : Char) : Option Nat :=
  if '0' ≤ char ∧ char ≤ '9' then some (char.toNat - '0'.toNat)
  else if 'a' ≤ char ∧ char ≤ 'f' then some (char.toNat - 'a'.toNat + 10)
  else if 'A' ≤ char ∧ char ≤ 'F' then some (char.toNat - 'A'.toNat + 10)
  else none

theorem hexValue?_hexDigit : ∀ digit < 16, hexValue? (hexDigit digit) = some digit := by
  decide

/-- The characters digits are never written as. -/
theorem hexDigit_ne : ∀ digit < 16, hexDigit digit ≠ '\x00' ∧ hexDigit digit ≠ '-' ∧
    hexDigit digit ≠ '{' := by
  decide

theorem byte_high_lt (byte : UInt8) : byte.toNat / 16 < 16 := by
  have := byte.toNat_lt
  omega

theorem byte_low_lt (byte : UInt8) : byte.toNat % 16 < 16 :=
  Nat.mod_lt _ (by decide)

/-- The two digits of a byte give the byte back. -/
theorem ofNat_hexDigits (byte : UInt8) :
    UInt8.ofNat (16 * (byte.toNat / 16) + byte.toNat % 16) = byte := by
  rw [Nat.div_add_mod, UInt8.ofNat_toNat]

/-! ## Numbers of a fixed width -/

/-- A number in lower-case digits, padded with zeros on the left. -/
def paddedHex (width number : Nat) : List Char :=
  let digits := Nat.toDigits 16 number
  List.replicate (width - digits.length) '0' ++ digits

/-- The last digits of a number, as many as asked for. -/
def lastHexDigits : Nat → Nat → List Char
  | 0, _ => []
  | width + 1, number => lastHexDigits width (number / 16) ++ [hexDigit (number % 16)]

theorem digitChar_eq_hexDigit : ∀ digit < 16, Nat.digitChar digit = hexDigit digit := by
  decide

theorem lastHexDigits_zero (width : Nat) :
    lastHexDigits width 0 = List.replicate width '0' := by
  induction width with
  | zero => rfl
  | succ width ih =>
      rw [lastHexDigits, Nat.zero_div, ih, List.replicate_succ']
      rfl

/-- A number that fits its width is padded to exactly that width. -/
theorem paddedHex_eq {width number : Nat} (fits : number < 16 ^ (width + 1)) :
    paddedHex (width + 1) number = lastHexDigits (width + 1) number := by
  induction width generalizing number with
  | zero =>
      have small : number < 16 := by simpa using fits
      simp only [paddedHex, Nat.toDigits_of_lt_base small, lastHexDigits,
        Nat.mod_eq_of_lt small, digitChar_eq_hexDigit number small, List.length_singleton]
      rfl
  | succ width ih =>
      have lastSmall : number % 16 < 16 := Nat.mod_lt _ (by decide)
      by_cases small : number < 16
      · rw [lastHexDigits, Nat.div_eq_of_lt small, lastHexDigits_zero, Nat.mod_eq_of_lt small]
        simp only [paddedHex, Nat.toDigits_of_lt_base small, digitChar_eq_hexDigit number small,
          List.length_singleton, Nat.add_sub_cancel]
      · have restFits : number / 16 < 16 ^ (width + 1) := by
          rw [Nat.div_lt_iff_lt_mul (by decide)]
          rwa [Nat.pow_succ] at fits
        rw [lastHexDigits, ← ih restFits]
        simp only [paddedHex]
        rw [Nat.toDigits_of_base_le (by decide) (Nat.le_of_not_lt small),
          digitChar_eq_hexDigit _ lastSmall, List.length_append, List.length_singleton,
          Nat.add_sub_add_right, List.append_assoc]

/-- Two digits are a byte. -/
theorem lastHexDigits_byte (width number : Nat) :
    lastHexDigits (width + 2) number =
      lastHexDigits width (number / 256) ++ hexByte (UInt8.ofNat number) := by
  have byteEq : (UInt8.ofNat number).toNat = number % 256 := by simp
  have high : number / 16 % 16 = number % 256 / 16 := by omega
  have low : number % 16 = number % 256 % 16 := by omega
  simp only [lastHexDigits, hexByte, byteEq, Nat.div_div_eq_div_mul, high, ← low,
    List.append_assoc, List.cons_append, List.nil_append]

end Corvus
