import Corvus.Base64
import Corvus.Resources.Cursor

/-!
# What the base 64 loops compute

The `int` of `base64_encode` is never masked, so it wraps and turns negative.  The six
bits that are taken from it at each place are those of the group all the same, and the
additions of both loops stay within an `int`.
-/

namespace Corvus.Resources

/-! ## The encoding -/

/-- The base 64 alphabet of RFC 4648. -/
def alphabet (value : Nat) : Char :=
  if value < 26 then Char.ofNat ('A'.toNat + value)
  else if value < 52 then Char.ofNat ('a'.toNat + (value - 26))
  else if value < 62 then Char.ofNat ('0'.toNat + (value - 52))
  else if value = 62 then '+'
  else '/'

theorem kBase64Chars_eq_alphabet : ∀ value < 64, kBase64Chars.getD value 'A' = alphabet value := by
  decide

/-- The six bits at a place, read off an `int` that has more in it. -/
theorem sextetChar_eq {val : Int} {shift value : Nat} (read : val / 2 ^ shift % 64 = value)
    (small : value < 64) : sextetChar val shift = alphabet value := by
  rw [sextetChar, Int.toNat_natCast, read, Int.toNat_natCast]
  exact kBase64Chars_eq_alphabet value small

/-- The first symbol of a group. -/
theorem sextetChar_first (val : Int) (first second third : UInt8) :
    sextetChar (shiftIn val first) 2 =
      alphabet (Base64.sextet (Base64.group first second third) 3) := by
  obtain ⟨lower, upper⟩ := byte_bounds first
  obtain ⟨sextet, _⟩ := sextets_of_entered (shiftIn_low val first) lower upper
  rw [Base64.sextet_three]
  exact sextetChar_eq (by simpa using sextet) (by omega)

/-- The second symbol, after a first byte has entered. -/
theorem sextetChar_second (val : Int) (first second third : UInt8) :
    sextetChar (shiftIn (shiftIn val first) second) 4 =
      alphabet (Base64.sextet (Base64.group first second third) 2) := by
  obtain ⟨lower, upper⟩ := byte_bounds first
  obtain ⟨lowerNext, upperNext⟩ := byte_bounds second
  obtain ⟨_, _, _, _, left, _⟩ := sextets_of_entered (shiftIn_low val first) lower upper
  obtain ⟨_, sextet, _⟩ :=
    sextets_of_entered (shiftIn_low (shiftIn val first) second) lowerNext upperNext
  rw [left] at sextet
  rw [Base64.sextet_two]
  exact sextetChar_eq (by simpa using sextet) (by omega)

/-- The third symbol, after two bytes have entered. -/
theorem sextetChar_third (val : Int) (first second third : UInt8) :
    sextetChar (shiftIn (shiftIn val second) third) 6 =
      alphabet (Base64.sextet (Base64.group first second third) 1) := by
  obtain ⟨lower, upper⟩ := byte_bounds second
  obtain ⟨lowerNext, upperNext⟩ := byte_bounds third
  obtain ⟨_, _, _, _, _, left⟩ := sextets_of_entered (shiftIn_low val second) lower upper
  obtain ⟨_, _, sextet, _⟩ :=
    sextets_of_entered (shiftIn_low (shiftIn val second) third) lowerNext upperNext
  rw [left] at sextet
  rw [Base64.sextet_one]
  exact sextetChar_eq (by simpa using sextet) (by omega)

/-- The last symbol of a full group. -/
theorem sextetChar_last (val : Int) (first second third : UInt8) :
    sextetChar (shiftIn val third) 0 =
      alphabet (Base64.sextet (Base64.group first second third) 0) := by
  obtain ⟨lower, upper⟩ := byte_bounds third
  obtain ⟨_, _, _, sextet, _⟩ := sextets_of_entered (shiftIn_low val third) lower upper
  rw [Base64.sextet_zero]
  exact sextetChar_eq (by simpa using sextet) (by omega)

/-- A last shift without a byte is the one in which a zero enters. -/
theorem shiftIn_zero (val : Int) : shiftIn val 0 = wrap32 (val * 256) := by
  change wrap32 (wrap32 (val * 256) + 0) = wrap32 (val * 256)
  unfold wrap32
  omega

/-- What the loop writes from the start of a group on, with its padding. -/
theorem encodeFrom_eq (bytes : List UInt8) (val : Int) :
    encodeFrom val (-6) bytes ++
        List.replicate ((4 - (encodeFrom val (-6) bytes).length % 4) % 4) '=' =
      Base64.encode alphabet '=' bytes := by
  induction bytes using Base64.encode.induct generalizing val with
  | case1 => simp [encodeFrom, Base64.encode]
  | case2 first =>
      have written : encodeFrom val (-6) [first] =
          [sextetChar (shiftIn val first) 2, sextetChar (shiftIn (shiftIn val first) 0) 4] := by
        rw [encodeFrom_six, encodeFrom, if_pos (by decide), shiftIn_zero]
        rfl
      rw [written, sextetChar_first val first 0 0, sextetChar_second val first 0 0]
      rfl
  | case3 first second =>
      have written : encodeFrom val (-6) [first, second] =
          [sextetChar (shiftIn val first) 2, sextetChar (shiftIn (shiftIn val first) second) 4,
            sextetChar (shiftIn (shiftIn (shiftIn val first) second) 0) 6] := by
        rw [encodeFrom_six, encodeFrom_four, encodeFrom, if_pos (by decide), shiftIn_zero]
        rfl
      rw [written, sextetChar_first val first second 0, sextetChar_second val first second 0,
        sextetChar_third _ first second 0]
      rfl
  | case4 first second third rest ih =>
      rw [encodeFrom_six, encodeFrom_four, encodeFrom_two,
        sextetChar_first val first second third, sextetChar_second val first second third,
        sextetChar_third _ first second third, sextetChar_last _ first second third,
        Base64.encode, ← ih (shiftIn (shiftIn (shiftIn val first) second) third)]
      simp only [List.length_cons, List.cons_append, Nat.add_assoc, Nat.reduceAdd,
        Nat.add_mod_right]

/-- `base64_encode` writes the base 64 text of RFC 4648. -/
theorem base64Encode_eq (bytes : List UInt8) :
    base64Encode bytes = String.ofList (Base64.encode alphabet '=' bytes) :=
  congrArg String.ofList (encodeFrom_eq bytes 0)

/-! ## The loops with additions that stop at an overflow -/

/-- A signed addition, if its result is an `int`. -/
def add32? (left right : Int) : Option Int :=
  if -2 ^ 31 ≤ left + right ∧ left + right < 2 ^ 31 then some (left + right) else none

/-- The inner loop of `base64_encode`. -/
def emitSextets? : Nat → Int → Int → Option (List Char × Int)
  | 0, _, bits => some ([], bits)
  | rounds + 1, val, bits =>
      if 0 ≤ bits then do
        let left ← add32? bits (-6)
        let rest ← emitSextets? rounds val left
        return (sextetChar val bits :: rest.1, rest.2)
      else some ([], bits)

/-- The outer loop of `base64_encode` and what follows it. -/
def encodeFrom? (val bits : Int) : List UInt8 → Option (List Char)
  | [] =>
      if -6 < bits then do
        let shift ← add32? bits 8
        return [sextetChar (wrap32 (val * 256)) shift]
      else some []
  | byte :: rest => do
      let val ← add32? (wrap32 (val * 256)) byte.toNat
      let bits ← add32? bits 8
      let emitted ← emitSextets? (bits + 1).toNat val bits
      let more ← encodeFrom? val emitted.2 rest
      return emitted.1 ++ more

/-- `base64_encode`. -/
def base64Encode? (bytes : List UInt8) : Option String := do
  let out ← encodeFrom? 0 (-6) bytes
  return String.ofList (out ++ List.replicate ((4 - out.length % 4) % 4) '=')

/-- The loop of `base64_decode`. -/
def decodeFrom? (val bits : Int) : List Char → Option (List UInt8)
  | [] => some []
  | char :: rest =>
      match sextet? char with
      | none => decodeFrom? val bits rest
      | some sextet => do
          let val ← add32? (wrap32 (val * 64)) sextet
          let bits ← add32? bits 6
          if 0 ≤ bits then
            let left ← add32? bits (-8)
            let more ← decodeFrom? val left rest
            return UInt8.ofNat (val / 2 ^ bits.toNat % 256).toNat :: more
          else decodeFrom? val bits rest

/-- `base64_decode`. -/
def base64Decode? (text : String) : Option (List UInt8) :=
  decodeFrom? 0 (-8) text.toList

theorem add32?_eq {left right : Int} (lower : -2 ^ 31 ≤ left + right)
    (upper : left + right < 2 ^ 31) : add32? left right = some (left + right) :=
  if_pos ⟨lower, upper⟩

/-- Below what a shift to the left has freed there is room for what is added. -/
theorem add32?_shifted {free added : Int} (val : Int) (width : free = 64 ∨ free = 256)
    (lower : 0 ≤ added) (upper : added < free) :
    add32? (wrap32 (val * free)) added = some (wrap32 (wrap32 (val * free) + added)) := by
  have exact_ : wrap32 (wrap32 (val * free) + added) = wrap32 (val * free) + added := by
    rcases width with rfl | rfl <;> unfold wrap32 <;> omega
  rw [exact_]
  apply add32?_eq <;> rcases width with rfl | rfl <;> unfold wrap32 <;> omega

/-- The inner loop leaves less than six bits. -/
theorem emitSextets_left {rounds : Nat} {val bits : Int} (lower : -6 ≤ bits)
    (enough : bits < rounds) :
    -6 ≤ (emitSextets rounds val bits).2 ∧ (emitSextets rounds val bits).2 < 0 := by
  induction rounds generalizing bits with
  | zero => exact ⟨lower, enough⟩
  | succ rounds ih =>
      rw [emitSextets]
      by_cases more : 0 ≤ bits
      · rw [if_pos more]
        exact ih (by omega) (by omega)
      · rw [if_neg more]
        exact ⟨lower, by omega⟩

theorem emitSextets?_eq {rounds : Nat} {val bits : Int} (upper : bits < 2 ^ 31) :
    emitSextets? rounds val bits = some (emitSextets rounds val bits) := by
  induction rounds generalizing bits with
  | zero => rfl
  | succ rounds ih =>
      rw [emitSextets?, emitSextets]
      by_cases more : 0 ≤ bits
      · rw [if_pos more, if_pos more, add32?_eq (by omega) (by omega)]
        simp only [Option.bind_eq_bind, Option.bind_some]
        rw [ih (by omega)]
        rfl
      · rw [if_neg more, if_neg more]

theorem encodeFrom?_eq {val bits : Int} {bytes : List UInt8} (lower : -6 ≤ bits)
    (upper : bits < 0) : encodeFrom? val bits bytes = some (encodeFrom val bits bytes) := by
  induction bytes generalizing val bits with
  | nil =>
      rw [encodeFrom?, encodeFrom]
      by_cases left : -6 < bits
      · rw [if_pos left, if_pos left, add32?_eq (by omega) (by omega)]
        rfl
      · rw [if_neg left, if_neg left]
  | cons byte rest ih =>
      obtain ⟨byteLower, byteUpper⟩ := byte_bounds byte
      have rounds : bits + 8 + 1 = bits + 9 := by omega
      obtain ⟨leftLower, leftUpper⟩ := @emitSextets_left (bits + 9).toNat
        (wrap32 (wrap32 (val * 256) + byte.toNat)) (bits + 8) (by omega) (by omega)
      rw [encodeFrom?, encodeFrom, add32?_shifted val (Or.inr rfl) byteLower byteUpper,
        add32?_eq (by omega) (by omega)]
      simp only [Option.bind_eq_bind, Option.bind_some, rounds]
      rw [emitSextets?_eq (by omega)]
      simp only [Option.bind_some]
      rw [ih leftLower leftUpper]
      rfl

theorem sextet_lt {char : Char} {sextet : Nat} (found : sextet? char = some sextet) :
    sextet < 64 := by
  obtain ⟨inside, _⟩ := List.idxOf?_eq_some_iff.mp found
  exact inside

theorem decodeFrom?_eq {val bits : Int} {text : List Char} (lower : -8 ≤ bits)
    (upper : bits < 0) : decodeFrom? val bits text = some (decodeFrom val bits text) := by
  induction text generalizing val bits with
  | nil => rfl
  | cons char rest ih =>
      rw [decodeFrom?, decodeFrom]
      cases found : sextet? char with
      | none => exact ih lower upper
      | some sextet =>
          have small := sextet_lt found
          simp only [add32?_shifted val (Or.inl rfl) (Int.natCast_nonneg sextet)
            (by omega : (sextet : Int) < 64), Option.bind_eq_bind, Option.bind_some]
          rw [add32?_eq (by omega) (by omega), Option.bind_some]
          by_cases whole : 0 ≤ bits + 6
          · have left : bits + 6 + -8 = bits - 2 := by omega
            rw [if_pos whole, if_pos whole, add32?_eq (by omega) (by omega), Option.bind_some, left,
              ih (by omega) (by omega)]
            rfl
          · rw [if_neg whole, if_neg whole, ih (by omega) (by omega)]

/-- The text is that of RFC 4648, no addition overflows on the way to it or back, and what
was encoded is decoded. -/
theorem base64_exact (bytes : List UInt8) :
    base64Encode bytes = String.ofList (Base64.encode alphabet '=' bytes) ∧
      base64Encode? bytes = some (base64Encode bytes) ∧
      (∀ text, base64Decode? text = some (base64Decode text)) ∧
      base64Decode (base64Encode bytes) = bytes := by
  refine ⟨base64Encode_eq bytes, ?_, fun text => decodeFrom?_eq (by decide) (by decide),
    base64Decode_base64Encode bytes⟩
  rw [base64Encode?, encodeFrom?_eq (by decide) (by decide)]
  rfl

end Corvus.Resources
