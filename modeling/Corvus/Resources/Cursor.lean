import Corvus.Db.Timestamp
import Corvus.Db.Postgres

/-!
# The page cursor

A cursor is the base64 form of a position in a listing: the text of a timestamp,
a bar and an id.  The codec works on bytes and shifts bits through a 32-bit
`int`, whose high bits overflow; only its low bits are ever used.
-/

namespace Corvus.Resources

open Corvus.Db

/-- The bytes of a `std::string`. -/
def bytesOf (text : String) : List UInt8 :=
  text.toUTF8.data.toList

/-- The text some bytes stand for, if they are valid UTF-8. -/
def textOf? (bytes : List UInt8) : Option String :=
  String.fromUTF8? ⟨bytes.toArray⟩

@[simp] theorem textOf?_bytesOf (text : String) : textOf? (bytesOf text) = some text := by
  have valid : text.toByteArray.IsValidUTF8 := text.isValidUTF8
  simp [textOf?, bytesOf, String.fromUTF8?, valid, String.fromUTF8]

theorem bytesOf_append (left right : String) :
    bytesOf (left ++ right) = bytesOf left ++ bytesOf right := by
  simp [bytesOf, String.toByteArray_append]

theorem bytesOf_eq (text : String) :
    bytesOf text = text.toList.flatMap String.utf8EncodeChar := by
  rw [bytesOf, String.toUTF8_eq_toByteArray, ← String.utf8Encode_toList, List.utf8Encode,
    List.toList_data_toByteArray]

/-- A text has the byte of an ASCII character only if it has the character. -/
theorem mem_of_mem_bytesOf {text : String} {byte : UInt8} {char : Char}
    (ascii : byte.toNat < 128) (same : char.toNat = byte.toNat) (member : byte ∈ bytesOf text) :
    char ∈ text.toList := by
  rw [bytesOf_eq, List.mem_flatMap] at member
  obtain ⟨other, isChar, inChar⟩ := member
  have otherEq : other = char := by
    apply Char.toNat_inj.mp
    rw [same]
    unfold String.utf8EncodeChar at inChar
    have value : other.val.toNat = other.toNat := rfl
    rw [value] at inChar
    dsimp only at inChar
    (repeat' split at inChar) <;>
      simp only [List.mem_cons, List.not_mem_nil, or_false, ← UInt8.toNat_inj,
        UInt8.toNat_ofNat'] at inChar <;> omega
  exact otherEq ▸ isChar

/-- The bytes that reach a C string. -/
def cBytes (bytes : List UInt8) : List UInt8 :=
  bytes.takeWhile fun byte => byte ≠ 0

theorem cBytes_bytesOf {text : String} (nulFree : NulFree text) :
    cBytes (bytesOf text) = bytesOf text := by
  apply List.takeWhile_eq_self_iff.mpr
  intro byte member
  apply decide_eq_true
  rintro rfl
  exact nulFree (mem_of_mem_bytesOf (by decide) (by decide) member)

/-! ## Base64 -/

/-- The value a 32-bit `int` keeps. -/
def wrap32 (value : Int) : Int :=
  (value + 2 ^ 31) % 2 ^ 32 - 2 ^ 31

def kBase64Chars : List Char :=
  "ABCDEFGHIJKLMNOPQRSTUVWXYZabcdefghijklmnopqrstuvwxyz0123456789+/".toList

/-- `kBase64Chars[(val >> shift) & 0x3F]`. -/
def sextetChar (val shift : Int) : Char :=
  kBase64Chars.getD (val / 2 ^ shift.toNat % 64).toNat 'A'

/-- The inner loop of `base64_encode`, which takes six bits at a time: the
characters it appends and the number of bits it leaves. -/
def emitSextets : Nat → Int → Int → List Char × Int
  | 0, _, bits => ([], bits)
  | rounds + 1, val, bits =>
      if 0 ≤ bits then
        let rest := emitSextets rounds val (bits - 6)
        (sextetChar val bits :: rest.1, rest.2)
      else ([], bits)

/-- The outer loop of `base64_encode` and what follows it. -/
def encodeFrom (val bits : Int) : List UInt8 → List Char
  | [] => if -6 < bits then [sextetChar (wrap32 (val * 256)) (bits + 8)] else []
  | byte :: rest =>
      let val := wrap32 (wrap32 (val * 256) + byte.toNat)
      let emitted := emitSextets (bits + 9).toNat val (bits + 8)
      emitted.1 ++ encodeFrom val emitted.2 rest

/-- `base64_encode`. -/
def base64Encode (bytes : List UInt8) : String :=
  let out := encodeFrom 0 (-6) bytes
  String.ofList (out ++ List.replicate ((4 - out.length % 4) % 4) '=')

/-- The table of `base64_decode`; `none` is its `-1`. -/
def sextet? (char : Char) : Option Nat :=
  kBase64Chars.idxOf? char

/-- The loop of `base64_decode`, which skips what is not in the alphabet. -/
def decodeFrom (val bits : Int) : List Char → List UInt8
  | [] => []
  | char :: rest =>
      match sextet? char with
      | none => decodeFrom val bits rest
      | some sextet =>
          let val := wrap32 (wrap32 (val * 64) + sextet)
          if 0 ≤ bits + 6 then
            UInt8.ofNat (val / 2 ^ (bits + 6).toNat % 256).toNat ::
              decodeFrom val (bits - 2) rest
          else decodeFrom val (bits + 6) rest

/-- `base64_decode`. -/
def base64Decode (text : String) : List UInt8 :=
  decodeFrom 0 (-8) text.toList

theorem sextet?_sextetChar : ∀ sextet < 64,
    sextet? (kBase64Chars.getD sextet 'A') = some sextet := by
  decide

theorem sextet?_pad : sextet? '=' = none := by
  decide

/-- Decoding one character of the alphabet. -/
theorem decodeFrom_sextet {sextet : Nat} (inAlphabet : sextet < 64) (val bits : Int)
    (rest : List Char) :
    decodeFrom val bits (kBase64Chars.getD sextet 'A' :: rest) =
      if 0 ≤ bits + 6 then
        UInt8.ofNat (wrap32 (wrap32 (val * 64) + sextet) / 2 ^ (bits + 6).toNat % 256).toNat ::
          decodeFrom (wrap32 (wrap32 (val * 64) + sextet)) (bits - 2) rest
      else decodeFrom (wrap32 (wrap32 (val * 64) + sextet)) (bits + 6) rest := by
  rw [decodeFrom, sextet?_sextetChar sextet inAlphabet]

theorem decodeFrom_pad (val bits : Int) (count : Nat) :
    decodeFrom val bits (List.replicate count '=') = [] := by
  induction count with
  | zero => rfl
  | succ count ih =>
      rw [List.replicate_succ, decodeFrom, sextet?_pad]
      exact ih

/-- Decoding one character the encoder wrote.  Only the low twelve bits matter. -/
theorem decodeFrom_sextetChar (written shift val bits : Int) (rest : List Char) :
    ∃ next : Int, next % 4096 = (val * 64 + written / 2 ^ shift.toNat % 64) % 4096 ∧
      decodeFrom val bits (sextetChar written shift :: rest) =
        if 0 ≤ bits + 6 then
          UInt8.ofNat (next / 2 ^ (bits + 6).toNat % 256).toNat :: decodeFrom next (bits - 2) rest
        else decodeFrom next (bits + 6) rest := by
  have inAlphabet : (written / 2 ^ shift.toNat % 64).toNat < 64 := by omega
  refine ⟨_, ?_, decodeFrom_sextet inAlphabet val bits rest⟩
  unfold wrap32
  omega

theorem wrap32_low (value : Int) : wrap32 value % 4096 = value % 4096 := by
  unfold wrap32
  omega

/-- What the encoder's `int` becomes when a byte enters it. -/
def shiftIn (val : Int) (byte : UInt8) : Int :=
  wrap32 (wrap32 (val * 256) + byte.toNat)

theorem shiftIn_low (val : Int) (byte : UInt8) :
    shiftIn val byte % 4096 = (val * 256 + byte.toNat) % 4096 := by
  have inner := wrap32_low (val * 256)
  rw [shiftIn, wrap32_low]
  omega

theorem encodeFrom_six (val : Int) (byte : UInt8) (rest : List UInt8) :
    encodeFrom val (-6) (byte :: rest) =
      sextetChar (shiftIn val byte) 2 :: encodeFrom (shiftIn val byte) (-4) rest := by
  simp [encodeFrom, emitSextets, shiftIn]

theorem encodeFrom_four (val : Int) (byte : UInt8) (rest : List UInt8) :
    encodeFrom val (-4) (byte :: rest) =
      sextetChar (shiftIn val byte) 4 :: encodeFrom (shiftIn val byte) (-2) rest := by
  simp [encodeFrom, emitSextets, shiftIn]

theorem encodeFrom_two (val : Int) (byte : UInt8) (rest : List UInt8) :
    encodeFrom val (-2) (byte :: rest) =
      sextetChar (shiftIn val byte) 6 :: sextetChar (shiftIn val byte) 0 ::
        encodeFrom (shiftIn val byte) (-6) rest := by
  simp [encodeFrom, emitSextets, shiftIn]

/-- The sextets of a byte that has entered, and the low bits it leaves. -/
theorem sextets_of_entered {val entered byte : Int}
    (low : entered % 4096 = (val * 256 + byte) % 4096) (lower : 0 ≤ byte) (upper : byte < 256) :
    entered / 4 % 64 = byte / 4 ∧ entered / 16 % 64 = val % 4 * 16 + byte / 16 ∧
      entered / 64 % 64 = val % 16 * 4 + byte / 64 ∧ entered % 64 = byte % 64 ∧
      entered % 4 = byte % 4 ∧ entered % 16 = byte % 16 := by
  omega

/-- A byte with six bits in the decoder is complete with two more. -/
theorem whole_of_six {next read cut more : Int} (high : read % 64 = cut / 4)
    (low : next % 4096 = (read * 64 + (cut % 4 * 16 + more)) % 4096) (lower : 0 ≤ cut)
    (upper : cut < 256) (small : 0 ≤ more ∧ more < 16) :
    next / 16 % 256 = cut ∧ next % 16 = more := by
  omega

/-- A byte with four bits in the decoder is complete with four more. -/
theorem whole_of_four {next read cut more : Int} (high : read % 16 = cut / 16)
    (low : next % 4096 = (read * 64 + (cut % 16 * 4 + more)) % 4096) (lower : 0 ≤ cut)
    (upper : cut < 256) (small : 0 ≤ more ∧ more < 4) :
    next / 4 % 256 = cut ∧ next % 4 = more := by
  omega

/-- A byte with two bits in the decoder is complete with six more. -/
theorem whole_of_two {next read cut : Int} (high : read % 4 = cut / 64)
    (low : next % 4096 = (read * 64 + cut % 64) % 4096) (lower : 0 ≤ cut)
    (upper : cut < 256) : next % 256 = cut := by
  omega

theorem byte_bounds (byte : UInt8) : (0 : Int) ≤ byte.toNat ∧ (byte.toNat : Int) < 256 := by
  have := byte.toNat_lt
  omega

/-- The decoder, behind the encoder at each of the three places within a group of
three bytes.  The byte that is cut has its high bits in the decoder and its low
bits in the encoder. -/
theorem decodeFrom_encodeFrom (pad : Nat) (bytes : List UInt8) :
    (∀ val read : Int, decodeFrom read (-8) (encodeFrom val (-6) bytes ++ List.replicate pad '=') =
      bytes) ∧
    (∀ (val read : Int) (cut : UInt8), read % 64 = cut.toNat / 4 → val % 4 = cut.toNat % 4 →
      decodeFrom read (-2) (encodeFrom val (-4) bytes ++ List.replicate pad '=') =
        cut :: bytes) ∧
    (∀ (val read : Int) (cut : UInt8), read % 16 = cut.toNat / 16 → val % 16 = cut.toNat % 16 →
      decodeFrom read (-4) (encodeFrom val (-2) bytes ++ List.replicate pad '=') =
        cut :: bytes) := by
  induction bytes with
  | nil =>
      refine ⟨fun val read => ?_, fun val read cut high low => ?_, fun val read cut high low => ?_⟩
      · simp [encodeFrom, decodeFrom_pad]
      · obtain ⟨lower, upper⟩ := byte_bounds cut
        obtain ⟨_, sextet, _⟩ := @sextets_of_entered val (wrap32 (val * 256)) 0
          (by rw [wrap32_low, Int.add_zero]) (by decide) (by decide)
        obtain ⟨next, nextEq, decoded⟩ := decodeFrom_sextetChar (wrap32 (val * 256)) 4 read (-2)
          (List.replicate pad '=')
        simp only [Int.reduceToNat, Int.reducePow] at nextEq
        rw [sextet, low] at nextEq
        have whole := (whole_of_six high nextEq lower upper (by decide)).1
        simp [encodeFrom, decoded, decodeFrom_pad, whole]
      · obtain ⟨lower, upper⟩ := byte_bounds cut
        obtain ⟨_, _, sextet, _⟩ := @sextets_of_entered val (wrap32 (val * 256)) 0
          (by rw [wrap32_low, Int.add_zero]) (by decide) (by decide)
        obtain ⟨next, nextEq, decoded⟩ := decodeFrom_sextetChar (wrap32 (val * 256)) 6 read (-4)
          (List.replicate pad '=')
        simp only [Int.reduceToNat, Int.reducePow] at nextEq
        rw [sextet, low] at nextEq
        have whole := (whole_of_four high nextEq lower upper (by decide)).1
        simp [encodeFrom, decoded, decodeFrom_pad, whole]
  | cons byte rest ih =>
      obtain ⟨atSix, atFour, atTwo⟩ := ih
      refine ⟨fun val read => ?_, fun val read cut high low => ?_, fun val read cut high low => ?_⟩
      · obtain ⟨lower, upper⟩ := byte_bounds byte
        obtain ⟨sextet, _, _, _, left, _⟩ := sextets_of_entered (shiftIn_low val byte) lower upper
        obtain ⟨next, nextEq, decoded⟩ := decodeFrom_sextetChar (shiftIn val byte) 2 read (-8)
          (encodeFrom (shiftIn val byte) (-4) rest ++ List.replicate pad '=')
        simp only [Int.reduceToNat, Int.reducePow] at nextEq
        rw [sextet] at nextEq
        have later := atFour (shiftIn val byte) next byte (by omega) left
        rw [encodeFrom_six, List.cons_append, decoded]
        simpa using later
      · obtain ⟨lower, upper⟩ := byte_bounds byte
        obtain ⟨cutLower, cutUpper⟩ := byte_bounds cut
        obtain ⟨_, sextet, _, _, _, left⟩ := sextets_of_entered (shiftIn_low val byte) lower upper
        obtain ⟨next, nextEq, decoded⟩ := decodeFrom_sextetChar (shiftIn val byte) 4 read (-2)
          (encodeFrom (shiftIn val byte) (-2) rest ++ List.replicate pad '=')
        simp only [Int.reduceToNat, Int.reducePow] at nextEq
        rw [sextet, low] at nextEq
        obtain ⟨whole, more⟩ := whole_of_six high nextEq cutLower cutUpper (by omega)
        have later := atTwo (shiftIn val byte) next byte more left
        rw [encodeFrom_four, List.cons_append, decoded]
        simpa [whole] using later
      · obtain ⟨lower, upper⟩ := byte_bounds byte
        obtain ⟨cutLower, cutUpper⟩ := byte_bounds cut
        obtain ⟨_, _, sextet, lastSextet, _⟩ :=
          sextets_of_entered (shiftIn_low val byte) lower upper
        obtain ⟨middle, middleEq, decodedFirst⟩ := decodeFrom_sextetChar (shiftIn val byte) 6 read
          (-4) (sextetChar (shiftIn val byte) 0 ::
            (encodeFrom (shiftIn val byte) (-6) rest ++ List.replicate pad '='))
        obtain ⟨next, nextEq, decoded⟩ := decodeFrom_sextetChar (shiftIn val byte) 0 middle (-6)
          (encodeFrom (shiftIn val byte) (-6) rest ++ List.replicate pad '=')
        simp only [Int.reduceToNat, Int.reducePow, Int.ediv_one] at middleEq nextEq
        rw [sextet, low] at middleEq
        rw [lastSextet] at nextEq
        obtain ⟨wholeCut, more⟩ := whole_of_four high middleEq cutLower cutUpper (by omega)
        have wholeByte := whole_of_two more nextEq lower upper
        have later := atSix (shiftIn val byte) next
        rw [encodeFrom_two, List.cons_append, List.cons_append, decodedFirst]
        simp [decoded, later, wholeCut, wholeByte]

/-- What was encoded is decoded. -/
theorem base64Decode_base64Encode (bytes : List UInt8) :
    base64Decode (base64Encode bytes) = bytes := by
  rw [base64Decode, base64Encode, String.toList_ofList]
  exact (decodeFrom_encodeFrom _ bytes).1 0 0

/-! ## Positions -/

structure InvalidCursorError where
  message : String
  deriving DecidableEq, Repr

structure CursorPosition where
  updatedAt : List UInt8
  id : List UInt8
  deriving DecidableEq

/-- The byte of `|`. -/
def bar : UInt8 := 124

/-- `encode_cursor`. -/
def encodeCursor (updatedAt id : String) : String :=
  base64Encode (bytesOf (updatedAt ++ "|" ++ id))

/-- `decode_cursor`. -/
def decodeCursor (cursor : String) : Except InvalidCursorError CursorPosition :=
  let decoded := base64Decode cursor
  match decoded.idxOf? bar with
  | none => .error ⟨"cursor is malformed"⟩
  | some sep =>
      if sep = 0 ∨ sep = decoded.length - 1 then .error ⟨"cursor is malformed"⟩
      else .ok { updatedAt := decoded.take sep, id := decoded.drop (sep + 1) }

theorem length_bytesOf_ne_zero {text : String} (notEmpty : text ≠ "") :
    (bytesOf text).length ≠ 0 := by
  intro empty
  have none := textOf?_bytesOf text
  rw [List.length_eq_zero_iff.mp empty] at none
  exact notEmpty (Option.some.inj (none.symm.trans (by rfl)))

/-- A position is found again in its cursor; the first bar ends the timestamp. -/
theorem decodeCursor_encodeCursor {updatedAt id : String} (notEmpty : updatedAt ≠ "")
    (noBar : '|' ∉ updatedAt.toList) (idNotEmpty : id ≠ "") :
    decodeCursor (encodeCursor updatedAt id) =
      .ok { updatedAt := bytesOf updatedAt, id := bytesOf id } := by
  have noBarByte : bar ∉ bytesOf updatedAt :=
    fun member => noBar (mem_of_mem_bytesOf (by decide) (by decide) member)
  have barBytes : bytesOf "|" = [bar] := by decide
  have bytesEq : base64Decode (encodeCursor updatedAt id) =
      bytesOf updatedAt ++ bar :: bytesOf id := by
    rw [encodeCursor, base64Decode_base64Encode, bytesOf_append, bytesOf_append, barBytes,
      List.append_assoc, List.singleton_append]
  have found : (bytesOf updatedAt ++ bar :: bytesOf id).idxOf? bar =
      some (bytesOf updatedAt).length := by
    rw [List.idxOf?_eq_some_iff]
    refine ⟨by simp, by simp, fun position before => ?_⟩
    rw [List.getElem_append_left before]
    rintro isBar
    exact noBarByte (isBar ▸ List.getElem_mem before)
  have first := length_bytesOf_ne_zero notEmpty
  have last := length_bytesOf_ne_zero idNotEmpty
  simp only [decodeCursor, bytesEq, found]
  rw [if_neg]
  · simp
  · rw [List.length_append, List.length_cons]
    omega

end Corvus.Resources
