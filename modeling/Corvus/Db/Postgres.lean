import Corvus.Hex
import Corvus.Db.Redis

/-!
# Values as Postgres reads and prints them

Text parameters reach the server as C strings.  A UUID is read from its
hexadecimal digits, of either case, in any of the accepted layouts, and printed
in lower case.  Timestamps are UTC; their order is that of their fields, from the
year down to the microsecond.
-/

namespace Corvus.Db

/-! ## UUIDs -/

structure Uuid where
  bytes : List UInt8
  length_eq : bytes.length = 16
  deriving DecidableEq

/-- Two digits for each byte; after a byte with an odd index a dash may stand,
except after the last. -/
def readBytes : Nat → Nat → List Char → Option (List UInt8 × List Char)
  | 0, _, input => some ([], input)
  | count + 1, index, high :: low :: rest =>
      match hexValue? high, hexValue? low with
      | some highValue, some lowValue =>
          (readBytes count (index + 1)
            (if rest.head? = some '-' ∧ index % 2 = 1 ∧ index < 15 then rest.drop 1
              else rest)).map
            fun read => (UInt8.ofNat (16 * highValue + lowValue) :: read.1, read.2)
      | _, _ => none
  | _ + 1, _, _ => none

/-- `uuid_in`. -/
def uuidIn (text : String) : Option Uuid :=
  let braces := text.toList.head? = some '{'
  (readBytes 16 0 (if braces then text.toList.drop 1 else text.toList)).bind fun read =>
    if length_eq : read.1.length = 16 then
      if read.2 = (if braces then ['}'] else []) then some ⟨read.1, length_eq⟩ else none
    else none

/-- The bytes from an index on, with dashes after bytes 3, 5, 7 and 9. -/
def printBytes : Nat → List UInt8 → List Char
  | _, [] => []
  | index, byte :: rest =>
      hexByte byte ++ ((if index ∈ [3, 5, 7, 9] then ['-'] else []) ++
        printBytes (index + 1) rest)

/-- `uuid_out`. -/
def uuidOut (uuid : Uuid) : String :=
  String.ofList (printBytes 0 uuid.bytes)

theorem printBytes_head {index : Nat} {bytes : List UInt8} :
    ∀ char ∈ (printBytes index bytes).head?, char ≠ '-' ∧ char ≠ '{' := by
  cases bytes with
  | nil => simp [printBytes]
  | cons byte rest =>
      simp only [printBytes, hexByte, List.cons_append, List.head?_cons, Option.mem_def,
        Option.some.injEq, forall_eq']
      exact (hexDigit_ne _ (byte_high_lt byte)).2

theorem readBytes_printBytes {count index : Nat} {bytes : List UInt8}
    (length_eq : bytes.length = count) (whole : index + count = 16) :
    readBytes count index (printBytes index bytes) = some (bytes, []) := by
  induction bytes generalizing count index with
  | nil =>
      subst length_eq
      rfl
  | cons byte rest ih =>
      subst length_eq
      have later := @ih rest.length (index + 1) rfl
        (by simp only [List.length_cons] at whole; omega)
      have skipped : (if ((if index ∈ [3, 5, 7, 9] then ['-'] else []) ++
            printBytes (index + 1) rest).head? = some '-' ∧ index % 2 = 1 ∧ index < 15
          then ((if index ∈ [3, 5, 7, 9] then ['-'] else []) ++
            printBytes (index + 1) rest).drop 1
          else (if index ∈ [3, 5, 7, 9] then ['-'] else []) ++
            printBytes (index + 1) rest) = printBytes (index + 1) rest := by
        by_cases dashed : index ∈ [3, 5, 7, 9]
        · have odd : index % 2 = 1 ∧ index < 15 := by
            simp only [List.mem_cons, List.not_mem_nil, or_false] at dashed
            omega
          simp [dashed, odd]
        · simp only [dashed, if_false, List.nil_append]
          rw [if_neg]
          rintro ⟨isDash, _⟩
          exact (printBytes_head _ isDash).1 rfl
      simp only [printBytes, hexByte, List.cons_append, List.nil_append, List.length_cons,
        readBytes, hexValue?_hexDigit _ (byte_high_lt byte),
        hexValue?_hexDigit _ (byte_low_lt byte), ofNat_hexDigits]
      rw [skipped, later]
      rfl

/-- A printed UUID is read back. -/
@[simp] theorem uuidIn_uuidOut (uuid : Uuid) : uuidIn (uuidOut uuid) = some uuid := by
  have noBrace : (printBytes 0 uuid.bytes).head? ≠ some '{' :=
    fun isBrace => (printBytes_head _ isBrace).2 rfl
  have read := readBytes_printBytes uuid.length_eq (Nat.zero_add 16)
  simp [uuidIn, uuidOut, noBrace, read, uuid.length_eq]

theorem uuidOut_injective : Function.Injective uuidOut := by
  intro left right same
  have read := congrArg uuidIn same
  simpa using read

/-- A printed UUID holds hexadecimal digits and dashes only. -/
theorem printBytes_chars {index : Nat} {bytes : List UInt8} {char : Char}
    (member : char ∈ printBytes index bytes) :
    char = '-' ∨ ∃ digit < 16, char = hexDigit digit := by
  induction bytes generalizing index with
  | nil => cases member
  | cons byte rest ih =>
      simp only [printBytes, hexByte, List.mem_append, List.mem_cons, List.not_mem_nil,
        or_false] at member
      rcases member with (rfl | rfl) | dash | later
      · exact Or.inr ⟨_, byte_high_lt byte, rfl⟩
      · exact Or.inr ⟨_, byte_low_lt byte, rfl⟩
      · left
        split at dash
        · simpa using dash
        · cases dash
      · exact ih later

theorem uuidOut_chars {uuid : Uuid} {char : Char} (member : char ∈ (uuidOut uuid).toList) :
    char = '-' ∨ ∃ digit < 16, char = hexDigit digit := by
  rw [uuidOut, String.toList_ofList] at member
  exact printBytes_chars member

theorem nulFree_uuidOut (uuid : Uuid) : NulFree (uuidOut uuid) := by
  intro member
  rcases uuidOut_chars member with isDash | ⟨digit, inRange, isDigit⟩
  · cases isDash
  · exact (hexDigit_ne digit inRange).1 isDigit.symm

/-- The digits of a UUID are read from hexadecimal digits and dashes. -/
theorem readBytes_chars {count index : Nat} {input rest : List Char} {bytes : List UInt8}
    (read : readBytes count index input = some (bytes, rest)) :
    ∀ char ∈ input, (hexValue? char).isSome = true ∨ char = '-' ∨ char ∈ rest := by
  induction count generalizing index input bytes with
  | zero =>
      cases read
      exact fun char member => Or.inr (Or.inr member)
  | succ count ih =>
      cases input with
      | nil => cases read
      | cons high tail =>
          cases tail with
          | nil => cases read
          | cons low tail =>
              simp only [readBytes] at read
              split at read
              case h_2 => cases read
              case h_1 highValue lowValue highEq lowEq =>
                  obtain ⟨⟨later, remaining⟩, laterRead, same⟩ := Option.map_eq_some_iff.mp read
                  cases same
                  have ofTail := ih laterRead
                  intro char member
                  rcases List.mem_cons.mp member with rfl | member
                  · exact Or.inl (by rw [highEq]; rfl)
                  rcases List.mem_cons.mp member with rfl | member
                  · exact Or.inl (by rw [lowEq]; rfl)
                  split at ofTail
                  · rename_i dashed
                    cases tail with
                    | nil => cases member
                    | cons dash tail =>
                        rcases List.mem_cons.mp member with rfl | member
                        · exact Or.inr (Or.inl (by simpa using dashed.1))
                        · exact ofTail char member
                  · exact ofTail char member

/-- The text of a UUID holds hexadecimal digits, dashes and braces only. -/
theorem uuidIn_chars {text : String} {uuid : Uuid} (read : uuidIn text = some uuid) :
    ∀ char ∈ text.toList,
      (hexValue? char).isSome = true ∨ char = '-' ∨ char = '{' ∨ char = '}' := by
  simp only [uuidIn, Option.bind_eq_some_iff, Option.dite_none_right_eq_some,
    Option.ite_none_right_eq_some] at read
  obtain ⟨⟨bytes, rest⟩, digits, _, (restEq : rest = _), _⟩ := read
  have rests : ∀ char ∈ rest, char = '}' := by
    rw [restEq]
    split <;> simp
  have chars : ∀ char ∈ (if text.toList.head? = some '{' then text.toList.drop 1
      else text.toList), (hexValue? char).isSome = true ∨ char = '-' ∨ char = '{' ∨
        char = '}' := by
    intro char member
    rcases readBytes_chars digits char member with isHex | isDash | inRest
    · exact Or.inl isHex
    · exact Or.inr (Or.inl isDash)
    · exact Or.inr (Or.inr (Or.inr (rests char inRest)))
  split at chars
  · rename_i braces
    obtain ⟨others, listEq⟩ := List.head?_eq_some_iff.mp braces
    rw [listEq] at chars ⊢
    intro char member
    rcases List.mem_cons.mp member with isBrace | later
    · exact Or.inr (Or.inr (Or.inl isBrace))
    · exact chars char later
  · exact chars

theorem nulFree_of_uuidIn {text : String} {uuid : Uuid} (read : uuidIn text = some uuid) :
    NulFree text := by
  intro member
  have char := uuidIn_chars read '\x00' member
  revert char
  decide

theorem noColon_of_uuidIn {text : String} {uuid : Uuid} (read : uuidIn text = some uuid) :
    ':' ∉ text.toList := by
  intro member
  have char := uuidIn_chars read ':' member
  revert char
  decide

/-- UUIDs are ordered by their bytes. -/
instance : LinearOrder Uuid :=
  LinearOrder.lift' (fun uuid => uuid.bytes.map UInt8.toNat) fun left right same => by
    have bytesEq := (List.map_inj_right fun _ _ => UInt8.toNat_inj.mp).mp same
    cases left
    cases right
    simpa using bytesEq

/-- A text parameter, read as a UUID. -/
def uuidParam (text : String) : Option Uuid :=
  uuidIn (cString text)

/-- What a text parameter is read as is what its text is read as, unless it ends early. -/
theorem uuidIn_eq_some_iff {text : String} {uuid : Uuid} (read : uuidParam text = some uuid) :
    uuidIn text = some uuid ↔ NulFree text := by
  constructor
  · exact nulFree_of_uuidIn
  · intro nulFree
    rwa [uuidParam, cString_of_nulFree nulFree] at read

@[simp] theorem uuidParam_uuidOut (uuid : Uuid) : uuidParam (uuidOut uuid) = some uuid := by
  rw [uuidParam, cString_of_nulFree (nulFree_uuidOut uuid), uuidIn_uuidOut]

end Corvus.Db
