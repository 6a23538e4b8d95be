import Corvus.Resources.Base64Text
import Corvus.Resources.Handler

/-!
# Cursors in query strings

The alphabet of a cursor has `+` and `/` in it, of which the first means a space in a
query string.  No position that `list` returns is written with either of them.
-/

namespace Corvus.Resources

/-- The characters of a timestamp and an id, as `list` returns them. -/
def emittedChars : List Char :=
  "0123456789abcdefTZ:.-".toList

def Emitted (text : String) : Prop :=
  ∀ char ∈ text.toList, char ∈ emittedChars

instance (text : String) : Decidable (Emitted text) :=
  decidable_of_iff (text.toList.all fun char => emittedChars.contains char)
    (by simp [Emitted, List.all_eq_true])

/-- A byte that fills no six bits with `111110` or `111111`, wherever it stands in a
group. -/
def Harmless (byte : UInt8) : Prop :=
  byte.toNat < 128 ∧ byte.toNat % 64 < 62

instance (byte : UInt8) : Decidable (Harmless byte) :=
  inferInstanceAs (Decidable (_ ∧ _))

theorem sextet_of_harmless {first second third : UInt8} (firstHarmless : Harmless first)
    (secondHarmless : Harmless second) (thirdHarmless : Harmless third) {place : Nat}
    (within : place < 4) :
    Base64.sextet (Base64.group first second third) place < 62 := by
  obtain ⟨firstAscii, _⟩ := firstHarmless
  obtain ⟨secondAscii, _⟩ := secondHarmless
  obtain ⟨thirdAscii, low⟩ := thirdHarmless
  match place, within with
  | 0, _ => rw [Base64.sextet_zero]; exact low
  | 1, _ => rw [Base64.sextet_one]; omega
  | 2, _ => rw [Base64.sextet_two]; omega
  | 3, _ => rw [Base64.sextet_three]; omega

theorem alphabet_isAlphanum : ∀ value < 62, (alphabet value).isAlphanum = true := by
  decide

/-- Harmless bytes are written with letters, digits and padding. -/
theorem isAlphanum_of_mem_base64Encode {bytes : List UInt8}
    (harmless : ∀ byte ∈ bytes, Harmless byte) {char : Char}
    (written : char ∈ (base64Encode bytes).toList) : char.isAlphanum = true ∨ char = '=' := by
  rw [base64Encode_eq, String.toList_ofList] at written
  have withZero : ∀ byte ∈ 0 :: bytes, Harmless byte :=
    List.forall_mem_cons.mpr ⟨by decide, harmless⟩
  rcases Base64.mem_encode written with isPad | ⟨first, firstIn, second, secondIn, third, thirdIn,
    place, within, charEq⟩
  · exact Or.inr isPad
  · rw [charEq]
    exact Or.inl (alphabet_isAlphanum _ (sextet_of_harmless (withZero first firstIn)
      (withZero second secondIn) (withZero third thirdIn) within))

theorem harmless_of_emitted {text : String} (emitted : Emitted text) :
    ∀ byte ∈ bytesOf text, Harmless byte := by
  intro byte member
  rw [bytesOf_eq, List.mem_flatMap] at member
  obtain ⟨char, inText, inChar⟩ := member
  have bytesHarmless : (emittedChars.all fun char =>
      (String.utf8EncodeChar char).all fun byte => Harmless byte) = true := by decide
  rw [List.all_eq_true] at bytesHarmless
  have ofChar := bytesHarmless char (emitted char inText)
  rw [List.all_eq_true] at ofChar
  exact of_decide_eq_true (ofChar byte inChar)

theorem isAlphanum_of_mem_encodeCursor {updatedAt id : String} (timeEmitted : Emitted updatedAt)
    (idEmitted : Emitted id) {char : Char} (written : char ∈ (encodeCursor updatedAt id).toList) :
    char.isAlphanum = true ∨ char = '=' := by
  refine isAlphanum_of_mem_base64Encode (fun byte member => ?_) written
  have barBytes : bytesOf "|" = [bar] := by decide
  rw [bytesOf_append, bytesOf_append, barBytes, List.mem_append, List.mem_append,
    List.mem_singleton] at member
  rcases member with (inTime | rfl) | inId
  · exact harmless_of_emitted timeEmitted byte inTime
  · decide
  · exact harmless_of_emitted idEmitted byte inId

theorem encodeCursor_ne_empty (updatedAt id : String) : encodeCursor updatedAt id ≠ "" := by
  intro empty
  have decoded := base64Decode_base64Encode (bytesOf (updatedAt ++ "|" ++ id))
  rw [← encodeCursor, empty, bytesOf_append, bytesOf_append] at decoded
  have lengths := congrArg List.length decoded
  have bar : (bytesOf "|").length = 1 := by decide
  have nothing : (base64Decode "").length = 0 := by decide
  rw [List.length_append, List.length_append, bar, nothing] at lengths
  omega

/-- A position that `list` returns is written without `+`, `/` and `%`.  Where the decoding of
a query string changes only `+` and what follows a `%`, the handler takes the cursor as it
was written, and the position is found in it. -/
theorem cursor_survives {urlDecode : String → String}
    (plain : ∀ text, '+' ∉ text.toList → '%' ∉ text.toList → urlDecode text = text)
    {updatedAt id : String} (timeNotEmpty : updatedAt ≠ "") (idNotEmpty : id ≠ "")
    (timeEmitted : Emitted updatedAt) (idEmitted : Emitted id) :
    ('+' ∉ (encodeCursor updatedAt id).toList ∧ '/' ∉ (encodeCursor updatedAt id).toList ∧
      '%' ∉ (encodeCursor updatedAt id).toList) ∧
    (∀ request : HttpRequest,
      request.parameter "cursor" = urlDecode (encodeCursor updatedAt id) →
      optionalParameter request "cursor" = some (encodeCursor updatedAt id)) ∧
    decodeCursor (encodeCursor updatedAt id) =
      .ok { updatedAt := bytesOf updatedAt, id := bytesOf id } := by
  have absent : ∀ char : Char, char.isAlphanum = false → char ≠ '=' →
      char ∉ (encodeCursor updatedAt id).toList := by
    intro char special notPad written
    rcases isAlphanum_of_mem_encodeCursor timeEmitted idEmitted written with usual | isPad
    · rw [special] at usual
      cases usual
    · exact notPad isPad
  have noPlus := absent '+' (by decide) (by decide)
  have noPercent := absent '%' (by decide) (by decide)
  refine ⟨⟨noPlus, absent '/' (by decide) (by decide), noPercent⟩, fun request pasted => ?_, ?_⟩
  · rw [plain _ noPlus noPercent] at pasted
    rw [optionalParameter, pasted, if_neg (encodeCursor_ne_empty updatedAt id)]
  · have noBar : '|' ∉ updatedAt.toList := by
      intro member
      have isEmitted := timeEmitted '|' member
      revert isEmitted
      decide
    exact decodeCursor_encodeCursor timeNotEmpty noBar idNotEmpty

/-- A decoding that takes `+` for a space. -/
def spaceForPlus (text : String) : String :=
  String.ofList (text.toList.map fun char => if char = '+' then ' ' else char)

theorem cursor_survives_page :
    '+' ∉ (encodeCursor "2024-05-01T10:00:00.000001Z" "5f0c").toList ∧
      decodeCursor (encodeCursor "2024-05-01T10:00:00.000001Z" "5f0c") =
        .ok { updatedAt := bytesOf "2024-05-01T10:00:00.000001Z", id := bytesOf "5f0c" } := by
  have plain : ∀ text : String, '+' ∉ text.toList → '%' ∉ text.toList →
      spaceForPlus text = text := by
    intro text noPlus _
    have kept : text.toList.map (fun char => if char = '+' then ' ' else char) =
        text.toList.map id := by
      apply List.map_congr_left
      intro char member
      apply if_neg
      rintro rfl
      exact noPlus member
    rw [spaceForPlus, kept, List.map_id, String.ofList_toList]
  obtain ⟨⟨noPlus, _⟩, _, decoded⟩ := @cursor_survives spaceForPlus plain
    "2024-05-01T10:00:00.000001Z" "5f0c" (by decide) (by decide)
    (by decide) (by decide)
  exact ⟨noPlus, decoded⟩

end Corvus.Resources
