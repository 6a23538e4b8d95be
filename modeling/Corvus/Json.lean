import Corvus.Hex
import Mathlib.Data.List.TakeWhile

/-!
# JSON values and their text

Numbers are carried as their text; the fields of an object are listed in the
order in which they are printed.  `print` writes a value the way libraries do by
default, with `gap` after every comma and colon, and `read` reads such text back.
-/

namespace Corvus

/-- The characters numbers are written with. -/
def isNumberChar (char : Char) : Bool :=
  char.isDigit || char == '-' || char == '+' || char == '.' || char == 'e' || char == 'E'

/-- The text of a number. -/
structure NumberLiteral where
  chars : List Char
  nonempty : chars ≠ []
  number_chars : ∀ char ∈ chars, isNumberChar char = true

inductive Json where
  | null
  | bool (value : Bool)
  | number (literal : NumberLiteral)
  | string (text : String)
  | array (items : List Json)
  | object (fields : List (String × Json))

namespace Json

def isObject : Json → Bool
  | .object _ => true
  | _ => false

/-- The value of a field, if this is an object with such a field. -/
def field? (json : Json) (name : String) : Option Json :=
  match json with
  | .object fields => fields.lookup name
  | _ => none

mutual

/-- The number of values on the longest path from the root down. -/
def depth : Json → Nat
  | .array items => 1 + depthItems items
  | .object fields => 1 + depthFields fields
  | _ => 1

def depthItems : List Json → Nat
  | [] => 0
  | item :: rest => max item.depth (depthItems rest)

def depthFields : List (String × Json) → Nat
  | [] => 0
  | (_, value) :: rest => max value.depth (depthFields rest)

end

/-! ## Printing -/

/-- How a character of a string is written. -/
def escapeChar (char : Char) : List Char :=
  if char = '"' then ['\\', '"']
  else if char = '\\' then ['\\', '\\']
  else if char = '\n' then ['\\', 'n']
  else if char = '\r' then ['\\', 'r']
  else if char = '\t' then ['\\', 't']
  else if char = '\x08' then ['\\', 'b']
  else if char = '\x0c' then ['\\', 'f']
  else if char.toNat < 32 then
    ['\\', 'u', '0', '0', hexDigit (char.toNat / 16), hexDigit (char.toNat % 16)]
  else [char]

def quote (text : String) : List Char :=
  '"' :: (text.toList.flatMap escapeChar ++ ['"'])

mutual

def printChars (gap : List Char) : Json → List Char
  | .null => ['n', 'u', 'l', 'l']
  | .bool true => ['t', 'r', 'u', 'e']
  | .bool false => ['f', 'a', 'l', 's', 'e']
  | .number literal => literal.chars
  | .string text => quote text
  | .array [] => ['[', ']']
  | .array (item :: rest) => '[' :: (printChars gap item ++ printItems gap rest)
  | .object [] => ['{', '}']
  | .object ((name, value) :: rest) =>
      '{' :: (quote name ++ ':' :: (gap ++ (printChars gap value ++ printFields gap rest)))

/-- The items of an array after the first, and the closing bracket. -/
def printItems (gap : List Char) : List Json → List Char
  | [] => [']']
  | item :: rest => ',' :: (gap ++ (printChars gap item ++ printItems gap rest))

/-- The fields of an object after the first, and the closing brace. -/
def printFields (gap : List Char) : List (String × Json) → List Char
  | [] => ['}']
  | (name, value) :: rest =>
      ',' :: (gap ++ (quote name ++
        ':' :: (gap ++ (printChars gap value ++ printFields gap rest))))

end

def print (gap : List Char) (json : Json) : String :=
  String.ofList (json.printChars gap)

/-! ## Printed text holds no NUL -/

theorem nul_not_mem_escapeChar (char : Char) : '\x00' ∉ escapeChar char := by
  unfold escapeChar
  split_ifs with quoted backslash newline carriage tab backspace formFeed control
  · decide
  · decide
  · decide
  · decide
  · decide
  · decide
  · decide
  · have high := (hexDigit_ne (char.toNat / 16) (by omega)).1.symm
    have low := (hexDigit_ne (char.toNat % 16) (by omega)).1.symm
    simp [high, low]
  · intro member
    obtain rfl := List.mem_singleton.mp member
    exact control (by decide)

theorem nul_not_mem_quote (text : String) : '\x00' ∉ quote text := by
  simp [quote, nul_not_mem_escapeChar]

mutual

theorem nul_not_mem_printChars : ∀ json : Json, '\x00' ∉ json.printChars []
  | .null => by simp [printChars]
  | .bool true => by simp [printChars]
  | .bool false => by simp [printChars]
  | .number literal => by
      intro member
      have number := literal.number_chars _ member
      revert number
      decide
  | .string text => by
      simpa only [printChars] using nul_not_mem_quote text
  | .array [] => by simp [printChars]
  | .array (item :: rest) => by
      simp [printChars, nul_not_mem_printChars item, nul_not_mem_printItems rest]
  | .object [] => by simp [printChars]
  | .object ((name, value) :: rest) => by
      simp [printChars, nul_not_mem_quote, nul_not_mem_printChars value,
        nul_not_mem_printFields rest]

theorem nul_not_mem_printItems : ∀ items : List Json, '\x00' ∉ printItems [] items
  | [] => by simp [printItems]
  | item :: rest => by
      simp [printItems, nul_not_mem_printChars item, nul_not_mem_printItems rest]

theorem nul_not_mem_printFields : ∀ fields : List (String × Json),
    '\x00' ∉ printFields [] fields
  | [] => by simp [printFields]
  | (name, value) :: rest => by
      simp [printFields, nul_not_mem_quote, nul_not_mem_printChars value,
        nul_not_mem_printFields rest]

end

/-! ## Reading -/

/-- The rest of a string after its opening quote. -/
def readText : List Char → Option (List Char × List Char)
  | [] => none
  | '"' :: rest => some ([], rest)
  | '\\' :: 'u' :: _ :: _ :: high :: low :: rest =>
      (readText rest).map fun text =>
        (Char.ofNat (16 * (hexValue? high).getD 0 + (hexValue? low).getD 0) :: text.1, text.2)
  | '\\' :: code :: rest =>
      (readText rest).map fun text =>
        ((if code = 'n' then '\n' else if code = 'r' then '\r' else if code = 't' then '\t'
          else if code = 'b' then '\x08' else if code = 'f' then '\x0c' else code) :: text.1,
          text.2)
  | char :: rest => (readText rest).map fun text => (char :: text.1, text.2)

def skipGap (input : List Char) : List Char :=
  input.dropWhile (· == ' ')

/-- What follows the given characters. -/
def readWord : List Char → List Char → Option (List Char)
  | [], input => some input
  | _ :: _, [] => none
  | expected :: word, char :: rest =>
      if expected = char then readWord word rest else none

/-- The literal at the start of the input. -/
def readNumber (input : List Char) : Option (Json × List Char) :=
  let chars := input.takeWhile isNumberChar
  if nonempty : chars ≠ [] then
    some (.number ⟨chars, nonempty, fun _ member => List.mem_takeWhile_imp member⟩,
      input.dropWhile isNumberChar)
  else none

mutual

def readValue : Nat → List Char → Option (Json × List Char)
  | 0, _ => none
  | fuel + 1, input =>
      match input with
      | [] => none
      | head :: rest =>
          if head = 'n' then (readWord ['u', 'l', 'l'] rest).map (Json.null, ·)
          else if head = 't' then (readWord ['r', 'u', 'e'] rest).map (Json.bool true, ·)
          else if head = 'f' then
            (readWord ['a', 'l', 's', 'e'] rest).map (Json.bool false, ·)
          else if head = '"' then
            (readText rest).map fun text => (.string (String.ofList text.1), text.2)
          else if head = '[' then
            if rest.head? = some ']' then some (.array [], rest.drop 1)
            else (readValue fuel rest).bind fun item =>
              (readItems fuel item.2).map fun items => (.array (item.1 :: items.1), items.2)
          else if head = '{' then
            if rest.head? = some '}' then some (.object [], rest.drop 1)
            else (readField fuel rest).bind fun field =>
              (readFields fuel field.2).map fun fields =>
                (.object (field.1 :: fields.1), fields.2)
          else readNumber input

/-- A field from its opening quote on. -/
def readField : Nat → List Char → Option ((String × Json) × List Char)
  | 0, _ => none
  | fuel + 1, input =>
      (readText (input.drop 1)).bind fun name =>
        (readValue fuel (skipGap (name.2.drop 1))).map fun value =>
          ((String.ofList name.1, value.1), value.2)

def readItems : Nat → List Char → Option (List Json × List Char)
  | 0, _ => none
  | fuel + 1, input =>
      match input with
      | [] => none
      | head :: rest =>
          if head = ']' then some ([], rest)
          else if head = ',' then
            (readValue fuel (skipGap rest)).bind fun item =>
              (readItems fuel item.2).map fun items => (item.1 :: items.1, items.2)
          else none

def readFields : Nat → List Char → Option (List (String × Json) × List Char)
  | 0, _ => none
  | fuel + 1, input =>
      match input with
      | [] => none
      | head :: rest =>
          if head = '}' then some ([], rest)
          else if head = ',' then
            (readField fuel (skipGap rest)).bind fun field =>
              (readFields fuel field.2).map fun fields => (field.1 :: fields.1, fields.2)
          else none

end

/-- Read a whole text. -/
def read (text : String) : Option Json :=
  (readValue text.toList.length text.toList).bind fun outcome =>
    if outcome.2 = [] then some outcome.1 else none

/-! ## Reading what was printed -/

mutual

/-- The fuel that suffices for reading a value. -/
def size : Json → Nat
  | .array (item :: rest) => 1 + item.size + sizeItems rest
  | .object ((_, value) :: rest) => 2 + value.size + sizeFields rest
  | _ => 1

def sizeItems : List Json → Nat
  | [] => 1
  | item :: rest => 1 + item.size + sizeItems rest

def sizeFields : List (String × Json) → Nat
  | [] => 1
  | (_, value) :: rest => 2 + value.size + sizeFields rest

end

mutual

theorem size_le_length (gap : List Char) : ∀ json : Json,
    json.size ≤ (json.printChars gap).length
  | .null => by simp [size, printChars]
  | .bool true => by simp [size, printChars]
  | .bool false => by simp [size, printChars]
  | .number literal => by
      have := List.length_pos_iff.mpr literal.nonempty
      simp only [size, printChars]
      omega
  | .string text => by simp [size, printChars, quote]
  | .array [] => by simp [size, printChars]
  | .array (item :: rest) => by
      have first := size_le_length gap item
      have others := sizeItems_le_length gap rest
      simp only [size, printChars, List.length_cons, List.length_append]
      omega
  | .object [] => by simp [size, printChars]
  | .object ((name, value) :: rest) => by
      have first := size_le_length gap value
      have others := sizeFields_le_length gap rest
      simp only [size, printChars, List.length_cons, List.length_append]
      omega

theorem sizeItems_le_length (gap : List Char) : ∀ items : List Json,
    sizeItems items ≤ (printItems gap items).length
  | [] => by simp [sizeItems, printItems]
  | item :: rest => by
      have first := size_le_length gap item
      have others := sizeItems_le_length gap rest
      simp only [sizeItems, printItems, List.length_cons, List.length_append]
      omega

theorem sizeFields_le_length (gap : List Char) : ∀ fields : List (String × Json),
    sizeFields fields ≤ (printFields gap fields).length
  | [] => by simp [sizeFields, printFields]
  | (name, value) :: rest => by
      have first := size_le_length gap value
      have others := sizeFields_le_length gap rest
      simp only [sizeFields, printFields, List.length_cons, List.length_append]
      omega

end

/-- Every way of writing a character is read back as that character. -/
theorem readText_escapeChar (char : Char) (rest : List Char) :
    readText (escapeChar char ++ rest) =
      (readText rest).map fun text => (char :: text.1, text.2) := by
  unfold escapeChar
  by_cases quoted : char = '"'
  · subst quoted
    simp [readText]
  by_cases backslash : char = '\\'
  · subst backslash
    simp [readText]
  by_cases newline : char = '\n'
  · subst newline
    simp [readText]
  by_cases carriage : char = '\r'
  · subst carriage
    simp [readText]
  by_cases tab : char = '\t'
  · subst tab
    simp [readText]
  by_cases backspace : char = '\x08'
  · subst backspace
    simp [readText]
  by_cases formFeed : char = '\x0c'
  · subst formFeed
    simp [readText]
  simp only [quoted, backslash, newline, carriage, tab, backspace, formFeed, if_false]
  by_cases control : char.toNat < 32
  · have high := hexValue?_hexDigit (char.toNat / 16) (by omega)
    have low := hexValue?_hexDigit (char.toNat % 16) (by omega)
    have whole : 16 * (char.toNat / 16) + char.toNat % 16 = char.toNat := by omega
    simp only [control, if_true, List.cons_append, List.nil_append, readText, high, low,
      Option.getD_some, whole,
      Char.ofNat_toNat]
  · simp only [control, if_false, List.cons_append, List.nil_append]
    rw [readText.eq_def]
    split <;> simp_all

theorem readText_quote (text : String) (rest : List Char) :
    readText (text.toList.flatMap escapeChar ++ '"' :: rest) = some (text.toList, rest) := by
  induction text.toList with
  | nil => simp [readText]
  | cons char chars ih =>
      rw [List.flatMap_cons, List.append_assoc, readText_escapeChar, ih]
      rfl

/-- The text after a value does not start with a character of a number. -/
def EndsNumber (rest : List Char) : Prop :=
  ∀ char ∈ rest.head?, isNumberChar char = false

theorem endsNumber_cons {char : Char} {rest : List Char} (ends : isNumberChar char = false) :
    EndsNumber (char :: rest) := by
  simpa [EndsNumber] using ends

theorem endsNumber_printItems (gap : List Char) (items : List Json) (rest : List Char) :
    EndsNumber (printItems gap items ++ rest) := by
  cases items <;> exact endsNumber_cons (by decide)

theorem endsNumber_printFields (gap : List Char) (fields : List (String × Json))
    (rest : List Char) : EndsNumber (printFields gap fields ++ rest) := by
  rcases fields with _ | ⟨⟨name, value⟩, fields⟩ <;> exact endsNumber_cons (by decide)

theorem ne_of_isNumberChar {char : Char} (number : isNumberChar char = true) :
    char ≠ 'n' ∧ char ≠ 't' ∧ char ≠ 'f' ∧ char ≠ '"' ∧ char ≠ '[' ∧ char ≠ '{' ∧
      char ≠ ']' ∧ char ≠ ' ' := by
  refine ⟨?_, ?_, ?_, ?_, ?_, ?_, ?_, ?_⟩ <;> (rintro rfl; revert number; decide)

theorem readNumber_literal (literal : NumberLiteral) {rest : List Char}
    (ends : EndsNumber rest) :
    readNumber (literal.chars ++ rest) = some (.number literal, rest) := by
  have restTaken : rest.takeWhile isNumberChar = [] := by
    cases rest with
    | nil => rfl
    | cons char rest => simp [ends char rfl]
  have restDropped : rest.dropWhile isNumberChar = rest := by
    cases rest with
    | nil => rfl
    | cons char rest => simp [ends char rfl]
  have taken : (literal.chars ++ rest).takeWhile isNumberChar = literal.chars := by
    rw [List.takeWhile_append_of_pos literal.number_chars, restTaken, List.append_nil]
  have dropped : (literal.chars ++ rest).dropWhile isNumberChar = rest := by
    rw [List.dropWhile_append_of_pos literal.number_chars, restDropped]
  simp only [readNumber, taken, dropped, literal.nonempty, ne_eq, not_false_eq_true, dite_true]

/-- Values start with a character that is neither a closing bracket nor a space. -/
theorem printChars_head (gap : List Char) (json : Json) :
    ∃ head tail, json.printChars gap = head :: tail ∧ head ≠ ']' ∧ head ≠ ' ' := by
  match json with
  | .null => exact ⟨_, _, rfl, by decide, by decide⟩
  | .bool true => exact ⟨_, _, rfl, by decide, by decide⟩
  | .bool false => exact ⟨_, _, rfl, by decide, by decide⟩
  | .number literal =>
      cases charsEq : literal.chars with
      | nil => exact (literal.nonempty charsEq).elim
      | cons head tail =>
          have number := literal.number_chars head (charsEq ▸ List.mem_cons_self)
          obtain ⟨_, _, _, _, _, _, notBracket, notSpace⟩ := ne_of_isNumberChar number
          exact ⟨head, tail, charsEq, notBracket, notSpace⟩
  | .string text => exact ⟨_, _, rfl, by decide, by decide⟩
  | .array [] => exact ⟨_, _, rfl, by decide, by decide⟩
  | .array (_ :: _) => exact ⟨_, _, rfl, by decide, by decide⟩
  | .object [] => exact ⟨_, _, rfl, by decide, by decide⟩
  | .object (_ :: _) => exact ⟨_, _, rfl, by decide, by decide⟩

theorem skipGap_append {gap rest : List Char} (spaces : ∀ char ∈ gap, char = ' ')
    (stops : ∃ head tail, rest = head :: tail ∧ head ≠ ' ') :
    skipGap (gap ++ rest) = rest := by
  obtain ⟨head, tail, rfl, notSpace⟩ := stops
  rw [skipGap, List.dropWhile_append_of_pos (by simpa using spaces)]
  simp [notSpace]

theorem succ_of_size_le {json : Json} {fuel : Nat} (enough : json.size ≤ fuel) :
    ∃ less, fuel = less + 1 := by
  have positive : 1 ≤ json.size := by
    match json with
    | .null | .bool _ | .number _ | .string _ | .array [] | .object [] => simp [size]
    | .array (_ :: _) => simp only [size]; omega
    | .object ((_, _) :: _) => simp only [size]; omega
  exact ⟨fuel - 1, by omega⟩

theorem skipGap_print {gap : List Char} (spaces : ∀ char ∈ gap, char = ' ') (json : Json)
    (rest : List Char) :
    skipGap (gap ++ (json.printChars gap ++ rest)) = json.printChars gap ++ rest := by
  obtain ⟨head, tail, printed, _, notSpace⟩ := printChars_head gap json
  rw [printed]
  exact skipGap_append spaces ⟨head, tail ++ rest, rfl, notSpace⟩

/-- A field is read back once its value is. -/
theorem readField_print {gap : List Char} (spaces : ∀ char ∈ gap, char = ' ') (name : String)
    {value : Json} {fuel : Nat} {rest : List Char}
    (valueRead : readValue fuel (value.printChars gap ++ rest) = some (value, rest)) :
    readField (fuel + 1) (quote name ++ ':' :: (gap ++ (value.printChars gap ++ rest))) =
      some ((name, value), rest) := by
  simp [readField, quote, readText_quote, skipGap_print spaces, valueRead]

mutual

theorem readValue_printChars {gap : List Char} (spaces : ∀ char ∈ gap, char = ' ') :
    ∀ (json : Json) (fuel : Nat) (rest : List Char), json.size ≤ fuel → EndsNumber rest →
      readValue fuel (json.printChars gap ++ rest) = some (json, rest)
  | .null, fuel, rest, enough, _ => by
      obtain ⟨less, rfl⟩ := succ_of_size_le enough
      simp [printChars, readValue, readWord]
  | .bool true, fuel, rest, enough, _ => by
      obtain ⟨less, rfl⟩ := succ_of_size_le enough
      simp [printChars, readValue, readWord]
  | .bool false, fuel, rest, enough, _ => by
      obtain ⟨less, rfl⟩ := succ_of_size_le enough
      simp [printChars, readValue, readWord]
  | .number literal, fuel, rest, enough, ends => by
      obtain ⟨less, rfl⟩ := succ_of_size_le enough
      obtain ⟨head, tail, charsEq, _⟩ := printChars_head gap (.number literal)
      simp only [printChars] at charsEq
      have number := literal.number_chars head (charsEq ▸ List.mem_cons_self)
      obtain ⟨notN, notT, notF, notQuote, notOpen, notBrace, _⟩ := ne_of_isNumberChar number
      have whole := readNumber_literal literal ends
      rw [charsEq, List.cons_append] at whole
      simp only [printChars, charsEq, List.cons_append, readValue, notN, notT, notF, notQuote,
        notOpen, notBrace, if_false, whole]
  | .string text, fuel, rest, enough, _ => by
      obtain ⟨less, rfl⟩ := succ_of_size_le enough
      simp [printChars, quote, readValue, readText_quote]
  | .array [], fuel, rest, enough, _ => by
      obtain ⟨less, rfl⟩ := succ_of_size_le enough
      simp [printChars, readValue]
  | .array (item :: items), fuel, rest, enough, _ => by
      obtain ⟨less, rfl⟩ := succ_of_size_le enough
      simp only [size] at enough
      have first := readValue_printChars spaces item less (printItems gap items ++ rest)
        (by omega) (endsNumber_printItems gap items rest)
      have others := readItems_printItems spaces items less rest (by omega)
      obtain ⟨head, tail, printed, notBracket, _⟩ := printChars_head gap item
      rw [printed, List.cons_append] at first
      simp [printChars, readValue, printed, notBracket, first, others]
  | .object [], fuel, rest, enough, _ => by
      obtain ⟨less, rfl⟩ := succ_of_size_le enough
      simp [printChars, readValue]
  | .object ((name, value) :: fields), fuel, rest, enough, _ => by
      obtain ⟨less, rfl⟩ := succ_of_size_le enough
      simp only [size] at enough
      obtain ⟨fieldFuel, rfl⟩ : ∃ fieldFuel, less = fieldFuel + 1 := ⟨less - 1, by omega⟩
      have first := readField_print spaces name (readValue_printChars spaces value fieldFuel
        (printFields gap fields ++ rest) (by omega) (endsNumber_printFields gap fields rest))
      have others := readFields_printFields spaces fields (fieldFuel + 1) rest (by omega)
      have opened : (quote name ++ ':' :: (gap ++ (value.printChars gap ++
          (printFields gap fields ++ rest)))).head? = some '"' := rfl
      simp only [printChars, List.cons_append, List.append_assoc, readValue, Char.reduceEq,
        if_false, if_true, opened, Option.some.injEq, first, Option.bind_some, others,
        Option.map_some]

theorem readItems_printItems {gap : List Char} (spaces : ∀ char ∈ gap, char = ' ') :
    ∀ (items : List Json) (fuel : Nat) (rest : List Char), sizeItems items ≤ fuel →
      readItems fuel (printItems gap items ++ rest) = some (items, rest)
  | [], 0, _, enough => by simp [sizeItems] at enough
  | [], fuel + 1, rest, _ => by simp [printItems, readItems]
  | _ :: _, 0, _, enough => by simp [sizeItems] at enough
  | item :: items, fuel + 1, rest, enough => by
      simp only [sizeItems] at enough
      have first := readValue_printChars spaces item fuel (printItems gap items ++ rest)
        (by omega) (endsNumber_printItems gap items rest)
      have others := readItems_printItems spaces items fuel rest (by omega)
      simp [printItems, readItems, skipGap_print spaces, first, others]

theorem readFields_printFields {gap : List Char} (spaces : ∀ char ∈ gap, char = ' ') :
    ∀ (fields : List (String × Json)) (fuel : Nat) (rest : List Char),
      sizeFields fields ≤ fuel →
      readFields fuel (printFields gap fields ++ rest) = some (fields, rest)
  | [], 0, _, enough => by simp [sizeFields] at enough
  | [], fuel + 1, rest, _ => by simp [printFields, readFields]
  | (_, _) :: _, 0, _, enough => by simp [sizeFields] at enough
  | (name, value) :: fields, fuel + 1, rest, enough => by
      simp only [sizeFields] at enough
      obtain ⟨fieldFuel, fuelEq⟩ : ∃ fieldFuel, fuel = fieldFuel + 1 := ⟨fuel - 1, by omega⟩
      have first := readField_print spaces name (readValue_printChars spaces value fieldFuel
        (printFields gap fields ++ rest) (by omega) (endsNumber_printFields gap fields rest))
      rw [← fuelEq] at first
      have others := readFields_printFields spaces fields fuel rest (by omega)
      have skipped : skipGap (gap ++ (quote name ++ ':' :: (gap ++ (value.printChars gap ++
          (printFields gap fields ++ rest))))) = quote name ++ ':' :: (gap ++
          (value.printChars gap ++ (printFields gap fields ++ rest))) :=
        skipGap_append spaces ⟨_, _, rfl, by decide⟩
      simp only [printFields, List.cons_append, List.append_assoc, readFields, Char.reduceEq,
        if_false, if_true, skipped, first, Option.bind_some, others, Option.map_some]

end

/-- Printed values are read back. -/
theorem read_print {gap : List Char} (spaces : ∀ char ∈ gap, char = ' ') (json : Json) :
    read (json.print gap) = some json := by
  have enough := size_le_length gap json
  have whole := readValue_printChars spaces json _ [] enough (by simp [EndsNumber])
  rw [List.append_nil] at whole
  simp only [read, print, String.toList_ofList, whole, Option.bind_some, if_true]

end Json

end Corvus
