import Corvus.Json
import Corvus.Db.Timestamp

/-!
# What the service takes from its libraries

The JSON libraries and the database's own conversions are parameters.  `Lawful`
states what the service relies on; the last section gives functions that have
these properties.
-/

namespace Corvus

open Corvus.Db

structure Platform where
  /-- `nlohmann::json::parse`; `none` is its exception. -/
  parse : String → Option Json
  /-- `nlohmann::json::dump`. -/
  dump : Json → String
  /-- `Json::parseFromStream` with a default `CharReaderBuilder`. -/
  charReader : String → Option Json
  /-- What the `jsonb` column of the resources holds. -/
  Jsonb : Type
  /-- The cast of a text to `jsonb`; `none` is its error. -/
  jsonbIn : String → Option Jsonb
  /-- The cast of a `jsonb` value to text. -/
  jsonbOut : Jsonb → String
  /-- The cast of a text to `timestamptz`. -/
  timestamptz : String → Option Timestamp

namespace Platform

/-- The default nesting limit of a `CharReader`. -/
def stackLimit : Nat := 1000

/-- The values a `nlohmann::json` has here: what was parsed, fields of values, texts, and
objects of values, whose keys are those of a map. -/
inductive IsValue (platform : Platform) : Json → Prop where
  | parsed {text : String} {json : Json} (read : platform.parse text = some json) :
      IsValue platform json
  | field {json value : Json} {name : String} (isValue : IsValue platform json)
      (found : json.field? name = some value) : IsValue platform value
  | string (text : String) : IsValue platform (.string text)
  | object {fields : List (String × Json)} (sorted : (fields.map Prod.fst).Pairwise (· < ·))
      (values : ∀ field ∈ fields, IsValue platform field.2) : IsValue platform (.object fields)

/-- A value survives being written and parsed. -/
structure RoundTrips (platform : Platform) : Prop where
  parse_dump : ∀ json, platform.IsValue json → platform.parse (platform.dump json) = some json
  parse_empty : platform.parse "" = none

/-- The text of a stored document can be parsed. -/
structure ReadsDocuments (platform : Platform) : Prop where
  parse_jsonb_out : ∀ stored, ∃ document,
    platform.parse (platform.jsonbOut stored) = some document

/-- The text a timestamp is selected as is cast back to it. -/
structure ReadsTimestamps (platform : Platform) : Prop where
  timestamptz_to_char : ∀ time, platform.timestamptz time.toChar = some time

structure Lawful (platform : Platform) : Prop extends platform.RoundTrips,
    platform.ReadsDocuments, platform.ReadsTimestamps where
  depth_jsonb : ∀ text document stored back, platform.parse text = some document →
    platform.jsonbIn text = some stored →
    platform.parse (platform.jsonbOut stored) = some back → back.depth = document.depth
  char_reader_dump : ∀ json, platform.IsValue json →
    ((platform.charReader (platform.dump json)).isSome = true ↔ json.depth ≤ stackLimit)

variable {platform : Platform}

/-- Text that can be parsed is not empty. -/
theorem RoundTrips.dump_ne_empty (roundTrips : platform.RoundTrips) {json : Json}
    (isValue : platform.IsValue json) : platform.dump json ≠ "" := by
  intro empty
  have parsed := roundTrips.parse_dump json isValue
  rw [empty, roundTrips.parse_empty] at parsed
  cases parsed

/-! ## A platform with these properties -/

def reference : Platform where
  parse := Json.read
  dump := Json.print []
  charReader text := (Json.read text).filter fun json => decide (json.depth ≤ stackLimit)
  Jsonb := Json
  jsonbIn := Json.read
  jsonbOut := Json.print [' ']
  timestamptz := Timestamp.ofText

theorem read_dump (json : Json) : Json.read (Json.print [] json) = some json :=
  Json.read_print (by simp) json

theorem read_spaced (json : Json) : Json.read (Json.print [' '] json) = some json :=
  Json.read_print (by simp) json

theorem reference_lawful : reference.Lawful where
  parse_dump json _ := read_dump json
  parse_empty := by
    show Json.read "" = none
    simp [Json.read, Json.readValue]
  parse_jsonb_out stored := ⟨stored, read_spaced stored⟩
  depth_jsonb text document stored back parsed cast printed := by
    have kept : document = stored := Option.some.inj (parsed.symm.trans cast)
    have same : stored = back := Option.some.inj ((read_spaced stored).symm.trans printed)
    rw [kept, same]
  char_reader_dump json _ := by
    show ((Json.read (Json.print [] json)).filter _).isSome = true ↔ _
    simp [read_dump]
  timestamptz_to_char time := by
    have cast : reference.timestamptz = Timestamp.ofText := rfl
    rw [cast, Timestamp.ofText_toChar]

end Platform

end Corvus
