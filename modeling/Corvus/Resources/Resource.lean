import Corvus.Platform

/-!
# Resources and the requests that write them

A resource travels as a JSON object, in responses and in the cache.  Requests are
checked field by field before anything is written; the first check that fails
names its field.
-/

namespace Corvus.Resources

def kNameMaxLen : Nat := 256
def kKindMaxLen : Nat := 64
def kStatusMaxLen : Nat := 32
def kMetadataMaxBytes : Nat := 16 * 1024

structure ResourceValidationError where
  message : String
  deriving DecidableEq, Repr

structure Resource where
  id : String
  clientId : String
  kind : String
  name : String
  status : String
  metadata : Json
  createdAt : String
  updatedAt : String

/-- `to_json`; the fields stand in the order of the map that holds them. -/
def toJson (resource : Resource) : Json :=
  .object
    [("client_id", .string resource.clientId), ("created_at", .string resource.createdAt),
      ("id", .string resource.id), ("kind", .string resource.kind),
      ("metadata", resource.metadata), ("name", .string resource.name),
      ("status", .string resource.status), ("updated_at", .string resource.updatedAt)]

/-- `j.at(name).get<std::string>()`; `none` is an exception of the library. -/
def stringAt (json : Json) (name : String) : Option String :=
  match json.field? name with
  | some (.string text) => some text
  | _ => none

/-- `from_json`. -/
def fromJson (json : Json) : Option Resource := do
  let id ← stringAt json "id"
  let clientId ← stringAt json "client_id"
  let kind ← stringAt json "kind"
  let name ← stringAt json "name"
  let status ← stringAt json "status"
  let metadata ← json.field? "metadata"
  let createdAt ← stringAt json "created_at"
  let updatedAt ← stringAt json "updated_at"
  return { id, clientId, kind, name, status, metadata, createdAt, updatedAt }

/-- A resource survives its JSON form. -/
@[simp] theorem fromJson_toJson (resource : Resource) :
    fromJson (toJson resource) = some resource := rfl

/-- Beside the metadata, the JSON form of a resource is flat. -/
theorem depth_toJson (resource : Resource) :
    (toJson resource).depth = 1 + resource.metadata.depth := by
  have positive : 1 ≤ resource.metadata.depth := by
    cases resource.metadata <;> simp [Json.depth]
  simp only [toJson, Json.depth, Json.depthFields]
  omega

theorem isValue_toJson {platform : Platform} {resource : Resource}
    (isValue : platform.IsValue resource.metadata) : platform.IsValue (toJson resource) := by
  refine .object ?_ ?_
  · simp only [List.map_cons, List.map_nil]
    decide
  · intro field member
    simp only [List.mem_cons, List.not_mem_nil, or_false] at member
    rcases member with rfl | rfl | rfl | rfl | rfl | rfl | rfl | rfl
    case inr.inr.inr.inr.inl => exact isValue
    all_goals exact .string _

/-! ## Requests -/

structure CreateResourceRequest where
  kind : String
  name : String
  status : Option String
  metadata : Option Json

structure UpdateResourceRequest where
  name : Option String
  status : Option String
  metadata : Option Json

abbrev Validated (α : Type) := Except ResourceValidationError α

def reject {α : Type} (message : String) : Validated α :=
  .error { message }

def requireNonEmpty (field value : String) : Validated Unit :=
  if value = "" then reject (field ++ " must not be empty") else .ok ()

/-- Lengths are counted in bytes. -/
def requireMaxLength (field value : String) (max : Nat) : Validated Unit :=
  if value.utf8ByteSize > max then
    reject (field ++ " exceeds maximum length of " ++ toString max ++ " characters")
  else .ok ()

def validateText (field : String) (max : Nat) (value : String) : Validated Unit := do
  requireNonEmpty field value
  requireMaxLength field value max

def validateKind (kind : String) : Validated Unit := validateText "kind" kKindMaxLen kind
def validateName (name : String) : Validated Unit := validateText "name" kNameMaxLen name
def validateStatus (status : String) : Validated Unit :=
  validateText "status" kStatusMaxLen status

def validateMetadata (platform : Platform) (metadata : Json) : Validated Unit :=
  if !metadata.isObject then reject "metadata must be a JSON object"
  else if (platform.dump metadata).utf8ByteSize > kMetadataMaxBytes then
    reject ("metadata exceeds maximum size of " ++ toString kMetadataMaxBytes ++ " bytes")
  else .ok ()

def requireString (body : Json) (field : String) : Validated String :=
  match body.field? field with
  | none => reject (field ++ " is required")
  | some (.string text) => .ok text
  | some _ => reject (field ++ " must be a string")

def optionalString (body : Json) (field : String) : Validated (Option String) :=
  match body.field? field with
  | none => .ok none
  | some .null => .ok none
  | some (.string text) => .ok (some text)
  | some _ => reject (field ++ " must be a string")

def optionalObject (body : Json) (field : String) : Validated (Option Json) :=
  match body.field? field with
  | none => .ok none
  | some .null => .ok none
  | some (.object fields) => .ok (some (.object fields))
  | some _ => reject (field ++ " must be a JSON object")

/-- Check a field that may be missing. -/
def validateIfPresent {α : Type} (check : α → Validated Unit) : Option α → Validated Unit
  | none => .ok ()
  | some value => check value

def parseCreateRequest (platform : Platform) (body : Json) :
    Validated CreateResourceRequest := do
  if !body.isObject then reject "request body must be a JSON object"
  let kind ← requireString body "kind"
  let name ← requireString body "name"
  let status ← optionalString body "status"
  let metadata ← optionalObject body "metadata"
  validateKind kind
  validateName name
  validateIfPresent validateStatus status
  validateIfPresent (validateMetadata platform) metadata
  return { kind, name, status, metadata }

def parseUpdateRequest (platform : Platform) (body : Json) :
    Validated UpdateResourceRequest := do
  if !body.isObject then reject "request body must be a JSON object"
  let name ← optionalString body "name"
  let status ← optionalString body "status"
  let metadata ← optionalObject body "metadata"
  if name.isNone && status.isNone && metadata.isNone then
    reject "request body must contain at least one of: name, status, metadata"
  validateIfPresent validateName name
  validateIfPresent validateStatus status
  validateIfPresent (validateMetadata platform) metadata
  return { name, status, metadata }

end Corvus.Resources
