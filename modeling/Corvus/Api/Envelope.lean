import Corvus.Api.Response

/-!
# Envelopes as JSON

`to_json` writes an envelope, leaving out what is not set.  A client that knows the
format reads the same envelope back.
-/

namespace Corvus.Api

/-! ## Writing -/

/-- `to_string`. -/
def ErrorCode.toString : ErrorCode → String
  | .internalError => "INTERNAL_ERROR"
  | .notFound => "NOT_FOUND"
  | .badRequest => "BAD_REQUEST"
  | .unauthorized => "UNAUTHORIZED"
  | .forbidden => "FORBIDDEN"
  | .conflict => "CONFLICT"
  | .tooManyRequests => "TOO_MANY_REQUESTS"
  | .unprocessableEntity => "UNPROCESSABLE_ENTITY"
  | .resourceNotFound => "RESOURCE_NOT_FOUND"
  | .resourceAlreadyExists => "RESOURCE_ALREADY_EXISTS"
  | .resourceInvalidState => "RESOURCE_INVALID_STATE"
  | .quotaExceeded => "QUOTA_EXCEEDED"
  | .policyDenied => "POLICY_DENIED"
  | .payloadTooLarge => "PAYLOAD_TOO_LARGE"
  | .serviceUnavailable => "SERVICE_UNAVAILABLE"

def ApiError.toJson (error : ApiError) : Json :=
  .object [("code", .string error.code.toString), ("message", .string error.message)]

/-- A field that is left out if it is not set. -/
def setField {α : Type} (name : String) (write : α → Json) (value : Option α) :
    List (String × Json) :=
  (value.map fun present => (name, write present)).toList

/-- `Meta::to_json`; the fields stand in the order of the map that holds them. -/
def ResponseMeta.toJson (info : ResponseMeta) : Json :=
  .object (setField "has_more" .bool info.hasMore ++
    setField "next_cursor" .string info.nextCursor ++
    [("request_id", .string info.requestId), ("timestamp", .string info.timestamp)])

def Envelope.toJson (envelope : Envelope) : Json :=
  .object [("data", envelope.data),
    ("error", (envelope.error.map ApiError.toJson).getD .null),
    ("meta", envelope.info.toJson)]

/-! ## Reading -/

/-- The code a text stands for. -/
def ErrorCode.ofString? (text : String) : Option ErrorCode :=
  [internalError, notFound, badRequest, unauthorized, forbidden, conflict, tooManyRequests,
    unprocessableEntity, resourceNotFound, resourceAlreadyExists, resourceInvalidState,
    quotaExceeded, policyDenied, payloadTooLarge, serviceUnavailable].find?
      fun code => code.toString == text

def stringField (json : Json) (name : String) : Option String :=
  match json.field? name with
  | some (.string text) => some text
  | _ => none

def boolField (json : Json) (name : String) : Option Bool :=
  match json.field? name with
  | some (.bool value) => some value
  | _ => none

def ApiError.ofJson? (json : Json) : Option ApiError := do
  let code ← ErrorCode.ofString? (← stringField json "code")
  let message ← stringField json "message"
  return { code, message }

def ResponseMeta.ofJson? (json : Json) : Option ResponseMeta := do
  let requestId ← stringField json "request_id"
  let timestamp ← stringField json "timestamp"
  return {
    requestId
    timestamp
    nextCursor := stringField json "next_cursor"
    hasMore := boolField json "has_more" }

/-- The error of an envelope, where `null` stands for none. -/
def errorOf? : Json → Option (Option ApiError)
  | .null => some none
  | json => (ApiError.ofJson? json).map some

def Envelope.ofJson? (json : Json) : Option Envelope := do
  let data ← json.field? "data"
  let error ← errorOf? (← json.field? "error")
  let info ← ResponseMeta.ofJson? (← json.field? "meta")
  return { data, error, info }

/-! ## Reading what was written -/

/-- Codes have different texts. -/
theorem ErrorCode.ofString?_toString (code : ErrorCode) :
    ofString? code.toString = some code := by
  cases code <;> decide

theorem ApiError.ofJson?_toJson (error : ApiError) : ofJson? error.toJson = some error := by
  have code : stringField error.toJson "code" = some error.code.toString := rfl
  have message : stringField error.toJson "message" = some error.message := rfl
  simp only [ofJson?, code, message, bind, Option.bind_some, ErrorCode.ofString?_toString, pure]

theorem errorOf?_toJson (error : Option ApiError) :
    errorOf? ((error.map ApiError.toJson).getD .null) = some error := by
  cases error with
  | none => rfl
  | some error =>
      change (ApiError.ofJson? error.toJson).map some = some (some error)
      rw [ApiError.ofJson?_toJson, Option.map_some]

theorem ResponseMeta.ofJson?_toJson (info : ResponseMeta) :
    ofJson? info.toJson = some info := by
  obtain ⟨requestId, timestamp, nextCursor, hasMore⟩ := info
  cases nextCursor <;> cases hasMore <;> rfl

/-- An envelope survives its JSON form. -/
theorem Envelope.ofJson?_toJson (envelope : Envelope) :
    ofJson? envelope.toJson = some envelope := by
  have data : envelope.toJson.field? "data" = some envelope.data := rfl
  have error : envelope.toJson.field? "error" =
      some ((envelope.error.map ApiError.toJson).getD .null) := rfl
  have info : envelope.toJson.field? "meta" = some envelope.info.toJson := rfl
  simp only [ofJson?, data, error, info, bind, Option.bind_some, errorOf?_toJson,
    ResponseMeta.ofJson?_toJson, pure]

end Corvus.Api
