import Corvus.Json

/-!
# Responses

Every answer is an envelope with data or an error, and a status that follows from
the error code.
-/

namespace Corvus.Api

inductive ErrorCode where
  | internalError
  | notFound
  | badRequest
  | unauthorized
  | forbidden
  | conflict
  | tooManyRequests
  | unprocessableEntity
  | resourceNotFound
  | resourceAlreadyExists
  | resourceInvalidState
  | quotaExceeded
  | policyDenied
  | payloadTooLarge
  | serviceUnavailable
  deriving DecidableEq, Repr

/-- `http_status`. -/
def httpStatus : ErrorCode → Nat
  | .badRequest => 400
  | .unauthorized => 401
  | .forbidden => 403
  | .policyDenied => 403
  | .notFound => 404
  | .resourceNotFound => 404
  | .conflict => 409
  | .resourceAlreadyExists => 409
  | .tooManyRequests => 429
  | .unprocessableEntity => 422
  | .quotaExceeded => 422
  | .payloadTooLarge => 413
  | .serviceUnavailable => 503
  | .resourceInvalidState => 500
  | .internalError => 500

/-- An error answers with a client or server error status. -/
theorem four_hundred_le_httpStatus (code : ErrorCode) : 400 ≤ httpStatus code := by
  cases code <;> decide

structure ApiError where
  code : ErrorCode
  message : String
  deriving DecidableEq

/-- `Meta`, with the clock reading it takes. -/
structure ResponseMeta where
  requestId : String
  timestamp : String
  nextCursor : Option String := none
  hasMore : Option Bool := none
  deriving DecidableEq

structure Envelope where
  data : Json
  error : Option ApiError := none
  info : ResponseMeta

structure Response where
  status : Nat
  envelope : Envelope
  headers : List (String × String) := [("Content-Type", "application/json; charset=utf-8")]

def Response.addHeader (response : Response) (name value : String) : Response :=
  { response with headers := response.headers ++ [(name, value)] }

def respondOk (data : Json) (info : ResponseMeta) : Response where
  status := 200
  envelope := { data, info }

def respondCreated (data : Json) (info : ResponseMeta) : Response where
  status := 201
  envelope := { data, info }

def respondList (data : Json) (info : ResponseMeta) (nextCursor : Option String)
    (hasMore : Bool) : Response where
  status := 200
  envelope := { data, info := { info with nextCursor, hasMore := some hasMore } }

def respondError (code : ErrorCode) (message : String) (info : ResponseMeta) : Response where
  status := httpStatus code
  envelope := { data := .null, error := some { code, message }, info }

@[simp] theorem respondError_status (code : ErrorCode) (message : String)
    (info : ResponseMeta) : (respondError code message info).status = httpStatus code := rfl

@[simp] theorem addHeader_status (response : Response) (name value : String) :
    (response.addHeader name value).status = response.status := rfl

end Corvus.Api
