import Corvus.Resources.Handler

/-!
# The limit on request bodies

The size of a body is checked twice: as the `Content-Length` header declares it,
before the request is routed, and as it is, before the handler runs.  A header
that cannot be read is left to the second check.
-/

namespace Corvus.Gateway

open Corvus.Api Corvus.Db Corvus.Resources

structure RequestSizeLimitConfig where
  maxBodyBytes : Nat := 1024 * 1024

/-- `is_body_method`. -/
def isBodyMethod (method : String) : Bool :=
  decide (method ∉ ["GET", "HEAD", "DELETE", "OPTIONS"])

/-- `std::stoull`; `none` is an exception.  What follows the digits is not looked at,
and a minus sign wraps around. -/
def stoull (raw : String) : Option Nat :=
  let text := raw.toList.dropWhile isSpace
  let negative := text.head? = some '-'
  let digits := (if negative ∨ text.head? = some '+' then text.drop 1 else text).takeWhile
    Char.isDigit
  if digits = [] ∨ 2 ^ 64 ≤ decimalValue digits then none
  else if negative then some ((2 ^ 64 - decimalValue digits) % 2 ^ 64)
  else some (decimalValue digits)

/-- `make_413`. -/
def make413 (info : ResponseMeta) (maxBytes : Nat) : Response :=
  (respondError .payloadTooLarge
    ("Request body exceeds the maximum allowed size of " ++ toString maxBytes ++ " bytes.")
    info).addHeader "X-Max-Body-Size" (toString maxBytes)

/-- The advice before routing: the answer to a request that declares too much. -/
def declaredSizeAdvice (config : RequestSizeLimitConfig) (contentLength : String)
    (request : HttpRequest) : Option Response :=
  if isBodyMethod request.method && contentLength ≠ "" then
    match stoull contentLength with
    | none => none
    | some declared =>
        if config.maxBodyBytes < declared then some (make413 request.info config.maxBodyBytes)
        else none
  else none

/-- The advice before the handler: the answer to a request that holds too much. -/
def bodySizeAdvice (config : RequestSizeLimitConfig) (request : HttpRequest) :
    Option Response :=
  if isBodyMethod request.method &&
      decide (config.maxBodyBytes < request.body.utf8ByteSize) then
    some (make413 request.info config.maxBodyBytes)
  else none

/-- The body is no larger than the limit, where the method has one. -/
def WithinSizeLimit (config : RequestSizeLimitConfig) (request : HttpRequest) : Prop :=
  isBodyMethod request.method = true → request.body.utf8ByteSize ≤ config.maxBodyBytes

theorem withinSizeLimit_of_next {config : RequestSizeLimitConfig} {request : HttpRequest}
    (passed : bodySizeAdvice config request = none) : WithinSizeLimit config request := by
  intro hasBody
  unfold bodySizeAdvice at passed
  rw [hasBody, Bool.true_and] at passed
  split at passed
  · cases passed
  · rename_i notLarger
    simpa using notLarger

/-- The size that is declared is no larger than the limit, where the method has one and the
header can be read. -/
def DeclaresWithinLimit (config : RequestSizeLimitConfig) (contentLength : String)
    (request : HttpRequest) : Prop :=
  isBodyMethod request.method = true → ∀ declared, stoull contentLength = some declared →
    declared ≤ config.maxBodyBytes

theorem declaresWithinLimit_of_next {config : RequestSizeLimitConfig} {contentLength : String}
    {request : HttpRequest} (passed : declaredSizeAdvice config contentLength request = none) :
    DeclaresWithinLimit config contentLength request := by
  intro hasBody declared read
  have someText : contentLength ≠ "" := by
    rintro rfl
    have noDigits : stoull "" = none := by decide
    rw [noDigits] at read
    cases read
  simp only [declaredSizeAdvice, hasBody, someText, ne_eq, not_false_eq_true, decide_true,
    Bool.and_self, if_true, read] at passed
  split at passed
  · cases passed
  · rename_i notLarger
    exact Nat.le_of_not_lt notLarger

/-- Both advices answer with 413 only. -/
theorem status_of_declaredSizeAdvice {config : RequestSizeLimitConfig} {contentLength : String}
    {request : HttpRequest} {response : Response}
    (refused : declaredSizeAdvice config contentLength request = some response) :
    response = make413 request.info config.maxBodyBytes := by
  unfold declaredSizeAdvice at refused
  split at refused
  · split at refused
    · cases refused
    · split at refused <;> cases refused
      rfl
  · cases refused

theorem status_of_bodySizeAdvice {config : RequestSizeLimitConfig} {request : HttpRequest}
    {response : Response} (refused : bodySizeAdvice config request = some response) :
    response = make413 request.info config.maxBodyBytes := by
  unfold bodySizeAdvice at refused
  split at refused <;> cases refused
  rfl

end Corvus.Gateway
