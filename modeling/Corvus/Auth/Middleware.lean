import Corvus.Auth.Authenticator
import Corvus.Resources.Handler

/-!
# Requests on their way to the resource handlers

The router picks a route, the authentication looks at the path and either answers
or lets the request through, and the handler of the route takes over.  A path
that does not begin with `/v1/` is let through without credentials; what keeps it
from the service is the guard in the handlers.
-/

namespace Corvus.Auth

open Corvus.Api Corvus.Resources

/-- `to_error_code`. -/
def toErrorCode : AuthFailure → ErrorCode
  | .forbidden => .forbidden
  | .unavailable => .serviceUnavailable
  | .unauthorized => .unauthorized

/-- The credentials of a request. -/
def credentials (request : HttpRequest) : Credentials where
  method := request.method
  authorization := request.authorization
  apiKey := request.apiKey

/-- What the advice does with a request: answer it, or pass it on. -/
inductive Advice where
  | respond (response : Response)
  | next (request : HttpRequest)

/-- The answer to a request that is not admitted. -/
def rejection (request : HttpRequest) (error : AuthError) : Response :=
  let response := (respondError (toErrorCode error.kind) error.message request.info).addHeader
    "X-Request-ID" request.requestId
  if error.kind = .unavailable then response.addHeader "Retry-After" "5" else response

/-- `register_auth_middleware`: the advice that runs before the handler. -/
def authAdvice (checkJwt : JwtCheck) (checkKey : KeyCheck) (request : HttpRequest) : Advice :=
  if "/v1/".toList.isPrefixOf request.path.toList then
    match (authenticate (credentials request) checkJwt checkKey).result with
    | .error error => .respond (rejection request error)
    | .ok principal => .next { request with clientId := principal.clientId }
  else .next request

/-- The router of the HTTP server: the route for a request, and what it matched as
the id. -/
abbrev Router := HttpRequest → Option (ResourceRoute × String)

/-- A route is used for requests with the method it is registered for; a `HEAD`
request may be served by the route for `GET`. -/
def Router.RespectsMethods (router : Router) : Prop :=
  ∀ request route id, router request = some (route, id) →
    request.method = route.method ∨ (request.method = "HEAD" ∧ route.method = "GET")

/-- What becomes of a request that the router hands to a resource route.  Requests
arrive without attributes. -/
def serve (platform : Platform) (router : Router) (checkJwt : JwtCheck) (checkKey : KeyCheck)
    (request : HttpRequest) : Option Handled :=
  match router request with
  | none => none
  | some (route, id) =>
      match authAdvice checkJwt checkKey { request with clientId := "" } with
      | .respond response => some (.respond response)
      | .next request => some (route.handle platform request id)

/-- A principal holds the scope its request needs. -/
theorem requiredScope_mem {creds : Credentials} {checkJwt : JwtCheck} {checkKey : KeyCheck}
    {principal : Principal}
    (admitted : (authenticate creds checkJwt checkKey).result = .ok principal) :
    requiredScope creds.method ∈ principal.scopes := by
  rw [authenticate_result] at admitted
  split at admitted
  · cases admitted
  · simp only [checkScope, Principal.hasScope, decide_eq_true_eq] at admitted
    split at admitted
    · rename_i held
      cases admitted
      exact held
    · cases admitted

/-- The scope of a route's operation is the one its method requires. -/
theorem scope_of_method {method : String} {route : ResourceRoute}
    (served : method = route.method ∨ (method = "HEAD" ∧ route.method = "GET")) :
    requiredScope method = if route.method = "GET" then "read" else "write" := by
  rcases served with rfl | ⟨rfl, isGet⟩
  · cases route <;> decide
  · rw [if_pos isGet]
    decide

/-- A request reaches the service only with a principal: the operation is for the
principal's client, and the principal holds the scope it needs. -/
theorem invoked_for_principal {platform : Platform} {router : Router} {checkJwt : JwtCheck}
    {checkKey : KeyCheck} {request : HttpRequest} {invoked : Request}
    {answer : Outcome → Response} (respects : router.RespectsMethods)
    (served : serve platform router checkJwt checkKey request =
      some (.invoke invoked answer)) :
    ∃ principal,
      (authenticate (credentials request) checkJwt checkKey).result = .ok principal ∧
        invoked.clientId = principal.clientId ∧ invoked.scope ∈ principal.scopes := by
  unfold serve at served
  split at served
  · cases served
  · rename_i route id routed
    unfold authAdvice at served
    split at served
    · cases served
    · rename_i passed advice
      simp only [Option.some.injEq] at served
      obtain ⟨notEmpty, clientEq, scopeEq⟩ := route.of_invoke served
      split at advice
      · split at advice
        · cases advice
        · rename_i principal admitted
          cases advice
          refine ⟨principal, admitted, clientEq, ?_⟩
          have held := requiredScope_mem admitted
          have needed := scope_of_method (respects request route id routed)
          rw [scopeEq, ← needed]
          exact held
      · cases advice
        exact (notEmpty rfl).elim

/-- A router that knows one route, for `DELETE`. -/
def deleteOnly (id : String) : Router := fun request =>
  if request.method = "DELETE" then some (.remove, id) else none

theorem deleteOnly_respectsMethods (id : String) : (deleteOnly id).RespectsMethods := by
  intro request route matched routed
  unfold deleteOnly at routed
  split at routed
  · rename_i isDelete
    cases routed
    exact Or.inl isDelete
  · cases routed

def someId : String := "00000000-0000-0000-0000-000000000001"

/-- A request to delete a resource, with an API key. -/
def deletion : HttpRequest where
  method := "DELETE"
  path := "/v1/resources/" ++ someId
  apiKey := "k"

/-- A key check that knows one key. -/
def writerKey : KeyCheck := fun rawKey =>
  if rawKey = "k" then .ok { clientId := "svc", scopes := "read write" }
  else .error (.validation "Unknown or revoked API key")

theorem invoked_for_principal_deletion :
    ∃ principal,
      (authenticate (credentials deletion) (fun _ => .error ⟨""⟩) writerKey).result =
          .ok principal ∧
        (Request.remove "svc" someId).clientId = principal.clientId ∧
        (Request.remove "svc" someId).scope ∈ principal.scopes :=
  @invoked_for_principal Platform.reference (deleteOnly someId) (fun _ => .error ⟨""⟩) writerKey
    deletion (.remove "svc" someId) _ (deleteOnly_respectsMethods someId) rfl

end Corvus.Auth
