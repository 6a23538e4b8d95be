import Corvus.Api.Response
import Corvus.Resources.Service

/-!
# The handlers of the resource routes

A handler answers a request by itself or calls the service once and answers with
what the service returns.  Both are data here, so that what a handler asks of the
service can be stated.
-/

namespace Corvus.Resources

open Corvus.Db Corvus.Api

/-- What the handlers read of an HTTP request.  `clientId` is the attribute the
authentication sets, empty when it is not set. -/
structure HttpRequest where
  method : String
  path : String
  authorization : String := ""
  apiKey : String := ""
  parameter : String → String := fun _ => ""
  body : String := ""
  clientId : String := ""
  requestId : String := ""
  now : String := ""

def HttpRequest.info (request : HttpRequest) : ResponseMeta where
  requestId := request.requestId
  timestamp := request.now

/-- What a handler does: respond, or call the service and respond to what it
returns. -/
inductive Handled where
  | respond (response : Response)
  | invoke (request : Request) (answer : Outcome → Response)

def kUnexpected : String := "An unexpected error occurred."

/-- The answer to every exception that has no answer of its own. -/
def unexpected (request : HttpRequest) : Response :=
  respondError .internalError kUnexpected request.info

/-- `is_uuid`. -/
def isUuid (value : String) : Bool :=
  value.toList.length == 36 && value.toList.zipIdx.all fun indexed =>
    if indexed.2 ∈ [8, 13, 18, 23] then indexed.1 == '-' else (hexValue? indexed.1).isSome

/-- `to_json_value`: the resource JSON, read again by the other JSON library; `none` is
an exception. -/
def toJsonValue (platform : Platform) (resource : Resource) : Option Json :=
  platform.charReader (platform.dump (toJson resource))

/-- The guard every handler begins with. -/
def withClient (request : HttpRequest) (handle : String → Handled) : Handled :=
  if request.clientId = "" then .respond (unexpected request) else handle request.clientId

/-- The check of the id in the path. -/
def withUuid (request : HttpRequest) (id : String) (handle : Handled) : Handled :=
  if isUuid id then handle
  else .respond (respondError .resourceNotFound ("Resource not found: " ++ id) request.info)

/-- Parsing the body. -/
def withBody (platform : Platform) (request : HttpRequest) (handle : Json → Handled) : Handled :=
  match platform.parse request.body with
  | some body => handle body
  | none =>
      .respond (respondError .badRequest "Request body is not valid JSON." request.info)

/-- Answer with a resource, or with an error if it cannot be converted. -/
def respondResource (platform : Platform) (request : HttpRequest) (resource : Resource)
    (respond : Json → Response) : Response :=
  match toJsonValue platform resource with
  | some data => respond data
  | none => unexpected request

/-- `create_resource_handler`. -/
def createResourceHandler (platform : Platform) (request : HttpRequest) : Handled :=
  withClient request fun clientId =>
    withBody platform request fun body =>
      match parseCreateRequest platform body with
      | .error error =>
          .respond (respondError .unprocessableEntity error.message request.info)
      | .ok createRequest =>
          .invoke (.create clientId createRequest) fun outcome =>
            match outcome with
            | .ok (.resource created) =>
                respondResource platform request created fun data =>
                  (respondCreated data request.info).addHeader "Location"
                    ("/v1/resources/" ++ created.id)
            | .error (.alreadyExists message) =>
                respondError .resourceAlreadyExists message request.info
            | _ => unexpected request

/-- `get_resource_handler`. -/
def getResourceHandler (platform : Platform) (request : HttpRequest) (id : String) : Handled :=
  withClient request fun clientId =>
    withUuid request id
      (.invoke (.get clientId id) fun outcome =>
        match outcome with
        | .ok (.resource resource) =>
            respondResource platform request resource fun data => respondOk data request.info
        | .error (.notFound message) => respondError .resourceNotFound message request.info
        | _ => unexpected request)

/-- The characters `std::stoi` skips. -/
def isSpace (char : Char) : Bool :=
  char ∈ [' ', '\t', '\n', '\x0b', '\x0c', '\r']

/-- `parse_limit_param`: a decimal number that takes the whole text and fits an `int`. -/
def parseLimitParam (raw : String) : Option Int :=
  let text := raw.toList.dropWhile isSpace
  let sign : Int := if text.head? = some '-' then -1 else 1
  let digits := if text.head? = some '-' ∨ text.head? = some '+' then text.drop 1 else text
  if digits ≠ [] ∧ digits.all Char.isDigit then
    let value := sign * decimalValue digits
    if -2 ^ 31 ≤ value ∧ value < 2 ^ 31 then some value else none
  else none

/-- A query parameter; an empty one counts as absent. -/
def optionalParameter (request : HttpRequest) (name : String) : Option String :=
  if request.parameter name = "" then none else some (request.parameter name)

/-- The items of a page, if all of them can be converted. -/
def toJsonValues (platform : Platform) (items : List Resource) : Option Json :=
  (items.mapM (toJsonValue platform)).map Json.array

/-- `list_resources_handler`. -/
def listResourcesHandler (platform : Platform) (request : HttpRequest) : Handled :=
  withClient request fun clientId =>
    let answer : Outcome → Response := fun outcome =>
      match outcome with
      | .ok (.page result) =>
          match toJsonValues platform result.items with
          | some items => respondList items request.info result.nextCursor result.hasMore
          | none => unexpected request
      | .error (.invalidCursor _) =>
          respondError .badRequest "Query parameter 'cursor' is not valid." request.info
      | _ => unexpected request
    let filter : ListFilter :=
      { kind := optionalParameter request "kind"
        status := optionalParameter request "status"
        cursor := optionalParameter request "cursor" }
    match optionalParameter request "limit" with
    | none => .invoke (.list clientId filter) answer
    | some limit =>
        match parseLimitParam limit with
        | some limit => .invoke (.list clientId { filter with limit }) answer
        | none =>
            .respond (respondError .badRequest "Query parameter 'limit' must be an integer."
              request.info)

/-- `update_resource_handler`. -/
def updateResourceHandler (platform : Platform) (request : HttpRequest) (id : String) :
    Handled :=
  withClient request fun clientId =>
    withUuid request id
      (withBody platform request fun body =>
        match parseUpdateRequest platform body with
        | .error error =>
            .respond (respondError .unprocessableEntity error.message request.info)
        | .ok updateRequest =>
            .invoke (.update clientId id updateRequest) fun outcome =>
              match outcome with
              | .ok (.resource updated) =>
                  respondResource platform request updated fun data =>
                    respondOk data request.info
              | .error (.notFound message) =>
                  respondError .resourceNotFound message request.info
              | .error (.alreadyExists message) =>
                  respondError .resourceAlreadyExists message request.info
              | _ => unexpected request)

/-- `delete_resource_handler`. -/
def deleteResourceHandler (request : HttpRequest) (id : String) : Handled :=
  withClient request fun clientId =>
    withUuid request id
      (.invoke (.remove clientId id) fun outcome =>
        match outcome with
        | .ok _ => respondOk .null request.info
        | .error (.notFound message) => respondError .resourceNotFound message request.info
        | _ => unexpected request)

/-! ## Routes -/

/-- The routes of `register_resource_routes`. -/
inductive ResourceRoute where
  | create
  | list
  | getOne
  | update
  | remove
  deriving DecidableEq

namespace ResourceRoute

/-- The method a route is registered for. -/
def method : ResourceRoute → String
  | create => "POST"
  | list => "GET"
  | getOne => "GET"
  | update => "PATCH"
  | remove => "DELETE"

/-- The handler of a route; `id` is what the router matched in the path. -/
def handle (platform : Platform) (request : HttpRequest) (id : String) :
    ResourceRoute → Handled
  | create => createResourceHandler platform request
  | list => listResourcesHandler platform request
  | getOne => getResourceHandler platform request id
  | update => updateResourceHandler platform request id
  | remove => deleteResourceHandler request id

end ResourceRoute

/-! ## What a handler asks of the service -/

/-- The scope an operation needs. -/
def Request.scope : Request → String
  | .create _ _ => "write"
  | .get _ _ => "read"
  | .list _ _ => "read"
  | .update _ _ _ => "write"
  | .remove _ _ => "write"

variable {platform : Platform} {request : HttpRequest} {id : String} {invoked : Request}
  {answer : Outcome → Response}

theorem invoke_of_withClient {handle : String → Handled}
    (invokes : withClient request handle = .invoke invoked answer) :
    request.clientId ≠ "" ∧ handle request.clientId = .invoke invoked answer := by
  unfold withClient at invokes
  split at invokes
  · cases invokes
  · rename_i notEmpty
    exact ⟨notEmpty, invokes⟩

theorem invoke_of_withUuid {handle : Handled}
    (invokes : withUuid request id handle = .invoke invoked answer) :
    isUuid id = true ∧ handle = .invoke invoked answer := by
  unfold withUuid at invokes
  split at invokes
  · rename_i accepted
    exact ⟨accepted, invokes⟩
  · cases invokes

theorem invoke_of_withBody {handle : Json → Handled}
    (invokes : withBody platform request handle = .invoke invoked answer) :
    ∃ body, platform.parse request.body = some body ∧ handle body = .invoke invoked answer := by
  unfold withBody at invokes
  split at invokes
  · rename_i body parsed
    exact ⟨body, parsed, invokes⟩
  · cases invokes

/-- A handler calls the service for the client of the request, with the operation its
route stands for. -/
theorem ResourceRoute.of_invoke {route : ResourceRoute}
    (invokes : route.handle platform request id = .invoke invoked answer) :
    request.clientId ≠ "" ∧ invoked.clientId = request.clientId ∧
      invoked.scope = if route.method = "GET" then "read" else "write" := by
  cases route with
  | create =>
      simp only [handle, createResourceHandler] at invokes
      obtain ⟨notEmpty, invokes⟩ := invoke_of_withClient invokes
      obtain ⟨body, _, invokes⟩ := invoke_of_withBody invokes
      split at invokes
      · cases invokes
      · cases invokes
        exact ⟨notEmpty, rfl, rfl⟩
  | list =>
      simp only [handle, listResourcesHandler] at invokes
      obtain ⟨notEmpty, invokes⟩ := invoke_of_withClient invokes
      split at invokes
      · cases invokes
        exact ⟨notEmpty, rfl, rfl⟩
      · split at invokes
        · cases invokes
          exact ⟨notEmpty, rfl, rfl⟩
        · cases invokes
  | getOne =>
      simp only [handle, getResourceHandler] at invokes
      obtain ⟨notEmpty, invokes⟩ := invoke_of_withClient invokes
      obtain ⟨_, invokes⟩ := invoke_of_withUuid invokes
      cases invokes
      exact ⟨notEmpty, rfl, rfl⟩
  | update =>
      simp only [handle, updateResourceHandler] at invokes
      obtain ⟨notEmpty, invokes⟩ := invoke_of_withClient invokes
      obtain ⟨_, invokes⟩ := invoke_of_withUuid invokes
      obtain ⟨body, _, invokes⟩ := invoke_of_withBody invokes
      split at invokes
      · cases invokes
      · cases invokes
        exact ⟨notEmpty, rfl, rfl⟩
  | remove =>
      simp only [handle, deleteResourceHandler] at invokes
      obtain ⟨notEmpty, invokes⟩ := invoke_of_withClient invokes
      obtain ⟨_, invokes⟩ := invoke_of_withUuid invokes
      cases invokes
      exact ⟨notEmpty, rfl, rfl⟩

end Corvus.Resources
