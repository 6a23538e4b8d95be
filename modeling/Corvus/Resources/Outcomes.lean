import Corvus.Resources.Handler

/-!
# Outcomes and their answers

A call of the service ends with an outcome of one of the kinds its operation has.  The
handlers answer such outcomes alike: each kind of outcome has one answer, whichever
handler gives it.
-/

namespace Corvus.Resources

open Corvus.Api

variable {platform : Platform}

/-- The kinds of outcomes an operation has. -/
def Request.EndsWith : Request → Outcome → Prop
  | .create _ _, .ok (.resource _) | .create _ _, .error (.alreadyExists _) => True
  | .get _ _, .ok (.resource _) | .get _ _, .error (.notFound _) => True
  | .list _ _, .ok (.page _) | .list _ _, .error (.invalidCursor _) => True
  | .update _ _ _, .ok (.resource _) | .update _ _ _, .error (.notFound _) => True
  | .update _ _ _, .error (.alreadyExists _) => True
  | .remove _ _, .ok .removed | .remove _ _, .error (.notFound _) => True
  | _, .error .other => True
  | _, _ => False

/-! ## Outcomes of the service -/

/-- An answer of the repository that blames no cursor. -/
def BlamesNoCursor {Answer : Type} (answer : Except RepositoryError Answer) : Prop :=
  ∀ error, answer ≠ .error (.invalidCursor error)

theorem blamesNoCursor_under {Answer : Type} {executed : Executed platform Answer}
    (blameless : BlamesNoCursor executed.answer) (fault : Db.Fault) :
    BlamesNoCursor (executed.under fault).answer := by
  cases fault with
  | healthy => exact blameless
  | refused => exact fun _ blames => nomatch blames
  | replyLost => exact fun _ blames => nomatch blames

theorem blamesNoCursor_decodeRow (row : Row platform) : BlamesNoCursor (decodeRow row) := by
  intro error blames
  unfold decodeRow at blames
  split at blames <;> cases blames

theorem blamesNoCursor_map {Answer Other : Type} {answer : Except RepositoryError Answer}
    (blameless : BlamesNoCursor answer) (change : Answer → Other) :
    BlamesNoCursor (answer.map change) := by
  cases answer with
  | ok value => exact fun _ blames => nomatch blames
  | error error =>
      intro other blames
      cases blames
      exact blameless other rfl

theorem blamesNoCursor_create (database : Database platform) (clientId : String)
    (request : CreateResourceRequest) (stamp : Stamp) :
    BlamesNoCursor (create database clientId request stamp).answer := by
  unfold create
  repeat' split
  all_goals first
    | exact blamesNoCursor_decodeRow _
    | exact fun _ blames => nomatch blames

theorem blamesNoCursor_findById (database : Database platform) (clientId id : String) :
    BlamesNoCursor (findById database clientId id) := by
  unfold findById
  repeat' split
  all_goals first
    | exact blamesNoCursor_map (blamesNoCursor_decodeRow _) _
    | exact fun _ blames => nomatch blames

/-- A transaction that reads a row. -/
theorem blamesNoCursor_read (database : Database platform) (clientId id : String)
    (fault : Db.Fault) :
    BlamesNoCursor (({ answer := findById database clientId id } :
      Executed platform (Option Resource)).under fault).answer := by
  have executed : BlamesNoCursor ({ answer := findById database clientId id } :
      Executed platform (Option Resource)).answer :=
    blamesNoCursor_findById database clientId id
  exact blamesNoCursor_under executed fault

theorem blamesNoCursor_update (database : Database platform) (clientId id : String)
    (request : UpdateResourceRequest) (stamp : Stamp) :
    BlamesNoCursor (update database clientId id request stamp).answer := by
  unfold update
  repeat' split
  all_goals first
    | exact blamesNoCursor_map (blamesNoCursor_decodeRow _) _
    | exact fun _ blames => nomatch blames

theorem blamesNoCursor_remove (database : Database platform) (clientId id : String) :
    BlamesNoCursor (remove database clientId id).answer := by
  unfold remove
  repeat' split
  all_goals exact fun _ blames => nomatch blames

/-- What a phase says of the outcome. -/
def Phase.Suits (request : Request) : Phase → Prop
  | .invalidateVersioned outcome _ => request.EndsWith outcome
  | .done outcome => request.EndsWith outcome
  | _ => True

theorem suits_firstPhase (request : Request) : request.firstPhase.Suits request := by
  cases request <;> trivial

theorem endsWith_createOutcome {clientId : String} {request : CreateResourceRequest}
    {answer : Except RepositoryError Resource} (blameless : BlamesNoCursor answer) :
    (Request.create clientId request).EndsWith (createOutcome request answer) := by
  rcases answer with error | resource
  · cases error with
    | invalidCursor error => exact (blameless error rfl).elim
    | _ => trivial
  · trivial

theorem endsWith_readOutcome {clientId id : String}
    {answer : Except RepositoryError (Option Resource)} (blameless : BlamesNoCursor answer) :
    (Request.get clientId id).EndsWith (readOutcome id answer) := by
  rcases answer with error | found
  · cases error with
    | invalidCursor error => exact (blameless error rfl).elim
    | _ => trivial
  · cases found <;> trivial

theorem endsWith_decodeCached (platform : Platform) (clientId id text : String) :
    (Request.get clientId id).EndsWith (decodeCached platform text) := by
  unfold decodeCached
  split <;> trivial

section Steps

variable {call next : Call platform} {choice : Choice} {store after : Store platform}

theorem suits_getStep {clientId id : String} (requestEq : call.request = .get clientId id)
    (stepped : call.getStep clientId id choice store = some (next, after)) :
    next.phase.Suits call.request := by
  unfold Call.getStep at stepped
  rw [requestEq]
  split at stepped <;> dsimp only at stepped
  · split at stepped
    · cases stepped
      trivial
    · split at stepped <;> cases stepped
      · trivial
      · exact endsWith_decodeCached platform clientId id _
  · split at stepped
    · cases stepped
      trivial
    · split at stepped <;> cases stepped
      · trivial
      · exact endsWith_decodeCached platform clientId id _
  · cases stepped
    trivial
  · split at stepped <;> cases stepped
    · trivial
    · exact endsWith_readOutcome (blamesNoCursor_read store.database clientId id choice.sql)
  · cases stepped
    trivial
  · cases stepped

theorem suits_updateStep {clientId id : String} {request : UpdateResourceRequest}
    (requestEq : call.request = .update clientId id request)
    (suits : call.phase.Suits call.request)
    (stepped : call.updateStep clientId id request choice store = some (next, after)) :
    next.phase.Suits call.request := by
  unfold Call.updateStep at stepped
  split at stepped
  · have blameless := blamesNoCursor_under
      (blamesNoCursor_update store.database clientId id request choice.stamp) choice.sql
    rw [requestEq]
    dsimp only at stepped
    split at stepped
    · rename_i error failed
      cases stepped
      cases error with
      | invalidCursor error => exact (blameless error failed).elim
      | _ => trivial
    · cases stepped
      trivial
    · cases stepped
      trivial
  · rename_i outcome commit phaseEq
    cases stepped
    rwa [phaseEq] at suits
  · cases stepped

theorem suits_removeStep {clientId id : String}
    (requestEq : call.request = .remove clientId id) (suits : call.phase.Suits call.request)
    (stepped : call.removeStep clientId id choice store = some (next, after)) :
    next.phase.Suits call.request := by
  unfold Call.removeStep at stepped
  split at stepped
  · have blameless := blamesNoCursor_under
      (blamesNoCursor_remove store.database clientId id) choice.sql
    rw [requestEq]
    dsimp only at stepped
    split at stepped
    · rename_i error failed
      cases stepped
      cases error with
      | invalidCursor error => exact (blameless error failed).elim
      | _ => trivial
    · cases stepped
      trivial
    · cases stepped
      trivial
  · rename_i outcome commit phaseEq
    cases stepped
    rwa [phaseEq] at suits
  · cases stepped

/-- A step keeps the outcome of a kind its operation has. -/
theorem suits_step (suits : call.phase.Suits call.request)
    (stepped : call.step choice store = some (next, after)) :
    next.phase.Suits call.request := by
  unfold Call.step at stepped
  cases requestEq : call.request with
  | create clientId request =>
      simp only [requestEq, Call.createStep] at stepped
      split at stepped <;> cases stepped
      exact endsWith_createOutcome
        (blamesNoCursor_under (blamesNoCursor_create _ _ _ _) choice.sql)
  | get clientId id =>
      simp only [requestEq] at stepped
      rw [← requestEq]
      exact suits_getStep requestEq stepped
  | list clientId filter =>
      simp only [requestEq, Call.listStep] at stepped
      split at stepped
      · split at stepped
        · cases stepped
          trivial
        · rename_i error _
          cases stepped
          cases error <;> trivial
      · cases stepped
  | update clientId id request =>
      simp only [requestEq] at stepped
      rw [← requestEq]
      exact suits_updateStep requestEq suits stepped
  | remove clientId id =>
      simp only [requestEq] at stepped
      rw [← requestEq]
      exact suits_removeStep requestEq suits stepped

end Steps

/-! ## Answers of the handlers -/

/-- The JSON a reply is answered with; `none` is an exception of a JSON library. -/
def Reply.data? (platform : Platform) : Reply → Option Json
  | .resource shown => toJsonValue platform shown
  | .page result => toJsonValues platform result.items
  | .removed => some .null

/-- The answer to a reply, with its data. -/
def respondReply (request : HttpRequest) (asked : Request) (data : Json) : Reply → Response
  | .resource resource =>
      match asked with
      | .create _ _ =>
          (respondCreated data request.info).addHeader "Location"
            ("/v1/resources/" ++ resource.id)
      | _ => respondOk data request.info
  | .page result => respondList data request.info result.nextCursor result.hasMore
  | .removed => respondOk data request.info

/-- The answer to an outcome of the service. -/
def respondOutcome (platform : Platform) (request : HttpRequest) (asked : Request) :
    Outcome → Response
  | .ok reply =>
      match reply.data? platform with
      | some data => respondReply request asked data reply
      | none => unexpected request
  | .error (.notFound message) => respondError .resourceNotFound message request.info
  | .error (.alreadyExists message) => respondError .resourceAlreadyExists message request.info
  | .error (.invalidCursor _) =>
      respondError .badRequest "Query parameter 'cursor' is not valid." request.info
  | .error .other => unexpected request

variable {request : HttpRequest} {id : String} {asked : Request} {answer : Outcome → Response}

theorem respondResource_eq (found : Resource) :
    respondResource platform request found
        (fun data => respondReply request asked data (.resource found)) =
      respondOutcome platform request asked (.ok (.resource found)) := by
  cases converted : toJsonValue platform found <;>
    simp only [respondResource, respondOutcome, Reply.data?, converted]

/-- The handler of `list` answers an outcome in one way, whatever the limit. -/
theorem respondPage_eq (filter : ListFilter) (outcome : Outcome) :
    (Request.list request.clientId filter).EndsWith outcome →
      (match outcome with
        | .ok (.page result) =>
            match toJsonValues platform result.items with
            | some items => respondList items request.info result.nextCursor result.hasMore
            | none => unexpected request
        | .error (.invalidCursor _) =>
            respondError .badRequest "Query parameter 'cursor' is not valid." request.info
        | _ => unexpected request) =
        respondOutcome platform request (.list request.clientId filter) outcome := by
  intro ends
  rcases outcome with (_ | _ | _ | _) | (found | page | _) <;> cases ends
  · rfl
  · rfl
  · cases converted : toJsonValues platform page.items
    all_goals simp only [respondOutcome, Reply.data?, converted]
    all_goals rfl

/-- Every handler gives the one answer to an outcome that its operation has. -/
theorem respondOutcome_of_invoke {route : ResourceRoute}
    (invokes : route.handle platform request id = .invoke asked answer) {outcome : Outcome}
    (ends : asked.EndsWith outcome) :
    answer outcome = respondOutcome platform request asked outcome := by
  cases route with
  | create =>
      simp only [ResourceRoute.handle, createResourceHandler] at invokes
      obtain ⟨_, invokes⟩ := invoke_of_withClient invokes
      obtain ⟨body, _, invokes⟩ := invoke_of_withBody invokes
      split at invokes
      · cases invokes
      · cases invokes
        rcases outcome with (_ | _ | _ | _) | (found | page | _) <;> cases ends
        · rfl
        · rfl
        · refine Eq.trans ?_ (respondResource_eq found)
          rfl
  | list =>
      simp only [ResourceRoute.handle, listResourcesHandler] at invokes
      obtain ⟨_, invokes⟩ := invoke_of_withClient invokes
      have answerEq : ∀ {filter : ListFilter} {own : Outcome → Response},
          Handled.invoke (.list request.clientId filter) own = .invoke asked answer →
          asked = .list request.clientId filter ∧ answer = own := by
        intro filter own same
        cases same
        exact ⟨rfl, rfl⟩
      split at invokes
      · obtain ⟨rfl, rfl⟩ := answerEq invokes
        exact respondPage_eq _ outcome ends
      · split at invokes
        · obtain ⟨rfl, rfl⟩ := answerEq invokes
          exact respondPage_eq _ outcome ends
        · cases invokes
  | getOne =>
      simp only [ResourceRoute.handle, getResourceHandler] at invokes
      obtain ⟨_, invokes⟩ := invoke_of_withClient invokes
      obtain ⟨_, invokes⟩ := invoke_of_withUuid invokes
      cases invokes
      rcases outcome with (_ | _ | _ | _) | (found | page | _) <;> cases ends
      · rfl
      · rfl
      · refine Eq.trans ?_ (respondResource_eq found)
        rfl
  | update =>
      simp only [ResourceRoute.handle, updateResourceHandler] at invokes
      obtain ⟨_, invokes⟩ := invoke_of_withClient invokes
      obtain ⟨_, invokes⟩ := invoke_of_withUuid invokes
      obtain ⟨body, _, invokes⟩ := invoke_of_withBody invokes
      split at invokes
      · cases invokes
      · cases invokes
        rcases outcome with (_ | _ | _ | _) | (found | page | _) <;> cases ends
        · rfl
        · rfl
        · rfl
        · refine Eq.trans ?_ (respondResource_eq found)
          rfl
  | remove =>
      simp only [ResourceRoute.handle, deleteResourceHandler] at invokes
      obtain ⟨_, invokes⟩ := invoke_of_withClient invokes
      obtain ⟨_, invokes⟩ := invoke_of_withUuid invokes
      cases invokes
      rcases outcome with (_ | _ | _ | _) | (found | page | _) <;> cases ends
      · rfl
      · rfl
      · rfl

end Corvus.Resources
