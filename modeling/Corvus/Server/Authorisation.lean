import Corvus.Server.Parts

/-!
# Who is served

A request gets to the service only on the strength of its credentials.  Every one
of them that it presents stands for the client the operation is for and grants the
scope the operation needs: an API key because a lookup in Postgres returned that
client and those scopes for the hash of the key, a token because it was verified
with the configured key and carries that client and those scopes in its claims.
-/

namespace Corvus.Server

open Corvus.Auth Corvus.Db Corvus.Resources

variable {platform : Platform} {deployment : Deployment}

/-- The principal acts for the client, and with the scopes, of every credential that is
presented. -/
theorem admits_of_authenticate {creds : Credentials} {checkJwt : JwtCheck} {checkKey : KeyCheck}
    {principal : Principal}
    (admitted : (authenticate creds checkJwt checkKey).result = .ok principal) :
    Admits creds checkJwt checkKey principal.clientId principal.scopes := by
  rw [authenticate_result] at admitted
  cases entitled : entitlement creds checkJwt checkKey with
  | error error =>
      rw [entitled] at admitted
      cases admitted
  | ok allowed =>
      rw [entitled] at admitted
      simp only [checkScope] at admitted
      split at admitted
      · cases admitted
        exact admits_of_entitlement entitled
      · cases admitted

/-- The credentials stand for the client and grant the scope: an API key by a record a
lookup returned for it, a token by its verified claims. -/
structure Backed (deployment : Deployment) (lookups : List (String × LookupOutcome))
    (creds : Credentials) (clientId scope : String) : Prop where
  presented : creds.apiKey ≠ "" ∨ creds.authorization ≠ ""
  byKey : creds.apiKey ≠ "" → ∃ record,
    LoggedRecord lookups (hashKey deployment.sha256 creds.apiKey) record ∧
      record.clientId = clientId ∧ scope ∈ parseScopes record.scopes
  byToken : creds.authorization ≠ "" → ∃ token decoded systemNow scopes,
    IsBearer creds.authorization token ∧ deployment.tokens.decode token = .ok decoded ∧
      deployment.tokens.hasExpiresAt decoded = true ∧
      deployment.tokens.verify deployment.publicKeyPem systemNow decoded = .ok () ∧
      deployment.tokens.payloadClaim decoded "client_id" = some (.ok clientId) ∧
      deployment.tokens.payloadClaim decoded "scope" = some (.ok scopes) ∧
      scope ∈ parseScopes scopes

theorem Backed.mono {lookups more : List (String × LookupOutcome)} {creds : Credentials}
    {clientId scope : String} (backed : Backed deployment lookups creds clientId scope)
    (grows : lookups ⊆ more) : Backed deployment more creds clientId scope := by
  refine ⟨backed.presented, fun hasKey => ?_, backed.byToken⟩
  obtain ⟨record, logged, rest⟩ := backed.byKey hasKey
  exact ⟨record, grows logged, rest⟩

/-- A token is accepted on the strength of its claims. -/
theorem claims_of_headerGrants {systemNow : Int} {header scope : String} {grant : Grant}
    (grants : HeaderGrants (JwtValidator.validate deployment.tokens deployment.publicKeyPem
      systemNow) header grant) (granted : scope ∈ grant.scopes) :
    ∃ token decoded systemNow scopes, IsBearer header token ∧
      deployment.tokens.decode token = .ok decoded ∧
      deployment.tokens.hasExpiresAt decoded = true ∧
      deployment.tokens.verify deployment.publicKeyPem systemNow decoded = .ok () ∧
      deployment.tokens.payloadClaim decoded "client_id" = some (.ok grant.clientId) ∧
      deployment.tokens.payloadClaim decoded "scope" = some (.ok scopes) ∧
      scope ∈ parseScopes scopes := by
  obtain ⟨token, claims, bearer, accepted, claimed⟩ := grants
  obtain ⟨decoded, decodes, expires, verified, copies⟩ := JwtValidator.of_validate accepted
  unfold claimsGrant at claimed
  split at claimed
  · cases claimed
  · rename_i clientId named
    split at claimed
    · cases claimed
    · cases claimed
      obtain ⟨scopes, present, scopesEq⟩ := JwtValidator.scope_of_claimsOf copies (by
        intro empty
        rw [empty] at granted
        simp [parseScopes, parseScopesFrom] at granted)
      exact ⟨token, decoded, systemNow, scopes, bearer, decodes, expires, verified,
        JwtValidator.clientId_of_claimsOf copies named, present, scopesEq ▸ granted⟩

/-- A principal is backed by the credentials it was made of, if the check of the API key
is. -/
theorem Backed.of_authenticate {lookups : List (String × LookupOutcome)} {creds : Credentials}
    {checkKey : KeyCheck} {systemNow : Int} {principal : Principal}
    (admitted : (authenticate creds (JwtValidator.validate deployment.tokens
      deployment.publicKeyPem systemNow) checkKey).result = .ok principal)
    (keyBacked : creds.apiKey ≠ "" → ∀ info, checkKey creds.apiKey = .ok info →
      ∃ record, LoggedRecord lookups (hashKey deployment.sha256 creds.apiKey) record ∧
        record.info = info) :
    Backed deployment lookups creds principal.clientId (requiredScope creds.method) := by
  have admits := admits_of_authenticate admitted
  have scopeHeld := (admits.scopes_eq _).mp (requiredScope_mem admitted)
  refine ⟨admits.all_valid.presented, fun hasKey => ?_, fun hasHeader => ?_⟩
  · obtain ⟨grant, granted⟩ := admits.all_valid.key_valid hasKey
    have clientEq := admits.same_client grant (Or.inl ⟨hasKey, granted⟩)
    have held := scopeHeld grant (Or.inl ⟨hasKey, granted⟩)
    unfold keyGrant at granted
    split at granted
    · rename_i info accepted
      cases granted
      obtain ⟨record, logged, rfl⟩ := keyBacked hasKey info accepted
      exact ⟨record, logged, clientEq, held⟩
    · cases granted
  · obtain ⟨grant, granted⟩ := admits.all_valid.header_valid hasHeader
    have clientEq := admits.same_client grant (Or.inr ⟨hasHeader, granted⟩)
    have held := scopeHeld grant (Or.inr ⟨hasHeader, granted⟩)
    rw [← clientEq]
    exact claims_of_headerGrants granted held

/-! ## The check of an API key -/

/-- A check of an API key that ended well found what a lookup returned for that key. -/
theorem record_of_check {state : ServerState platform}
    (reachable : (server platform deployment).machine.Reachable Trusted state) {id : Nat}
    {call : ServerCall platform} {target : Target} {check : ValidateCall} {info : ApiKeyInfo}
    (found : state.calls id = some call) (phaseEq : call.phase = .validating target check)
    (ended : check.phase = .done (.ok info)) :
    ∃ record, LoggedRecord state.shared.lookups (check.hash deployment.sha256) record ∧
      record.info = info := by
  have seen := hosts_validation.refines.reachable reachable
  have checking : (validationView state).calls id = some check := by
    simp only [validationView, Component.view, found, Option.bind_some, pickCheck, phaseEq]
  have own := ((refinementObligations deployment.sha256).of_reachable seen).calls id check checking
  have origin := own.2
  simp only [Auth.Origin, ended] at origin
  exact origin.1 info rfl

/-! ## What a request knows -/

/-- The router uses a route for requests with the method it is registered for; a `HEAD`
request may be served by the route for `GET`. -/
def Deployment.RespectsMethods (deployment : Deployment) : Prop :=
  ∀ request route id, deployment.router request = .ok (.resource route id) →
    request.method = route.method ∨ (request.method = "HEAD" ∧ route.method = "GET")

theorem sampleDeployment_respectsMethods : sampleDeployment.RespectsMethods := by
  intro request route id routed
  simp only [sampleDeployment] at routed
  split at routed
  · rename_i isDelete
    cases routed
    exact Or.inl isDelete
  · cases routed

/-- The handler a request goes to is one for its method. -/
def Routed (request : HttpRequest) (target : Target) : Prop :=
  ∀ route id, target = .resource route id →
    request.method = route.method ∨ (request.method = "HEAD" ∧ route.method = "GET")

/-- What backs a request at each point. -/
def PhaseBacked (deployment : Deployment) (lookups : List (String × LookupOutcome))
    (request : HttpRequest) : ServerPhase platform → Prop
  | .routed target => request.clientId = "" ∧ Routed request target
  | .validating target check =>
      request.clientId = "" ∧ Routed request target ∧ check.request.rawKey = request.apiKey
  | .handling target => Routed request target ∧ (request.clientId ≠ "" →
      Backed deployment lookups (credentials request) request.clientId
        (requiredScope request.method))
  | .serving inner _ => Backed deployment lookups (credentials request) inner.request.clientId
      inner.request.scope
  | .answered _ (some served) => Backed deployment lookups (credentials request)
      served.1.clientId served.1.scope
  | _ => True

/-- A request keeps its credentials, and they back what is done for it. -/
def OwnBacking (deployment : Deployment) (shared : ServerShared platform)
    (call : ServerCall platform) : Prop :=
  credentials call.request = credentials call.incoming.request ∧
    PhaseBacked deployment shared.lookups call.request call.phase

section Steps

variable {call next : ServerCall platform} {choice : ServerChoice}
  {shared after : ServerShared platform}

theorem PhaseBacked.mono {lookups more : List (String × LookupOutcome)} {request : HttpRequest}
    {phase : ServerPhase platform} (own : PhaseBacked deployment lookups request phase)
    (grows : lookups ⊆ more) : PhaseBacked deployment more request phase := by
  cases phase with
  | handling target => exact ⟨own.1, fun named => (own.2 named).mono grows⟩
  | serving inner answer => exact Backed.mono own grows
  | answered response served =>
      cases served with
      | none => trivial
      | some served => exact Backed.mono own grows
  | _ => exact own

/-- Lookups are never forgotten. -/
theorem ServerStep.lookups (stepped : ServerStep deployment call choice shared next after) :
    shared.lookups ⊆ after.lookups := by
  cases stepped with
  | validated _ checkStepped => exact lookups_grow checkStepped
  | _ => exact List.Subset.refl _

/-- Routing puts a request on the way to a handler for its method, or answers it. -/
theorem OwnBacking.route (respects : deployment.RespectsMethods)
    (same : credentials call.request = credentials call.incoming.request)
    (unnamed : call.request.clientId = "") :
    OwnBacking deployment shared (call.route deployment) := by
  unfold ServerCall.route
  split
  · rename_i target routed
    refine ⟨same, unnamed, fun route id targetEq => ?_⟩
    subst targetEq
    exact respects call.request route id routed
  · exact ⟨same, trivial⟩

/-- The authentication lets a request through to its handler as a client its credentials
back, or as none. -/
theorem OwnBacking.authenticated {target : Target} {checkKey : KeyCheck} {systemNow : Int}
    (same : credentials call.request = credentials call.incoming.request)
    (unnamed : call.request.clientId = "") (routed : Routed call.request target)
    (keyBacked : "/v1/".toList.isPrefixOf call.request.path.toList = true →
      call.request.apiKey ≠ "" → ∀ info,
      checkKey call.request.apiKey = .ok info → ∃ record, LoggedRecord shared.lookups
        (hashKey deployment.sha256 call.request.apiKey) record ∧ record.info = info) :
    OwnBacking deployment shared (call.authenticated deployment target checkKey systemNow) := by
  unfold ServerCall.authenticated
  split
  · exact ⟨same, trivial⟩
  · rename_i passed advice
    unfold authAdvice at advice
    split at advice
    · rename_i isApi
      split at advice
      · cases advice
      · rename_i principal admitted
        cases advice
        refine ⟨same, routed, fun _ => ?_⟩
        exact Backed.of_authenticate admitted (keyBacked isApi)
    · cases advice
      exact ⟨same, routed, fun named => (named unnamed).elim⟩

end Steps

/-- The steps the invariant is about: trusted ones, taken in reachable states. -/
def TrustedRun (deployment : Deployment) (state : ServerState platform) (event : ServerEvent) :
    Prop :=
  Trusted state event ∧ (server platform deployment).machine.Reachable Trusted state

theorem backingObligations (respects : deployment.RespectsMethods) :
    Component.Obligations (server platform deployment) (TrustedRun deployment)
      (fun _ => True) (OwnBacking deployment) where
  initially _ _ := trivial
  entered _ _ _ _ _ := ⟨rfl, trivial⟩
  advanced state id choice call next after holds allowed found stepped := by
    refine ⟨trivial, ?_⟩
    obtain ⟨same, own⟩ := holds.calls id call found
    cases ServerStep.of_step stepped with
    | declaredTooLarge => exact ⟨rfl, trivial⟩
    | uncounted => exact OwnBacking.route respects rfl rfl
    | counted phaseEq nextEq =>
        rw [nextEq]
        split
        · exact OwnBacking.route respects rfl rfl
        · exact ⟨rfl, trivial⟩
    | refused | bodyTooLarge | handled => exact ⟨same, trivial⟩
    | asked phaseEq =>
        rw [phaseEq] at own
        exact ⟨same, own.1, own.2, rfl⟩
    | decided decided =>
        cases decided with
        | unasked _ phaseEq none =>
            rw [phaseEq] at own
            exact OwnBacking.authenticated same own.1 own.2 fun isApi hasKey =>
              (none ⟨isApi, hasKey⟩).elim
        | @checked check outcome phaseEq ended =>
            rw [phaseEq] at own
            obtain ⟨unnamed, routed, rawKey⟩ := own
            refine OwnBacking.authenticated same unnamed routed fun _ _ info accepted => ?_
            have succeeded : check.phase = .done (.ok info) := by rw [ended, accepted]
            have logged := record_of_check allowed.2 found phaseEq succeeded
            rwa [ValidateCall.hash, rawKey] at logged
    | validated phaseEq checkStepped =>
        rw [phaseEq] at own
        refine ⟨same, own.1, own.2.1, ?_⟩
        rw [(ValidateCall.step_keeps checkStepped).1]
        exact own.2.2
    | @invoked route routeId request answer phaseEq invokes =>
        rw [phaseEq] at own
        obtain ⟨routed, backed⟩ := own
        obtain ⟨named, clientEq, scopeEq⟩ := route.of_invoke invokes
        refine ⟨same, ?_⟩
        have needed := scope_of_method (routed route routeId rfl)
        have invokedBacked := backed named
        rw [needed, ← scopeEq, ← clientEq] at invokedBacked
        exact invokedBacked
    | served phaseEq innerStepped =>
        rw [phaseEq] at own
        refine ⟨same, ?_⟩
        have keeps := (ServiceStep.of_step innerStepped).keeps.1
        simp only [ServerCall.goTo, PhaseBacked, keeps]
        exact own
    | finished phaseEq =>
        rw [phaseEq] at own
        exact ⟨same, own⟩
  undisturbed state id choice call next after holds _ _ stepped other bystander _ otherFound := by
    obtain ⟨same, own⟩ := holds.calls other bystander otherFound
    exact ⟨same, own.mono (ServerStep.of_step stepped).lookups⟩
  happened state happening after holds _ happened := by
    cases happened
    exact ⟨trivial, fun id call found => holds.calls id call found⟩

/-- Credentials back every request at each point. -/
theorem backed_of_reachable (respects : deployment.RespectsMethods) {state : ServerState platform}
    (reachable : (server platform deployment).machine.Reachable Trusted state) {id : Nat}
    {call : ServerCall platform} (found : state.calls id = some call) :
    OwnBacking deployment state.shared call :=
  ((backingObligations respects).of_reachable reachable.remember).calls id call found

end Corvus.Server
