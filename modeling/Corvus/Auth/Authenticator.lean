import Mathlib.Data.Finset.Basic
import Mathlib.Data.String.Basic

/-!
# Deciding who a request acts for

`authenticate` combines an API key and a bearer token into one decision.  The
two checks are injected, so the decision is a function of what they answer; the
calls it makes are recorded beside the result.

Below the function stands its specification: every credential that is presented
must grant access on its own, all of them to the same client, and the scopes
are those that every one of them grants.
-/

namespace Corvus.Auth

structure ApiKeyInfo where
  clientId : String
  scopes : String
  deriving DecidableEq, Repr

/-- The two exceptions a key check may throw. -/
inductive ApiKeyError where
  | validation (message : String)
  | backend (message : String)
  deriving DecidableEq, Repr

/-- Claims of a validated token. -/
structure Claims where
  subject : String := ""
  issuer : String := ""
  clientId : Option String := none
  scope : String := ""
  deriving DecidableEq, Repr

structure JwtValidationError where
  message : String
  deriving DecidableEq, Repr

structure Principal where
  clientId : String := ""
  scopes : Finset String := ∅
  viaApiKey : Bool := false
  viaJwt : Bool := false
  deriving DecidableEq

def Principal.hasScope (principal : Principal) (scope : String) : Bool :=
  decide (scope ∈ principal.scopes)

inductive AuthFailure where
  | unauthorized
  | forbidden
  | unavailable
  deriving DecidableEq, Repr

structure AuthError where
  kind : AuthFailure
  message : String
  deriving DecidableEq, Repr

def unauthorized (message : String) : AuthError :=
  { kind := .unauthorized, message }

structure Credentials where
  method : String
  authorization : String
  apiKey : String
  deriving DecidableEq, Repr

abbrev JwtCheck := String → Except JwtValidationError Claims
abbrev KeyCheck := String → Except ApiKeyError ApiKeyInfo

/-- A call of an injected check, with the argument it got. -/
inductive CheckCall where
  | jwt (token : String)
  | key (rawKey : String)
  deriving DecidableEq, Repr

def isSeparator (char : Char) : Bool :=
  char == ',' || char == ' ' || char == '\t'

/-- The loop of `parse_scopes`: `current` holds the characters since the last
separator. -/
def parseScopesFrom : List Char → List Char → Finset String → Finset String
  | [], current, out =>
      if current = [] then out else insert (String.ofList current) out
  | char :: rest, current, out =>
      if isSeparator char then
        parseScopesFrom rest []
          (if current = [] then out else insert (String.ofList current) out)
      else parseScopesFrom rest (current ++ [char]) out

def parseScopes (raw : String) : Finset String :=
  parseScopesFrom raw.toList [] ∅

def requiredScope (method : String) : String :=
  if method = "GET" || method = "HEAD" || method = "OPTIONS" then "read" else "write"

def kBearer : String := "Bearer "

/-- The block of `authenticate` that handles a presented API key. -/
def checkApiKey (creds : Credentials) (checkKey : KeyCheck) :
    Except AuthError Principal :=
  match checkKey creds.apiKey with
  | .ok info =>
      .ok { clientId := info.clientId
            scopes := parseScopes info.scopes
            viaApiKey := true }
  | .error (.backend _) =>
      .error { kind := .unavailable
               message := "Authentication is temporarily unavailable. Try again later." }
  | .error (.validation _) => .error (unauthorized "Invalid or expired API key")

/-- What the token adds to a principal that an API key may have set already. -/
def applyClaims (principal : Principal) (claims : Claims) :
    Except AuthError Principal :=
  match claims.clientId with
  | none => .error
      (unauthorized "Token is not bound to a client (missing client_id claim)")
  | some clientId =>
      if clientId = "" then .error
        (unauthorized "Token is not bound to a client (missing client_id claim)")
      else if principal.viaApiKey then
        if clientId ≠ principal.clientId then
          .error (unauthorized "API key and token belong to different clients")
        else .ok { principal with
          scopes := principal.scopes ∩ parseScopes claims.scope
          viaJwt := true }
      else .ok { principal with
        clientId
        scopes := parseScopes claims.scope
        viaJwt := true }

/-- The block of `authenticate` that handles a presented Authorization header. -/
def checkAuthorization (creds : Credentials) (checkJwt : JwtCheck)
    (principal : Principal) : Except AuthError Principal × List CheckCall :=
  let header := creds.authorization.toList
  if !kBearer.toList.isPrefixOf header || header.length = kBearer.toList.length then
    (.error (unauthorized "Malformed Authorization header: expected 'Bearer <token>'"), [])
  else
    let token := String.ofList (header.drop kBearer.toList.length)
    (match checkJwt token with
      | .error _ => .error (unauthorized "Invalid or expired token")
      | .ok claims => applyClaims principal claims, [.jwt token])

/-- The last test of `authenticate`. -/
def checkScope (creds : Credentials) (principal : Principal) :
    Except AuthError Principal :=
  let needed := requiredScope creds.method
  if principal.hasScope needed then .ok principal
  else .error { kind := .forbidden
                message := "This credential lacks the '" ++ needed ++ "' scope" }

/-- A decision and the check calls made on the way to it. -/
structure Authentication where
  result : Except AuthError Principal
  calls : List CheckCall

def authenticate (creds : Credentials) (checkJwt : JwtCheck) (checkKey : KeyCheck) :
    Authentication :=
  if creds.apiKey = "" ∧ creds.authorization = "" then
    { result := .error (unauthorized ("Missing credentials: send an X-Api-Key header or an " ++
        "Authorization: Bearer token"))
      calls := [] }
  else
    let keyStage : Except AuthError Principal × List CheckCall :=
      if creds.apiKey = "" then (.ok {}, [])
      else (checkApiKey creds checkKey, [.key creds.apiKey])
    match keyStage.1 with
    | .error error => { result := .error error, calls := keyStage.2 }
    | .ok principal =>
        let jwtStage : Except AuthError Principal × List CheckCall :=
          if creds.authorization = "" then (.ok principal, [])
          else checkAuthorization creds checkJwt principal
        match jwtStage.1 with
        | .error error => { result := .error error, calls := keyStage.2 ++ jwtStage.2 }
        | .ok principal =>
            { result := checkScope creds principal
              calls := keyStage.2 ++ jwtStage.2 }

/-! ## What credentials grant -/

/-- What one valid credential stands for. -/
structure Grant where
  clientId : String
  scopes : Finset String
  deriving DecidableEq

/-- The grant of an API key, if its check accepts it. -/
def keyGrant (checkKey : KeyCheck) (rawKey : String) : Option Grant :=
  match checkKey rawKey with
  | .ok info => some { clientId := info.clientId, scopes := parseScopes info.scopes }
  | .error _ => none

/-- `header` is the bearer form of the non-empty `token`. -/
def IsBearer (header token : String) : Prop :=
  header = kBearer ++ token ∧ token ≠ ""

/-- The grant of a token's claims, if they name a client. -/
def claimsGrant (claims : Claims) : Option Grant :=
  match claims.clientId with
  | none => none
  | some clientId =>
      if clientId = "" then none
      else some { clientId, scopes := parseScopes claims.scope }

/-- A header grants what the claims of its token grant. -/
def HeaderGrants (checkJwt : JwtCheck) (header : String) (grant : Grant) : Prop :=
  ∃ token claims, IsBearer header token ∧ checkJwt token = .ok claims ∧
    claimsGrant claims = some grant

/-- Some credential is presented, and every one that is presented is valid on its
own. -/
structure AllValid (creds : Credentials) (checkJwt : JwtCheck) (checkKey : KeyCheck) :
    Prop where
  presented : creds.apiKey ≠ "" ∨ creds.authorization ≠ ""
  key_valid : creds.apiKey ≠ "" → ∃ grant, keyGrant checkKey creds.apiKey = some grant
  header_valid : creds.authorization ≠ "" →
    ∃ grant, HeaderGrants checkJwt creds.authorization grant

/-- The grants of the presented credentials. -/
def presentedGrants (creds : Credentials) (checkJwt : JwtCheck) (checkKey : KeyCheck) :
    Set Grant :=
  { grant | (creds.apiKey ≠ "" ∧ keyGrant checkKey creds.apiKey = some grant) ∨
      (creds.authorization ≠ "" ∧ HeaderGrants checkJwt creds.authorization grant) }

/-- The credentials act for `clientId` with exactly the scopes that all of them
grant. -/
structure Admits (creds : Credentials) (checkJwt : JwtCheck) (checkKey : KeyCheck)
    (clientId : String) (scopes : Finset String) : Prop where
  all_valid : AllValid creds checkJwt checkKey
  same_client : ∀ grant ∈ presentedGrants creds checkJwt checkKey,
    grant.clientId = clientId
  scopes_eq : ∀ scope, scope ∈ scopes ↔
    ∀ grant ∈ presentedGrants creds checkJwt checkKey, scope ∈ grant.scopes

/-- An API key was presented and the key store could not be consulted. -/
def KeyStoreDown (creds : Credentials) (checkKey : KeyCheck) : Prop :=
  creds.apiKey ≠ "" ∧ ∃ message, checkKey creds.apiKey = .error (.backend message)

variable {creds : Credentials} {checkJwt : JwtCheck} {checkKey : KeyCheck}

/-! ## The header -/

theorem isBearer_iff {header token : String} :
    IsBearer header token ↔
      kBearer.toList.isPrefixOf header.toList = true ∧
        header.toList.length ≠ kBearer.toList.length ∧
        token = String.ofList (header.toList.drop kBearer.toList.length) := by
  constructor
  · rintro ⟨rfl, nonempty⟩
    rw [String.toList_append]
    refine ⟨by simp, ?_, by simp⟩
    simpa using nonempty
  · rintro ⟨isPrefix, longer, rfl⟩
    rw [List.isPrefixOf_iff_prefix] at isPrefix
    obtain ⟨rest, headerEq⟩ := isPrefix
    have dropped : header.toList.drop kBearer.toList.length = rest := by
      rw [← headerEq, List.drop_left]
    rw [dropped]
    refine ⟨?_, ?_⟩
    · apply String.toList_inj.mp
      rw [String.toList_append, String.toList_ofList, headerEq]
    · rw [← headerEq] at longer
      simpa [← String.toList_inj] using longer

theorem IsBearer.token_eq {header token other : String} (bearer : IsBearer header token)
    (otherBearer : IsBearer header other) : other = token :=
  (isBearer_iff.mp otherBearer).2.2.trans (isBearer_iff.mp bearer).2.2.symm

theorem checkAuthorization_of_isBearer {principal : Principal} {token : String}
    (bearer : IsBearer creds.authorization token) :
    checkAuthorization creds checkJwt principal =
      (match checkJwt token with
        | .error _ => .error (unauthorized "Invalid or expired token")
        | .ok claims => applyClaims principal claims, [.jwt token]) := by
  obtain ⟨isPrefix, longer, tokenEq⟩ := isBearer_iff.mp bearer
  simp only [checkAuthorization, isPrefix, longer, ← tokenEq, Bool.not_true,
    decide_false, Bool.or_self, Bool.false_eq_true, if_false]

theorem checkAuthorization_of_not_isBearer {principal : Principal}
    (malformed : ∀ token, ¬IsBearer creds.authorization token) :
    checkAuthorization creds checkJwt principal =
      (.error (unauthorized "Malformed Authorization header: expected 'Bearer <token>'"),
        []) := by
  unfold checkAuthorization
  simp only [ite_eq_left_iff, Bool.or_eq_true, Bool.not_eq_true', decide_eq_true_eq, not_or]
  intro ⟨isPrefix, longer⟩
  exact (malformed _ (isBearer_iff.mpr ⟨by simpa using isPrefix, longer, rfl⟩)).elim

theorem HeaderGrants.unique {header : String} {grant other : Grant}
    (grants : HeaderGrants checkJwt header grant)
    (otherGrants : HeaderGrants checkJwt header other) : other = grant := by
  obtain ⟨token, claims, bearer, checked, granted⟩ := grants
  obtain ⟨otherToken, otherClaims, otherBearer, otherChecked, otherGranted⟩ := otherGrants
  cases bearer.token_eq otherBearer
  rw [checked] at otherChecked
  cases otherChecked
  rw [granted] at otherGranted
  exact (Option.some.inj otherGranted).symm

/-! ## The decision before the scope test -/

/-- `authenticate` without its last test: whom the credentials act for, and with
which scopes. -/
def entitlement (creds : Credentials) (checkJwt : JwtCheck) (checkKey : KeyCheck) :
    Except AuthError Principal :=
  if creds.apiKey = "" ∧ creds.authorization = "" then
    .error (unauthorized ("Missing credentials: send an X-Api-Key header or an " ++
      "Authorization: Bearer token"))
  else
    match if creds.apiKey = "" then .ok {} else checkApiKey creds checkKey with
    | .error error => .error error
    | .ok principal =>
        if creds.authorization = "" then .ok principal
        else (checkAuthorization creds checkJwt principal).1

theorem authenticate_result :
    (authenticate creds checkJwt checkKey).result =
      match entitlement creds checkJwt checkKey with
      | .error error => .error error
      | .ok principal => checkScope creds principal := by
  unfold authenticate entitlement
  by_cases noKey : creds.apiKey = "" <;> by_cases noHeader : creds.authorization = ""
  · simp [noKey, noHeader]
  · simp only [noKey, noHeader, and_false, if_false, if_true]
    cases stage : (checkAuthorization creds checkJwt {}).1 <;> simp
  · simp only [noKey, noHeader, false_and, if_false, if_true]
    cases checkApiKey creds checkKey <;> rfl
  · simp only [noKey, noHeader, false_and, if_false]
    cases checkApiKey creds checkKey with
    | error error => rfl
    | ok principal =>
        cases stage : (checkAuthorization creds checkJwt principal).1 <;> simp [stage]

/-- Every call `authenticate` makes is for a credential that was presented. -/
theorem authenticate_calls {call : CheckCall}
    (called : call ∈ (authenticate creds checkJwt checkKey).calls) :
    (call = .key creds.apiKey ∧ creds.apiKey ≠ "") ∨
      ∃ token, call = .jwt token ∧ IsBearer creds.authorization token := by
  have header : ∀ principal,
      call ∈ (checkAuthorization creds checkJwt principal).2 →
        ∃ token, call = .jwt token ∧ IsBearer creds.authorization token := by
    intro principal member
    by_cases wellFormed : ∃ token, IsBearer creds.authorization token
    · obtain ⟨token, bearer⟩ := wellFormed
      rw [checkAuthorization_of_isBearer bearer] at member
      exact ⟨token, List.mem_singleton.mp member, bearer⟩
    · rw [checkAuthorization_of_not_isBearer (not_exists.mp wellFormed)] at member
      cases member
  unfold authenticate at called
  by_cases noKey : creds.apiKey = "" <;> by_cases noHeader : creds.authorization = ""
  · simp [noKey, noHeader] at called
  · simp only [noKey, noHeader, and_false, if_false, if_true, List.nil_append] at called
    right
    cases stage : (checkAuthorization creds checkJwt {}).1 <;>
      simp only [stage] at called <;> exact header {} called
  · left
    simp only [noKey, noHeader, false_and, if_false, if_true] at called
    cases stage : checkApiKey creds checkKey <;> simp only [stage] at called <;>
      exact ⟨by simpa using called, noKey⟩
  · simp only [noKey, noHeader, false_and, if_false] at called
    cases keyStage : checkApiKey creds checkKey with
    | error error =>
        simp only [keyStage] at called
        exact Or.inl ⟨by simpa using called, noKey⟩
    | ok principal =>
        simp only [keyStage] at called
        have either : call = .key creds.apiKey ∨
            call ∈ (checkAuthorization creds checkJwt principal).2 := by
          cases stage : (checkAuthorization creds checkJwt principal).1 <;>
            simpa [stage] using called
        rcases either with fromKey | fromHeader
        · exact Or.inl ⟨fromKey, noKey⟩
        · exact Or.inr (header principal fromHeader)

/-! ## Each block of the decision -/

theorem checkApiKey_ok {principal : Principal}
    (accepted : checkApiKey creds checkKey = .ok principal) :
    keyGrant checkKey creds.apiKey =
        some { clientId := principal.clientId, scopes := principal.scopes } ∧
      principal.viaApiKey = true := by
  unfold checkApiKey at accepted
  unfold keyGrant
  split at accepted <;> cases accepted
  case h_1 checked => simp [checked]

theorem checkApiKey_error {error : AuthError}
    (rejected : checkApiKey creds checkKey = .error error) :
    keyGrant checkKey creds.apiKey = none ∧ error.kind ≠ .forbidden ∧
      (error.kind = .unavailable ↔
        ∃ message, checkKey creds.apiKey = .error (.backend message)) := by
  unfold checkApiKey at rejected
  unfold keyGrant
  split at rejected <;> cases rejected
  case h_2 checked => simp [checked]
  case h_3 checked => simp [checked, unauthorized]

/-- Claims act through their grant only. -/
theorem applyClaims_eq (principal : Principal) (claims : Claims) :
    applyClaims principal claims =
      match claimsGrant claims with
      | none => .error
          (unauthorized "Token is not bound to a client (missing client_id claim)")
      | some grant =>
          if principal.viaApiKey then
            if grant.clientId ≠ principal.clientId then
              .error (unauthorized "API key and token belong to different clients")
            else .ok { principal with
              scopes := principal.scopes ∩ grant.scopes
              viaJwt := true }
          else .ok { principal with
            clientId := grant.clientId
            scopes := grant.scopes
            viaJwt := true } := by
  unfold applyClaims claimsGrant
  cases claims.clientId with
  | none => rfl
  | some clientId =>
      by_cases noClient : clientId = ""
      · simp [noClient]
      · simp only [noClient, if_false]

/-- How an accepted header changes the principal. -/
theorem checkAuthorization_ok {before principal : Principal}
    (accepted : (checkAuthorization creds checkJwt before).1 = .ok principal) :
    ∃ grant, HeaderGrants checkJwt creds.authorization grant ∧
      (before.viaApiKey = true → grant.clientId = before.clientId ∧
        principal.clientId = before.clientId ∧
        principal.scopes = before.scopes ∩ grant.scopes) ∧
      (before.viaApiKey = false → principal.clientId = grant.clientId ∧
        principal.scopes = grant.scopes) := by
  by_cases wellFormed : ∃ token, IsBearer creds.authorization token
  · obtain ⟨token, bearer⟩ := wellFormed
    rw [checkAuthorization_of_isBearer bearer] at accepted
    cases checked : checkJwt token with
    | error error => simp [checked] at accepted
    | ok claims =>
        simp only [checked, applyClaims_eq] at accepted
        cases granted : claimsGrant claims with
        | none => simp [granted] at accepted
        | some grant =>
            refine ⟨grant, ⟨token, claims, bearer, checked, granted⟩, ?_⟩
            simp only [granted] at accepted
            split_ifs at accepted with viaApiKey different <;> cases accepted
            · simpa [viaApiKey] using different
            · simp [viaApiKey]
  · rw [checkAuthorization_of_not_isBearer (not_exists.mp wellFormed)] at accepted
    cases accepted

/-- A rejected header grants nothing, or grants for another client than the key. -/
theorem checkAuthorization_error {before : Principal} {error : AuthError}
    (rejected : (checkAuthorization creds checkJwt before).1 = .error error) :
    error.kind = .unauthorized ∧
      ∀ grant, HeaderGrants checkJwt creds.authorization grant →
        before.viaApiKey = true ∧ grant.clientId ≠ before.clientId := by
  by_cases wellFormed : ∃ token, IsBearer creds.authorization token
  · obtain ⟨token, bearer⟩ := wellFormed
    rw [checkAuthorization_of_isBearer bearer] at rejected
    cases checked : checkJwt token with
    | error jwtError =>
        simp only [checked, Except.error.injEq] at rejected
        subst rejected
        refine ⟨rfl, ?_⟩
        rintro grant ⟨other, claims, otherBearer, otherChecked, _⟩
        rw [bearer.token_eq otherBearer, checked] at otherChecked
        cases otherChecked
    | ok claims =>
        simp only [checked, applyClaims_eq] at rejected
        cases granted : claimsGrant claims with
        | none =>
            simp only [granted, Except.error.injEq] at rejected
            subst rejected
            refine ⟨rfl, ?_⟩
            rintro grant ⟨other, otherClaims, otherBearer, otherChecked, otherGranted⟩
            rw [bearer.token_eq otherBearer, checked] at otherChecked
            cases otherChecked
            rw [granted] at otherGranted
            cases otherGranted
        | some grant =>
            have grants : HeaderGrants checkJwt creds.authorization grant :=
              ⟨token, claims, bearer, checked, granted⟩
            simp only [granted] at rejected
            split_ifs at rejected with viaApiKey different
            cases rejected
            refine ⟨rfl, fun other otherGrants => ⟨viaApiKey, ?_⟩⟩
            rwa [grants.unique otherGrants]
  · rw [checkAuthorization_of_not_isBearer (not_exists.mp wellFormed)] at rejected
    cases rejected
    refine ⟨rfl, ?_⟩
    rintro grant ⟨token, claims, bearer, _⟩
    exact (wellFormed ⟨token, bearer⟩).elim

/-! ## The decision against its specification -/

/-- The specification determines the client and the scopes. -/
theorem Admits.unique {clientId other : String} {scopes otherScopes : Finset String}
    (admits : Admits creds checkJwt checkKey clientId scopes)
    (otherAdmits : Admits creds checkJwt checkKey other otherScopes) :
    other = clientId ∧ otherScopes = scopes := by
  have presented : ∃ grant, grant ∈ presentedGrants creds checkJwt checkKey := by
    rcases admits.all_valid.presented with key | header
    · obtain ⟨grant, granted⟩ := admits.all_valid.key_valid key
      exact ⟨grant, Or.inl ⟨key, granted⟩⟩
    · obtain ⟨grant, granted⟩ := admits.all_valid.header_valid header
      exact ⟨grant, Or.inr ⟨header, granted⟩⟩
  obtain ⟨grant, member⟩ := presented
  constructor
  · rw [← admits.same_client grant member, otherAdmits.same_client grant member]
  · ext scope
    rw [admits.scopes_eq, otherAdmits.scopes_eq]

theorem Admits.not_keyStoreDown {clientId : String} {scopes : Finset String}
    (admits : Admits creds checkJwt checkKey clientId scopes) :
    ¬KeyStoreDown creds checkKey := by
  rintro ⟨key, message, failed⟩
  obtain ⟨grant, granted⟩ := admits.all_valid.key_valid key
  simp [keyGrant, failed] at granted

/-- What the decision before the scope test returns, the specification admits. -/
theorem admits_of_entitlement {principal : Principal}
    (entitled : entitlement creds checkJwt checkKey = .ok principal) :
    Admits creds checkJwt checkKey principal.clientId principal.scopes := by
  unfold entitlement at entitled
  by_cases noKey : creds.apiKey = "" <;> by_cases noHeader : creds.authorization = ""
  · simp [noKey, noHeader] at entitled
  · simp only [noKey, noHeader, and_false, if_false, if_true] at entitled
    obtain ⟨grant, granted, -, alone⟩ := checkAuthorization_ok entitled
    obtain ⟨clientEq, scopesEq⟩ := alone rfl
    have only : ∀ other ∈ presentedGrants creds checkJwt checkKey, other = grant := by
      rintro other (⟨key, _⟩ | ⟨_, otherGranted⟩)
      · exact (key noKey).elim
      · exact granted.unique otherGranted
    have member : grant ∈ presentedGrants creds checkJwt checkKey :=
      Or.inr ⟨noHeader, granted⟩
    refine ⟨⟨Or.inr noHeader, fun key => (key noKey).elim, fun _ => ⟨grant, granted⟩⟩, ?_, ?_⟩
    · intro other otherMember
      rw [only other otherMember, clientEq]
    · intro scope
      rw [scopesEq]
      exact ⟨fun inGrant other otherMember => only other otherMember ▸ inGrant,
        fun inAll => inAll grant member⟩
  · simp only [noKey, noHeader, false_and, if_false, if_true] at entitled
    cases checked : checkApiKey creds checkKey with
    | error error => simp [checked] at entitled
    | ok accepted =>
        simp only [checked, Except.ok.injEq] at entitled
        subst entitled
        obtain ⟨granted, -⟩ := checkApiKey_ok checked
        have only : ∀ other ∈ presentedGrants creds checkJwt checkKey,
            other = { clientId := accepted.clientId, scopes := accepted.scopes } := by
          rintro other (⟨_, otherGranted⟩ | ⟨header, _⟩)
          · exact (Option.some.inj (granted.symm.trans otherGranted)).symm
          · exact (header noHeader).elim
        have member : { clientId := accepted.clientId, scopes := accepted.scopes } ∈
            presentedGrants creds checkJwt checkKey := Or.inl ⟨noKey, granted⟩
        refine ⟨⟨Or.inl noKey, fun _ => ⟨_, granted⟩, fun header => (header noHeader).elim⟩,
          ?_, ?_⟩
        · intro other otherMember
          rw [only other otherMember]
        · intro scope
          exact ⟨fun inGrant other otherMember => only other otherMember ▸ inGrant,
            fun inAll => inAll _ member⟩
  · simp only [noKey, noHeader, false_and, if_false] at entitled
    cases checked : checkApiKey creds checkKey with
    | error error => simp [checked] at entitled
    | ok accepted =>
        simp only [checked] at entitled
        obtain ⟨keyGranted, viaApiKey⟩ := checkApiKey_ok checked
        obtain ⟨grant, granted, both, -⟩ := checkAuthorization_ok entitled
        obtain ⟨sameClient, clientEq, scopesEq⟩ := both viaApiKey
        refine ⟨⟨Or.inl noKey, fun _ => ⟨_, keyGranted⟩, fun _ => ⟨grant, granted⟩⟩, ?_, ?_⟩
        · rintro other (⟨_, otherGranted⟩ | ⟨_, otherGranted⟩)
          · rw [← Option.some.inj (keyGranted.symm.trans otherGranted), clientEq]
          · rw [granted.unique otherGranted, sameClient, clientEq]
        · intro scope
          rw [scopesEq, Finset.mem_inter]
          constructor
          · rintro ⟨inKey, inHeader⟩ other (⟨_, otherGranted⟩ | ⟨_, otherGranted⟩)
            · rwa [← Option.some.inj (keyGranted.symm.trans otherGranted)]
            · rwa [granted.unique otherGranted]
          · intro inAll
            exact ⟨inAll _ (Or.inl ⟨noKey, keyGranted⟩), inAll _ (Or.inr ⟨noHeader, granted⟩)⟩

/-- What the decision before the scope test rejects, the specification does not admit. -/
theorem not_admits_of_entitlement {error : AuthError}
    (rejected : entitlement creds checkJwt checkKey = .error error) :
    (∀ clientId scopes, ¬Admits creds checkJwt checkKey clientId scopes) ∧
      error.kind ≠ .forbidden ∧
      (error.kind = .unavailable ↔ KeyStoreDown creds checkKey) := by
  unfold entitlement at rejected
  by_cases noKey : creds.apiKey = "" <;> by_cases noHeader : creds.authorization = ""
  · simp only [noKey, noHeader, and_self, if_true, Except.error.injEq] at rejected
    subst rejected
    refine ⟨?_, by simp [unauthorized], by simp [unauthorized, KeyStoreDown, noKey]⟩
    intro clientId scopes admits
    rcases admits.all_valid.presented with key | header
    · exact key noKey
    · exact header noHeader
  · simp only [noKey, noHeader, and_false, if_false, if_true] at rejected
    obtain ⟨kindEq, notGranted⟩ := checkAuthorization_error rejected
    refine ⟨?_, by simp [kindEq], by simp [kindEq, KeyStoreDown, noKey]⟩
    intro clientId scopes admits
    obtain ⟨grant, granted⟩ := admits.all_valid.header_valid noHeader
    cases (notGranted grant granted).1
  · simp only [noKey, noHeader, false_and, if_false, if_true] at rejected
    cases checked : checkApiKey creds checkKey with
    | ok accepted => simp [checked] at rejected
    | error keyError =>
        simp only [checked, Except.error.injEq] at rejected
        subst rejected
        obtain ⟨notGranted, notForbidden, unavailable⟩ := checkApiKey_error checked
        refine ⟨?_, notForbidden, by simp [unavailable, KeyStoreDown, noKey]⟩
        intro clientId scopes admits
        obtain ⟨grant, granted⟩ := admits.all_valid.key_valid noKey
        rw [notGranted] at granted
        cases granted
  · simp only [noKey, noHeader, false_and, if_false] at rejected
    cases checked : checkApiKey creds checkKey with
    | error keyError =>
        simp only [checked, Except.error.injEq] at rejected
        subst rejected
        obtain ⟨notGranted, notForbidden, unavailable⟩ := checkApiKey_error checked
        refine ⟨?_, notForbidden, by simp [unavailable, KeyStoreDown, noKey]⟩
        intro clientId scopes admits
        obtain ⟨grant, granted⟩ := admits.all_valid.key_valid noKey
        rw [notGranted] at granted
        cases granted
    | ok accepted =>
        simp only [checked] at rejected
        obtain ⟨keyGranted, _⟩ := checkApiKey_ok checked
        obtain ⟨kindEq, notGranted⟩ := checkAuthorization_error rejected
        have consulted : ¬KeyStoreDown creds checkKey := by
          rintro ⟨_, message, failed⟩
          simp [keyGrant, failed] at keyGranted
        refine ⟨?_, by simp [kindEq], by simp [kindEq, consulted]⟩
        intro clientId scopes admits
        obtain ⟨grant, granted⟩ := admits.all_valid.header_valid noHeader
        have keyClient := admits.same_client _ (Or.inl ⟨noKey, keyGranted⟩)
        have headerClient := admits.same_client _ (Or.inr ⟨noHeader, granted⟩)
        exact (notGranted grant granted).2 (headerClient.trans keyClient.symm)

/-- The three ways a decision can end. -/
theorem authenticate_cases :
    (∃ error, (authenticate creds checkJwt checkKey).result = .error error ∧
        (∀ clientId scopes, ¬Admits creds checkJwt checkKey clientId scopes) ∧
        error.kind ≠ .forbidden ∧
        (error.kind = .unavailable ↔ KeyStoreDown creds checkKey)) ∨
      ∃ principal, Admits creds checkJwt checkKey principal.clientId principal.scopes ∧
        ((requiredScope creds.method ∈ principal.scopes ∧
            (authenticate creds checkJwt checkKey).result = .ok principal) ∨
          (requiredScope creds.method ∉ principal.scopes ∧ ∃ message,
            (authenticate creds checkJwt checkKey).result =
              .error { kind := .forbidden, message })) := by
  rw [authenticate_result]
  cases entitled : entitlement creds checkJwt checkKey with
  | error error => exact Or.inl ⟨error, rfl, not_admits_of_entitlement entitled⟩
  | ok principal =>
      right
      refine ⟨principal, admits_of_entitlement entitled, ?_⟩
      by_cases granted : requiredScope creds.method ∈ principal.scopes
      · exact Or.inl ⟨granted, by simp [checkScope, Principal.hasScope, granted]⟩
      · exact Or.inr ⟨granted, _, by simp [checkScope, Principal.hasScope, granted]; rfl⟩

/-- The decision fails with an error of this kind. -/
def FailsWith (kind : AuthFailure) (decision : Authentication) : Prop :=
  ∃ message, decision.result = .error { kind, message }

/-- `authenticate` returns a principal exactly when the presented credentials are
admitted and all grant the scope of the method, and the principal has the
admitted client and scopes.  Otherwise the kind of error tells an unreachable
key store from a lacking scope and from everything else.  The checks are called
for presented credentials only. -/
theorem authenticate_correct (creds : Credentials) (checkJwt : JwtCheck)
    (checkKey : KeyCheck) :
    (∀ clientId scopes,
      (∃ principal, (authenticate creds checkJwt checkKey).result = .ok principal ∧
          principal.clientId = clientId ∧ principal.scopes = scopes) ↔
        Admits creds checkJwt checkKey clientId scopes ∧
          requiredScope creds.method ∈ scopes) ∧
      (FailsWith .unavailable (authenticate creds checkJwt checkKey) ↔
        KeyStoreDown creds checkKey) ∧
      (FailsWith .forbidden (authenticate creds checkJwt checkKey) ↔
        ∃ clientId scopes, Admits creds checkJwt checkKey clientId scopes ∧
          requiredScope creds.method ∉ scopes) ∧
      (FailsWith .unauthorized (authenticate creds checkJwt checkKey) ↔
        ¬KeyStoreDown creds checkKey ∧
          ∀ clientId scopes, ¬Admits creds checkJwt checkKey clientId scopes) ∧
      ∀ call ∈ (authenticate creds checkJwt checkKey).calls,
        (call = .key creds.apiKey ∧ creds.apiKey ≠ "") ∨
          ∃ token, call = .jwt token ∧ IsBearer creds.authorization token := by
  unfold FailsWith
  rcases @authenticate_cases creds checkJwt checkKey with
    ⟨error, resultEq, notAdmitted, notForbidden, unavailable⟩ |
    ⟨principal, admits, ⟨granted, resultEq⟩ | ⟨lacking, message, resultEq⟩⟩
  · obtain ⟨kind, message⟩ := error
    refine ⟨by simp [resultEq, notAdmitted], by simpa [resultEq] using unavailable,
      by simpa [resultEq, notAdmitted] using notForbidden, ?_, fun _ => authenticate_calls⟩
    rw [← unavailable, resultEq]
    cases kind <;> simp_all
  · refine ⟨?_, by simp [resultEq, admits.not_keyStoreDown], ?_, ?_,
      fun _ => authenticate_calls⟩
    · intro clientId scopes
      rw [resultEq]
      constructor
      · rintro ⟨_, ⟨rfl⟩, rfl, rfl⟩
        exact ⟨admits, granted⟩
      · rintro ⟨otherAdmits, _⟩
        obtain ⟨rfl, rfl⟩ := admits.unique otherAdmits
        exact ⟨principal, rfl, rfl, rfl⟩
    · simp only [resultEq, reduceCtorEq, exists_false, false_iff]
      rintro ⟨clientId, scopes, otherAdmits, lacking⟩
      obtain ⟨rfl, rfl⟩ := admits.unique otherAdmits
      exact lacking granted
    · simp only [resultEq, reduceCtorEq, exists_false, false_iff]
      exact fun ⟨_, notAdmitted⟩ => notAdmitted _ _ admits
  · refine ⟨?_, by simp [resultEq, admits.not_keyStoreDown], ?_, ?_,
      fun _ => authenticate_calls⟩
    · intro clientId scopes
      simp only [resultEq, reduceCtorEq, false_and, exists_false, false_iff]
      rintro ⟨otherAdmits, granted⟩
      obtain ⟨rfl, rfl⟩ := admits.unique otherAdmits
      exact lacking granted
    · simp only [resultEq, Except.error.injEq, AuthError.mk.injEq, true_and, exists_eq',
        true_iff]
      exact ⟨_, _, admits, lacking⟩
    · simp only [resultEq, Except.error.injEq, AuthError.mk.injEq, reduceCtorEq, false_and,
        exists_false, false_iff]
      exact fun ⟨_, notAdmitted⟩ => notAdmitted _ _ admits

end Corvus.Auth
