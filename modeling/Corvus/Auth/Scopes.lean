import Corvus.Auth.Authenticator
import Corvus.Fields

/-!
# The scopes of a credential

`parse_scopes` collects characters until the next separator.  What it has collected in
the end are the maximal pieces of the text that are not empty, so a scope is granted as
a whole token or not at all.
-/

namespace Corvus.Auth

open Corvus.Fields

/-- The scope is a token of the text: a maximal piece without separators, and not empty. -/
def IsToken (raw scope : String) : Prop :=
  scope ≠ "" ∧ MaximalPiece isSeparator raw.toList scope.toList

/-- What the loop has collected, and the pieces of what is still to come. -/
theorem mem_parseScopesFrom {text current : List Char} {out : Finset String} {scope : String}
    (free : ∀ char ∈ current, isSeparator char = false) :
    scope ∈ parseScopesFrom text current out ↔
      scope ∈ out ∨ scope ≠ "" ∧ scope.toList ∈ (current ++ text).splitOnP isSeparator := by
  have flushed : ∀ {collected : List Char} {found : Finset String},
      scope ∈ (if collected = [] then found else insert (String.ofList collected) found) ↔
        scope ∈ found ∨ scope ≠ "" ∧ scope.toList = collected := by
    intro collected found
    have named : scope = String.ofList collected ↔ scope.toList = collected := by
      rw [← String.toList_inj, String.toList_ofList]
    have nonempty : scope ≠ "" ↔ scope.toList ≠ [] := by
      rw [Ne, ← String.toList_inj, String.toList_empty]
    by_cases empty : collected = []
    · rw [if_pos empty, empty, nonempty]
      simp
    · rw [if_neg empty, Finset.mem_insert, named, nonempty, or_comm]
      refine or_congr_right ⟨fun same => ⟨same ▸ empty, same⟩, fun token => token.2⟩
  induction text generalizing current out with
  | nil =>
      rw [parseScopesFrom, flushed, List.append_nil, List.splitOnP_eq_singleton free,
        List.mem_singleton]
  | cons char rest ih =>
      rw [parseScopesFrom]
      cases separates : isSeparator char with
      | true =>
          have later : _ ↔ _ :=
            @ih [] (if current = [] then out else insert (String.ofList current) out) (by simp)
          rw [if_pos rfl, later, flushed, List.nil_append,
            List.splitOnP_append_cons_of_forall_mem free char separates, List.mem_cons]
          tauto
      | false =>
          have freeLonger : ∀ other ∈ current ++ [char], isSeparator other = false := by
            simpa [or_imp, forall_and] using ⟨free, separates⟩
          have later : _ ↔ _ := @ih (current ++ [char]) out freeLonger
          rw [if_neg (by simp), later, List.append_assoc, List.singleton_append]

theorem mem_parseScopes {raw scope : String} : scope ∈ parseScopes raw ↔ IsToken raw scope := by
  rw [parseScopes, mem_parseScopesFrom (by simp), List.nil_append, mem_splitOnP_iff]
  simp [IsToken]

theorem parseScopes_append {before after : String} {separator : Char}
    (separates : isSeparator separator = true) :
    parseScopes (before ++ String.singleton separator ++ after) =
      parseScopes before ∪ parseScopes after := by
  ext scope
  have cut := List.splitOnP_append_cons before.toList after.toList separates
  rw [Finset.mem_union, mem_parseScopes, mem_parseScopes, mem_parseScopes]
  simp only [IsToken, ← mem_splitOnP_iff, String.toList_append, String.toList_singleton,
    List.append_assoc, List.singleton_append, cut, List.mem_append]
  tauto

/-! ## What is granted -/

section

variable {creds : Credentials} {checkJwt : JwtCheck} {checkKey : KeyCheck}

/-- The scope texts of the credentials that are presented. -/
def presentedScopes (creds : Credentials) (checkJwt : JwtCheck) (checkKey : KeyCheck) :
    Set String :=
  { raw | (creds.apiKey ≠ "" ∧ ∃ info, checkKey creds.apiKey = .ok info ∧ raw = info.scopes) ∨
      (creds.authorization ≠ "" ∧ ∃ token claims, IsBearer creds.authorization token ∧
        checkJwt token = .ok claims ∧ raw = claims.scope) }

/-- A valid credential grants the tokens of its scope text. -/
theorem grant_of_presented (valid : AllValid creds checkJwt checkKey) {raw : String}
    (presented : raw ∈ presentedScopes creds checkJwt checkKey) :
    ∃ grant ∈ presentedGrants creds checkJwt checkKey, grant.scopes = parseScopes raw := by
  rcases presented with ⟨key, info, checked, rfl⟩ | ⟨header, token, claims, bearer, checked, rfl⟩
  · exact ⟨_, Or.inl ⟨key, by rw [keyGrant, checked]⟩, rfl⟩
  · obtain ⟨grant, grants⟩ := valid.header_valid header
    refine ⟨grant, Or.inr ⟨header, grants⟩, ?_⟩
    obtain ⟨otherToken, otherClaims, otherBearer, otherChecked, granted⟩ := grants
    rw [bearer.token_eq otherBearer, checked] at otherChecked
    cases otherChecked
    unfold claimsGrant at granted
    split at granted
    · cases granted
    · split at granted
      · cases granted
      · cases granted
        rfl

/-- Who is let in has the tokens of every credential it presented, and no others. -/
theorem granted_scopes {principal : Principal}
    (admitted : (authenticate creds checkJwt checkKey).result = .ok principal) {scope : String}
    (granted : principal.hasScope scope = true) {raw : String}
    (presented : raw ∈ presentedScopes creds checkJwt checkKey) : IsToken raw scope := by
  have entitled : entitlement creds checkJwt checkKey = .ok principal := by
    rw [authenticate_result] at admitted
    cases entitled : entitlement creds checkJwt checkKey with
    | error error =>
        rw [entitled] at admitted
        cases admitted
    | ok other =>
        rw [entitled] at admitted
        simp only [checkScope] at admitted
        split at admitted
        · cases admitted
          rfl
        · cases admitted
  have admits := admits_of_entitlement entitled
  obtain ⟨grant, member, scopesEq⟩ := grant_of_presented admits.all_valid presented
  have inGrant := (admits.scopes_eq scope).mp (of_decide_eq_true granted) grant member
  rwa [scopesEq, mem_parseScopes] at inGrant

end

/-- `parse_scopes` returns the tokens of the text; a separator between two texts keeps their
tokens apart; and what a credential is let in with are whole tokens of its scope text. -/
theorem parseScopes_exact (raw : String) :
    (∀ scope, scope ∈ parseScopes raw ↔ IsToken raw scope) ∧
      (∀ before after separator, separator ∈ [',', ' ', '\t'] →
        parseScopes (before ++ String.singleton separator ++ after) =
          parseScopes before ∪ parseScopes after) ∧
      ∀ creds checkJwt checkKey principal scope,
        (authenticate creds checkJwt checkKey).result = .ok principal →
        principal.hasScope scope = true → raw ∈ presentedScopes creds checkJwt checkKey →
        IsToken raw scope := by
  refine ⟨fun scope => mem_parseScopes, fun before after separator member => ?_, ?_⟩
  · apply parseScopes_append
    simp only [List.mem_cons, List.not_mem_nil, or_false] at member
    rcases member with rfl | rfl | rfl <;> rfl
  · intro creds checkJwt checkKey principal scope admitted granted presented
    exact granted_scopes admitted granted presented

/-- A key for two scopes is let in to read; one for `readonly` has no scope to read. -/
theorem parseScopes_exact_key :
    IsToken "read,write" "read" ∧
      parseScopes "read,write" = parseScopes "read" ∪ parseScopes "write" ∧
      "read" ∉ parseScopes "readonly" := by
  obtain ⟨_, union, granted⟩ := parseScopes_exact "read,write"
  refine ⟨granted { method := "GET", authorization := "", apiKey := "key" }
    (fun _ => .error { message := "" }) (fun _ => .ok { clientId := "svc", scopes := "read,write" })
    { clientId := "svc", scopes := parseScopes "read,write", viaApiKey := true } "read" rfl rfl
    (Or.inl ⟨by decide, _, rfl, rfl⟩), union "read" "write" ',' (by decide), fun member => ?_⟩
  have token := (((parseScopes_exact "readonly").1 "read").mp member).2
  rw [← mem_splitOnP_iff] at token
  revert token
  decide

end Corvus.Auth
