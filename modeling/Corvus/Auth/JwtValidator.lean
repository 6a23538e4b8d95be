import Corvus.Auth.Authenticator

/-!
# Validating tokens

A token is decoded, must have an expiry, must pass the verification of the token
library with the one key that is configured, and its claims are then copied.  The
library is a parameter; every exception becomes a validation error, and only its
text tells them apart.
-/

namespace Corvus.Auth

/-- An exception of `verify`: a `token_verification_exception` or another one. -/
inductive VerifyError where
  | verification (what : String)
  | other (what : String)

/-- What the validator uses of the token library.  Texts are those of exceptions; a
claim is absent, or is a text, or is something else. -/
structure JwtLibrary where
  /-- Decoded tokens. -/
  Token : Type
  decode : String → Except String Token
  hasExpiresAt : Token → Bool
  /-- The verifier for RS256 with the key and the type `JWT`, at a time. -/
  verify : String → Int → Token → Except VerifyError Unit
  subject : Token → Option (Except String String)
  issuer : Token → Option (Except String String)
  payloadClaim : Token → String → Option (Except String String)

namespace JwtValidator

variable (library : JwtLibrary)

/-- A claim that is copied if it is present. -/
def copied : Option (Except String String) → Except String (Option String)
  | none => .ok none
  | some (.ok text) => .ok (some text)
  | some (.error what) => .error what

/-- The claims of a verified token, copied one after the other. -/
def claimsOf (decoded : library.Token) : Except String Claims := do
  let subject ← copied (library.subject decoded)
  let issuer ← copied (library.issuer decoded)
  let clientId ← copied (library.payloadClaim decoded "client_id")
  let scope ← copied (library.payloadClaim decoded "scope")
  return { subject := subject.getD "", issuer := issuer.getD "", clientId,
           scope := scope.getD "" }

def decodeFailed (what : String) : JwtValidationError :=
  { message := "Token decode failed: " ++ what }

/-- `JwtValidator::validate`, at a time of the system clock. -/
def validate (publicKeyPem : String) (systemNow : Int) : JwtCheck := fun token =>
  match library.decode token with
  | .error what => .error (decodeFailed what)
  | .ok decoded =>
      if library.hasExpiresAt decoded then
        match library.verify publicKeyPem systemNow decoded with
        | .error (.verification what) => .error { message := what }
        | .error (.other what) => .error (decodeFailed what)
        | .ok () =>
            match claimsOf library decoded with
            | .error what => .error (decodeFailed what)
            | .ok claims => .ok claims
      else .error { message := "Token is missing required 'exp' claim" }

variable {library}

/-- A token that is accepted was decoded, has an expiry and was verified with the key;
its claims are those of the token. -/
theorem of_validate {publicKeyPem : String} {systemNow : Int} {token : String}
    {claims : Claims} (accepted : validate library publicKeyPem systemNow token = .ok claims) :
    ∃ decoded, library.decode token = .ok decoded ∧ library.hasExpiresAt decoded = true ∧
      library.verify publicKeyPem systemNow decoded = .ok () ∧
      claimsOf library decoded = .ok claims := by
  unfold validate at accepted
  split at accepted
  · cases accepted
  · rename_i decoded decodes
    split at accepted
    · rename_i expires
      split at accepted
      · cases accepted
      · cases accepted
      · rename_i verified
        split at accepted
        · cases accepted
        · rename_i copies
          cases accepted
          exact ⟨decoded, decodes, expires, verified, copies⟩
    · cases accepted

theorem copied_eq_some {claim : Option (Except String String)} {text : String}
    (isCopied : copied claim = .ok (some text)) : claim = some (.ok text) := by
  unfold copied at isCopied
  split at isCopied
  · cases isCopied
  · cases isCopied
    rfl
  · cases isCopied

/-- The copied claims are those of the token. -/
theorem of_claimsOf {decoded : library.Token} {claims : Claims}
    (copies : claimsOf library decoded = .ok claims) :
    copied (library.payloadClaim decoded "client_id") = .ok claims.clientId ∧
      ∃ scope, copied (library.payloadClaim decoded "scope") = .ok scope ∧
        claims.scope = scope.getD "" := by
  simp only [claimsOf, bind, Except.bind, pure, Except.pure] at copies
  split at copies
  · cases copies
  · split at copies
    · cases copies
    · split at copies
      · cases copies
      · rename_i clientCopied
        split at copies
        · cases copies
        · rename_i scope scopeCopied
          cases copies
          exact ⟨clientCopied, scope, scopeCopied, rfl⟩

/-- The client a verified token names is the text of its claim `client_id`. -/
theorem clientId_of_claimsOf {decoded : library.Token} {claims : Claims} {clientId : String}
    (copies : claimsOf library decoded = .ok claims) (named : claims.clientId = some clientId) :
    library.payloadClaim decoded "client_id" = some (.ok clientId) := by
  have clientCopied := (of_claimsOf copies).1
  rw [named] at clientCopied
  exact copied_eq_some clientCopied

/-- Scopes come from the claim `scope`. -/
theorem scope_of_claimsOf {decoded : library.Token} {claims : Claims}
    (copies : claimsOf library decoded = .ok claims) (notEmpty : claims.scope ≠ "") :
    ∃ scopes, library.payloadClaim decoded "scope" = some (.ok scopes) ∧
      claims.scope = scopes := by
  obtain ⟨_, scope, scopeCopied, scopeEq⟩ := of_claimsOf copies
  cases scope with
  | none => exact (notEmpty scopeEq).elim
  | some scopes => exact ⟨scopes, copied_eq_some scopeCopied, scopeEq⟩

end JwtValidator

end Corvus.Auth
