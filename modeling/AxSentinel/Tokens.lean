import AxSentinel.Json
import AxSentinel.Service
import AxSentinel.Strings
import Mathlib.Data.List.ReduceOption

/-! # Access tokens

`shared/auth.py`: which verifier the settings ask for, what it accepts, and the principal it
makes of the claims of a token.  What PyJWT decides is in `Jwt`. -/
namespace AxSentinel
open Effects
open Python (Json Str)

/-- The exceptions of verification: `RuntimeError` and those of PyJWT, which share one base
class, are told apart from all others. -/
inductive TokenError where
  | pyJwtError (message : String)
  | runtimeError (message : String)
  | other (name message : String)
deriving DecidableEq, Repr

/-- What a token claims. -/
abbrev Claims := List (Str × Json)

/-- `claims.get(name)`. -/
def Claims.get? (claims : Claims) (name : String) : Option Json := claims.lookup (.text name)

/-- What PyJWT and the runtime decide. -/
structure Jwt where
  /-- The claims of a token, decoded with the signing key the key set has for it; an audience
  is checked if one is given. -/
  decode : (jwksUrl issuer : String) → (audience : Option String) → (token : String) →
    Except TokenError Claims
  /-- `str()` of a claim, which no value makes fail. -/
  str : Json → String

/-- The settings of authentication. -/
structure AuthSettings where
  authMode : String
  awsRegion : String
  cognitoUserPoolId : Option String
  cognitoClientId : Option String
  oidcIssuer : Option String
  oidcJwksUrl : Option String
  oidcClientId : Option String

/-! ## Principals -/

/-- `Role.value`. -/
def Role.value : Role → String
  | operatorManager => "operator_manager"
  | fieldWorker => "field_worker"
  | systemAdmin => "system_admin"

/-- `known_roles.get(group)`; looking up what cannot be hashed raises. -/
def knownRole : Json → Except TokenError (Option Role)
  | .str (.text group) =>
      .ok ([Role.operatorManager, .fieldWorker, .systemAdmin].find? fun role => role.value = group)
  | .list _ => .error (.other "TypeError" "unhashable type: 'list'")
  | .dict _ => .error (.other "TypeError" "unhashable type: 'dict'")
  | _ => .ok none

/-- One code point of a text that has lone surrogates. -/
def codePointText (n : Nat) : Json :=
  if h : Python.isSurrogate n = true then .str (.surrogates [n] (Python.any_isSurrogate h))
  else .text (String.singleton (Char.ofNat n))

/-- `[*value]`: the items of a list, the characters of a text, the keys of a dictionary. -/
def unpack : Json → Except TokenError (List Json)
  | .list items => .ok items
  | .str (.text s) => .ok (s.toList.map fun c => .text (String.singleton c))
  | .str (.surrogates codePoints _) => .ok (codePoints.map codePointText)
  | .dict fields => .ok (fields.map fun field => .str field.1)
  | _ => .error (.other "TypeError" "Value after * must be an iterable")

/-- The `roles` of the `realm_access` claim. -/
def Claims.keycloakRoles (claims : Claims) : Json :=
  match (claims.get? "realm_access").getD (.dict []) with
  | .dict fields => ((Json.dict fields).get? "roles").getD (.list [])
  | _ => .list []

/-- The `cognito:groups` claim. -/
def Claims.cognitoGroups (claims : Claims) : Json := (claims.get? "cognito:groups").getD (.list [])

/-- `principal_from_claims`. -/
def principalFromClaims (jwt : Jwt) (claims : Claims) : Except TokenError Principal := do
  let groups ← unpack claims.cognitoGroups
  let keycloakRoles ← unpack claims.keycloakRoles
  let roles ← (groups ++ keycloakRoles).mapM knownRole
  match claims.get? "sub" with
  | none => throw (.other "KeyError" "'sub'")
  | some sub =>
    let username := (claims.get? "preferred_username").getD ((claims.get? "username").getD sub)
    pure ⟨jwt.str sub, jwt.str username, roles.reduceOption⟩

/-- The value lists the name: as an item of a list, or as a key of a dictionary. -/
def ListsName (name : String) : Json → Prop
  | .list items => Json.text name ∈ items
  | .dict fields => ∃ field ∈ fields, field.1 = .text name
  | _ => False

/-- The role is listed in a claim that roles are read from. -/
def Claims.Grants (claims : Claims) (role : Role) : Prop :=
  ListsName role.value claims.cognitoGroups ∨ ListsName role.value claims.keycloakRoles

/-! ## Verifiers -/

/-- `claims.get(name) == value`. -/
def Claims.claimIs (claims : Claims) (name value : String) : Bool :=
  match claims.get? name with
  | some (.str s) => s = .text value
  | _ => false

/-- `CognitoTokenVerifier` and `OidcTokenVerifier`. -/
inductive TokenVerifier where
  | cognito (region userPoolId clientId : String)
  | oidc (issuer jwksUrl clientId : String)

/-- The claims of a token that passes the checks of the verifier. -/
def TokenVerifier.claims (jwt : Jwt) (token : String) : TokenVerifier → Except TokenError Claims
  | cognito region userPoolId clientId => do
      let issuer := "https://cognito-idp." ++ region ++ ".amazonaws.com/" ++ userPoolId
      let claims ← jwt.decode (issuer ++ "/.well-known/jwks.json") issuer none token
      if !claims.claimIs "token_use" "access" then
        throw (.pyJwtError "Only Cognito access tokens are accepted")
      else if !claims.claimIs "client_id" clientId then
        throw (.pyJwtError "Token was issued for a different client")
      else
        pure claims
  | oidc issuer jwksUrl clientId =>
      jwt.decode jwksUrl (Python.rstrip issuer '/') (some clientId) token

/-- `verify`. -/
def TokenVerifier.verify (jwt : Jwt) (verifier : TokenVerifier) (token : String) :
    Except TokenError Principal := do
  let claims ← verifier.claims jwt token
  principalFromClaims jwt claims

/-- `get_token_verifier`. -/
def getTokenVerifier (settings : AuthSettings) : Except TokenError TokenVerifier :=
  if settings.authMode = "keycloak" then
    if !isSet settings.oidcIssuer || !isSet settings.oidcJwksUrl ||
        !isSet settings.oidcClientId then
      .error (.runtimeError "Keycloak OIDC authentication settings are incomplete")
    else
      .ok (.oidc (settings.oidcIssuer.getD "") (settings.oidcJwksUrl.getD "")
        (settings.oidcClientId.getD ""))
  else if settings.authMode ≠ "cognito" then
    .error (.runtimeError ("Unsupported authentication mode: " ++ settings.authMode))
  else if !isSet settings.cognitoUserPoolId || !isSet settings.cognitoClientId then
    .error (.runtimeError "Cognito authentication settings are incomplete")
  else
    .ok (.cognito settings.awsRegion (settings.cognitoUserPoolId.getD "")
      (settings.cognitoClientId.getD ""))

/-- `get_token_verifier().verify(token)`. -/
def verifyToken (jwt : Jwt) (settings : AuthSettings) (token : String) :
    Except TokenError Principal := do
  let verifier ← getTokenVerifier settings
  verifier.verify jwt token

/-- `local_principal`. -/
def localPrincipal : Principal :=
  ⟨"local-development-user", "local-admin", [.operatorManager, .fieldWorker, .systemAdmin]⟩

/-- The dependency `require_roles` makes. -/
def requireRolesDependency (allowedRoles : List Role) : Option Principal → Except Exc Principal
  | none => .error (.http 401 "Unauthorized")
  | some principal =>
      if principal.roles.any (· ∈ allowedRoles) then .ok principal
      else .error (.http 403 "Insufficient role")

/-! ## What a principal may be -/

/-- A role is looked up by its value. -/
theorem knownRole_eq {value : Json} {role : Role} (h : knownRole value = .ok (some role)) :
    value = .text role.value := by
  cases value with
  | str s =>
    cases s with
    | text group =>
      have hfound := List.find?_some (Except.ok.inj h)
      rw [of_decide_eq_true hfound]
    | surrogates => cases h
  | list => cases h
  | dict => cases h
  | _ => cases h

/-- The value of a role is not a single character. -/
theorem Role.value_ne_singleton (role : Role) (c : Char) : role.value ≠ String.singleton c := by
  intro h
  have hlength := congrArg String.length h
  cases role <;> simp [Role.value] at hlength <;> revert hlength <;> decide

/-- A role that is unpacked from a value is listed in it. -/
theorem listsName_of_unpack {value : Json} {items : List Json} (h : unpack value = .ok items)
    {role : Role} (hrole : Json.text role.value ∈ items) : ListsName role.value value := by
  cases value with
  | list _ =>
    obtain rfl := Except.ok.inj h
    exact hrole
  | dict fields =>
    obtain rfl := Except.ok.inj h
    obtain ⟨field, hfield, heq⟩ := List.mem_map.mp hrole
    exact ⟨field, hfield, Json.str.inj heq⟩
  | str s =>
    cases s with
    | text s =>
      obtain rfl := Except.ok.inj h
      obtain ⟨c, -, heq⟩ := List.mem_map.mp hrole
      exact absurd (Str.text.inj (Json.str.inj heq)).symm (role.value_ne_singleton c)
    | surrogates codePoints lone =>
      obtain rfl := Except.ok.inj h
      obtain ⟨n, -, heq⟩ := List.mem_map.mp hrole
      unfold codePointText at heq
      split at heq
      · cases heq
      · exact absurd (Str.text.inj (Json.str.inj heq)).symm (role.value_ne_singleton _)
  | _ => cases h

/-- **A principal has only known roles that the claims list.** -/
theorem grants_of_principal {jwt : Jwt} {claims : Claims} {principal : Principal}
    (h : principalFromClaims jwt claims = .ok principal) {role : Role}
    (hrole : role ∈ principal.roles) : claims.Grants role := by
  unfold principalFromClaims at h
  obtain ⟨groups, hgroups, h⟩ := exists_of_bind h
  obtain ⟨keycloakRoles, hkeycloak, h⟩ := exists_of_bind h
  obtain ⟨roles, hroles, h⟩ := exists_of_bind h
  split at h
  · cases h
  · obtain rfl := Except.ok.inj h
    have hmem : some role ∈ roles := List.reduceOption_mem_iff.mp hrole
    obtain ⟨value, hvalue, hknown⟩ := exists_of_mapM hroles hmem
    rw [knownRole_eq hknown] at hvalue
    exact (List.mem_append.mp hvalue).imp (listsName_of_unpack hgroups)
      (listsName_of_unpack hkeycloak)

end AxSentinel
