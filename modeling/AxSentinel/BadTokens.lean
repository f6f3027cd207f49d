import AxSentinel.Authentication

/-! # Bad tokens

Both callers of `verify` refuse a token for two families of exceptions, those of PyJWT and
`RuntimeError`.  `principal_from_claims` reads claims that nobody has checked the shape of: it looks
whether `realm_access` is an object, but takes `sub` for granted and unpacks the groups as they are,
so that some claims raise a `KeyError` or a `TypeError` instead (`refusesBadToken_iff`). -/
namespace AxSentinel
open Effects
open Python (Json)

/-! ## What the callers handle -/

/-- A result that the callers of `verify` deal with: a value, or one of the exceptions that they
refuse a token for. -/
def Handled {α : Type} (result : Except TokenError α) : Prop :=
  ∀ name message, result ≠ .error (.other name message)

theorem handled_ok {α : Type} (a : α) : Handled (.ok a) := fun _ _ h => by cases h

theorem handled_iff {α : Type} {result : Except TokenError α} : Handled result ↔
    (∃ a, result = .ok a) ∨ (∃ message, result = .error (.pyJwtError message)) ∨
      ∃ message, result = .error (.runtimeError message) := by
  constructor
  · intro h
    cases result with
    | ok a => exact .inl ⟨a, rfl⟩
    | error e =>
      cases e with
      | pyJwtError message => exact .inr (.inl ⟨message, rfl⟩)
      | runtimeError message => exact .inr (.inr ⟨message, rfl⟩)
      | other name message => exact absurd rfl (h name message)
  · rintro (⟨a, rfl⟩ | ⟨message, rfl⟩ | ⟨message, rfl⟩) _ _ h <;> cases h

/-- A sequence is handled if both its parts are. -/
theorem handled_bind {α β : Type} {x : Except TokenError α} {f : α → Except TokenError β} :
    Handled (x >>= f) ↔ Handled x ∧ ∀ a, x = .ok a → Handled (f a) := by
  cases x with
  | ok a =>
    constructor
    · intro h
      refine ⟨handled_ok a, fun b hb => ?_⟩
      obtain rfl := Except.ok.inj hb
      exact h
    · exact fun h => h.2 a rfl
  | error e =>
    constructor
    · refine fun h => ⟨fun name message he => ?_, fun _ ha => by cases ha⟩
      obtain rfl := Except.error.inj he
      exact h name message rfl
    · intro h name message he
      obtain rfl : e = .other name message := Except.error.inj he
      exact h.1 name message rfl

section Callers
variable {jwt : Jwt} {settings : AuthSettings}

/-- The middleware lets no exception out for a token whose verification is handled. -/
theorem authenticate_ne_raised {framework : Framework} {routes : List Route}
    {request : HttpRequest} {token : String}
    (htoken : bearerToken (request.authorization.getD "") = some token)
    (h : Handled (verifyToken jwt settings token)) (e : TokenError) :
    authenticate framework jwt settings routes request ≠ .raised e := by
  have hnext : ∀ principal, callNext framework routes request principal ≠ .raised e := by
    intro principal
    unfold callNext
    repeat' split
    all_goals exact fun h => by cases h
  unfold authenticate
  simp only [htoken]
  -- a URL that is refused, a public path and disabled authentication verify nothing
  split
  · exact fun h => by cases h
  split
  · exact hnext _
  · split
    · exact hnext _
    · rcases handled_iff.mp h with ⟨principal, hverify⟩ | ⟨_, hverify⟩ | ⟨_, hverify⟩
      · rw [hverify]
        exact hnext _
      · rw [hverify]
        exact fun h => by cases h
      · rw [hverify]
        exact fun h => by cases h

/-- Nor does the handler of a web socket. -/
theorem admitWebsocket_ne_raised {header : Option String} {token subprotocol : String}
    (htoken : websocketAccessToken header = some (token, subprotocol))
    (h : Handled (verifyToken jwt settings token)) (e : TokenError) :
    admitWebsocket jwt settings header ≠ .raised e := by
  unfold admitWebsocket
  simp only [htoken]
  split
  · exact fun h => by cases h
  · rcases handled_iff.mp h with ⟨_, hverify⟩ | ⟨_, hverify⟩ | ⟨_, hverify⟩ <;>
      · rw [hverify]
        exact fun h => by cases h

end Callers

/-! ## The claims -/

/-- A value that a dictionary can be asked for. -/
def isHashable : Json → Bool
  | .list _ | .dict _ => false
  | _ => true

/-- A value that can be unpacked, and has only items that can be looked up. -/
def ListsHashable : Json → Prop
  | .list items => ∀ item ∈ items, isHashable item = true
  | .str _ | .dict _ => True
  | _ => False

/-- The claims have the shape that `principal_from_claims` takes for granted: there is a `sub`, and
both lists of roles can be unpacked and looked up. -/
structure Claims.Readable (claims : Claims) : Prop where
  groups : ListsHashable claims.cognitoGroups
  keycloakRoles : ListsHashable claims.keycloakRoles
  subject : (claims.get? "sub").isSome = true

theorem exists_knownRole {value : Json} (h : isHashable value = true) :
    ∃ role, knownRole value = .ok role := by
  cases value with
  | list => cases h
  | dict => cases h
  | str s => cases s <;> exact ⟨_, rfl⟩
  | _ => exact ⟨_, rfl⟩

theorem handled_knownRole {value : Json} : Handled (knownRole value) ↔ isHashable value = true := by
  constructor
  · intro h
    cases value with
    | list => exact absurd rfl (h _ _)
    | dict => exact absurd rfl (h _ _)
    | _ => rfl
  · intro h
    obtain ⟨role, hrole⟩ := exists_knownRole h
    exact hrole ▸ handled_ok role

/-- Either all items are looked up, or one of them raises. -/
theorem handled_roles {items : List Json} :
    Handled (items.mapM knownRole) ↔ ∀ item ∈ items, isHashable item = true := by
  constructor
  · intro h
    induction items with
    | nil => exact fun _ hitem => by cases hitem
    | cons item items ih =>
      rw [List.mapM_cons, handled_bind, handled_knownRole] at h
      obtain ⟨role, hrole⟩ := exists_knownRole h.1
      exact List.forall_mem_cons.mpr ⟨h.1, ih (handled_bind.mp (h.2 role hrole)).1⟩
  · intro h
    obtain ⟨roles, hroles⟩ := exists_mapM_iff.mpr fun item hitem => exists_knownRole (h item hitem)
    exact hroles ▸ handled_ok roles

/-- The items of a string, and the keys of a dictionary, are strings. -/
theorem listsHashable_iff {value : Json} : ListsHashable value ↔
    ∃ items, unpack value = .ok items ∧ ∀ item ∈ items, isHashable item = true := by
  cases value with
  | list items =>
    constructor
    · exact fun h => ⟨items, rfl, h⟩
    · rintro ⟨_, hitems, h⟩
      obtain rfl := Except.ok.inj hitems
      exact h
  | dict fields =>
    refine iff_of_true trivial ⟨_, rfl, fun item hitem => ?_⟩
    obtain ⟨field, -, rfl⟩ := List.mem_map.mp hitem
    rfl
  | str s =>
    refine iff_of_true trivial ?_
    cases s with
    | text s =>
      refine ⟨_, rfl, fun item hitem => ?_⟩
      obtain ⟨c, -, rfl⟩ := List.mem_map.mp hitem
      rfl
    | surrogates codePoints =>
      refine ⟨_, rfl, fun item hitem => ?_⟩
      obtain ⟨n, -, rfl⟩ := List.mem_map.mp hitem
      unfold codePointText
      split <;> rfl
  | _ =>
    refine iff_of_false (fun h => h) ?_
    rintro ⟨_, hitems, -⟩
    cases hitems

theorem handled_unpack {value : Json} :
    Handled (unpack value) ↔ ∃ items, unpack value = .ok items := by
  cases value with
  | list => exact iff_of_true (handled_ok _) ⟨_, rfl⟩
  | dict => exact iff_of_true (handled_ok _) ⟨_, rfl⟩
  | str s => cases s <;> exact iff_of_true (handled_ok _) ⟨_, rfl⟩
  | _ =>
    refine iff_of_false (fun h => h _ _ rfl) ?_
    rintro ⟨_, hitems⟩
    cases hitems

/-- Reading the claims is handled if and only if they have the shape that is taken for granted. -/
theorem handled_principalFromClaims {jwt : Jwt} {claims : Claims} :
    Handled (principalFromClaims jwt claims) ↔ claims.Readable := by
  unfold principalFromClaims
  constructor
  · intro h
    -- a step that is handled has returned, as none raises a token error, so the next one runs
    obtain ⟨hunpack, h⟩ := handled_bind.mp h
    obtain ⟨groups, hgroups⟩ := handled_unpack.mp hunpack
    obtain ⟨hunpack, h⟩ := handled_bind.mp (h groups hgroups)
    obtain ⟨keycloakRoles, hkeycloak⟩ := handled_unpack.mp hunpack
    obtain ⟨hknown, h⟩ := handled_bind.mp (h keycloakRoles hkeycloak)
    have hitems := handled_roles.mp hknown
    obtain ⟨roles, hroles⟩ := exists_mapM_iff.mpr fun item hitem =>
      exists_knownRole (hitems item hitem)
    have hsubject := h roles hroles
    rw [List.forall_mem_append] at hitems
    refine ⟨listsHashable_iff.mpr ⟨groups, hgroups, hitems.1⟩,
      listsHashable_iff.mpr ⟨keycloakRoles, hkeycloak, hitems.2⟩, ?_⟩
    cases hsub : claims.get? "sub" with
    | none => exact absurd rfl ((hsub ▸ hsubject) "KeyError" "'sub'")
    | some sub => rfl
  · rintro ⟨hgroups, hkeycloak, hsubject⟩
    obtain ⟨sub, hsub⟩ := Option.isSome_iff_exists.mp hsubject
    obtain ⟨groups, hgroups, hgroupItems⟩ := listsHashable_iff.mp hgroups
    obtain ⟨keycloakRoles, hkeycloak, hroleItems⟩ := listsHashable_iff.mp hkeycloak
    obtain ⟨roles, hroles⟩ := exists_mapM_iff.mpr fun item hitem =>
      exists_knownRole (List.forall_mem_append.mpr ⟨hgroupItems, hroleItems⟩ item hitem)
    rw [hgroups, hkeycloak]
    show Handled (((groups ++ keycloakRoles).mapM knownRole) >>= _)
    rw [hroles, hsub]
    exact handled_ok _

/-! ## The result -/

/-- What the callers of `verify` are owed for a token: a principal, or an exception that they
refuse it for; no other comes out of the middleware or the handler of a web socket. -/
structure RefusesBadToken (jwt : Jwt) (verifier : TokenVerifier) (token : String) : Prop where
  verify : (∃ principal, verifier.verify jwt token = .ok principal) ∨
    (∃ message, verifier.verify jwt token = .error (.pyJwtError message)) ∨
      ∃ message, verifier.verify jwt token = .error (.runtimeError message)
  middleware : ∀ settings framework routes request, getTokenVerifier settings = .ok verifier →
    bearerToken (request.authorization.getD "") = some token →
    ∀ e, authenticate framework jwt settings routes request ≠ .raised e
  websocket : ∀ settings header subprotocol, getTokenVerifier settings = .ok verifier →
    websocketAccessToken header = some (token, subprotocol) →
    ∀ e, admitWebsocket jwt settings header ≠ .raised e

/-- **When a bad token is refused.**  Of the claims that a verifier lets through, a principal or a
refusal is made if and only if there is a `sub`, and the groups and roles are lists of items that
can be looked up, strings or objects. -/
theorem refusesBadToken_iff (jwt : Jwt) (verifier : TokenVerifier) (token : String)
    (claims : Claims) (h : verifier.claims jwt token = .ok claims) :
    RefusesBadToken jwt verifier token ↔ claims.Readable := by
  have hverify : verifier.verify jwt token = principalFromClaims jwt claims := by
    unfold TokenVerifier.verify
    rw [h]
    rfl
  rw [← handled_principalFromClaims, ← hverify]
  constructor
  · exact fun h => handled_iff.mpr h.verify
  · intro hhandled
    have hsettings : ∀ settings, getTokenVerifier settings = .ok verifier →
        Handled (verifyToken jwt settings token) := by
      intro settings hverifier
      unfold verifyToken
      rw [hverifier]
      exact hhandled
    exact ⟨handled_iff.mp hhandled,
      fun settings _ _ _ hverifier htoken =>
        authenticate_ne_raised htoken (hsettings settings hverifier),
      fun settings _ _ hverifier htoken =>
        admitWebsocket_ne_raised htoken (hsettings settings hverifier)⟩

namespace Sample

/-- The verifier of a Cognito user pool. -/
def userPool : TokenVerifier := .cognito "ap-northeast-2" "pool-1" "ax-web"

/-- The claims of an access token that names no subject. -/
def anonymousClaims : Claims :=
  [(.text "token_use", .text "access"), (.text "client_id", .text "ax-web"),
    (.text "cognito:groups", .list [.text "operator_manager"])]

/-- The token is signed by the user pool. -/
def anonymousToken : Jwt where
  decode _ _ _ _ := .ok anonymousClaims
  str
    | .str (.text s) => s
    | _ => ""

theorem refusesBadToken_iff_anonymous :
    RefusesBadToken anonymousToken userPool "abc" ↔ anonymousClaims.Readable :=
  refusesBadToken_iff anonymousToken userPool "abc" anonymousClaims rfl

end Sample

/-- A token that names no subject raises a `KeyError`. -/
theorem not_refusesBadToken : ¬ ∀ jwt verifier token claims,
    verifier.claims jwt token = .ok claims → RefusesBadToken jwt verifier token := by
  intro hall
  have hraised : Sample.userPool.verify Sample.anonymousToken "abc" =
      .error (.other "KeyError" "'sub'") := rfl
  have hrefused := hall Sample.anonymousToken Sample.userPool "abc" Sample.anonymousClaims rfl
  simpa [hraised] using hrefused.verify

end AxSentinel
