import AxSentinel.Tokens
import AxSentinel.WorkOrderService

/-! # Who reaches a handler

The middleware of `shared/api.py` lets a request through to the routes of a service on one of
three grounds: its path is public, authentication is disabled, or its bearer token was verified.
The public paths and the paths of the business routes do not overlap, but the middleware reads the
path off the URL, which begins with the Host header: a header with a path of its own makes any
request public, and lets it in where no role is asked for.  Otherwise, with authentication, a
business handler is entered for a verified principal only, and a guarded one for a principal
with an allowed role.  Web sockets, which the middleware does not see, check a token of their
own (`entersVerified_iff`). -/
namespace AxSentinel
open Effects

/-! ## The routes of the services -/

/-- A path operation; `guard` is the argument of `require_roles`, if it depends on that. -/
structure Route where
  method : String
  path : String
  handler : String
  guard : Option (List Role)
deriving DecidableEq, Repr

inductive ServiceName where
  | asset | incident | aiAnalysis | knowledge | metrics | workOrder | eventWorker
deriving DecidableEq, Repr

/-- The routes `create_app` adds to every service. -/
def platformRoutes : List Route :=
  [⟨"GET", "/metrics", "prometheus_metrics", none⟩,
    ⟨"GET", "/health/live", "liveness", none⟩,
    ⟨"GET", "/health/ready", "readiness", none⟩]

/-- The routes of the services themselves. -/
def businessRoutes : ServiceName → List Route
  | .asset =>
    [⟨"GET", "/api/v1/equipment", "list_equipment", none⟩,
      ⟨"GET", "/api/v1/equipment/{equipment_id}", "get_equipment", none⟩,
      ⟨"POST", "/api/v1/equipment/{equipment_id}/maintenance", "create_maintenance_record",
        some [.fieldWorker, .operatorManager, .systemAdmin]⟩,
      ⟨"GET", "/api/v1/equipment/{equipment_id}/maintenance", "list_maintenance_records", none⟩]
  | .incident =>
    [⟨"POST", "/api/v1/telemetry", "ingest_telemetry", some [.operatorManager, .systemAdmin]⟩,
      ⟨"GET", "/api/v1/telemetry", "list_telemetry", none⟩,
      ⟨"POST", "/api/v1/incidents/simulate", "simulate_incident",
        some [.operatorManager, .systemAdmin]⟩,
      ⟨"GET", "/api/v1/incidents", "list_incidents", none⟩,
      ⟨"GET", "/api/v1/incidents/{incident_id}", "get_incident", none⟩,
      ⟨"PATCH", "/api/v1/incidents/{incident_id}/status", "update_incident_status",
        some [.operatorManager, .fieldWorker, .systemAdmin]⟩]
  | .aiAnalysis =>
    [⟨"POST", "/api/v1/analyses", "analyze_incident", some [.operatorManager, .systemAdmin]⟩,
      ⟨"GET", "/api/v1/analyses/{analysis_id}", "get_analysis", none⟩,
      ⟨"GET", "/api/v1/analyses", "list_analyses", none⟩,
      ⟨"GET", "/api/v1/expert-reviews", "list_expert_reviews", none⟩,
      ⟨"PATCH", "/api/v1/expert-reviews/{review_id}", "update_expert_review",
        some [.operatorManager, .systemAdmin]⟩,
      ⟨"POST", "/api/v1/evaluations/dataset", "register_evaluation_dataset",
        some [.operatorManager, .systemAdmin]⟩,
      ⟨"GET", "/api/v1/evaluations/dataset", "list_evaluation_dataset", none⟩,
      ⟨"POST", "/api/v1/evaluations/run", "run_evaluation", some [.operatorManager, .systemAdmin]⟩,
      ⟨"GET", "/api/v1/evaluations/runs", "list_evaluation_runs", none⟩]
  | .knowledge =>
    [⟨"POST", "/api/v1/documents", "upload_document", some [.operatorManager, .systemAdmin]⟩,
      ⟨"GET", "/api/v1/documents/by-id/{document_id}", "get_document", none⟩,
      ⟨"GET", "/api/v1/documents/search", "search_documents", none⟩,
      ⟨"POST", "/api/v1/documents/sync", "sync_documents", some [.operatorManager, .systemAdmin]⟩]
  | .metrics =>
    [⟨"POST", "/api/v1/feedback", "record_feedback",
        some [.fieldWorker, .operatorManager, .systemAdmin]⟩,
      ⟨"GET", "/api/v1/metrics/summary", "metrics_summary", none⟩]
  | .workOrder =>
    [⟨"POST", "/api/v1/approvals", "decide_action_plan", some [.operatorManager, .systemAdmin]⟩,
      ⟨"GET", "/api/v1/work-orders/{work_order_id}", "get_work_order", none⟩,
      ⟨"GET", "/api/v1/work-orders", "list_work_orders", none⟩,
      ⟨"GET", "/api/v1/approvals", "list_approvals", none⟩,
      ⟨"POST", "/api/v1/work-orders/{work_order_id}/evidence", "upload_work_evidence",
        some [.fieldWorker, .systemAdmin]⟩,
      ⟨"POST", "/api/v1/work-orders/{work_order_id}/complete", "complete_work_order",
        some [.fieldWorker, .systemAdmin]⟩]
  | .eventWorker =>
    [⟨"GET", "/api/v1/events/worker/status", "worker_status",
        some [.systemAdmin, .operatorManager]⟩,
      ⟨"GET", "/api/v1/events/processed", "processed_events",
        some [.systemAdmin, .operatorManager]⟩]

/-- The routes of a service's app, in the order they are added. -/
def appRoutes (service : ServiceName) : List Route := platformRoutes ++ businessRoutes service

/-- The route is under `/api/`. -/
def Route.underApi (route : Route) : Bool := Python.startsWith route.path "/api/"

theorem businessRoutes_underApi (service : ServiceName) :
    ∀ route ∈ businessRoutes service, route.underApi = true := by
  cases service <;> decide +kernel

/-! ## The middleware -/

/-- What the services see of an HTTP request: its method, its Host header, the path its handler is
looked up by, and its `Authorization` header. -/
structure HttpRequest where
  method : String
  host : Option String
  path : String
  authorization : Option String

/-- `request.url`, without the scheme: the Host header, or the address of the server if there is
none, and the path. -/
def HttpRequest.url (request : HttpRequest) : String :=
  request.host.getD "127.0.0.1:8080" ++ request.path

/-- `request.url.path`, as `urlsplit` reads it: what follows the authority, which ends before the
first of three characters, up to the query or the fragment. -/
def HttpRequest.urlPath (request : HttpRequest) : String :=
  let url := request.url.toList.filter (· ∉ ['\t', '\n', '\r'])
  let afterAuthority := url.dropWhile (· ∉ ['/', '?', '#'])
  String.ofList (afterAuthority.takeWhile (· ∉ ['?', '#']))

/-- What Starlette and FastAPI decide: which route a request gets to, or the status of their own
answer to it, and whether `urlsplit` refuses its URL.  A route takes requests whose path starts
with the text before its first parameter. -/
structure Framework where
  route : List Route → HttpRequest → Except Nat Route
  refusesUrl : HttpRequest → Bool
  route_mem : ∀ {routes request r}, route routes request = .ok r → r ∈ routes
  route_path : ∀ {routes request r}, route routes request = .ok r →
    r.path.toList.takeWhile (· ≠ '{') <+: request.path.toList

/-- What becomes of a request: it is answered without a handler, the middleware raises, or the
handler of a route is entered with the principal in the state of the request. -/
inductive Passage where
  | answered (statusCode : Nat)
  | raised (e : TokenError)
  | entered (route : Route) (principal : Option Principal)
deriving Repr

/-- The paths that need no authentication. -/
def publicPath (path : String) : Bool :=
  Python.startsWith path "/health/" || Python.startsWith path "/metrics" ||
    path ∈ ["/docs", "/redoc", "/openapi.json"]

/-- `call_next`: the handler of the route, once its dependency admits the principal. -/
def callNext (framework : Framework) (routes : List Route) (request : HttpRequest)
    (principal : Option Principal) : Passage :=
  match framework.route routes request with
  | .error statusCode => .answered statusCode
  | .ok route =>
    match route.guard with
    | none => .entered route principal
    | some allowedRoles =>
      match requireRolesDependency allowedRoles principal with
      | .ok _ => .entered route principal
      | .error e => .answered (responseStatus e)

/-- The token of an `Authorization` header. -/
def bearerToken (authorization : String) : Option String :=
  let (scheme, token) := Python.partition authorization ' '
  if Python.lower scheme ≠ "bearer" ∨ token = "" then none else some token

/-- `authenticate`; the `ValueError` of a URL that is refused ends in a 500. -/
def authenticate (framework : Framework) (jwt : Jwt) (settings : AuthSettings)
    (routes : List Route) (request : HttpRequest) : Passage :=
  if framework.refusesUrl request then
    .answered 500
  else if publicPath request.urlPath then
    callNext framework routes request none
  else if settings.authMode = "disabled" then
    callNext framework routes request (some localPrincipal)
  else
    match bearerToken (request.authorization.getD "") with
    | none => .answered 401
    | some token =>
      match verifyToken jwt settings token with
      | .ok principal => callNext framework routes request (some principal)
      | .error (.pyJwtError _) => .answered 401
      | .error (.runtimeError _) => .answered 401
      | .error e => .raised e

/-! ## Web sockets -/

/-- `_websocket_access_token`: the token and the subprotocol. -/
def websocketAccessToken (header : Option String) : Option (String × String) :=
  let protocols := ((Python.split (header.getD "") ',').map Python.strip).filter (· ≠ "")
  match protocols with
  | "access-token" :: token :: _ => some (token, "access-token")
  | _ => none

/-- What becomes of a handshake. -/
inductive Admission where
  | closed (code : Nat)
  | raised (e : TokenError)
  | connected (subprotocol : Option String)
deriving Repr

/-- The handler of a web socket, up to `connect`: `_authorize_websocket` returns the
subprotocol, and closes the socket where it returns none. -/
def admitWebsocket (jwt : Jwt) (settings : AuthSettings) (header : Option String) : Admission :=
  if settings.authMode = "disabled" then .connected none
  else
    match websocketAccessToken header with
    | none => .closed 4401
    | some (token, subprotocol) =>
      match verifyToken jwt settings token with
      | .ok _ => .connected (some subprotocol)
      | .error (.pyJwtError _) => .closed 4401
      | .error (.runtimeError _) => .closed 4401
      | .error e => .raised e

/-- A web socket, by its `sec-websocket-protocol` header. -/
structure Websocket where
  id : Nat
  protocols : Option String
deriving DecidableEq, Repr

/-- What happens to a connection manager: a handshake, with what verification decides at that
time, and the end of a connection. -/
inductive SocketEvent where
  | handshake (socket : Websocket) (jwt : Jwt)
  | disconnect (socket : Websocket)

/-- The sockets of a `WebSocketConnectionManager` after an event. -/
def SocketEvent.apply (settings : AuthSettings) (connections : List Websocket) :
    SocketEvent → List Websocket
  | handshake socket jwt =>
      match admitWebsocket jwt settings socket.protocols with
      | .connected _ => if socket ∈ connections then connections else connections ++ [socket]
      | _ => connections
  | disconnect socket => connections.filter (· ≠ socket)

/-- The sockets of a manager after any events. -/
def connections (settings : AuthSettings) (events : List SocketEvent) : List Websocket :=
  events.foldl (SocketEvent.apply settings) []

/-! ## Public paths and business routes -/

/-- A path under `/api/` is not public. -/
theorem not_publicPath {path : String} (h : Python.startsWith path "/api/" = true) :
    publicPath path = false := by
  have hapi : "/api/".toList <+: path.toList := Python.startsWith_iff.mp h
  -- Two texts a path starts with agree as far as the shorter goes.
  have hclash : ∀ start : String, ¬ start.toList <+: "/api/".toList →
      ¬ "/api/".toList <+: start.toList → Python.startsWith path start = false := by
    intro start hshort hlong
    rw [Bool.eq_false_iff]
    intro hstart
    rcases List.prefix_or_prefix_of_prefix (Python.startsWith_iff.mp hstart) hapi with hp | hp
    · exact hshort hp
    · exact hlong hp
  have hdocs : path ∉ ["/docs", "/redoc", "/openapi.json"] := by
    intro hmem
    have hpath : ∀ p ∈ ["/docs", "/redoc", "/openapi.json"],
        Python.startsWith p "/api/" = false := by decide
    rw [hpath path hmem] at h
    cases h
  unfold publicPath
  rw [hclash "/health/" (by decide) (by decide), hclash "/metrics" (by decide) (by decide)]
  simpa using hdocs

/-- A handler that is entered belongs to the route of the request, and its guard admitted the
principal. -/
theorem entered_of_callNext {framework : Framework} {routes : List Route} {request : HttpRequest}
    {principal entrant : Option Principal} {route : Route}
    (h : callNext framework routes request principal = .entered route entrant) :
    framework.route routes request = .ok route ∧ entrant = principal ∧
      ∀ allowedRoles, route.guard = some allowedRoles →
        ∃ p, principal = some p ∧ ∃ role ∈ p.roles, role ∈ allowedRoles := by
  unfold callNext at h
  cases hroute : framework.route routes request with
  | error statusCode => rw [hroute] at h; cases h
  | ok r =>
    simp only [hroute] at h
    cases hguard : r.guard with
    | none =>
      simp only [hguard] at h
      obtain ⟨rfl, rfl⟩ := Passage.entered.inj h
      exact ⟨rfl, rfl, fun _ hsome => by rw [hguard] at hsome; cases hsome⟩
    | some roles =>
      simp only [hguard] at h
      cases principal with
      | none => cases h
      | some p =>
        by_cases hany : (p.roles.any (· ∈ roles)) = true
        · simp only [requireRolesDependency, hany, if_true] at h
          obtain ⟨rfl, rfl⟩ := Passage.entered.inj h
          refine ⟨rfl, rfl, fun allowedRoles hsome => ⟨p, rfl, ?_⟩⟩
          obtain rfl := Option.some.inj (hguard.symm.trans hsome)
          simpa using hany
        · simp only [requireRolesDependency, hany] at h
          cases h

/-- The principal was verified for the token: the verifier of the settings accepts the token, and
the roles are ones its claims list. -/
structure VerifiedFor (jwt : Jwt) (settings : AuthSettings) (token : String)
    (principal : Principal) : Prop where
  verified : verifyToken jwt settings token = .ok principal
  granted : ∃ verifier claims, getTokenVerifier settings = .ok verifier ∧
    verifier.claims jwt token = .ok claims ∧ ∀ role ∈ principal.roles, claims.Grants role

theorem verifiedFor_of_verifyToken {jwt : Jwt} {settings : AuthSettings} {token : String}
    {principal : Principal} (h : verifyToken jwt settings token = .ok principal) :
    VerifiedFor jwt settings token principal := by
  obtain ⟨verifier, hverifier, hverify⟩ := exists_of_bind h
  obtain ⟨claims, hclaims, hprincipal⟩ := exists_of_bind hverify
  exact ⟨h, verifier, claims, hverifier, hclaims,
    fun _ hrole => grants_of_principal hprincipal hrole⟩

/-- A request whose handler runs for a verified principal, one with an allowed role where the
route is guarded. -/
structure EnteredVerified (jwt : Jwt) (settings : AuthSettings) (request : HttpRequest)
    (route : Route) (principal : Principal) : Prop where
  presented : ∃ token, bearerToken (request.authorization.getD "") = some token ∧
    VerifiedFor jwt settings token principal
  allowed : ∀ allowedRoles, route.guard = some allowedRoles →
    ∃ role ∈ principal.roles, role ∈ allowedRoles

/-- With authentication, a path that is not public takes a verified token. -/
theorem enteredVerified_of_authenticate {framework : Framework} {jwt : Jwt}
    {settings : AuthSettings} {routes : List Route} {request : HttpRequest} {route : Route}
    {entrant : Option Principal} (hmode : settings.authMode ≠ "disabled")
    (hpublic : publicPath request.urlPath = false)
    (h : authenticate framework jwt settings routes request = .entered route entrant) :
    ∃ principal, entrant = some principal ∧
      EnteredVerified jwt settings request route principal := by
  unfold authenticate at h
  simp only [hpublic, Bool.false_eq_true, if_false, if_neg hmode] at h
  split at h
  · cases h
  cases htoken : bearerToken (request.authorization.getD "") with
  | none => simp only [htoken] at h; cases h
  | some token =>
    simp only [htoken] at h
    cases hverify : verifyToken jwt settings token with
    | error e => cases e <;> simp only [hverify] at h <;> cases h
    | ok principal =>
      simp only [hverify] at h
      obtain ⟨-, rfl, hguard⟩ := entered_of_callNext h
      refine ⟨principal, rfl, ⟨token, htoken, verifiedFor_of_verifyToken hverify⟩, ?_⟩
      intro allowedRoles hallowed
      obtain ⟨p, hp, hrole⟩ := hguard allowedRoles hallowed
      obtain rfl := Option.some.inj hp
      exact hrole

/-- A public path is let through without a principal. -/
theorem callNext_of_public {framework : Framework} {jwt : Jwt} {settings : AuthSettings}
    {routes : List Route} {request : HttpRequest} {route : Route} {entrant : Option Principal}
    (hpublic : publicPath request.urlPath = true)
    (h : authenticate framework jwt settings routes request = .entered route entrant) :
    framework.refusesUrl request = false ∧
      callNext framework routes request none = .entered route entrant := by
  unfold authenticate at h
  cases hurl : framework.refusesUrl request with
  | true =>
    rw [hurl] at h
    cases h
  | false =>
    rw [hurl, hpublic] at h
    exact ⟨rfl, h⟩

/-- The handler that is entered is the one of the route of the request. -/
theorem route_of_authenticate {framework : Framework} {jwt : Jwt} {settings : AuthSettings}
    {routes : List Route} {request : HttpRequest} {route : Route} {entrant : Option Principal}
    (h : authenticate framework jwt settings routes request = .entered route entrant) :
    framework.route routes request = .ok route := by
  unfold authenticate at h
  split at h
  · cases h
  split at h
  · exact (entered_of_callNext h).1
  · split at h
    · exact (entered_of_callNext h).1
    · split at h
      · cases h
      · split at h
        · exact (entered_of_callNext h).1
        all_goals cases h

/-- The text of a path before its first parameter starts with `/api/` if the path does. -/
theorem Route.api_prefix {route : Route} (h : route.underApi = true) :
    "/api/".toList <+: route.path.toList.takeWhile (· ≠ '{') := by
  obtain ⟨rest, hrest⟩ := Python.startsWith_iff.mp h
  have hall : "/api/".toList.all (· ≠ '{') = true := by decide
  rw [← hrest, List.takeWhile_append_of_pos (List.all_eq_true.mp hall)]
  exact List.prefix_append _ _

/-! ## Web sockets -/

/-- With authentication, a socket is connected on a verified token. -/
theorem verified_of_connected {jwt : Jwt} {settings : AuthSettings} {header subprotocol}
    (hmode : settings.authMode ≠ "disabled")
    (h : admitWebsocket jwt settings header = .connected subprotocol) :
    ∃ token presented principal, websocketAccessToken header = some (token, presented) ∧
      verifyToken jwt settings token = .ok principal := by
  unfold admitWebsocket at h
  rw [if_neg hmode] at h
  split at h
  · cases h
  · next token presented htoken =>
    split at h
    · next principal hverify => exact ⟨token, presented, principal, htoken, hverify⟩
    all_goals cases h

/-- A socket of a manager came by a handshake that was admitted. -/
theorem exists_handshake {settings : AuthSettings} {events : List SocketEvent}
    {socket : Websocket} (h : socket ∈ connections settings events) :
    ∃ jwt subprotocol, SocketEvent.handshake socket jwt ∈ events ∧
      admitWebsocket jwt settings socket.protocols = .connected subprotocol := by
  unfold connections at h
  -- The invariant is the statement itself, over the events so far.
  induction events using List.reverseRecOn with
  | nil => cases h
  | append_singleton events event ih =>
    rw [List.foldl_append] at h
    have hearlier : socket ∈ events.foldl (SocketEvent.apply settings) [] →
        ∃ jwt subprotocol, SocketEvent.handshake socket jwt ∈ events ++ [event] ∧
          admitWebsocket jwt settings socket.protocols = .connected subprotocol := by
      intro hmem
      obtain ⟨jwt, subprotocol, hevent, hadmit⟩ := ih hmem
      exact ⟨jwt, subprotocol, List.mem_append_left _ hevent, hadmit⟩
    cases event with
    | disconnect other => exact hearlier (List.mem_filter.mp h).1
    | handshake other jwt =>
      simp only [List.foldl_cons, List.foldl_nil, SocketEvent.apply] at h
      split at h
      · next subprotocol hadmit =>
        split at h
        · exact hearlier h
        · rcases List.mem_append.mp h with hmem | hmem
          · exact hearlier hmem
          · obtain rfl := List.mem_singleton.mp hmem
            exact ⟨jwt, subprotocol, List.mem_append_right _ List.mem_cons_self, hadmit⟩
      · exact hearlier h

/-! ## The result -/

/-- The handler of a business route is entered for a principal that was verified for the bearer
token of the request, and that has an allowed role where the route is guarded. -/
def EntersVerified (framework : Framework) (jwt : Jwt) (settings : AuthSettings)
    (service : ServiceName) (request : HttpRequest) : Prop :=
  ∀ route entrant, authenticate framework jwt settings (appRoutes service) request =
    .entered route entrant → route.underApi = true →
      ∃ principal, entrant = some principal ∧
        EnteredVerified jwt settings request route principal

/-- The URL of the request is public, and the request is routed to a business handler that asks
for no role. -/
def Bypasses (framework : Framework) (service : ServiceName) (request : HttpRequest) : Prop :=
  framework.refusesUrl request = false ∧ publicPath request.urlPath = true ∧
    ∃ route, framework.route (appRoutes service) request = .ok route ∧ route.underApi = true ∧
      route.guard = none

/-- The Host header is an authority, and nothing that follows one in a URL. -/
def HttpRequest.HostIsAuthority (request : HttpRequest) : Prop :=
  ∀ host, request.host = some host → host.toList.all (· ∉ ['/', '?', '#']) = true

/-- After an authority, the path of the URL is under `/api/` if the path of the request is. -/
theorem HttpRequest.HostIsAuthority.urlPath_api {request : HttpRequest}
    (hhost : request.HostIsAuthority) (hpath : "/api/".toList <+: request.path.toList) :
    Python.startsWith request.urlPath "/api/" = true := by
  obtain ⟨rest, hrest⟩ := hpath
  have hauthority : (request.host.getD "127.0.0.1:8080").toList.all (· ∉ ['/', '?', '#']) =
      true := by
    cases hsome : request.host with
    | none => decide
    | some host => exact hhost host hsome
  have hkept : "/api/".toList.filter (· ∉ ['\t', '\n', '\r']) = "/api/".toList := by decide
  have htaken : "/api/".toList.all (· ∉ ['?', '#']) = true := by decide
  have hstop : ("/api/".toList ++ rest.filter (· ∉ ['\t', '\n', '\r'])).dropWhile
      (· ∉ ['/', '?', '#']) = "/api/".toList ++ rest.filter (· ∉ ['\t', '\n', '\r']) := rfl
  rw [Python.startsWith_iff, urlPath, url, String.toList_append, ← hrest, List.filter_append,
    List.filter_append, hkept, List.dropWhile_append_of_pos, hstop,
    List.takeWhile_append_of_pos (List.all_eq_true.mp htaken)]
  · simp only [String.toList_ofList]
    exact List.prefix_append _ _
  · exact fun c hc => List.all_eq_true.mp hauthority c (List.mem_filter.mp hc).1

/-- **When a business handler runs unauthenticated.**  All routes of the services are under
`/api/`; with authentication, the handler of such a route is entered for a verified principal
unless the request is public by its URL and no role is asked for, which no request is whose Host
header is an authority; and a web socket of a connection manager presented a token that was
verified. -/
theorem entersVerified_iff (framework : Framework) (settings : AuthSettings)
    (hmode : settings.authMode ≠ "disabled") :
    (∀ service, ∀ route ∈ businessRoutes service, route.underApi = true) ∧
      (∀ jwt service request, EntersVerified framework jwt settings service request ↔
        ¬ Bypasses framework service request) ∧
      (∀ service request, request.HostIsAuthority → ¬ Bypasses framework service request) ∧
      ∀ events, ∀ socket ∈ connections settings events,
        ∃ jwt token subprotocol principal, SocketEvent.handshake socket jwt ∈ events ∧
          websocketAccessToken socket.protocols = some (token, subprotocol) ∧
          verifyToken jwt settings token = .ok principal := by
  refine ⟨businessRoutes_underApi, fun jwt service request => ⟨?_, ?_⟩, ?_, ?_⟩
  · rintro hverified ⟨hurl, hpublic, route, hroute, hapi, hguard⟩
    have hentered : authenticate framework jwt settings (appRoutes service) request =
        .entered route none := by
      unfold authenticate callNext
      simp only [hurl, hpublic, hroute, hguard, Bool.false_eq_true, if_false, if_true]
    obtain ⟨principal, hnone, -⟩ := hverified route none hentered hapi
    cases hnone
  · intro hbypass route entrant hentered hapi
    by_cases hpublic : publicPath request.urlPath = true
    · exfalso
      -- a public request has no principal, and a guard lets none in without one
      obtain ⟨hurl, hnext⟩ := callNext_of_public hpublic hentered
      obtain ⟨hroute, -, hguard⟩ := entered_of_callNext hnext
      refine hbypass ⟨hurl, hpublic, route, hroute, hapi, ?_⟩
      cases hroles : route.guard with
      | none => rfl
      | some allowedRoles =>
        obtain ⟨_, hprincipal, -⟩ := hguard allowedRoles hroles
        cases hprincipal
    · exact enteredVerified_of_authenticate hmode (Bool.eq_false_iff.mpr hpublic) hentered
  · rintro service request hhost ⟨-, hpublic, route, hroute, hapi, -⟩
    have hpath := hhost.urlPath_api ((route.api_prefix hapi).trans (framework.route_path hroute))
    rw [not_publicPath hpath] at hpublic
    cases hpublic
  · intro events socket hmem
    obtain ⟨jwt, subprotocol, hevent, hadmit⟩ := exists_handshake hmem
    obtain ⟨token, presented, principal, htoken, hverify⟩ := verified_of_connected hmode hadmit
    exact ⟨jwt, token, presented, principal, hevent, htoken, hverify⟩

/-- The first route whose path and method are those of the request. -/
def literalRoute (routes : List Route) (request : HttpRequest) : Except Nat Route :=
  match routes.find? fun route => route.path = request.path ∧ route.method = request.method with
  | some route => .ok route
  | none => .error 404

theorem literalRoute_eq {routes : List Route} {request : HttpRequest} {r : Route}
    (h : literalRoute routes request = .ok r) : r ∈ routes ∧ r.path = request.path := by
  unfold literalRoute at h
  split at h
  · next route hfind =>
    obtain rfl := Except.ok.inj h
    have hfound := List.find?_some hfind
    simp only [decide_eq_true_eq] at hfound
    exact ⟨List.mem_of_find?_eq_some hfind, hfound.1⟩
  · cases h

/-- A framework that compares whole paths. -/
def literalPaths : Framework where
  route := literalRoute
  refusesUrl _ := false
  route_mem h := (literalRoute_eq h).1
  route_path h := (literalRoute_eq h).2 ▸ List.takeWhile_prefix _

/-- Settings of Keycloak authentication. -/
def keycloakSettings : AuthSettings :=
  ⟨"keycloak", "ap-northeast-2", none, none, some "https://id/realms/ax/", some "https://id/certs",
    some "ax-web"⟩

/-- One token is valid, of a user with a known and an unknown role. -/
def managerToken : Jwt where
  decode _ _ _ token :=
    if token = "abc" then
      .ok [(.text "sub", .text "u-1"), (.text "realm_access",
        .dict [(.text "roles", .list [.text "offline_access", .text "operator_manager"])])]
    else .error (.pyJwtError "Signature verification failed")
  str
    | .str (.text s) => s
    | _ => ""

/-- The approval of the manager of the token. -/
def approvalRequest : HttpRequest where
  method := "POST"
  host := some "localhost:8086"
  path := "/api/v1/approvals"
  authorization := some "Bearer abc"

/-- A plan is decided by the manager of the token. -/
theorem entersVerified_iff_managerToken :
    keycloakSettings.authMode ≠ "disabled" ∧
      authenticate literalPaths managerToken keycloakSettings (appRoutes .workOrder)
          approvalRequest =
        .entered ⟨"POST", "/api/v1/approvals", "decide_action_plan",
          some [.operatorManager, .systemAdmin]⟩ (some ⟨"u-1", "u-1", [.operatorManager]⟩) ∧
      EntersVerified literalPaths managerToken keycloakSettings .workOrder approvalRequest := by
  have hmode : keycloakSettings.authMode ≠ "disabled" := by decide
  refine ⟨hmode, by rfl, ?_⟩
  have h := entersVerified_iff literalPaths keycloakSettings hmode
  refine (h.2.1 _ _ _).mpr (h.2.2.1 _ _ fun host hhost => ?_)
  obtain rfl := Option.some.inj hhost
  decide

/-- The incidents, asked for without a token, of a host with a public path. -/
def disguisedRequest : HttpRequest where
  method := "GET"
  host := some "x/health/"
  path := "/api/v1/incidents"
  authorization := none

/-- The incidents are listed for a caller without a token. -/
theorem not_entersVerified :
    authenticate literalPaths managerToken keycloakSettings (appRoutes .incident)
        disguisedRequest =
      .entered ⟨"GET", "/api/v1/incidents", "list_incidents", none⟩ none ∧
      ¬ ∀ framework jwt settings service request, settings.authMode ≠ "disabled" →
        EntersVerified framework jwt settings service request := by
  have hentered : authenticate literalPaths managerToken keycloakSettings (appRoutes .incident)
      disguisedRequest = .entered ⟨"GET", "/api/v1/incidents", "list_incidents", none⟩ none := by
    rfl
  refine ⟨hentered, fun hall => ?_⟩
  obtain ⟨principal, hnone, -⟩ := hall literalPaths managerToken keycloakSettings .incident
    disguisedRequest (by decide) _ _ hentered (by decide)
  cases hnone

end AxSentinel
