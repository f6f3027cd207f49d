import AxSentinel.Authentication
import AxSentinel.Evidence
import Mathlib.Algebra.Order.Field.Basic
import Mathlib.Algebra.Order.Ring.Rat

/-! # Where documents are retrieved

`LocalRetriever` asks the knowledge service if its address is set, and ranks the documents of its
own table otherwise.  The chart sets the address in every service, the knowledge service
included, so that a search there asks the knowledge service again, and without the token of the
caller.  Hence no retrieval of a deployment of the chart ends with a list of chunks
(`not_delegatesOnce`); it would if the knowledge service had no address (`delegatesOnce_iff`). -/
namespace AxSentinel
open Effects

/-! ## Documents and the chunks of them -/

inductive DocumentType where
  | manual | incidentCase | procedure
deriving DecidableEq, Repr

structure Document where
  id : String
  filename : String
  documentType : DocumentType
  indexingStatus : String
  s3Key : String
  version : String
  uploadedAt : Instant
deriving DecidableEq, Repr

/-- What is stored of a document: also the text that is searched. -/
structure DocumentRecord extends Document where
  searchText : String
deriving DecidableEq, Repr

/-- `terms`: those of the query, in lower case, each once. -/
def queryTerms (casefold : String → String) (query : String) : List String :=
  (((Python.words query).filter fun term => 2 ≤ term.length).map casefold).eraseDups

/-- `matches`: how many terms the file name and the text of a document contain. -/
def termMatches (casefold : String → String) (terms : List String) (document : DocumentRecord) :
    Nat :=
  let haystack := casefold (document.filename ++ " " ++ document.searchText)
  terms.countP fun term => Python.isIn term haystack

/-- `min(1.0, matches / max(len(terms), 1))`. -/
def matchScore (found terms : Nat) : ℚ := min 1 (found / (max terms 1 : Nat))

theorem matchScore_mem (found terms : Nat) :
    0 ≤ matchScore found terms ∧ matchScore found terms ≤ 1 :=
  ⟨le_min zero_le_one (div_nonneg (Nat.cast_nonneg _) (Nat.cast_nonneg _)), min_le_left _ _⟩

/-- The chunk `LocalRetriever` makes of a document. -/
def localChunk (found terms : Nat) (document : DocumentRecord) : RetrievedChunk where
  content := if document.searchText = "" then document.filename else document.searchText
  score := ⟨matchScore found terms, matchScore_mem found terms⟩
  location := "s3://local/" ++ document.s3Key
  documentId := document.id
  documentVersion := some document.version

/-- The in-process branch of `LocalRetriever.retrieve`. -/
def rank (casefold : String → String) (documents : List DocumentRecord) (query : String)
    (limit : Int) : List RetrievedChunk :=
  let terms := queryTerms casefold query
  let matched := documents.map fun document => (termMatches casefold terms document, document)
  let ranked := (matched.filter fun x => x.1 ≠ 0).mergeSort fun x y => y.1 ≤ x.1
  (Python.sliceTo ranked limit).map fun x => localChunk x.1 terms.length x.2

/-- A retrieval result of a Bedrock knowledge base. -/
structure RetrievalResult where
  text : Option String
  score : Option ℚ
  uri : Option String
  documentVersion : Option String

/-- The chunk `BedrockKnowledgeBaseRetriever` makes of a result. -/
def bedrockChunk (result : RetrievalResult) : Except Exc RetrievedChunk :=
  let score := result.score.getD 0
  let s3Uri := result.uri.getD "unknown"
  if h : 0 ≤ score ∧ score ≤ 1 then
    .ok
      { content := result.text.getD ""
        score := ⟨score, h⟩
        location := s3Uri
        documentId := Python.afterLast s3Uri '/'
        documentVersion := result.documentVersion }
  else .error (.validationError "score")

/-! ## The environment of the services -/

/-- `metadata.name` of a service. -/
def ServiceName.value : ServiceName → String
  | asset => "asset-service"
  | incident => "incident-service"
  | aiAnalysis => "ai-analysis-service"
  | knowledge => "knowledge-service"
  | metrics => "metrics-service"
  | workOrder => "work-order-service"
  | eventWorker => "event-worker"

/-- The values of the chart that authentication and retrieval depend on. -/
structure ChartValues where
  awsRegion : String
  authMode : String
  cognitoUserPoolId : String
  cognitoClientId : String
  realm : String
  clientId : String
  externalBaseUrl : String
  internalBaseUrl : String
  ragProvider : String
  bedrockKnowledgeBaseId : String
  bedrockDataSourceId : String

abbrev Env := List (String × String)

/-- `required` of Helm. -/
def required (message value : String) : Except String String :=
  if value = "" then .error message else .ok value

/-- The address of the knowledge service in the cluster. -/
def knowledgeServiceAddress : String := "http://knowledge-service:8080"

/-- The part of `env` for authentication. -/
def authEnv (values : ChartValues) : Except String Env :=
  if values.authMode = "cognito" then do
    let userPoolId ← required "global.cognitoUserPoolId is required when deploying with Cognito"
      values.cognitoUserPoolId
    let clientId ← required "global.cognitoClientId is required when deploying with Cognito"
      values.cognitoClientId
    pure [("COGNITO_USER_POOL_ID", userPoolId), ("COGNITO_CLIENT_ID", clientId)]
  else if values.authMode = "keycloak" then do
    let externalBaseUrl ← required "keycloak.externalBaseUrl is required with Keycloak"
      values.externalBaseUrl
    let internalBaseUrl ← required "keycloak.internalBaseUrl is required with Keycloak"
      values.internalBaseUrl
    let clientId ← required "keycloak.clientId is required with Keycloak" values.clientId
    pure [("OIDC_ISSUER", externalBaseUrl ++ "/realms/" ++ values.realm),
      ("OIDC_JWKS_URL",
        internalBaseUrl ++ "/realms/" ++ values.realm ++ "/protocol/openid-connect/certs"),
      ("OIDC_CLIENT_ID", clientId)]
  else pure []

/-- The part of `env` for retrieval. -/
def ragEnv (values : ChartValues) : Except String Env :=
  if values.ragProvider = "bedrock" then do
    let knowledgeBaseId ← required "global.bedrockKnowledgeBaseId is required for Bedrock RAG"
      values.bedrockKnowledgeBaseId
    let dataSourceId ← required "global.bedrockDataSourceId is required for Bedrock RAG"
      values.bedrockDataSourceId
    pure [("BEDROCK_KNOWLEDGE_BASE_ID", knowledgeBaseId), ("BEDROCK_DATA_SOURCE_ID", dataSourceId)]
  else pure []

/-- `env` of the container of a service. -/
def containerEnv (values : ChartValues) (service : ServiceName) : Except String Env := do
  let auth ← authEnv values
  let rag ← ragEnv values
  pure ([("SERVICE_NAME", service.value), ("AWS_REGION", values.awsRegion),
      ("AUTH_MODE", values.authMode), ("KNOWLEDGE_SERVICE_URL", knowledgeServiceAddress)] ++
    auth ++ [("RAG_PROVIDER", values.ragProvider)] ++ rag)

/-- The settings authentication and retrieval read. -/
structure ProcessSettings extends AuthSettings where
  knowledgeServiceUrl : Option String
  ragProvider : String
  bedrockKnowledgeBaseId : Option String

/-- `Settings()`. -/
def ProcessSettings.ofEnv (env : Env) : ProcessSettings where
  authMode := (env.lookup "AUTH_MODE").getD "disabled"
  awsRegion := (env.lookup "AWS_REGION").getD "ap-northeast-2"
  cognitoUserPoolId := env.lookup "COGNITO_USER_POOL_ID"
  cognitoClientId := env.lookup "COGNITO_CLIENT_ID"
  oidcIssuer := env.lookup "OIDC_ISSUER"
  oidcJwksUrl := env.lookup "OIDC_JWKS_URL"
  oidcClientId := env.lookup "OIDC_CLIENT_ID"
  knowledgeServiceUrl := env.lookup "KNOWLEDGE_SERVICE_URL"
  ragProvider := (env.lookup "RAG_PROVIDER").getD "local"
  bedrockKnowledgeBaseId := env.lookup "BEDROCK_KNOWLEDGE_BASE_ID"

/-! ## Retrieval -/

inductive Retriever where
  | localRetriever
  | bedrockKnowledgeBaseRetriever (region knowledgeBaseId : String)
deriving DecidableEq, Repr

/-- `get_retriever`. -/
def getRetriever (settings : ProcessSettings) : Except Exc Retriever :=
  if settings.ragProvider = "local" then .ok .localRetriever
  else if settings.ragProvider = "bedrock" then
    if isSet settings.bedrockKnowledgeBaseId then
      .ok (.bedrockKnowledgeBaseRetriever settings.awsRegion
        (settings.bedrockKnowledgeBaseId.getD ""))
    else .error (.other "RuntimeError" "BEDROCK_KNOWLEDGE_BASE_ID is required")
  else .error (.other "RuntimeError" ("Unsupported RAG provider: " ++ settings.ragProvider))

/-- The processes of the services, their tables, and the parts from outside the repository. -/
structure Deployment where
  casefold : String → String
  framework : Framework
  jwt : Jwt
  knowledgeBase : Retriever → String → Int → Except Exc (List RetrievalResult)
  settings : ServiceName → ProcessSettings
  documents : ServiceName → List DocumentRecord

/-- How a retrieval ends: after a number of HTTP requests, with chunks or an exception.  Without
enough fuel for the requests it waits for there is no answer. -/
abbrev Retrieval := Option (Nat × Except Exc (List RetrievedChunk))

/-- What the caller of a handler gets: `raise_for_status` raises unless the handler returns. -/
def Retrieval.overHttp (answer : Retrieval) : Retrieval :=
  answer.map fun x =>
    (x.1 + 1, match x.2 with
      | .ok chunks => .ok chunks
      | .error _ => .error (.httpStatusError 500))

variable (d : Deployment)

/-- `search_documents`, where `retrieve` is that of `LocalRetriever`. -/
def searchDocuments (retrieve : String → Int → Option String → Retrieval) (q : String)
    (limit : Int) : Retrieval :=
  match getRetriever (d.settings .knowledge) with
  | .error e => some (0, .error e)
  | .ok .localRetriever => retrieve q (min (max limit 1) 20) none
  | .ok retriever =>
      some (0, do (← d.knowledgeBase retriever q (min (max limit 1) 20)).mapM bedrockChunk)

/-- The request `httpx` makes of the address of the knowledge service. -/
def searchRequest (authorization : Option String) : HttpRequest where
  method := "GET"
  host := some "knowledge-service:8080"
  path := "/api/v1/documents/search"
  authorization := authorization

/-- `httpx.get` of the search: only the knowledge service answers one, at its address. -/
def httpxGet (retrieve : String → Int → Option String → Retrieval) (url : Option String)
    (query : String) (limit : Int) (authorization : Option String) : Retrieval :=
  if url ≠ some knowledgeServiceAddress then some (1, .error (.other "ConnectError" ""))
  else
    match authenticate d.framework d.jwt (d.settings .knowledge).toAuthSettings
        (appRoutes .knowledge) (searchRequest authorization) with
    | .answered statusCode => some (1, .error (.httpStatusError statusCode))
    | .raised _ => some (1, .error (.httpStatusError 500))
    | .entered _ _ => (searchDocuments d retrieve query limit).overHttp

/-- `LocalRetriever.retrieve` in a process of a service. -/
def localRetrieve (fuel : Nat) (service : ServiceName) (query : String) (limit : Int)
    (authorization : Option String) : Retrieval :=
  if isSet (d.settings service).knowledgeServiceUrl then
    match fuel with
    | 0 => none
    | fuel + 1 =>
        httpxGet d (localRetrieve fuel .knowledge) (d.settings service).knowledgeServiceUrl query
          limit (authorization.filter (· ≠ ""))
  else some (0, .ok (rank d.casefold (d.documents service) query limit))

/-- The retrieval ends after at most one HTTP request and returns what the knowledge service
ranks in process. -/
def DelegatesOnce (caller : ServiceName) (query : String) (limit : Int)
    (authorization : Option String) : Prop :=
  ∃ fuel hops, localRetrieve d fuel caller query limit authorization =
    some (hops, .ok (rank d.casefold (d.documents .knowledge) query limit)) ∧ hops ≤ 1

/-- The settings of the services are those of the environment the chart renders. -/
def Deployment.Rendered (values : ChartValues) : Prop :=
  ∀ service, ∃ env, containerEnv values service = .ok env ∧
    d.settings service = ProcessSettings.ofEnv env

/-- With `ragProvider: local` every retrieval of a deployment of the chart delegates once. -/
def EveryRetrievalDelegatesOnce : Prop :=
  ∀ (d : Deployment) (values : ChartValues), d.Rendered values → values.ragProvider = "local" →
    ∀ caller query limit authorization, 1 ≤ limit → limit ≤ 20 →
      DelegatesOnce d caller query limit authorization

/-! ## One hop and two -/

variable {d}

/-- A retrieval over HTTP returns what the handler returned, one request later. -/
theorem overHttp_eq_ok {answer : Retrieval} {hops : Nat} {chunks : List RetrievedChunk}
    (h : answer.overHttp = some (hops, .ok chunks)) :
    ∃ n, hops = n + 1 ∧ answer = some (n, .ok chunks) := by
  obtain ⟨⟨n, result⟩, hanswer, heq⟩ := Option.map_eq_some_iff.mp h
  obtain ⟨hn, hresult⟩ := Prod.mk.inj heq
  cases result with
  | error e => cases hresult
  | ok returned =>
    obtain rfl := Except.ok.inj hresult
    exact ⟨n, hn.symm, hanswer⟩

/-- A delegated retrieval that returns chunks was let through to the search, which returned
them. -/
theorem exists_of_httpxGet {retrieve : String → Int → Option String → Retrieval}
    {url : Option String} {query : String} {limit : Int} {authorization : Option String}
    {hops : Nat} {chunks : List RetrievedChunk}
    (h : httpxGet d retrieve url query limit authorization = some (hops, .ok chunks)) :
    ∃ route principal, authenticate d.framework d.jwt (d.settings .knowledge).toAuthSettings
        (appRoutes .knowledge) (searchRequest authorization) =
          .entered route principal ∧
      ∃ n, hops = n + 1 ∧ searchDocuments d retrieve query limit = some (n, .ok chunks) := by
  unfold httpxGet at h
  split at h
  · cases h
  · split at h
    · cases h
    · cases h
    · next route principal hentered => exact ⟨route, principal, hentered, overHttp_eq_ok h⟩

/-- A retrieval with an address set makes a request before it returns chunks. -/
theorem pos_of_localRetrieve {fuel hops : Nat} {service : ServiceName} {query : String}
    {limit : Int} {authorization : Option String} {chunks : List RetrievedChunk}
    (hset : isSet (d.settings service).knowledgeServiceUrl = true)
    (h : localRetrieve d fuel service query limit authorization = some (hops, .ok chunks)) :
    0 < hops := by
  unfold localRetrieve at h
  rw [if_pos hset] at h
  cases fuel with
  | zero => cases h
  | succ fuel =>
    obtain ⟨-, -, -, n, rfl, -⟩ := exists_of_httpxGet h
    exact n.succ_pos

/-- With the local provider the search retrieves locally. -/
theorem searchDocuments_local (hlocal : (d.settings .knowledge).ragProvider = "local")
    (retrieve : String → Int → Option String → Retrieval) (q : String) (limit : Int) :
    searchDocuments d retrieve q limit = retrieve q (min (max limit 1) 20) none := by
  simp only [searchDocuments, getRetriever, if_pos hlocal]

/-- Without authentication, and with its own address set, the knowledge service asks itself for
ever: no number of requests is enough. -/
theorem localRetrieve_eq_none (hlocal : (d.settings .knowledge).ragProvider = "local")
    (hknowledge : (d.settings .knowledge).knowledgeServiceUrl = some knowledgeServiceAddress)
    (hentered : ∀ authorization, ∃ route principal,
      authenticate d.framework d.jwt (d.settings .knowledge).toAuthSettings (appRoutes .knowledge)
        (searchRequest authorization) = .entered route principal)
    (fuel : Nat) {service : ServiceName}
    (hservice : (d.settings service).knowledgeServiceUrl = some knowledgeServiceAddress)
    (query : String) (limit : Int) (authorization : Option String) :
    localRetrieve d fuel service query limit authorization = none := by
  have hset : isSet (d.settings service).knowledgeServiceUrl = true := by rw [hservice]; decide
  -- The induction is over all services with the address: the next request is the search's own.
  induction fuel generalizing service query limit authorization with
  | zero => exact if_pos hset
  | succ fuel ih =>
    obtain ⟨route, principal, h⟩ := hentered (authorization.filter (· ≠ ""))
    have hget : httpxGet d (localRetrieve d fuel .knowledge)
        (d.settings service).knowledgeServiceUrl query limit (authorization.filter (· ≠ "")) =
          none := by
      unfold httpxGet
      rw [if_neg (not_not.mpr hservice)]
      simp only [h]
      rw [searchDocuments_local hlocal, ih hknowledge _ _ _ (by rw [hknowledge]; decide)]
      rfl
    rw [← hget]
    exact if_pos hset

/-- **A delegated retrieval ends after one request, with what the knowledge service ranks, exactly
if the knowledge service has no address set and lets the request through.** -/
theorem delegatesOnce_iff (hlocal : (d.settings .knowledge).ragProvider = "local")
    {caller : ServiceName}
    (hcaller : (d.settings caller).knowledgeServiceUrl = some knowledgeServiceAddress)
    {query : String} {limit : Int} {authorization : Option String} (hpos : 1 ≤ limit)
    (hle : limit ≤ 20) :
    DelegatesOnce d caller query limit authorization ↔
      isSet (d.settings .knowledge).knowledgeServiceUrl = false ∧
        ∃ route principal, authenticate d.framework d.jwt (d.settings .knowledge).toAuthSettings
          (appRoutes .knowledge)
          (searchRequest (authorization.filter (· ≠ ""))) =
            .entered route principal := by
  have hset : isSet (d.settings caller).knowledgeServiceUrl = true := by rw [hcaller]; decide
  have hclamp : min (max limit 1) 20 = limit := by omega
  constructor
  · rintro ⟨fuel, hops, h, hhops⟩
    unfold localRetrieve at h
    rw [if_pos hset] at h
    cases fuel with
    | zero => cases h
    | succ fuel =>
      obtain ⟨route, principal, hentered, n, rfl, hsearch⟩ := exists_of_httpxGet h
      refine ⟨?_, route, principal, hentered⟩
      -- The search ends without a request of its own, so it ranks in process.
      by_contra hknowledge
      rw [searchDocuments_local hlocal] at hsearch
      have hagain := pos_of_localRetrieve (Bool.not_eq_false _ ▸ hknowledge) hsearch
      omega
  · rintro ⟨hunset, route, principal, hentered⟩
    refine ⟨1, 1, ?_, le_rfl⟩
    have hsearch : searchDocuments d (localRetrieve d 0 .knowledge) query limit =
        some (0, .ok (rank d.casefold (d.documents .knowledge) query limit)) := by
      rw [searchDocuments_local hlocal, hclamp]
      unfold localRetrieve
      rw [hunset]
      rfl
    have hget : httpxGet d (localRetrieve d 0 .knowledge) (d.settings caller).knowledgeServiceUrl
        query limit (authorization.filter (· ≠ "")) =
          some (1, .ok (rank d.casefold (d.documents .knowledge) query limit)) := by
      unfold httpxGet
      rw [if_neg (not_not.mpr hcaller)]
      simp only [hentered, hsearch]
      rfl
    rw [← hget]
    exact if_pos hset

/-! ## The environment of the chart -/

/-- The chart gives every service the address of the knowledge service, and its provider. -/
theorem settings_of_rendered {values : ChartValues} (h : d.Rendered values)
    (service : ServiceName) :
    (d.settings service).knowledgeServiceUrl = some knowledgeServiceAddress ∧
      (d.settings service).ragProvider = values.ragProvider := by
  obtain ⟨env, henv, hsettings⟩ := h service
  obtain ⟨auth, hauth, henv⟩ := exists_of_bind henv
  obtain ⟨rag, hrag, henv⟩ := exists_of_bind henv
  obtain rfl := Except.ok.inj henv
  have hmode : auth.lookup "RAG_PROVIDER" = none := by
    unfold authEnv at hauth
    split at hauth
    · obtain ⟨_, -, hauth⟩ := exists_of_bind hauth
      obtain ⟨_, -, hauth⟩ := exists_of_bind hauth
      obtain rfl := Except.ok.inj hauth
      rfl
    · split at hauth
      · obtain ⟨_, -, hauth⟩ := exists_of_bind hauth
        obtain ⟨_, -, hauth⟩ := exists_of_bind hauth
        obtain ⟨_, -, hauth⟩ := exists_of_bind hauth
        obtain rfl := Except.ok.inj hauth
        rfl
      · obtain rfl := Except.ok.inj hauth
        rfl
  rw [hsettings]
  refine ⟨rfl, ?_⟩
  have hlookup : (([("SERVICE_NAME", service.value), ("AWS_REGION", values.awsRegion),
      ("AUTH_MODE", values.authMode), ("KNOWLEDGE_SERVICE_URL", knowledgeServiceAddress)] ++
    auth ++ [("RAG_PROVIDER", values.ragProvider)] ++ rag).lookup "RAG_PROVIDER") =
      some values.ragProvider := by
    rw [List.lookup_append, List.lookup_append, List.lookup_append, hmode]
    rfl
  exact congrArg (Option.getD · "local") hlookup

/-- **No retrieval of a deployment of the chart delegates once.**  The knowledge service has its own
address set, so that its search asks it again. -/
theorem not_delegatesOnce (d : Deployment) (values : ChartValues) (hrendered : d.Rendered values)
    (hlocal : values.ragProvider = "local") (caller : ServiceName) (query : String) (limit : Int)
    (authorization : Option String) (hpos : 1 ≤ limit) (hle : limit ≤ 20) :
    ¬ DelegatesOnce d caller query limit authorization := by
  intro h
  obtain ⟨hcaller, -⟩ := settings_of_rendered hrendered caller
  obtain ⟨hknowledge, hprovider⟩ := settings_of_rendered hrendered .knowledge
  have hunset := ((delegatesOnce_iff (hprovider.trans hlocal) hcaller hpos hle).mp h).1
  rw [hknowledge] at hunset
  revert hunset
  decide

/-- The values of the local cluster. -/
def localstackValues : ChartValues where
  awsRegion := "ap-northeast-2"
  authMode := "keycloak"
  cognitoUserPoolId := ""
  cognitoClientId := ""
  realm := "ax-sentinel"
  clientId := "ax-sentinel-web"
  externalBaseUrl := "http://localhost:8081/keycloak"
  internalBaseUrl := "http://keycloak:8080/keycloak"
  ragProvider := "local"
  bedrockKnowledgeBaseId := ""
  bedrockDataSourceId := ""

/-- The local cluster with one manual. -/
def localstack : Deployment where
  casefold := Python.lower
  framework := literalPaths
  jwt := managerToken
  knowledgeBase _ _ _ := .ok []
  settings service :=
    match containerEnv localstackValues service with
    | .ok env => .ofEnv env
    | .error _ => .ofEnv []
  documents
    | .knowledge =>
        [⟨⟨"d-1", "bearing.md", .manual, "queued", "documents/d-1/bearing.md", "sha256:0", 0⟩,
          "Check the bearing."⟩]
    | _ => []

theorem localstack_rendered : localstack.Rendered localstackValues := by
  intro service
  cases service <;> exact ⟨_, rfl, rfl⟩

/-- An analysis in the local cluster finds no manual. -/
theorem not_delegatesOnce_localstack :
    ¬ DelegatesOnce localstack .aiAnalysis "bearing" 5 (some "Bearer abc") :=
  not_delegatesOnce localstack localstackValues localstack_rendered rfl _ _ _ _ (by decide)
    (by decide)

/-- There the token of the caller is verified, the search asks its own service again without it,
and the answer 401 becomes an answer 500. -/
theorem not_everyRetrievalDelegatesOnce :
    localRetrieve localstack 2 .aiAnalysis "bearing" 5 (some "Bearer abc") =
        some (2, .error (.httpStatusError 500)) ∧
      ¬ EveryRetrievalDelegatesOnce := by
  refine ⟨by rfl, fun h => ?_⟩
  have honce := h localstack localstackValues localstack_rendered rfl .aiAnalysis "bearing" 5
    (some "Bearer abc") (by decide) (by decide)
  exact absurd ((delegatesOnce_iff rfl rfl (by decide) (by decide)).mp honce).1 (by decide)

end AxSentinel
