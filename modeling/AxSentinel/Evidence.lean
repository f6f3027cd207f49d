import AxSentinel.EventWorker
import AxSentinel.Reviews

/-! # The evidence of an analysis

`_analysis_context` and `_generate` of `services/ai_analysis/app/main.py`: what stands
behind the operation `generate` of the platform.  The ids of the related documents are
those the request claims and those of the retrieved chunks; the document store is asked
for their versions only. -/
namespace AxSentinel
open Effects
open Python (Json Str)

/-- `RetrievedChunk` of `shared/rag.py`. -/
structure RetrievedChunk where
  content : String
  score : {q : ℚ // 0 ≤ q ∧ q ≤ 1}
  location : String
  documentId : String
  documentVersion : Option String

/-- The evidence the analysis engine is given. -/
structure AnalysisEvidence where
  request : AnalysisRequest
  equipment : Option Json
  maintenanceHistory : Json
  relatedDocumentIds : List String
  retrievedContext : List RetrievedChunk

/-- The `_audit` of an engine's answer; an engine may leave any of its fields out. -/
structure EngineAudit where
  aiProvider : Option Str
  modelId : Option Str
  promptVersion : Option Str
  promptHash : Option Str
  guardrailAction : Option Str
  requestId : Option Str
  inputTokens : Option Int
  outputTokens : Option Int

/-- What an analysis engine returns. -/
structure EngineAnswer where
  generated : Json
  audit : EngineAudit

instance : Inhabited EngineAnswer :=
  ⟨.null, none, none, none, none, none, none, none, none⟩

/-- A response of another service. -/
structure HttpResponse where
  statusCode : Nat
  json : Except Exc Json

instance : Inhabited HttpResponse := ⟨404, .ok .null⟩

/-- The settings that decide where evidence comes from. -/
structure EvidenceSettings where
  assetServiceUrl : Option String
  knowledgeServiceUrl : Option String
  aiProvider : String
  bedrockModelId : Option String
  ragProvider : String
  bedrockGuardrailId : Option String
  bedrockGuardrailVersion : Option String

/-! ## Operations -/

/-- The operations that gather evidence.  `analyze` is the engine's. -/
inductive EvidenceOp where
  | retrieve (query : String) (limit : Nat) (authorization : Option String)
  | httpGet (url : String) (authorization : Option String)
  | getEntity (entityType : EntityType) (entityId : String)
  | listEntities (entityType : EntityType)
  | analyze (evidence : AnalysisEvidence)
  | now

abbrev evidenceOps : Signature Exc where
  Op := EvidenceOp
  Reply
    | .retrieve .. => List RetrievedChunk
    | .httpGet .. => HttpResponse
    | .getEntity .. => Option Json
    | .listEntities _ => List Json
    | .analyze _ => EngineAnswer
    | .now => Instant

/-- What evidence is gathered from: the retriever, and the table of the service with the
assets and documents in it. -/
structure EvidenceWorld where
  retrieved : String → Nat → List RetrievedChunk
  table : AList fun _ : Key => Json

/-- The operations, when none fails.  What other services and the engine answer is left
open. -/
abbrev evidenceSources : Machine evidenceOps where
  World := EvidenceWorld
  Choice := HttpResponse × EngineAnswer × Nat
  exec
    | .retrieve query limit _, _, w => (.ok (w.retrieved query limit), w)
    | .httpGet .., c, w => (.ok c.1, w)
    | .getEntity entityType entityId, _, w => (.ok (w.table.lookup ⟨entityType, entityId⟩), w)
    | .listEntities entityType, _, w =>
        (.ok ((w.table.entries.filter fun e => e.1.entityType = entityType).map fun e => e.2), w)
    | .analyze _, c, w => (.ok c.2.1, w)
    | .now, c, w => (.ok c.2.2, w)

/-- The operations, any of which but the clock may raise. -/
abbrev evidence : Machine evidenceOps :=
  evidenceSources.faulty fun op _ => match op with | .now => false | _ => true

abbrev Gathering (α : Type) := Program evidenceOps α

/-- An operation. -/
def gather (op : EvidenceOp) : Gathering (evidenceOps.Reply op) := .perform evidenceOps op

/-! ## Gathering evidence -/

/-- `response.raise_for_status()`. -/
def HttpResponse.raiseForStatus (response : HttpResponse) : Gathering Unit :=
  if 200 ≤ response.statusCode ∧ response.statusCode < 300 then pure ()
  else throw (.httpStatusError response.statusCode)

/-- `value.get("equipment_id") == equipment_id`. -/
def isAbout (equipmentId : String) (value : Json) : Bool :=
  match value.get? "equipment_id" with
  | some (.str (.text s)) => s = equipmentId
  | _ => false

/-- The equipment and its maintenance history. -/
def gatherAsset (settings : EvidenceSettings) (equipmentId : String)
    (authorization : Option String) :
    Gathering (Option Json × Json) := do
  if isSet settings.assetServiceUrl then
    let url := settings.assetServiceUrl.getD "" ++ "/api/v1/equipment/" ++ equipmentId
    let equipmentResponse ← gather (.httpGet url authorization)
    equipmentResponse.raiseForStatus
    let maintenanceResponse ← gather (.httpGet (url ++ "/maintenance") authorization)
    maintenanceResponse.raiseForStatus
    let equipment ← Program.ofExcept equipmentResponse.json
    let maintenanceHistory ← Program.ofExcept maintenanceResponse.json
    pure (some equipment, maintenanceHistory)
  else
    let equipment ← gather (.getEntity .equipment equipmentId)
    let maintenanceValues ← gather (.listEntities .maintenance)
    pure (equipment, .list (maintenanceValues.filter (isAbout equipmentId)))

/-- `related_document_ids` of `_analysis_context`. -/
def relatedDocumentIds (request : AnalysisRequest) (chunks : List RetrievedChunk) : List String :=
  (request.relatedDocumentIds ++ chunks.map RetrievedChunk.documentId).eraseDups

/-- A dictionary of the versions of documents, in insertion order. -/
abbrev DocumentVersions := List (String × Str)

/-- `document_id in document_versions`. -/
def DocumentVersions.has (versions : DocumentVersions) (documentId : String) : Bool :=
  versions.any fun entry => entry.1 = documentId

/-- `document_versions[document_id] = version`. -/
def DocumentVersions.set (versions : DocumentVersions) (documentId : String) (version : Str) :
    DocumentVersions :=
  if versions.has documentId then
    versions.map fun entry => if entry.1 = documentId then (documentId, version) else entry
  else versions ++ [(documentId, version)]

/-- `chunk.document_version or "unknown"`. -/
def RetrievedChunk.version (chunk : RetrievedChunk) : Str :=
  match chunk.documentVersion with
  | some version => if version = "" then .text "unknown" else .text version
  | none => .text "unknown"

/-- The versions of the documents of the retrieved chunks. -/
def chunkVersions (chunks : List RetrievedChunk) : DocumentVersions :=
  chunks.foldl (fun versions chunk => versions.set chunk.documentId chunk.version) []

/-- `str(document.get("version", "unknown")) if document else "unknown"`. -/
def documentVersion (rt : Runtime) (document : Option Json) : Str :=
  match document with
  | none => .text "unknown"
  | some document =>
      if document.truthy then
        match document.get? "version" with
        | some version => rt.str version
        | none => .text "unknown"
      else .text "unknown"

/-- A document, from the knowledge service where its address is set. -/
def findDocument (settings : EvidenceSettings) (documentId : String)
    (authorization : Option String) : Gathering (Option Json) := do
  if isSet settings.knowledgeServiceUrl then
    let response ← gather (.httpGet (settings.knowledgeServiceUrl.getD "" ++
      "/api/v1/documents/by-id/" ++ documentId) authorization)
    if response.statusCode = 200 then
      let document ← Program.ofExcept response.json
      pure (some document)
    else
      pure none
  else
    gather (.getEntity .document documentId)

/-- The loop over the ids of the related documents. -/
def lookUpVersions (rt : Runtime) (settings : EvidenceSettings) (authorization : Option String) :
    List String → DocumentVersions → Gathering DocumentVersions
  | [], versions => pure versions
  | documentId :: documentIds, versions => do
      if versions.has documentId then
        lookUpVersions rt settings authorization documentIds versions
      else
        let document ← findDocument settings documentId authorization
        lookUpVersions rt settings authorization documentIds
          (versions.set documentId (documentVersion rt document))

/-- `_analysis_context`. -/
def analysisContext (rt : Runtime) (settings : EvidenceSettings) (request : AnalysisRequest)
    (authorization : Option String) : Gathering (AnalysisEvidence × DocumentVersions) := do
  let retrievalQuery := request.sensorSummary ++ "\n" ++ request.logSummary
  let retrievedChunks ← gather (.retrieve retrievalQuery 5 authorization)
  let asset ← gatherAsset settings request.equipmentId authorization
  let relatedDocumentIds := relatedDocumentIds request retrievedChunks
  let documentVersions ← lookUpVersions rt settings authorization relatedDocumentIds
    (chunkVersions retrievedChunks)
  pure (⟨request, asset.1, asset.2, relatedDocumentIds, retrievedChunks⟩, documentVersions)

/-- `engine_audit.get("model_id") or settings.bedrock_model_id`. -/
def EngineAudit.modelIdOr (audit : EngineAudit) (modelId : Option String) : Option Str :=
  match audit.modelId with
  | none | some (.text "") => modelId.map .text
  | some modelId => some modelId

/-- The `AnalysisAudit` `_generate` builds. -/
def EngineAudit.complete (audit : EngineAudit) (settings : EvidenceSettings)
    (documentVersions : DocumentVersions) (createdAt : Instant) : AnalysisAudit where
  aiProvider := audit.aiProvider.getD (.text settings.aiProvider)
  modelId := audit.modelIdOr settings.bedrockModelId
  promptVersion := audit.promptVersion.getD (.text "unknown")
  promptHash := audit.promptHash.getD (.text "unknown")
  ragProvider := settings.ragProvider
  documentVersions := documentVersions
  guardrailId := settings.bedrockGuardrailId
  guardrailVersion := settings.bedrockGuardrailVersion
  guardrailAction := audit.guardrailAction.getD (.text "unknown")
  requestId := audit.requestId
  inputTokens := audit.inputTokens.getD 0
  outputTokens := audit.outputTokens.getD 0
  createdAt := createdAt

/-- `_generate`. -/
def generate (rt : Runtime) (settings : EvidenceSettings) (request : AnalysisRequest)
    (authorization : Option String) : Gathering Generation := do
  let (evidence, documentVersions) ← analysisContext rt settings request authorization
  let answer ← gather (.analyze evidence)
  let createdAt ← gather .now
  pure ⟨answer.generated, evidence.relatedDocumentIds,
    answer.audit.complete settings documentVersions createdAt⟩

/-! ## Ids of documents that nobody has found -/

/-- What `_generate` may return for a request. -/
def Generates (rt : Runtime) (settings : EvidenceSettings) (w : EvidenceWorld)
    (request : AnalysisRequest) (generation : Generation) : Prop :=
  ∃ authorization w', evidence.Ends (generate rt settings request authorization) w
    (.ok generation) w'

/-- No chunk is retrieved for the request, and no id it claims is the id of a stored
document. -/
structure NothingFound (w : EvidenceWorld) (request : AnalysisRequest) : Prop where
  retrieved : w.retrieved (request.sensorSummary ++ "\n" ++ request.logSummary) 5 = []
  claimed : ∀ documentId ∈ request.relatedDocumentIds, w.table.lookup ⟨.document, documentId⟩ = none

/-- The related documents are those of `relatedDocumentIds`. -/
theorem Generates.relatedDocumentIds_eq {rt : Runtime} {settings : EvidenceSettings}
    {w : EvidenceWorld} {request : AnalysisRequest} {generation : Generation}
    (h : Generates rt settings w request generation) : generation.relatedDocumentIds =
      relatedDocumentIds request
        (w.retrieved (request.sensorSummary ++ "\n" ++ request.logSummary) 5) := by
  obtain ⟨authorization, w', hend⟩ := h
  obtain ⟨context, _, hcontext, hend⟩ := hend.of_bind_ok
  obtain ⟨answer, _, -, hend⟩ := hend.of_bind_ok
  obtain ⟨createdAt, _, -, hret⟩ := hend.of_bind_ok
  cases hret
  obtain ⟨chunks, _, hretrieve, hcontext⟩ := hcontext.of_bind_ok
  obtain ⟨asset, _, -, hcontext⟩ := hcontext.of_bind_ok
  obtain ⟨documentVersions, _, -, hret⟩ := hcontext.of_bind_ok
  cases hret
  obtain ⟨c, hexec⟩ := hretrieve.of_faulty_perform
  have hchunks : chunks = w.retrieved (request.sensorSummary ++ "\n" ++ request.logSummary) 5 :=
    (Except.ok.inj (congrArg Prod.fst hexec)).symm
  rw [hchunks]

/-- A working choice of the operations. -/
def working (answer : EngineAnswer) : evidence.Choice := ((default, answer, 0), .none)

/-- Versions are looked up in a table without documents, too. -/
theorem lookUpVersions_ends {rt : Runtime} {settings : EvidenceSettings} {w : EvidenceWorld}
    (hlocal : isSet settings.knowledgeServiceUrl = false)
    (hnone : ∀ documentId, w.table.lookup ⟨.document, documentId⟩ = none)
    (documentIds : List String) (versions : DocumentVersions) : ∃ versions',
      evidence.Ends (lookUpVersions rt settings none documentIds versions) w (.ok versions') w := by
  induction documentIds generalizing versions with
  | nil => exact ⟨versions, .ret (M := evidence) versions w⟩
  | cons documentId documentIds ih =>
    unfold lookUpVersions
    split
    · exact ih versions
    · have hfind : evidence.Ends (findDocument settings documentId none) w (.ok none) w := by
        have hstore : findDocument settings documentId none =
            gather (.getEntity .document documentId) := if_neg (by simp [hlocal])
        rw [hstore]
        exact .perform (working default) (by simp [working, hnone])
      obtain ⟨versions', hend⟩ := ih (versions.set documentId (documentVersion rt none))
      exact ⟨versions', hfind.bind hend⟩

namespace Sample

/-- Evidence from the service's own table. -/
def evidenceSettings : EvidenceSettings := ⟨none, none, "mock", none, "local", none, none⟩

/-- No document, and nothing else. -/
def noEvidence : EvidenceWorld := ⟨fun _ _ => [], ∅⟩

end Sample

/-- Whatever the engine answers, and whatever ids the request claims, `_generate` may return
the answer with these ids, though there is no document. -/
theorem generates_claimed (rt : Runtime) (request : AnalysisRequest) (answer : EngineAnswer) :
    ∃ versions, Generates rt Sample.evidenceSettings Sample.noEvidence request
      ⟨answer.generated, relatedDocumentIds request [],
        answer.audit.complete Sample.evidenceSettings versions 0⟩ := by
  obtain ⟨versions, hlookUp⟩ :=
    @lookUpVersions_ends rt Sample.evidenceSettings Sample.noEvidence rfl (fun _ => rfl)
      (relatedDocumentIds request []) (chunkVersions [])
  have hasset : evidence.Ends (gatherAsset Sample.evidenceSettings request.equipmentId none)
      Sample.noEvidence (.ok (none, .list [])) Sample.noEvidence := by
    refine .bind (.perform (working default) rfl) ?_
    refine .bind (.perform (working default) rfl) ?_
    exact .ret (M := evidence) _ _
  have hcontext : evidence.Ends (analysisContext rt Sample.evidenceSettings request none)
      Sample.noEvidence (.ok (⟨request, none, .list [], relatedDocumentIds request [], []⟩,
        versions))
      Sample.noEvidence := by
    refine .bind (.perform (working default) rfl) ?_
    exact .bind hasset (.bind hlookUp (.ret (M := evidence) _ _))
  refine ⟨versions, none, Sample.noEvidence, ?_⟩
  refine .bind hcontext ?_
  refine .bind (.perform (working answer) rfl) ?_
  refine .bind (.perform (working default) rfl) ?_
  exact .ret (M := evidence) _ _

/-- The analysis needs a review, because no related documents were found. -/
def AnalysisResult.Undocumented (result : AnalysisResult) : Prop :=
  result.expertReviewRequired = true ∧ "no_related_documents" ∈ result.reviewReasons

theorem AnalysisResult.undocumented_of_build {rt : Runtime} {request : AnalysisRequest}
    {generation : Generation} {id : String} {result : AnalysisResult}
    (h : build rt request generation id = .ok result) :
    result.Undocumented ↔ generation.relatedDocumentIds = [] := by
  obtain ⟨confidence, low, hbuilt⟩ := builtFrom_of_build h
  unfold Undocumented
  rw [hbuilt.review, hbuilt.reasons]
  cases hids : generation.relatedDocumentIds with
  | nil => simp
  | cons documentId documentIds => cases low <;> simp

/-- Where nothing is found for the request, every analysis of it that is stored, in any run,
needs a review for that. -/
def ClaimsSuppressNothing (request : AnalysisRequest) : Prop :=
  ∀ rt evidenceSettings sources generation, NothingFound sources request →
    Generates rt evidenceSettings sources request generation →
    ∀ settings uuids s, Composed.Reachable settings uuids s → ∀ e ∈ s.history,
      Answered s e.thread request generation → ∀ id item result, e.Wrote ⟨.analysis, id⟩ item →
        item.attributes.data = .analysis result → result.Undocumented

/-- What is listed once is listed once only. -/
theorem nodup_eraseDups {α : Type} [DecidableEq α] (xs : List α) : xs.eraseDups.Nodup := by
  induction hn : xs.length using Nat.strong_induction_on generalizing xs with
  | _ n ih =>
    cases xs with
    | nil => exact .nil
    | cons x xs =>
      rw [List.eraseDups_cons, List.nodup_cons, List.mem_eraseDups]
      refine ⟨by simp, ih _ ?_ _ rfl⟩
      rw [← hn]
      exact Nat.lt_succ_of_le (List.length_filter_le ..)

theorem relatedDocumentIds_nil {request : AnalysisRequest} :
    relatedDocumentIds request [] = [] ↔ request.relatedDocumentIds = [] := by
  unfold relatedDocumentIds
  rw [List.map_nil, List.append_nil]
  cases request.relatedDocumentIds with
  | nil => simp
  | cons documentId documentIds => simp [List.eraseDups_cons]

/-- An answer that claims certainty. -/
def certain : EngineAnswer :=
  { (default : EngineAnswer) with generated := answerWith (.float (.finite 1)) }

/-- A request that claims documents is answered, and its analysis stored, though there are
none. -/
theorem exists_documented (request : AnalysisRequest) (hclaims : request.relatedDocumentIds ≠ []) :
    ¬ ClaimsSuppressNothing request := by
  intro hnone
  obtain ⟨versions, hgenerates⟩ := generates_claimed default request certain
  have hvalid : ValidAnswer default ⟨certain.generated, relatedDocumentIds request [],
      certain.audit.complete Sample.evidenceSettings versions 0⟩ :=
    validAnswer_answerWith (x := .finite 1) rfl (by decide +kernel) ⟨rfl, rfl⟩
  obtain ⟨result, hbuild, hstored⟩ := (AnalysisResult.exists_build default request "").mpr hvalid
  obtain ⟨s, hs, e, he, hanswered, id, item, hwrote, hresult⟩ := exists_wrote hbuild hstored
  have hundocumented := hnone _ _ _ _ ⟨rfl, fun _ _ => rfl⟩ hgenerates _ _ s hs e he hanswered
    id item result hwrote hresult
  exact hclaims (relatedDocumentIds_nil.mp
    ((AnalysisResult.undocumented_of_build hbuild).mp hundocumented))

/-- **Claimed ids and the review.**  Where nothing is found for a request, its analyses are
sure to be reviewed for that exactly when the request claims no ids. -/
theorem claimsSuppressNothing_iff (request : AnalysisRequest) :
    ClaimsSuppressNothing request ↔ request.relatedDocumentIds = [] := by
  constructor
  · intro hnone
    by_contra hclaims
    exact exists_documented request hclaims hnone
  · intro hclaims rt evidenceSettings sources generation hfound hgenerates settings uuids s hs e he
      hanswered id item result hwrote hresult
    obtain ⟨request', generation', resultId, hbuild, -, hbuilt⟩ :=
      build_of_wrote hs he hwrote hresult
    obtain ⟨rfl, rfl⟩ := hanswered.unique hbuilt
    refine (AnalysisResult.undocumented_of_build hbuild).mpr ?_
    rw [hgenerates.relatedDocumentIds_eq, hfound.retrieved]
    exact relatedDocumentIds_nil.mpr hclaims

/-- Claimed ids suppress reviews. -/
theorem not_claimsSuppressNothing : ¬ ∀ request, ClaimsSuppressNothing request :=
  fun hall => exists_documented ⟨"1", "pump-1", "hot", "noise", ["no-such-document"]⟩ (by decide)
    (hall _)

end AxSentinel
