import AxSentinel.Evidence
import AxSentinel.Interpretation

/-! # The versions in the audit

What `_analysis_context` records as the version of each related document: the one of the last
retrieved chunk of the document, and only where no chunk was retrieved the one of the document
store.  So a version may be there, on an earlier chunk or in the store, and "unknown" recorded
(`versionsRecorded_iff`). -/
namespace AxSentinel
open Effects
open Python (Json Str)

/-! ## The dictionary of versions -/

namespace DocumentVersions
variable {versions : DocumentVersions} {documentId documentId' : String} {version : Str}

theorem has_iff : versions.has documentId = true ↔ (versions.lookup documentId).isSome = true := by
  unfold has
  rw [List.any_eq_true, List.lookup_isSome_iff]
  refine exists_congr fun entry => and_congr_right fun _ => ?_
  rw [decide_eq_true_eq, beq_iff_eq, eq_comm]

theorem mem_keys :
    documentId ∈ versions.map Prod.fst ↔ (versions.lookup documentId).isSome = true := by
  rw [List.lookup_isSome_iff, List.mem_map]
  exact exists_congr fun entry => and_congr_right fun _ => by rw [beq_iff_eq, eq_comm]

/-- Replacing the versions of a document. -/
theorem lookup_map : (versions.map fun entry =>
      if entry.1 = documentId then (documentId, version) else entry).lookup documentId' =
    if documentId' = documentId then (versions.lookup documentId).map fun _ => version
    else versions.lookup documentId' := by
  induction versions with
  | nil => simp
  | cons entry versions ih =>
    obtain ⟨key, old⟩ := entry
    rw [List.map_cons]
    by_cases hkey : key = documentId
    · subst hkey
      rw [if_pos rfl, List.lookup_cons, ih, List.lookup_cons_self]
      by_cases hsame : documentId' = key
      · simp [hsame]
      · simp [hsame, List.lookup_cons, beq_false_of_ne hsame]
    · rw [if_neg hkey, List.lookup_cons, ih]
      by_cases hsame : documentId' = documentId
      · subst hsame
        simp [List.lookup_cons, beq_false_of_ne (Ne.symm hkey)]
      · rw [if_neg hsame, if_neg hsame, List.lookup_cons]

theorem lookup_set : (versions.set documentId version).lookup documentId' =
    if documentId' = documentId then some version else versions.lookup documentId' := by
  unfold set
  by_cases hhas : versions.has documentId = true
  · rw [if_pos hhas, lookup_map]
    obtain ⟨old, hold⟩ := Option.isSome_iff_exists.mp (has_iff.mp hhas)
    rw [hold, Option.map_some]
  · rw [if_neg hhas, List.lookup_append, List.lookup_cons, List.lookup_nil]
    by_cases hsame : documentId' = documentId
    · subst hsame
      rw [has_iff, Option.not_isSome_iff_eq_none] at hhas
      simp [hhas]
    · simp [hsame, beq_false_of_ne hsame]

end DocumentVersions

/-! ## The versions of the chunks -/

/-- The chunks of a document, in the order they were retrieved in. -/
def chunksOf (chunks : List RetrievedChunk) (documentId : String) : List RetrievedChunk :=
  chunks.filter (·.documentId = documentId)

/-- The last chunk of a document decides. -/
theorem lookup_chunkVersions (chunks : List RetrievedChunk) (documentId : String) :
    (chunkVersions chunks).lookup documentId =
      (chunksOf chunks documentId).getLast?.map RetrievedChunk.version := by
  induction chunks using List.reverseRecOn with
  | nil => rfl
  | append_singleton chunks chunk ih =>
    have hsnoc : chunkVersions (chunks ++ [chunk]) =
        (chunkVersions chunks).set chunk.documentId chunk.version := by
      unfold chunkVersions
      rw [List.foldl_append, List.foldl_cons, List.foldl_nil]
    rw [hsnoc, DocumentVersions.lookup_set, ih, chunksOf, chunksOf, List.filter_append]
    by_cases hsame : documentId = chunk.documentId
    · subst hsame
      rw [if_pos rfl, List.filter_cons_of_pos (by simp), List.filter_nil, List.getLast?_concat,
        Option.map_some]
    · rw [if_neg hsame, List.filter_cons_of_neg (by simpa using Ne.symm hsame), List.filter_nil,
        List.append_nil]

/-! ## The related documents -/

/-- A document is related if the request claims it, or a chunk of it was retrieved. -/
theorem mem_relatedDocumentIds {request : AnalysisRequest} {chunks : List RetrievedChunk}
    {documentId : String} : documentId ∈ relatedDocumentIds request chunks ↔
      documentId ∈ request.relatedDocumentIds ∨ chunksOf chunks documentId ≠ [] := by
  unfold relatedDocumentIds chunksOf
  rw [List.mem_eraseDups, List.mem_append, List.mem_map, Ne, List.filter_eq_nil_iff]
  simp

/-! ## A gathering -/

section Gathering
variable {rt : Runtime} {settings : EvidenceSettings} {answers : String → HttpResponse}
  {w w' : EvidenceWorld} {authorization : Option String} {documentId : String}

/-- The sources, where another service answers a request the same way every time. -/
abbrev steadySources (answers : String → HttpResponse) : Machine evidenceOps where
  World := EvidenceWorld
  Choice := HttpResponse × EngineAnswer × Nat
  exec
    | .httpGet url _, _, w => (.ok (answers url), w)
    | op, c, w => evidenceSources.exec op c w

/-- The operations on them, any of which but the clock may raise. -/
abbrev steady (answers : String → HttpResponse) : Machine evidenceOps :=
  (steadySources answers).faulty fun op _ => match op with | .now => false | _ => true

/-- What the lookup of a document yields. -/
def storedDocument (settings : EvidenceSettings) (answers : String → HttpResponse)
    (w : EvidenceWorld) (documentId : String) : Option Json :=
  if isSet settings.knowledgeServiceUrl then
    let response := answers (settings.knowledgeServiceUrl.getD "" ++ "/api/v1/documents/by-id/" ++
      documentId)
    if response.statusCode = 200 then response.json.toOption else none
  else w.table.lookup ⟨.document, documentId⟩

/-- Gathering evidence changes nothing. -/
theorem world_of_ends {α : Type} {p : Gathering α} {out : Except Exc α}
    (h : (steady answers).Ends p w out w') : w' = w := by
  refine h.keeps (f := id) (S := fun _ => True) (fun op c w _ => ?_) (Program.obeys_true p [])
  have hsource : ((steadySources answers).exec op c.1 w).2 = w := by
    cases op with
    | _ => rfl
  rcases (steadySources answers).faulty_exec _ op c w with h | ⟨e, -, -, h | h⟩
  · rw [h]
    exact hsource
  · exact h
  · exact h.trans hsource

/-- An operation that replied. -/
theorem exec_of_gather {op : EvidenceOp} {r : evidenceOps.Reply op}
    (h : (steady answers).Ends (gather op) w (.ok r) w') :
    ∃ c, (steadySources answers).exec op c w = (.ok r, w') :=
  h.of_faulty_perform

/-- A lookup finds what is stored. -/
theorem storedDocument_of_ends {document : Option Json}
    (h : (steady answers).Ends (findDocument settings documentId authorization) w (.ok document)
      w') :
    document = storedDocument settings answers w documentId := by
  unfold findDocument at h
  unfold storedDocument
  split at h
  · rename_i hset
    rw [if_pos hset]
    obtain ⟨response, w₁, hget, h⟩ := h.of_bind_ok
    obtain ⟨c, hexec⟩ := exec_of_gather hget
    obtain rfl : answers _ = response := Except.ok.inj (congrArg Prod.fst hexec)
    dsimp only
    split at h
    · rename_i hstatus
      rw [if_pos hstatus]
      obtain ⟨value, _, hjson, h⟩ := h.of_bind_ok
      cases h
      cases hok : (answers (settings.knowledgeServiceUrl.getD "" ++ "/api/v1/documents/by-id/" ++
          documentId)).json with
      | ok value' =>
        rw [hok] at hjson
        cases hjson
        rfl
      | error e =>
        rw [hok] at hjson
        cases hjson
    · rename_i hstatus
      rw [if_neg hstatus]
      cases h
      rfl
  · rename_i hset
    rw [if_neg hset]
    obtain ⟨c, hexec⟩ := exec_of_gather h
    exact (Except.ok.inj (congrArg Prod.fst hexec)).symm

/-- The loop adds the stored version of the documents that have none yet. -/
theorem lookup_of_lookUpVersions {documentIds : List String} {versions versions' : DocumentVersions}
    (h : (steady answers).Ends (lookUpVersions rt settings authorization documentIds versions) w
      (.ok versions') w') (documentId : String) :
    versions'.lookup documentId =
      if versions.has documentId = false ∧ documentId ∈ documentIds then
        some (documentVersion rt (storedDocument settings answers w documentId))
      else versions.lookup documentId := by
  induction documentIds generalizing versions w with
  | nil =>
    obtain rfl := Except.ok.inj (Machine.Ends.of_ret (M := steady answers) h).1
    simp
  | cons first documentIds ih =>
    unfold lookUpVersions at h
    by_cases hhas : versions.has first = true
    · rw [if_pos hhas] at h
      rw [ih h]
      by_cases hsame : documentId = first
      · subst hsame
        simp [hhas]
      · simp [hsame]
    · rw [if_neg hhas] at h
      obtain ⟨document, w₁, hfind, h⟩ := h.of_bind_ok
      obtain rfl := storedDocument_of_ends hfind
      obtain rfl := world_of_ends hfind
      have hhas' : ∀ documentId, (versions.set first
          (documentVersion rt (storedDocument settings answers w₁ first))).has documentId =
            (decide (documentId = first) || versions.has documentId) := by
        intro documentId
        rw [Bool.eq_iff_iff, DocumentVersions.has_iff, DocumentVersions.lookup_set, Bool.or_eq_true,
          DocumentVersions.has_iff, decide_eq_true_eq]
        split
        · exact iff_of_true rfl (.inl ‹_›)
        · exact ⟨.inr, fun h => h.resolve_left ‹_›⟩
      rw [ih h, hhas', DocumentVersions.lookup_set]
      by_cases hsame : documentId = first
      · subst hsame
        simp [hhas]
      · simp [hsame]

/-- The version that ends up recorded for a related document. -/
def recordedVersion (rt : Runtime) (chunks : List RetrievedChunk) (documentId : String)
    (document : Option Json) : Str :=
  match (chunksOf chunks documentId).getLast? with
  | some chunk => chunk.version
  | none => documentVersion rt document

/-- The chunks retrieved for a request. -/
def retrievedFor (w : EvidenceWorld) (request : AnalysisRequest) : List RetrievedChunk :=
  w.retrieved (request.sensorSummary ++ "\n" ++ request.logSummary) 5

/-- What `_analysis_context` returns. -/
theorem analysisContext_ends {request : AnalysisRequest} {evidence : AnalysisEvidence}
    {versions : DocumentVersions}
    (h : (steady answers).Ends (analysisContext rt settings request authorization) w
      (.ok (evidence, versions)) w') :
    evidence.relatedDocumentIds = relatedDocumentIds request (retrievedFor w request) ∧
    ∀ documentId, versions.lookup documentId =
      if documentId ∈ evidence.relatedDocumentIds then
        some (recordedVersion rt (retrievedFor w request) documentId
          (storedDocument settings answers w documentId))
      else none := by
  obtain ⟨chunks, w₁, hretrieve, h⟩ := h.of_bind_ok
  obtain ⟨asset, w₂, hasset, h⟩ := h.of_bind_ok
  obtain ⟨versions', w₃, hversions, h⟩ := h.of_bind_ok
  obtain ⟨hret, -⟩ := Machine.Ends.of_ret (M := steady answers) h
  obtain ⟨rfl, rfl⟩ := Prod.mk.inj (Except.ok.inj hret)
  obtain ⟨c, hexec⟩ := exec_of_gather hretrieve
  obtain rfl : retrievedFor w request = chunks := Except.ok.inj (congrArg Prod.fst hexec)
  obtain rfl := world_of_ends hretrieve
  obtain rfl := world_of_ends hasset
  refine ⟨rfl, fun documentId => ?_⟩
  rw [lookup_of_lookUpVersions hversions, recordedVersion]
  have hhas : (chunkVersions (retrievedFor w₂ request)).has documentId =
      ((chunksOf (retrievedFor w₂ request) documentId).getLast?).isSome := by
    rw [Bool.eq_iff_iff, DocumentVersions.has_iff, lookup_chunkVersions, Option.isSome_map]
  rw [hhas, lookup_chunkVersions]
  cases hlast : (chunksOf (retrievedFor w₂ request) documentId).getLast? with
  | none => simp
  | some chunk =>
    have hrelated : documentId ∈ relatedDocumentIds request (retrievedFor w₂ request) := by
      refine mem_relatedDocumentIds.mpr (.inr fun hnil => ?_)
      rw [hnil] at hlast
      cases hlast
    simp [hrelated]

end Gathering

/-! ## Recorded as unknown -/

/-- The chunk carries a version. -/
def RetrievedChunk.HasVersion (chunk : RetrievedChunk) : Prop :=
  ∃ version, chunk.documentVersion = some version ∧ version ≠ ""

/-- The lookup of a document yields a version. -/
def Yields (document : Option Json) (version : Json) : Prop :=
  ∃ value, document = some value ∧ value.get? "version" = some version

theorem Yields.unique {document : Option Json} {version version' : Json}
    (h : Yields document version) (h' : Yields document version') : version = version' := by
  obtain ⟨value, hvalue, hversion⟩ := h
  obtain ⟨value', hvalue', hversion'⟩ := h'
  obtain rfl := Option.some.inj (hvalue.symm.trans hvalue')
  exact Option.some.inj (hversion.symm.trans hversion')

theorem RetrievedChunk.version_eq_unknown {chunk : RetrievedChunk} :
    chunk.version = .text "unknown" ↔
      ¬ chunk.HasVersion ∨ chunk.documentVersion = some "unknown" := by
  unfold version HasVersion
  cases chunk.documentVersion with
  | none => simp
  | some version =>
    by_cases hempty : version = ""
    · simp [hempty]
    · simp [hempty]

theorem documentVersion_eq_unknown {rt : Runtime} {document : Option Json} :
    documentVersion rt document = .text "unknown" ↔
      ∀ version, Yields document version → rt.str version = .text "unknown" := by
  unfold documentVersion Yields
  cases document with
  | none => simp
  | some value =>
    dsimp only
    cases hversion : value.get? "version" with
    | none => simp [hversion]
    | some version =>
      have htruthy : value.truthy = true := by
        cases value with
        | dict fields =>
          cases fields with
          | nil => cases hversion
          | cons field fields => rfl
        | _ => cases hversion
      rw [if_pos htruthy]
      simp [hversion]

/-- A version is recorded as unknown by the last chunk of the document, or, where there is none, by
the store. -/
theorem recordedVersion_eq_unknown {rt : Runtime} {chunks : List RetrievedChunk}
    {documentId : String} {document : Option Json} :
    recordedVersion rt chunks documentId document = .text "unknown" ↔
      (∃ chunk, (chunksOf chunks documentId).getLast? = some chunk ∧
        (¬ chunk.HasVersion ∨ chunk.documentVersion = some "unknown")) ∨
      chunksOf chunks documentId = [] ∧
        ∀ version, Yields document version → rt.str version = .text "unknown" := by
  unfold recordedVersion
  cases hlast : (chunksOf chunks documentId).getLast? with
  | some chunk =>
    have hne : chunksOf chunks documentId ≠ [] := by
      intro hnil
      rw [hnil] at hlast
      cases hlast
    simp [hne, RetrievedChunk.version_eq_unknown]
  | none => simp [List.getLast?_eq_none_iff.mp hlast, documentVersion_eq_unknown]

/-- The audit has a version for every document used: the related documents are distinct, each and
no other has a version, and it is unknown only where neither a chunk of the document nor the store
has one. -/
structure VersionsRecorded (chunks : List RetrievedChunk) (document : String → Option Json)
    (documentIds : List String) (versions : DocumentVersions) : Prop where
  nodup : documentIds.Nodup
  keys : ∀ documentId, documentId ∈ documentIds ↔ documentId ∈ versions.map Prod.fst
  unknown : ∀ documentId, versions.lookup documentId = some (.text "unknown") →
    (∀ chunk ∈ chunksOf chunks documentId, ¬ chunk.HasVersion) ∧
      ∀ version, ¬ Yields (document documentId) version

/-- Where the last chunk of a document has no version, or says "unknown", no chunk of the document
has a version, and neither has the store; and where no chunk of a claimed document was retrieved,
the version stored, if any, does not read "unknown". -/
structure VersionsDetermined (rt : Runtime) (request : AnalysisRequest)
    (chunks : List RetrievedChunk) (document : String → Option Json) : Prop where
  retrieved : ∀ documentId chunk, (chunksOf chunks documentId).getLast? = some chunk →
    ¬ chunk.HasVersion ∨ chunk.documentVersion = some "unknown" →
      (∀ c ∈ chunksOf chunks documentId, ¬ c.HasVersion) ∧
        ∀ version, ¬ Yields (document documentId) version
  claimed : ∀ documentId ∈ request.relatedDocumentIds, chunksOf chunks documentId = [] →
    ∀ version, Yields (document documentId) version → rt.str version ≠ .text "unknown"

/-- **The versions in the audit.**  Whatever request, chunks and store `_analysis_context` has, a
version is recorded for every document used if and only if the last chunk of each document, or the
store where there is none, tells all there is to tell. -/
theorem versionsRecorded_iff {rt : Runtime} {settings : EvidenceSettings}
    {answers : String → HttpResponse} {request : AnalysisRequest} {authorization : Option String}
    {evidence : AnalysisEvidence} {versions : DocumentVersions} {w w' : EvidenceWorld}
    (h : (steady answers).Ends (analysisContext rt settings request authorization) w
      (.ok (evidence, versions)) w') :
    VersionsRecorded (retrievedFor w request) (storedDocument settings answers w)
      evidence.relatedDocumentIds versions ↔
    VersionsDetermined rt request (retrievedFor w request) (storedDocument settings answers w) := by
  obtain ⟨hids, hlookup⟩ := analysisContext_ends h
  have hrelated : ∀ documentId, documentId ∈ evidence.relatedDocumentIds ↔ _ := fun documentId =>
    hids ▸ mem_relatedDocumentIds
  constructor
  · intro hrecorded
    refine ⟨fun documentId chunk hlast hnone => ?_, fun documentId hclaimed hnil => ?_⟩
    · have hne : chunksOf (retrievedFor w request) documentId ≠ [] := by
        intro hnil
        rw [hnil] at hlast
        cases hlast
      apply hrecorded.unknown documentId
      rw [hlookup, if_pos ((hrelated _).mpr (.inr hne)), Option.some_inj]
      exact recordedVersion_eq_unknown.mpr (.inl ⟨chunk, hlast, hnone⟩)
    · intro version hyields hreads
      refine (hrecorded.unknown documentId ?_).2 version hyields
      rw [hlookup, if_pos ((hrelated _).mpr (.inl hclaimed)), Option.some_inj]
      refine recordedVersion_eq_unknown.mpr (.inr ⟨hnil, fun version' hyields' => ?_⟩)
      exact hyields.unique hyields' ▸ hreads
  · intro hdetermined
    refine ⟨hids ▸ nodup_eraseDups _, fun documentId => ?_, fun documentId hunknown => ?_⟩
    · rw [DocumentVersions.mem_keys, hlookup]
      split
      · exact iff_of_true ‹_› rfl
      · exact iff_of_false ‹_› (by simp)
    · rw [hlookup] at hunknown
      split at hunknown
      · rename_i hmem
        rcases recordedVersion_eq_unknown.mp (Option.some.inj hunknown) with
          ⟨chunk, hlast, hnone⟩ | ⟨hnil, hreads⟩
        · exact hdetermined.retrieved documentId chunk hlast hnone
        · -- no chunk was retrieved, so the request claims the document
          have hclaimed := ((hrelated _).mp hmem).resolve_right fun hne => hne hnil
          refine ⟨fun chunk hchunk => ?_, fun version hyields => ?_⟩
          · rw [hnil] at hchunk
            cases hchunk
          · exact hdetermined.claimed documentId hclaimed hnil version hyields
              (hreads version hyields)
      · cases hunknown

/-! ## A gathering with two chunks of one document -/

namespace Sample

instance (answers : String → HttpResponse) : Inhabited (steady answers).Choice :=
  ⟨(default, .none)⟩

def chunk (version : Option String) : RetrievedChunk :=
  ⟨"bearing wear", ⟨1, by decide, by decide⟩, "s3://manuals/pump.pdf", "pump.pdf", version⟩

def pumpRequest : AnalysisRequest := ⟨"1", "pump-1", "hot", "noise", []⟩

/-- The chunks are retrieved with the given versions. -/
def manuals (versions : List (Option String)) : EvidenceWorld :=
  ⟨fun _ _ => versions.map chunk, ∅⟩

/-- The gathering, when nothing fails. -/
def gathered (versions : List (Option String)) :
    Except Exc (AnalysisEvidence × DocumentVersions) × EvidenceWorld :=
  (steady default).execute [] (analysisContext default evidenceSettings pumpRequest none)
    (manuals versions)

/-- What is gathered from two chunks of one document. -/
theorem gathered_eq (first second : Option String) :
    (steady default).Ends (analysisContext default evidenceSettings pumpRequest none)
      (manuals [first, second])
      (.ok (⟨pumpRequest, none, .list [], ["pump.pdf"], [chunk first, chunk second]⟩,
        [("pump.pdf", (chunk second).version)])) (gathered [first, second]).2 :=
  (steady default).ends_execute [] _ _

end Sample

open Sample

theorem versionsRecorded_iff_twice :
    VersionsRecorded (retrievedFor (manuals [none, some "v1"]) pumpRequest)
      (storedDocument evidenceSettings default (manuals [none, some "v1"])) ["pump.pdf"]
      [("pump.pdf", (chunk (some "v1")).version)] ↔
    VersionsDetermined default pumpRequest (retrievedFor (manuals [none, some "v1"]) pumpRequest)
      (storedDocument evidenceSettings default (manuals [none, some "v1"])) :=
  versionsRecorded_iff (gathered_eq none (some "v1"))

/-- The first chunk says which version the document has, the last one does not: none is recorded. -/
theorem not_versionsRecorded : ¬ ∀ rt settings answers request authorization evidence versions w w',
    (steady answers).Ends (analysisContext rt settings request authorization) w
      (.ok (evidence, versions)) w' →
    VersionsRecorded (retrievedFor w request) (storedDocument settings answers w)
      evidence.relatedDocumentIds versions := by
  intro hall
  have hrecorded := hall _ _ _ _ _ _ _ _ _ (gathered_eq (some "v1") none)
  exact (hrecorded.unknown "pump.pdf" rfl).1 _ (.head _) ⟨"v1", rfl, by decide⟩

end AxSentinel
