import AxSentinel.AnalysisEngines

/-! # The guardrail in the audit

Whether a guardrail was in force is decided three times from different settings: the request to
Bedrock has one where both its id and its version are set, the answer is `passed` where the id is
set, and `_generate` writes the id into the audit whichever engine answered.  So the audit may claim
a guardrail that no request carried (`guardrailHonest_iff`). -/
namespace AxSentinel
open Effects
open Python (Json Str)

/-! ## `_generate` with its engine -/

/-- The signature of `_generate`: what evidence is gathered from, and the model services. -/
abbrev analysisOps : Signature Exc := evidenceOps.sum modelOps

/-- The operations of `_generate`: the engine of the settings analyzes. -/
def carryOut (rt : EngineRuntime) (settings : EngineSettings) :
    (op : EvidenceOp) → Program analysisOps (evidenceOps.Reply op)
  | .analyze evidence => (analyze rt settings evidence).right
  | op => (gather op).left

/-- `_generate`, with the engine it calls. -/
def generateWithEngine (rt : EngineRuntime) (settings : EngineSettings) (request : AnalysisRequest)
    (authorization : Option String) : Program analysisOps Generation :=
  (generate rt.toRuntime settings.toEvidenceSettings request authorization).interpret
    (carryOut rt settings)

/-- The sources of the evidence beside the model services, any of which may raise. -/
abbrev evidenceAndModels : Machine analysisOps := evidence.sum models

/-! ## What the audit claims -/

/-- The request carried the guardrail of the settings. -/
def Exchange.Guarded (settings : EvidenceSettings) (exchange : Exchange) : Prop :=
  ∃ config, exchange.request.lookup (.text "guardrailConfig") = some config ∧
    config.get? "guardrailIdentifier" = some (ofSetting settings.bedrockGuardrailId) ∧
    config.get? "guardrailVersion" = some (ofSetting settings.bedrockGuardrailVersion)

/-- The response says that a guardrail intervened. -/
def intervened (response : Json) : Bool :=
  isText (BedrockAnalysisEngine.stopReason response) "guardrail_intervened"

/-- The audit claims a guardrail only if a request made for the analysis carried it; an empty id is
none, as for the engine. -/
structure GuardrailHonest (settings : EvidenceSettings) (exchanges : List Exchange)
    (audit : AnalysisAudit) : Prop where
  action : audit.guardrailAction = .text "passed" ∨
    audit.guardrailAction = .text "intervened" → ∃ exchange ∈ exchanges, exchange.Guarded settings
  id : isSet audit.guardrailId = true → ∃ exchange ∈ exchanges, exchange.Guarded settings

/-- A guardrail is in force as set, or there is none: Bedrock analyzes, and the guardrail has an id
and a version, or it has no id, and no response says that one intervened. -/
def GuardrailSettled (settings : EvidenceSettings) (responses : List Json) : Prop :=
  settings.aiProvider = "bedrock" ∧ isSet settings.bedrockGuardrailId = true ∧
      isSet settings.bedrockGuardrailVersion = true ∨
    isSet settings.bedrockGuardrailId = false ∧ ∀ response ∈ responses, intervened response = false

/-! ## Gathering evidence sends nothing to the models -/

/-- Any operation but the engine's. -/
def Gathers : EvidenceOp → Prop
  | .analyze _ => False
  | _ => True

/-- The program leaves the analysis to others. -/
abbrev OnlyGathers {α : Type} (p : Gathering α) : Prop :=
  ∀ past, p.Obeys (fun _ op => Gathers op) (fun _ _ => True) past

section Gathering
variable {rt : Runtime} {settings : EvidenceSettings} {authorization : Option String}

theorem onlyGathers_bind {α β : Type} {p : Gathering α} {f : α → Gathering β} (hp : OnlyGathers p)
    (hf : ∀ a, OnlyGathers (f a)) : OnlyGathers (p >>= f) :=
  fun past => (hp past).bind fun past' a => hf a past'

theorem onlyGathers_gather {op : EvidenceOp} (h : Gathers op) : OnlyGathers (gather op) := by
  refine fun past => ⟨h, fun r => ?_⟩
  cases r with
  | ok r => trivial
  | error e => trivial

theorem onlyGathers_ofExcept {α : Type} (x : Except Exc α) :
    OnlyGathers (Program.ofExcept x : Gathering α) := by
  intro past
  cases x with
  | ok a => trivial
  | error e => trivial

theorem onlyGathers_raiseForStatus (response : HttpResponse) :
    OnlyGathers response.raiseForStatus := by
  intro past
  unfold HttpResponse.raiseForStatus
  split
  · trivial
  · trivial

theorem onlyGathers_gatherAsset (equipmentId : String) :
    OnlyGathers (gatherAsset settings equipmentId authorization) := by
  unfold gatherAsset
  split
  · refine onlyGathers_bind (onlyGathers_gather trivial) fun equipmentResponse => ?_
    refine onlyGathers_bind (onlyGathers_raiseForStatus _) fun _ => ?_
    refine onlyGathers_bind (onlyGathers_gather trivial) fun maintenanceResponse => ?_
    refine onlyGathers_bind (onlyGathers_raiseForStatus _) fun _ => ?_
    refine onlyGathers_bind (onlyGathers_ofExcept _) fun equipment => ?_
    exact onlyGathers_bind (onlyGathers_ofExcept _) fun _ _ => trivial
  · refine onlyGathers_bind (onlyGathers_gather trivial) fun equipment => ?_
    exact onlyGathers_bind (onlyGathers_gather trivial) fun _ _ => trivial

theorem onlyGathers_findDocument (documentId : String) :
    OnlyGathers (findDocument settings documentId authorization) := by
  unfold findDocument
  split
  · refine onlyGathers_bind (onlyGathers_gather trivial) fun response => ?_
    split
    · exact onlyGathers_bind (onlyGathers_ofExcept _) fun _ _ => trivial
    · exact fun _ => trivial
  · exact onlyGathers_gather trivial

theorem onlyGathers_lookUpVersions (documentIds : List String) (versions : DocumentVersions) :
    OnlyGathers (lookUpVersions rt settings authorization documentIds versions) := by
  induction documentIds generalizing versions with
  | nil => exact fun _ => trivial
  | cons documentId documentIds ih =>
    unfold lookUpVersions
    split
    · exact ih _
    · exact onlyGathers_bind (onlyGathers_findDocument _) fun document => ih _

theorem onlyGathers_analysisContext (request : AnalysisRequest) :
    OnlyGathers (analysisContext rt settings request authorization) := by
  refine onlyGathers_bind (onlyGathers_gather trivial) fun chunks => ?_
  refine onlyGathers_bind (onlyGathers_gatherAsset _) fun asset => ?_
  exact onlyGathers_bind (onlyGathers_lookUpVersions _ _) fun _ _ => trivial

end Gathering

/-! ## A generation -/

section Generating
variable {rt : EngineRuntime} {settings : EngineSettings} {request : AnalysisRequest}
  {authorization : Option String} {generation : Generation} {w w' : EvidenceWorld}
  {before exchanges exchanges' : List Exchange}

/-- An operation that gathers evidence sends nothing. -/
theorem exchanges_of_carryOut {op : EvidenceOp} {out : Except Exc (evidenceOps.Reply op)}
    {v v' : evidenceAndModels.World} (hop : Gathers op)
    (h : evidenceAndModels.Ends (carryOut rt settings op) v out v') : v'.2 = v.2 := by
  cases op with
  | analyze evidence => exact hop.elim
  | _ => exact h.of_left.2

/-- What is sent in a generation is what the engine sends, and the audit has the engine's action and
the settings' guardrail. -/
theorem generateWithEngine_ends (h : evidenceAndModels.Ends
      (generateWithEngine rt settings request authorization) (w, exchanges) (.ok generation)
      (w', exchanges')) :
    ∃ evidence answer, models.Ends (analyze rt settings evidence) exchanges (.ok answer)
        exchanges' ∧
      generation.audit.guardrailAction = answer.audit.guardrailAction.getD (.text "unknown") ∧
      generation.audit.guardrailId = settings.bedrockGuardrailId := by
  unfold generateWithEngine generate at h
  rw [Program.interpret_bind] at h
  obtain ⟨⟨evidence, versions⟩, w₁, hcontext, h⟩ := h.of_bind_ok
  rw [Program.interpret_bind] at h
  obtain ⟨answer, w₂, hanalyze, h⟩ := h.of_bind_ok
  rw [Program.interpret_bind] at h
  obtain ⟨createdAt, w₃, hnow, h⟩ := h.of_bind_ok
  rw [gather, Program.interpret_perform] at hanalyze hnow
  -- only the engine's part sends anything
  have hbefore : w₁.2 = exchanges := hcontext.keeps_interpret (f := Prod.snd)
    (fun _ _ _ _ => exchanges_of_carryOut) (onlyGathers_analysisContext request [])
  have hafter : exchanges' = w₂.2 := by
    have hnow : w₃.2 = w₂.2 := exchanges_of_carryOut (show Gathers .now from trivial) hnow
    obtain ⟨-, hend⟩ := Machine.Ends.of_ret (M := evidenceAndModels) h
    rw [← hnow, ← hend]
  obtain ⟨hengine, -⟩ := Machine.Ends.of_right hanalyze
  obtain ⟨hgeneration, -⟩ := Machine.Ends.of_ret (M := evidenceAndModels) h
  obtain rfl := Except.ok.inj hgeneration
  exact ⟨evidence, answer, hbefore ▸ hafter ▸ hengine, rfl, rfl⟩

/-- The action claims a guardrail where one intervened, or an id is set. -/
theorem guardrailAction_iff (engine : BedrockAnalysisEngine) (reason : Json) :
    (engine.guardrailAction reason = "passed" ∨ engine.guardrailAction reason = "intervened") ↔
      isText reason "guardrail_intervened" = true ∨ isSet engine.guardrailId = true := by
  unfold BedrockAnalysisEngine.guardrailAction
  by_cases hreason : isText reason "guardrail_intervened" = true
  · simp [hreason]
  · by_cases hid : isSet engine.guardrailId = true
    · simp [hreason, hid]
    · simp [hreason, hid]

/-- A request carries the guardrail where its id and its version are set. -/
theorem guarded_iff {engine : BedrockAnalysisEngine} {settings : EvidenceSettings}
    {response : Json} {evidenceText : String}
    (hid : engine.guardrailId = settings.bedrockGuardrailId)
    (hversion : engine.guardrailVersion = settings.bedrockGuardrailVersion) :
    Exchange.Guarded settings ⟨engine.request evidenceText, response⟩ ↔
      isSet settings.bedrockGuardrailId = true ∧ isSet settings.bedrockGuardrailVersion = true := by
  unfold Exchange.Guarded
  rw [engine.lookup_guardrailConfig, hid, hversion, ← Bool.and_eq_true]
  split
  · rename_i hset
    exact iff_of_true ⟨_, rfl, rfl, rfl⟩ hset
  · rename_i hunset
    exact iff_of_false (fun ⟨_, hnone, _⟩ => nomatch hnone) hunset

/-- Where nothing is sent to Bedrock, only the id may claim a guardrail. -/
theorem guardrailHonest_nil {settings : EvidenceSettings} {audit : AnalysisAudit}
    (haction : audit.guardrailAction = .text "not_configured") :
    GuardrailHonest settings [] audit ↔ isSet audit.guardrailId = false := by
  constructor
  · intro hhonest
    refine Bool.eq_false_iff.mpr fun hset => ?_
    obtain ⟨exchange, hexchange, -⟩ := hhonest.id hset
    cases hexchange
  · intro hunset
    refine ⟨fun hclaims => ?_, fun hset => ?_⟩
    · rw [haction] at hclaims
      exact absurd hclaims (by decide)
    · exact absurd hset (Bool.eq_false_iff.mp hunset)

/-- Of a request to Bedrock and its response, the audit is honest where both settings are there, or
neither the id nor an intervention. -/
theorem guardrailHonest_singleton {settings : EvidenceSettings} {audit : AnalysisAudit}
    {engine : BedrockAnalysisEngine} {response : Json} {evidenceText : String}
    (hid : engine.guardrailId = settings.bedrockGuardrailId)
    (hversion : engine.guardrailVersion = settings.bedrockGuardrailVersion)
    (haction : audit.guardrailAction = .text (engine.guardrailAction
      (BedrockAnalysisEngine.stopReason response)))
    (haudit : audit.guardrailId = settings.bedrockGuardrailId) :
    GuardrailHonest settings [⟨engine.request evidenceText, response⟩] audit ↔
      isSet settings.bedrockGuardrailId = true ∧ isSet settings.bedrockGuardrailVersion = true ∨
        isSet settings.bedrockGuardrailId = false ∧ intervened response = false := by
  have hguarded : (∃ exchange ∈ [(⟨engine.request evidenceText, response⟩ : Exchange)],
      exchange.Guarded settings) ↔ isSet settings.bedrockGuardrailId = true ∧
        isSet settings.bedrockGuardrailVersion = true := by
    simp only [List.mem_singleton, exists_eq_left]
    exact guarded_iff hid hversion
  have hclaims : audit.guardrailAction = .text "passed" ∨
      audit.guardrailAction = .text "intervened" ↔
        intervened response = true ∨ isSet settings.bedrockGuardrailId = true := by
    rw [haction, ← hid, Str.text.injEq, Str.text.injEq]
    exact guardrailAction_iff engine _
  constructor
  · intro hhonest
    by_cases hset : isSet settings.bedrockGuardrailId = true
    · exact .inl (hguarded.mp (hhonest.id (haudit ▸ hset)))
    · refine .inr ⟨Bool.eq_false_iff.mpr hset, Bool.eq_false_iff.mpr fun hintervened => ?_⟩
      exact hset (hguarded.mp (hhonest.action (hclaims.mpr (.inl hintervened)))).1
  · rintro (hset | ⟨hunset, hnone⟩)
    · exact ⟨fun _ => hguarded.mpr hset, fun _ => hguarded.mpr hset⟩
    · have hnot := Bool.eq_false_iff.mp hunset
      refine ⟨fun hclaim => ?_, fun hset => absurd (haudit ▸ hset) hnot⟩
      rcases hclaims.mp hclaim with hintervened | hset
      · exact absurd hintervened (Bool.eq_false_iff.mp hnone)
      · exact absurd hset hnot

/-- **The guardrail in the audit.**  Whatever evidence is gathered and whatever the model services
answer, the audit claims a guardrail only if a request made since carried it, if and only if Bedrock
analyzes with an id and a version set, or no id is set and no response says that a guardrail
intervened. -/
theorem guardrailHonest_iff (h : evidenceAndModels.Ends
      (generateWithEngine rt settings request authorization) (w, before) (.ok generation)
      (w', before ++ exchanges)) :
    GuardrailHonest settings.toEvidenceSettings exchanges generation.audit ↔
      GuardrailSettled settings.toEvidenceSettings (exchanges.map Exchange.response) := by
  obtain ⟨evidence, answer, hanalyze, haction, hid⟩ := generateWithEngine_ends h
  unfold GuardrailSettled
  rcases analyze_ends hanalyze with
    ⟨hprovider, hsent, hanswer⟩ | ⟨hprovider, engine, response, hengine, hversion, hsent, hanswer⟩
  · obtain rfl := List.append_right_eq_self.mp hsent
    rw [hanswer, Option.getD_some] at haction
    rw [guardrailHonest_nil haction, hid]
    simp [hprovider]
  · obtain rfl := List.append_cancel_left hsent
    rw [hanswer, Option.getD_some] at haction
    rw [guardrailHonest_singleton hengine hversion haction hid, List.map_singleton,
      List.forall_mem_singleton]
    simp [hprovider]

end Generating

/-! ## A guardrail without a version -/

namespace Sample

def engineRuntime : EngineRuntime where
  toRuntime := default
  promptHash := ""
  loads _ := .ok .null
  caseFold n := [n]
  caseFold_ne_nil n := List.cons_ne_nil n []
  evidenceText _ := ""
  evidenceJson _ := .ok ""
  int _ := .ok 0

/-- Bedrock, with the id of a guardrail and perhaps its version. -/
def bedrockSettings (version : Option String) : EngineSettings where
  toEvidenceSettings := ⟨none, none, "bedrock", some "model", "local", some "guardrail", version⟩
  ollamaModel := ""

/-- A response that uses the analysis tool. -/
def toolUse : Json :=
  .dict [(.text "output", .dict [(.text "message", .dict [(.text "content", .list [
      .dict [(.text "toolUse", .dict [(.text "name", .text analysisToolName),
        (.text "input", .dict [])])]])])]),
    (.text "stopReason", .text "tool_use")]

instance : Inhabited evidenceAndModels.Choice :=
  ⟨((default, default, 0), .none), (toolUse, default), .none⟩

def unexplained : AnalysisRequest := ⟨"1", "pump-1", "hot", "noise", []⟩

/-- What is sent to Bedrock, and what it answers. -/
def exchange (version : Option String) : Exchange :=
  ⟨(⟨"", "model", some "guardrail", version⟩ : BedrockAnalysisEngine).request "", toolUse⟩

/-- The audit of the analysis. -/
def guardedAudit (version : Option String) : AnalysisAudit :=
  ⟨.text "bedrock", some (.text "model"), .text promptVersion, .text "", "local", [],
    some "guardrail", version, .text "passed", none, 0, 0, 0⟩

/-- The analysis is generated. -/
theorem generate_ends (version : Option String) : evidenceAndModels.Ends
    (generateWithEngine engineRuntime (bedrockSettings version) unexplained none) (noEvidence, [])
    (.ok ⟨.dict [], [], guardedAudit version⟩)
    (noEvidence, [exchange version]) :=
  evidenceAndModels.ends_execute [] _ _

end Sample

open Sample

theorem guardrailHonest_iff_versioned :
    GuardrailHonest (bedrockSettings (some "1")).toEvidenceSettings [exchange (some "1")]
      (guardedAudit (some "1")) ↔
    GuardrailSettled (bedrockSettings (some "1")).toEvidenceSettings [toolUse] :=
  @guardrailHonest_iff _ _ _ _ _ _ _ [] _ (generate_ends (some "1"))

/-- A guardrail with an id but no version is passed, though no request has one. -/
theorem not_guardrailHonest : ¬ ∀ (rt : EngineRuntime) (settings : EngineSettings) request
    authorization generation w w' before exchanges, evidenceAndModels.Ends
      (generateWithEngine rt settings request authorization) (w, before) (.ok generation)
      (w', before ++ exchanges) →
    GuardrailHonest settings.toEvidenceSettings exchanges generation.audit := by
  intro hall
  have hhonest := hall _ _ _ _ _ _ _ [] _ (generate_ends none)
  obtain ⟨sent, hsent, hguarded⟩ := hhonest.action (.inl rfl)
  obtain rfl := List.mem_singleton.mp hsent
  exact absurd ((guarded_iff rfl rfl).mp hguarded).2 (by decide)

end AxSentinel
