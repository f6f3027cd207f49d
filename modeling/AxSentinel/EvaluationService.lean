import AxSentinel.EvaluationScores
import AxSentinel.LaggingIndex
import AxSentinel.StoreRules
import AxSentinel.Tokens

/-! # Evaluations and feedback

The evaluation endpoints of `services/ai_analysis/app/main.py` and `services/metrics/app/main.py`,
on one table: datasets are registered case by case, a run evaluates the cases it lists, feedback is
stored and published, and the summary reads all of it, a type at a time.  What a handler may write
and publish, and what it has read when it answers, is `EvaluationRequest.follows`. -/
namespace AxSentinel
open Effects
open Python (Json)

/-! ## Records -/

/-- `EvaluationCase`, with the fields the request for its generation is made of. -/
structure RegisteredCase extends EvaluationCase where
  name : String
  equipmentId : String
  sensorSummary : String
  logSummary : String

/-- The `AnalysisFeedback` of a request, with its texts. -/
structure SubmittedFeedback extends AnalysisFeedback where
  incidentId : String
  analysisId : String
  actualCause : String
  comment : Option String

/-- What the table holds; analyses and approvals are stored by the other handlers. -/
inductive EvaluationEntity where
  | registered (value : RegisteredCase)
  | evaluated (run : StoredEvaluation)
  | feedback (value : SubmittedFeedback)
  | analysis (result : AnalysisResult)
  | approval (record : ApprovalRecord)

namespace EvaluationEntity

/-- `EvaluationCase.model_validate`. -/
def asCase : EvaluationEntity → Except Exc RegisteredCase
  | registered value => .ok value
  | _ => .error (.validationError "EvaluationCase")

/-- `EvaluationRun.model_validate`, and the figures the summary reads. -/
def asRun : EvaluationEntity → Except Exc StoredEvaluation
  | evaluated run => .ok run
  | _ => .error (.validationError "EvaluationRun")

/-- `item["cause_accuracy"]` and `item["action_usefulness"]`. -/
def asFeedback : EvaluationEntity → Except Exc SubmittedFeedback
  | feedback value => .ok value
  | _ => .error (.other "KeyError" "cause_accuracy")

/-- `AnalysisResult.model_validate`. -/
def asAnalysis : EvaluationEntity → Except Exc AnalysisResult
  | analysis result => .ok result
  | _ => .error (.validationError "AnalysisResult")

/-- `ApprovalRecord.model_validate`. -/
def asApproval : EvaluationEntity → Except Exc ApprovalRecord
  | approval record => .ok record
  | _ => .error (.validationError "ApprovalRecord")

end EvaluationEntity

/-- An event of the metrics service: its payload is the feedback and its id. -/
structure FeedbackEvent where
  eventType : String
  id : String
  feedback : SubmittedFeedback
  key : String
  actorId : String

/-! ## Operations -/

inductive EvaluationOp where
  | uuid4
  | utcNow
  | generate (request : AnalysisRequest)
  | publish (event : FeedbackEvent)

abbrev evaluationServiceOps : Signature Exc where
  Op := EvaluationOp
  Reply
    | .uuid4 => String
    | .utcNow => DateTime
    | .generate _ => CaseGeneration
    | .publish _ => Unit

/-- The operations of a handler. -/
abbrev evaluationOps : Signature Exc := (storeOps EvaluationEntity).sum evaluationServiceOps

/-- The supply of ids, how many were issued, and what was published. -/
structure EvaluationWorld where
  uuids : UuidSupply
  issued : Nat
  published : List FeedbackEvent

/-- What the engine and the clock answer with is left open. -/
abbrev evaluationMachine : Machine evaluationServiceOps where
  World := EvaluationWorld
  Choice := DateTime × CaseGeneration
  exec
    | .uuid4, _, w => (.ok (w.uuids.draw w.issued), { w with issued := w.issued + 1 })
    | .utcNow, c, w => (.ok c.1, w)
    | .generate _, c, w => (.ok c.2, w)
    | .publish event, _, w => (.ok (), { w with published := w.published ++ [event] })

/-- The table and the rest, when nothing fails; a listing has what its pages had of an index that
lags. -/
abbrev reliableEvaluations : Machine evaluationOps :=
  (laggingMachine (Attributes EvaluationEntity) Key.entityType
    (.clientError conditionalCheckFailed)).sum evaluationMachine

/-- What leaves the process may fail with any exception. -/
def evaluationRaises : evaluationOps.Op → Exc → Bool
  | .inl .now, _ => false
  | .inr .uuid4, _ => false
  | .inr .utcNow, _ => false
  | _, _ => true

/-- The machine of the evaluation and feedback handlers. -/
abbrev evaluations : Machine evaluationOps := reliableEvaluations.faulty evaluationRaises

instance : TableMachine reliableEvaluations Key.entityType := .besideLagging Key.entityType _ _

instance : TableMachine evaluations Key.entityType := .faulty reliableEvaluations evaluationRaises

instance : LaggingQueries reliableEvaluations := .beside Key.entityType _ _

instance : LaggingQueries evaluations := .faulty reliableEvaluations evaluationRaises

/-- The services before any request. -/
def noEvaluations (uuids : UuidSupply) : evaluations.World := ((∅, []), ⟨uuids, 0, []⟩)

/-- A program of the evaluation and feedback handlers. -/
abbrev EvaluationService (α : Type) := Program evaluationOps α

namespace EvaluationService

abbrev put (entityType : EntityType) (entityId : String) (value : EvaluationEntity) :
    EvaluationService Unit :=
  (DynamoRepository.put entityType entityId value).left

abbrev list (entityType : EntityType) : EvaluationService (List EvaluationEntity) :=
  (DynamoRepository.list entityType).left

/-- An operation beside the table. -/
def perform (op : EvaluationOp) : EvaluationService (evaluationServiceOps.Reply op) :=
  Program.perform evaluationOps (.inr op)

end EvaluationService

/-! ## Handlers -/

open EvaluationService (put list perform)
open DynamoRepository (NoPut)

/-- The puts of `register_evaluation_dataset`, one after another. -/
def registerCases : List RegisteredCase → EvaluationService Unit
  | [] => pure ()
  | registered :: rest => do
      put .evaluationCase registered.id (.registered registered)
      registerCases rest

/-- `register_evaluation_dataset`. -/
def registerEvaluationDataset (cases : List RegisteredCase) (principal : Principal) :
    EvaluationService (List RegisteredCase) := do
  let _ ← Program.ofExcept
    (requireRolesDependency [.operatorManager, .systemAdmin] (some principal))
  registerCases cases
  pure cases

/-- `list_evaluation_dataset`. -/
def listEvaluationDataset : EvaluationService (List RegisteredCase) := do
  let values ← list .evaluationCase
  Program.ofExcept (values.mapM EvaluationEntity.asCase)

/-- The `AnalysisRequest` a case is evaluated by. -/
def RegisteredCase.request (registered : RegisteredCase) : AnalysisRequest where
  incidentId := "evaluation:" ++ registered.id
  equipmentId := registered.equipmentId
  sensorSummary := registered.sensorSummary
  logSummary := registered.logSummary
  relatedDocumentIds := []

section Handlers
variable (rt : Runtime) (caseFold : Nat → List Nat)

/-- The loop of `run_evaluation`: a case that cannot be evaluated ends it. -/
def evaluateCases :
    List RegisteredCase → EvaluationService (List (EvaluationCase × CaseGeneration))
  | [] => pure []
  | registered :: rest => do
      let generation ← perform (.generate registered.request)
      let _ ← Program.ofExcept (evaluateCase rt caseFold (registered.toEvaluationCase, generation))
      let evaluated ← evaluateCases rest
      pure ((registered.toEvaluationCase, generation) :: evaluated)

/-- The handler of `run_evaluation`. -/
def runStoredEvaluation (principal : Principal) : EvaluationService StoredEvaluation := do
  let _ ← Program.ofExcept
    (requireRolesDependency [.operatorManager, .systemAdmin] (some principal))
  let values ← list .evaluationCase
  let cases ← Program.ofExcept (values.mapM EvaluationEntity.asCase)
  if cases.isEmpty then
    throw (.http 409 "Evaluation dataset is empty")
  else
    let evaluated ← evaluateCases rt caseFold cases
    let id ← perform .uuid4
    let createdAt ← perform .utcNow
    let run ← Program.ofExcept (runEvaluation rt caseFold id createdAt evaluated)
    put .evaluationRun run.id (.evaluated run)
    pure run

end Handlers

/-- `record_feedback`. -/
def recordFeedback (feedback : SubmittedFeedback) (principal : Principal) :
    EvaluationService Unit := do
  let principal ← Program.ofExcept (requireRolesDependency
    [.fieldWorker, .operatorManager, .systemAdmin] (some principal))
  let feedbackId ← perform .uuid4
  put .feedback feedbackId (.feedback feedback)
  perform (.publish ⟨"feedback.submitted", feedbackId, feedback, feedback.analysisId,
    principal.subject⟩)

/-- The handler of `metrics_summary`. -/
def summarize (repr : Json → String) (settings : MetricsSettings) :
    EvaluationService MetricsSummary := do
  let feedbackValues ← list .feedback
  let analysisValues ← list .analysis
  let approvalValues ← list .approval
  let runValues ← list .evaluationRun
  let feedbackItems ← Program.ofExcept (feedbackValues.mapM EvaluationEntity.asFeedback)
  let analyses ← Program.ofExcept (analysisValues.mapM EvaluationEntity.asAnalysis)
  let approvals ← Program.ofExcept (approvalValues.mapM EvaluationEntity.asApproval)
  let runs ← Program.ofExcept (runValues.mapM EvaluationEntity.asRun)
  pure (metricsSummary repr settings (feedbackItems.map SubmittedFeedback.toAnalysisFeedback)
    analyses approvals (runs.map StoredEvaluation.toEvaluationRun))

/-- A request, or the `put` of a handler of another service. -/
inductive EvaluationRequest where
  | registerDataset (cases : List RegisteredCase) (principal : Principal)
  | listDataset
  | runEvaluation (principal : Principal)
  | recordFeedback (feedback : SubmittedFeedback) (principal : Principal)
  | metricsSummary
  | storeAnalysis (result : AnalysisResult)
  | storeApproval (record : ApprovalRecord)

/-- What a request is answered with. -/
inductive EvaluationAnswer where
  | cases (values : List RegisteredCase)
  | run (run : StoredEvaluation)
  | accepted
  | summary (summary : MetricsSummary)

/-- What the requests depend on: the standard library, the settings, and how a value is written. -/
structure EvaluationRuntime where
  rt : Runtime
  caseFold : Nat → List Nat
  repr : Json → String
  settings : MetricsSettings

/-- The handler of a request. -/
def EvaluationRequest.code (env : EvaluationRuntime) :
    EvaluationRequest → EvaluationService EvaluationAnswer
  | registerDataset cases principal => do
      let values ← registerEvaluationDataset cases principal
      pure (.cases values)
  | listDataset => do
      let values ← listEvaluationDataset
      pure (.cases values)
  | runEvaluation principal => do
      let run ← runStoredEvaluation env.rt env.caseFold principal
      pure (.run run)
  | recordFeedback feedback principal => do
      AxSentinel.recordFeedback feedback principal
      pure .accepted
  | metricsSummary => do
      let summary ← summarize env.repr env.settings
      pure (.summary summary)
  | storeAnalysis result => do
      put .analysis result.id (.analysis result)
      pure .accepted
  | storeApproval record => do
      put .approval record.id (.approval record)
      pure .accepted

/-! ## What a handler may do -/

open EvaluationEntity (asCase asRun asFeedback asAnalysis asApproval)

/-- The moves of a handler. -/
abbrev EvaluationMoves := List (Move evaluationOps)

/-- The ids a handler draws. -/
def evaluationDrawing (uuids : UuidSupply) : Drawing evaluations String where
  draw := uuids.draw
  injective := uuids.injective
  drawn
    | ⟨.inr .uuid4, .ok id⟩ => some id
    | _ => none
  issued w := w.2.issued
  Supplied w := w.2.uuids = uuids
  supplied op c w h := by
    have hreliable : ∀ c, (reliableEvaluations.exec op c w).2.2.uuids = uuids := by
      intro c
      match op with
      | .inl _ => exact h
      | .inr .uuid4 => exact h
      | .inr .utcNow => exact h
      | .inr (.generate _) => exact h
      | .inr (.publish _) => exact h
    rcases reliableEvaluations.faulty_exec evaluationRaises op c w with
      hsame | ⟨e, -, -, hsame | hsame⟩
    · rw [hsame]
      exact hreliable c.1
    · rw [hsame]
      exact h
    · rw [hsame]
      exact hreliable c.1
  step op c w h := by
    match op with
    | .inr .uuid4 =>
      rcases reliableEvaluations.faulty_exec evaluationRaises (.inr .uuid4) c w with
        hsame | ⟨e, hraises, -, -⟩
      · rw [hsame]
        exact .inl ⟨congrArg some (congrArg (fun uuids => uuids.draw w.2.issued) h), rfl⟩
      · cases hraises
    | .inl op =>
      refine .inr ⟨rfl, ?_⟩
      rcases reliableEvaluations.faulty_exec evaluationRaises (.inl op) c w with
        hsame | ⟨e, -, -, hsame | hsame⟩ <;> rw [hsame]
    | .inr .utcNow =>
      refine .inr ⟨rfl, ?_⟩
      rcases reliableEvaluations.faulty_exec evaluationRaises (.inr .utcNow) c w with
        hsame | ⟨e, -, -, hsame | hsame⟩ <;> rw [hsame]
    | .inr (.generate request) =>
      refine .inr ⟨rfl, ?_⟩
      rcases reliableEvaluations.faulty_exec evaluationRaises (.inr (.generate request)) c w with
        hsame | ⟨e, -, -, hsame | hsame⟩ <;> rw [hsame]
    | .inr (.publish event) =>
      refine .inr ⟨rfl, ?_⟩
      rcases reliableEvaluations.faulty_exec evaluationRaises (.inr (.publish event)) c w with
        hsame | ⟨e, -, -, hsame | hsame⟩ <;> rw [hsame]

/-- The roles that may register datasets and evaluate them. -/
def mayEvaluate (principal : Principal) : Bool :=
  principal.roles.any (· ∈ [Role.operatorManager, .systemAdmin])

/-- The roles that may give feedback. -/
def maySubmit (principal : Principal) : Bool :=
  principal.roles.any (· ∈ [Role.fieldWorker, .operatorManager, .systemAdmin])

/-- The value was written under the key. -/
def EvaluationPut (past : EvaluationMoves) (key : Key) (value : EvaluationEntity) : Prop :=
  ∃ (item : Item (Attributes EvaluationEntity)) (cond : Condition), item.attributes.data = value ∧
    (⟨.inl (.putItem key item cond), .ok ()⟩ : Move evaluationOps) ∈ past

/-- The values of a type were listed, and are what `f` reads them as. -/
def EvaluationListed {α : Type} (past : EvaluationMoves) (entityType : EntityType)
    (f : EvaluationEntity → Except Exc α) (values : List α) : Prop :=
  ∃ items : List (Attributes EvaluationEntity),
    (⟨.inl (.query entityType), .ok items⟩ : Move evaluationOps) ∈ past ∧
      (items.map Attributes.data).mapM f = .ok values

/-- What the engine answered for a registered case. -/
def GeneratedFor (past : EvaluationMoves) (registered : RegisteredCase)
    (evaluated : EvaluationCase × CaseGeneration) : Prop :=
  evaluated.1 = registered.toEvaluationCase ∧
    (⟨.inr (.generate registered.request), .ok evaluated.2⟩ : Move evaluationOps) ∈ past

/-- The run evaluates the cases that were listed. -/
def EvaluatedFrom (env : EvaluationRuntime) (past : EvaluationMoves) (run : StoredEvaluation) :
    Prop :=
  ∃ cases evaluated createdAt, EvaluationListed past .evaluationCase asCase cases ∧
    List.Forall₂ (GeneratedFor past) cases evaluated ∧
    runEvaluation env.rt env.caseFold run.id createdAt evaluated = .ok run

/-- What a request may write, in view of its past. -/
inductive EvaluationRequest.Writes (env : EvaluationRuntime) (uuids : UuidSupply) :
    EvaluationRequest → EvaluationMoves → Key → EvaluationEntity → Prop
  | registered {cases principal past registered} : registered ∈ cases →
      mayEvaluate principal = true → Writes env uuids (.registerDataset cases principal) past
        ⟨.evaluationCase, registered.id⟩ (.registered registered)
  | evaluated {principal past} {run : StoredEvaluation} :
      Fresh (evaluationDrawing uuids) past ⟨.evaluationRun, run.id⟩ run.id →
      EvaluatedFrom env past run → mayEvaluate principal = true →
      Writes env uuids (.runEvaluation principal) past ⟨.evaluationRun, run.id⟩ (.evaluated run)
  | submitted {feedback principal past id} :
      Fresh (evaluationDrawing uuids) past ⟨.feedback, id⟩ id → maySubmit principal = true →
      Writes env uuids (.recordFeedback feedback principal) past ⟨.feedback, id⟩
        (.feedback feedback)
  | analyzed {result past} :
      Writes env uuids (.storeAnalysis result) past ⟨.analysis, result.id⟩ (.analysis result)
  | decided {record past} :
      Writes env uuids (.storeApproval record) past ⟨.approval, record.id⟩ (.approval record)

/-- A feedback is published once, after it was stored. -/
def EvaluationRequest.Emits (request : EvaluationRequest) (past : EvaluationMoves) :
    evaluationOps.Op → Prop
  | .inr (.publish event) => ∃ principal, request = .recordFeedback event.feedback principal ∧
      event.eventType = "feedback.submitted" ∧ event.key = event.feedback.analysisId ∧
      event.actorId = principal.subject ∧
      EvaluationPut past ⟨.feedback, event.id⟩ (.feedback event.feedback) ∧
      ∀ m ∈ past, ∀ other, m.op ≠ .inr (.publish other)
  | _ => True

/-- What a request may do next. -/
def EvaluationRequest.Follows (env : EvaluationRuntime) (uuids : UuidSupply)
    (request : EvaluationRequest) (past : EvaluationMoves) (op : evaluationOps.Op) : Prop :=
  WritesOnly (fun earlier key a => request.Writes env uuids earlier key a.data) past op ∧
    request.Emits past op

/-- The summary is one of values that were listed. -/
def Summarized (env : EvaluationRuntime) (past : EvaluationMoves) (summary : MetricsSummary) :
    Prop :=
  ∃ feedbackItems analyses approvals runs,
    EvaluationListed past .feedback asFeedback feedbackItems ∧
    EvaluationListed past .analysis asAnalysis analyses ∧
    EvaluationListed past .approval asApproval approvals ∧
    EvaluationListed past .evaluationRun asRun runs ∧
    summary = metricsSummary env.repr env.settings
      (feedbackItems.map SubmittedFeedback.toAnalysisFeedback) analyses approvals
      (runs.map StoredEvaluation.toEvaluationRun)

/-- How a request may end. -/
def EvaluationRequest.Finishes (env : EvaluationRuntime) :
    EvaluationRequest → EvaluationMoves → Except Exc EvaluationAnswer → Prop
  | .registerDataset cases _, past, .ok (.cases values) => values = cases ∧ ∀ registered ∈ cases,
      EvaluationPut past ⟨.evaluationCase, registered.id⟩ (.registered registered)
  | .listDataset, past, .ok (.cases values) => EvaluationListed past .evaluationCase asCase values
  | .runEvaluation _, past, .ok (.run run) =>
      EvaluationPut past ⟨.evaluationRun, run.id⟩ (.evaluated run)
  | .recordFeedback feedback _, past, .ok .accepted => ∃ event, event.feedback = feedback ∧
      (⟨.inr (.publish event), .ok ()⟩ : Move evaluationOps) ∈ past
  | .metricsSummary, past, .ok (.summary summary) => Summarized env past summary
  | .storeAnalysis _, _, .ok .accepted => True
  | .storeApproval _, _, .ok .accepted => True
  | _, _, .error _ => True
  | _, _, .ok _ => False

/-! ## The handlers do -/

theorem runEvaluation_id {rt : Runtime} {caseFold : Nat → List Nat} {id : String}
    {createdAt : DateTime} {evaluated : List (EvaluationCase × CaseGeneration)}
    {run : StoredEvaluation} (h : runEvaluation rt caseFold id createdAt evaluated = .ok run) :
    run.id = id := by
  unfold runEvaluation at h
  split at h
  · cases h
  · obtain ⟨results, -, h⟩ := exists_of_bind h
    exact Except.ok.inj h ▸ rfl

/-- Nothing was written or published. -/
def OnlyReads (past : EvaluationMoves) : Prop :=
  ∀ m ∈ past, NoPut m.op ∧ ∀ event, m.op ≠ .inr (.publish event)

section Handlers
open DynamoRepository (noPut_get noPut_query noPut_now noPut_other mem_putMoves writesOnly_putOp)

variable {env : EvaluationRuntime} {uuids : UuidSupply} {request : EvaluationRequest}
  {past : EvaluationMoves}

theorem onlyReads_nil : OnlyReads [] := fun _ hm => absurd hm List.not_mem_nil

theorem OnlyReads.snoc (h : OnlyReads past) {op : evaluationOps.Op}
    {r : Except Exc (evaluationOps.Reply op)} (hop : NoPut op)
    (hpublish : ∀ event, op ≠ .inr (.publish event)) : OnlyReads (past ++ [⟨op, r⟩]) := by
  intro m hm
  rcases List.mem_append.mp hm with hm | hm
  · exact h m hm
  · obtain rfl := List.mem_singleton.mp hm
    exact ⟨hop, hpublish⟩

theorem OnlyReads.query (h : OnlyReads past) {t : EntityType}
    {r : Except Exc (evaluationOps.Reply (.inl (.query t)))} :
    OnlyReads (past ++ [⟨.inl (.query t), r⟩]) :=
  h.snoc (noPut_query t) (by rintro _ ⟨⟩)

theorem OnlyReads.now (h : OnlyReads past) {r : Except Exc (evaluationOps.Reply (.inl .now))} :
    OnlyReads (past ++ [⟨.inl .now, r⟩]) :=
  h.snoc noPut_now (by rintro _ ⟨⟩)

/-- A fresh id was drawn, and nothing was written. -/
theorem OnlyReads.fresh (h : OnlyReads past) {id : String}
    (hdrew : (⟨.inr .uuid4, .ok id⟩ : Move evaluationOps) ∈ past) (key : Key) :
    Fresh (evaluationDrawing uuids) past key id :=
  ⟨⟨_, hdrew, rfl⟩, fun m hm => (h m hm).1 key⟩

theorem EvaluationPut.mono {past' : EvaluationMoves} {key : Key} {v : EvaluationEntity}
    (h : EvaluationPut past key v) (hsub : past ⊆ past') : EvaluationPut past' key v := by
  obtain ⟨item, cond, hdata, hmem⟩ := h
  exact ⟨item, cond, hdata, hsub hmem⟩

theorem evaluationPut_putMoves (past : EvaluationMoves) (t : EntityType) (id : String)
    (v : EvaluationEntity) (clock : Nat) (current : Option (Item (Attributes EvaluationEntity))) :
    EvaluationPut (past ++ DynamoRepository.putMoves _ t id v clock current) ⟨t, id⟩ v :=
  ⟨_, _, rfl, mem_putMoves past t id v clock current⟩

theorem GeneratedFor.mono {past' : EvaluationMoves} {registered : RegisteredCase}
    {evaluated : EvaluationCase × CaseGeneration} (h : GeneratedFor past registered evaluated)
    (hsub : past ⊆ past') : GeneratedFor past' registered evaluated :=
  ⟨h.1, hsub h.2⟩

theorem EvaluatedFrom.mono {past' : EvaluationMoves} {run : StoredEvaluation}
    (h : EvaluatedFrom env past run) (hsub : past ⊆ past') : EvaluatedFrom env past' run := by
  obtain ⟨cases, evaluated, createdAt, ⟨items, hquery, hcases⟩, hall, hrun⟩ := h
  exact ⟨cases, evaluated, createdAt, ⟨items, hsub hquery, hcases⟩,
    hall.imp fun _ _ h => h.mono hsub, hrun⟩

/-- A `put` of what the request may write. -/
theorem follows_put {β : Type} {t : EntityType} {id : String} {v : EvaluationEntity}
    {f : Unit → EvaluationService β} {Q : EvaluationMoves → Except Exc β → Prop}
    (hwrites : ∀ clock, request.Writes env uuids (past ++ [⟨.inl .now, .ok clock⟩]) ⟨t, id⟩ v)
    (herr : ∀ past e, Q past (.error e))
    (hok : ∀ clock current, (f ()).Obeys (request.Follows env uuids) Q
      (past ++ DynamoRepository.putMoves _ t id v clock current)) :
    (EvaluationService.put t id v >>= f).Obeys (request.Follows env uuids) Q past :=
  DynamoRepository.obeys_put ⟨noPut_now.writesOnly, trivial⟩
    (fun _ => ⟨(noPut_get _).writesOnly, trivial⟩)
    (fun clock current => ⟨writesOnly_putOp (W := fun earlier key a =>
      request.Writes env uuids earlier key a.data) hwrites clock current, trivial⟩)
    (fun _ _ _ _ _ => herr _ _) hok

/-- An operation beside the table that publishes nothing. -/
theorem follows_perform {β : Type} {op : EvaluationOp}
    {f : evaluationServiceOps.Reply op → EvaluationService β}
    {Q : EvaluationMoves → Except Exc β → Prop} (hemits : request.Emits past (.inr op))
    (herr : ∀ past e, Q past (.error e))
    (hok : ∀ r, (f r).Obeys (request.Follows env uuids) Q (past ++ [⟨.inr op, .ok r⟩])) :
    (EvaluationService.perform op >>= f).Obeys (request.Follows env uuids) Q past := by
  have hop := noPut_other (D := EvaluationEntity) (G := evaluationServiceOps) op
  exact Program.obeys_perform_bind ⟨hop.writesOnly, hemits⟩ (fun _ => herr _ _) hok

theorem follows_list {β : Type} {t : EntityType} {f : List EvaluationEntity → EvaluationService β}
    {Q : EvaluationMoves → Except Exc β → Prop} (herr : ∀ past e, Q past (.error e))
    (hok : ∀ items : List (Attributes EvaluationEntity), (f (items.map Attributes.data)).Obeys
      (request.Follows env uuids) Q (past ++ [⟨.inl (.query t), .ok items⟩])) :
    (EvaluationService.list t >>= f).Obeys (request.Follows env uuids) Q past :=
  DynamoRepository.obeys_list ⟨(noPut_query t).writesOnly, trivial⟩ (fun _ => herr _ _) hok

/-- The cases of a dataset are stored one after another. -/
theorem follows_registerCases {cases rest : List RegisteredCase} {principal : Principal}
    (hsub : rest ⊆ cases) (hmay : mayEvaluate principal = true) :
    (registerCases rest).Obeys
      ((EvaluationRequest.registerDataset cases principal).Follows env uuids)
      (fun past' out => out = .ok () → past ⊆ past' ∧ ∀ registered ∈ rest,
        EvaluationPut past' ⟨.evaluationCase, registered.id⟩ (.registered registered)) past := by
  induction rest generalizing past with
  | nil => exact fun _ => ⟨fun _ => id, fun _ h => absurd h List.not_mem_nil⟩
  | cons registered rest ih =>
    obtain ⟨hfirst, hrest⟩ := List.cons_subset.mp hsub
    refine follows_put (fun _ => .registered hfirst hmay) (fun _ _ h => nomatch h)
      fun clock current => (ih hrest).mono (fun _ _ => id) fun past' out hout heq => ?_
    obtain ⟨hpast, hputs⟩ := hout heq
    refine ⟨fun m hm => hpast (List.mem_append_left _ hm), List.forall_mem_cons.mpr ⟨?_, hputs⟩⟩
    exact (evaluationPut_putMoves ..).mono hpast

/-- What `require_roles` lets through. -/
theorem any_of_requireRolesDependency {roles : List Role} {principal principal' : Principal}
    (h : requireRolesDependency roles (some principal) = .ok principal') :
    principal' = principal ∧ principal.roles.any (· ∈ roles) = true := by
  rw [requireRolesDependency] at h
  split at h
  · rename_i hany
    exact ⟨(Except.ok.inj h).symm, hany⟩
  · cases h

theorem follows_registerEvaluationDataset (cases : List RegisteredCase) (principal : Principal) :
    (registerEvaluationDataset cases principal).Obeys
      ((EvaluationRequest.registerDataset cases principal).Follows env uuids)
      (fun past out => ∀ values, out = .ok values → values = cases ∧ ∀ registered ∈ cases,
        EvaluationPut past ⟨.evaluationCase, registered.id⟩ (.registered registered)) [] := by
  unfold registerEvaluationDataset
  refine Program.obeys_ofExcept_bind (fun _ _ _ h => nomatch h) fun _ hroles => ?_
  have hmay : mayEvaluate principal = true := (any_of_requireRolesDependency hroles).2
  refine Program.obeys_bind.mpr ((follows_registerCases (List.Subset.refl cases) hmay).mono
    (fun _ _ => id) fun past out hout => ?_)
  cases out with
  | error e => exact fun _ h => nomatch h
  | ok _ =>
    rintro _ heq
    obtain rfl := Except.ok.inj heq
    exact ⟨rfl, (hout rfl).2⟩

/-- The loop of an evaluation reads only, and has an answer for each case. -/
theorem follows_evaluateCases (cases : List RegisteredCase) (hpast : OnlyReads past) :
    (evaluateCases env.rt env.caseFold cases).Obeys (request.Follows env uuids)
      (fun past' out => ∀ evaluated, out = .ok evaluated → OnlyReads past' ∧ past ⊆ past' ∧
        List.Forall₂ (GeneratedFor past') cases evaluated) past := by
  induction cases generalizing past with
  | nil =>
    rintro evaluated heq
    obtain rfl := Except.ok.inj heq
    exact ⟨hpast, fun _ => id, .nil⟩
  | cons registered rest ih =>
    refine follows_perform trivial (fun _ _ _ h => nomatch h) fun generation => ?_
    have hgenerated : OnlyReads (past ++ [⟨.inr (.generate registered.request), .ok generation⟩]) :=
      hpast.snoc (noPut_other (D := EvaluationEntity) (G := evaluationServiceOps) _)
        (by rintro _ ⟨⟩)
    refine Program.obeys_ofExcept_bind (fun _ _ _ h => nomatch h) fun _ _ => ?_
    refine Program.obeys_bind.mpr ((ih hgenerated).mono (fun _ _ => id) fun past' out hout => ?_)
    cases out with
    | error e => exact fun _ h => nomatch h
    | ok evaluated =>
      rintro _ heq
      obtain rfl := Except.ok.inj heq
      obtain ⟨hreads, hsub, hall⟩ := hout evaluated rfl
      refine ⟨hreads, fun m hm => hsub (List.mem_append_left _ hm), .cons ⟨rfl, hsub ?_⟩ hall⟩
      simp

theorem follows_runStoredEvaluation (principal : Principal) :
    (runStoredEvaluation env.rt env.caseFold principal).Obeys
      ((EvaluationRequest.runEvaluation principal).Follows env uuids)
      (fun past out => ∀ run, out = .ok run →
        EvaluationPut past ⟨.evaluationRun, run.id⟩ (.evaluated run)) [] := by
  unfold runStoredEvaluation
  refine Program.obeys_ofExcept_bind (fun _ _ _ h => nomatch h) fun _ hroles => ?_
  refine follows_list (fun _ _ _ h => nomatch h) fun items => ?_
  refine Program.obeys_ofExcept_bind (fun _ _ _ h => nomatch h) fun cases hcases => ?_
  split
  · exact fun _ h => nomatch h
  have hlisted : OnlyReads ([] ++ [⟨.inl (.query .evaluationCase), .ok items⟩]) :=
    onlyReads_nil.query
  refine Program.obeys_bind.mpr ((follows_evaluateCases cases hlisted).mono (fun _ _ => id)
    fun past out hout => ?_)
  cases out with
  | error e => exact fun _ h => nomatch h
  | ok evaluated =>
    obtain ⟨hreads, hsub, hall⟩ := hout evaluated rfl
    refine follows_perform trivial (fun _ _ _ h => nomatch h) fun id => ?_
    refine follows_perform trivial (fun _ _ _ h => nomatch h) fun createdAt => ?_
    refine Program.obeys_ofExcept_bind (fun _ _ _ h => nomatch h) fun run hrun => ?_
    obtain rfl : run.id = id := runEvaluation_id hrun
    have hdrew : OnlyReads (past ++ [⟨.inr .uuid4, .ok run.id⟩] ++
        [⟨.inr .utcNow, .ok createdAt⟩]) :=
      (hreads.snoc (noPut_other (D := EvaluationEntity) (G := evaluationServiceOps) _)
        (by rintro _ ⟨⟩)).snoc (noPut_other (D := EvaluationEntity) (G := evaluationServiceOps) _)
        (by rintro _ ⟨⟩)
    refine follows_put (fun clock => .evaluated (hdrew.now.fresh (by simp) _) ?_
      (any_of_requireRolesDependency hroles).2) (fun _ _ _ h => nomatch h) fun clock current => ?_
    · refine ⟨cases, evaluated, createdAt, ⟨items, ?_, hcases⟩,
        hall.imp fun _ _ h => h.mono ?_, hrun⟩
      · exact List.mem_append_left _ (List.mem_append_left _ (List.mem_append_left _
          (hsub (List.mem_singleton.mpr rfl))))
      · intro m hm
        simp [hm]
    · rintro _ heq
      obtain rfl := Except.ok.inj heq
      exact evaluationPut_putMoves ..

theorem follows_recordFeedback (feedback : SubmittedFeedback) (principal : Principal) :
    (recordFeedback feedback principal).Obeys
      ((EvaluationRequest.recordFeedback feedback principal).Follows env uuids)
      (fun past out => out = .ok () → ∃ event, event.feedback = feedback ∧
        (⟨.inr (.publish event), .ok ()⟩ : Move evaluationOps) ∈ past) [] := by
  unfold recordFeedback
  refine Program.obeys_ofExcept_bind (fun _ _ h => nomatch h) fun principal' hroles => ?_
  obtain ⟨rfl, hmay⟩ := any_of_requireRolesDependency hroles
  refine follows_perform trivial (fun _ _ h => nomatch h) fun feedbackId => ?_
  have hdrew : OnlyReads ([] ++ [⟨.inr .uuid4, .ok feedbackId⟩]) :=
    onlyReads_nil.snoc (noPut_other (D := EvaluationEntity) (G := evaluationServiceOps) _)
      (by rintro _ ⟨⟩)
  refine follows_put (fun clock => .submitted (hdrew.now.fresh (by simp) _) hmay)
    (fun _ _ h => nomatch h) fun clock current => ?_
  rw [← bind_pure (EvaluationService.perform _)]
  refine follows_perform ⟨principal', rfl, rfl, rfl, rfl, evaluationPut_putMoves .., ?_⟩
    (fun _ _ h => nomatch h) fun _ _ => ⟨⟨"feedback.submitted", feedbackId, feedback,
      feedback.analysisId, principal'.subject⟩, rfl,
      List.mem_append_right _ (List.mem_singleton.mpr rfl)⟩
  intro m hm event
  simp only [DynamoRepository.putMoves, List.nil_append, List.cons_append, List.mem_cons,
    List.not_mem_nil, or_false] at hm
  rcases hm with rfl | rfl | rfl | rfl <;> rintro ⟨⟩

theorem follows_summarize :
    (summarize env.repr env.settings).Obeys (request.Follows env uuids)
      (fun past out => ∀ summary, out = .ok summary → Summarized env past summary) [] := by
  unfold summarize
  refine follows_list (fun _ _ _ h => nomatch h) fun feedbackValues => ?_
  refine follows_list (fun _ _ _ h => nomatch h) fun analysisValues => ?_
  refine follows_list (fun _ _ _ h => nomatch h) fun approvalValues => ?_
  refine follows_list (fun _ _ _ h => nomatch h) fun runValues => ?_
  refine Program.obeys_ofExcept_bind (fun _ _ _ h => nomatch h) fun feedbackItems hfeedback => ?_
  refine Program.obeys_ofExcept_bind (fun _ _ _ h => nomatch h) fun analyses hanalyses => ?_
  refine Program.obeys_ofExcept_bind (fun _ _ _ h => nomatch h) fun approvals happrovals => ?_
  refine Program.obeys_ofExcept_bind (fun _ _ _ h => nomatch h) fun runs hruns => ?_
  rintro _ heq
  obtain rfl := Except.ok.inj heq
  exact ⟨feedbackItems, analyses, approvals, runs, ⟨feedbackValues, by simp, hfeedback⟩,
    ⟨analysisValues, by simp, hanalyses⟩, ⟨approvalValues, by simp, happrovals⟩,
    ⟨runValues, by simp, hruns⟩, rfl⟩

theorem follows_listEvaluationDataset :
    listEvaluationDataset.Obeys (request.Follows env uuids)
      (fun past out => ∀ values, out = .ok values →
        EvaluationListed past .evaluationCase asCase values) [] := by
  unfold listEvaluationDataset
  refine follows_list (fun _ _ _ h => nomatch h) fun items => ?_
  exact Program.obeys_ofExcept fun values heq => ⟨items, List.mem_singleton.mpr rfl, heq⟩

/-- Every handler keeps to what its request may do, and ends as it may end. -/
theorem EvaluationRequest.follows (env : EvaluationRuntime) (uuids : UuidSupply)
    (request : EvaluationRequest) :
    (request.code env).Obeys (request.Follows env uuids) (request.Finishes env) [] := by
  cases request with
  | registerDataset cases principal =>
    refine Program.obeys_bind.mpr ((follows_registerEvaluationDataset cases principal).mono
      (fun _ _ => id) fun past out hout => ?_)
    cases out with
    | ok values => exact hout values rfl
    | error e => trivial
  | listDataset =>
    refine Program.obeys_bind.mpr (follows_listEvaluationDataset.mono (fun _ _ => id)
      fun past out hout => ?_)
    cases out with
    | ok values => exact hout values rfl
    | error e => trivial
  | runEvaluation principal =>
    refine Program.obeys_bind.mpr ((follows_runStoredEvaluation principal).mono (fun _ _ => id)
      fun past out hout => ?_)
    cases out with
    | ok run => exact hout run rfl
    | error e => trivial
  | recordFeedback feedback principal =>
    refine Program.obeys_bind.mpr ((follows_recordFeedback feedback principal).mono (fun _ _ => id)
      fun past out hout => ?_)
    cases out with
    | ok _ => exact hout rfl
    | error e => trivial
  | metricsSummary =>
    refine Program.obeys_bind.mpr (follows_summarize.mono (fun _ _ => id) fun past out hout => ?_)
    cases out with
    | ok summary => exact hout summary rfl
    | error e => trivial
  | storeAnalysis result =>
    exact follows_put (fun _ => .analyzed) (fun _ _ => trivial) fun _ _ => trivial
  | storeApproval record =>
    exact follows_put (fun _ => .decided) (fun _ _ => trivial) fun _ _ => trivial

end Handlers
end AxSentinel
