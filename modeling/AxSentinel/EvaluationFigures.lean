import AxSentinel.EvaluationService
import AxSentinel.Journals
import AxSentinel.StoredValues
import Mathlib.Algebra.BigOperators.Ring.Finset

/-! # Evaluations, feedback, and the summary of both

Requests to the analysis and metrics services, interleaved in any way, with any operation failing
before or after it takes effect.  A stored run is an evaluation of cases that were stored, and its
figures are in range (`evaluations_sound`); a feedback is stored as it was sent and published at
most once, and then not before it was stored (`feedback_sound`); a summary is one of what was
stored, and its evaluation is a stored run (`summary_sound`).  A listing has whatever its pages had
of what was ever stored: it need not be complete, or of one moment (`Listing`). -/
namespace AxSentinel
open Effects
open Python (Json)
open DynamoRepository (WasStored wrote_of_value wasStored_of_before wasStored_of_query)
open EvaluationEntity (asCase asRun asFeedback asAnalysis asApproval)

/-- What is stored under a key. -/
abbrev evaluationEntity (key : Key) (w : evaluations.World) : Option EvaluationEntity :=
  DynamoRepository.value evaluations key w

/-- Requests under way. -/
abbrev Evaluations := System evaluations EvaluationRequest EvaluationAnswer

abbrev Evaluations.Reachable (env : EvaluationRuntime) (uuids : UuidSupply) (s : Evaluations) :
    Prop :=
  System.Reachable (EvaluationRequest.code env) (noEvaluations uuids) s

/-- The histories of the requests. -/
abbrev EvaluationHistory (env : EvaluationRuntime) (uuids : UuidSupply)
    (requests : Nat → Option EvaluationRequest) (h : List (Event evaluations))
    (w : evaluations.World) : Prop :=
  evaluations.History (fun i past op => ∃ request, requests i = some request ∧
    request.Follows env uuids past op) (noEvaluations uuids) h w

theorem Evaluations.Reachable.conforms {env : EvaluationRuntime} {uuids : UuidSupply}
    {s : Evaluations} (hs : Evaluations.Reachable env uuids s) :
    System.Conforms (EvaluationRequest.Follows env uuids) (EvaluationRequest.Finishes env)
      (noEvaluations uuids) s :=
  System.Reachable.conforms hs (EvaluationRequest.follows env uuids)

/-! ## Runs of cases -/

/-- The figures of a run are shares of its cases. -/
structure FiguresInRange (run : EvaluationRun) : Prop where
  caseCount : 1 ≤ run.caseCount
  causeCandidateAccuracy : 0 ≤ run.causeCandidateAccuracy ∧ run.causeCandidateAccuracy ≤ 1
  documentHitRate : 0 ≤ run.documentHitRate ∧ run.documentHitRate ≤ 1
  resolutionTimeReduction : run.resolutionTimeReduction ≤ 1

section Figures
variable {rt : Runtime} {caseFold : Nat → List Nat} {id : String} {createdAt : DateTime}
  {evaluated : List (EvaluationCase × CaseGeneration)} {run : StoredEvaluation}

theorem documentHitRate_mem (expected : List String) (retrieved : List RetrievedChunk) :
    0 ≤ documentHitRate expected retrieved ∧ documentHitRate expected retrieved ≤ 1 := by
  unfold documentHitRate
  split
  · exact ⟨by norm_num, le_refl 1⟩
  · exact ⟨Shares.share_nonneg, Shares.share_le_one⟩

/-- The result of a case is of the case, and in range. -/
theorem evaluateCase_mem {e : EvaluationCase × CaseGeneration} {result : EvaluationCaseResult}
    (h : evaluateCase rt caseFold e = .ok result) : result.caseId = e.1.id ∧
      (0 ≤ result.causeMatch ∧ result.causeMatch ≤ 1) ∧
      (0 ≤ result.documentHitRate ∧ result.documentHitRate ≤ 1) ∧
      result.resolutionTimeReduction ≤ 1 := by
  obtain ⟨generated, -, -, hscore, hrate⟩ := evaluateCase_ok h
  obtain ⟨causes, -, h⟩ := exists_of_bind h
  obtain ⟨score, -, h⟩ := exists_of_bind h
  obtain rfl := Except.ok.inj h
  refine ⟨rfl, ?_, hrate ▸ documentHitRate_mem _ _, ?_⟩
  · rw [hscore]
    exact ⟨Shares.share_nonneg, Shares.share_le_one⟩
  · have hactual := e.1.actual_nonneg
    show (_ - _) / _ ≤ (1 : ℚ)
    rw [div_le_one e.1.baseline_pos]
    linarith

/-- A run has a result for each case, and its figures are in range. -/
theorem figuresInRange (h : runEvaluation rt caseFold id createdAt evaluated = .ok run) :
    FiguresInRange run.toEvaluationRun ∧ run.caseCount = run.cases.length ∧
      run.cases.map EvaluationCaseResult.caseId = evaluated.map fun e => e.1.id := by
  unfold runEvaluation at h
  split at h
  · cases h
  rename_i hsome
  obtain ⟨results, hresults, h⟩ := exists_of_bind h
  obtain rfl := Except.ok.inj h
  have hmem : ∀ result ∈ results, (0 ≤ result.causeMatch ∧ result.causeMatch ≤ 1) ∧
      (0 ≤ result.documentHitRate ∧ result.documentHitRate ≤ 1) ∧
      result.resolutionTimeReduction ≤ 1 := by
    intro result hresult
    obtain ⟨e, -, he⟩ := exists_of_mapM hresults hresult
    exact (evaluateCase_mem he).2
  have hne : results ≠ [] := by
    rintro rfl
    cases forall₂_of_mapM hresults
    exact hsome rfl
  refine ⟨⟨List.length_pos_iff.mpr hne, ?_, ?_, ?_⟩, rfl, ?_⟩
  · exact ⟨Shares.le_mean hne fun result hresult => (hmem result hresult).1.1,
      Shares.mean_le hne fun result hresult => (hmem result hresult).1.2⟩
  · exact ⟨Shares.le_mean hne fun result hresult => (hmem result hresult).2.1.1,
      Shares.mean_le hne fun result hresult => (hmem result hresult).2.1.2⟩
  · exact Shares.mean_le hne fun result hresult => (hmem result hresult).2.2
  · exact map_of_mapM hresults fun e _ result hresult => (evaluateCase_mem hresult).1

end Figures

/-! ## What is stored -/

section History
variable {env : EvaluationRuntime} {uuids : UuidSupply}
  {requests : Nat → Option EvaluationRequest} {h : List (Event evaluations)} {w : evaluations.World}

/-- A write that took effect is one its request may make. -/
theorem writes_of_evaluation (H : EvaluationHistory env uuids requests h w) {n : Nat}
    {e : Event evaluations} {key : Key} {item : Item (Attributes EvaluationEntity)}
    (hn : h[n]? = some e) (hw : e.Wrote key item) :
    ∃ request earlier current, requests e.thread = some request ∧
      past e.thread (h.take n) = earlier ++ [⟨.inl (.getItem key), .ok current⟩] ∧
      request.Writes env uuids earlier key item.attributes.data :=
  DynamoRepository.writes_of_wrote (W := EvaluationRequest.Writes env uuids) H
    (fun _ _ _ h => h.1) hn hw

/-- A case that was stored is one of a dataset that was registered. -/
theorem registered_of_wasStored (H : EvaluationHistory env uuids requests h w) {id : String}
    {v : EvaluationEntity} (hv : WasStored h ⟨.evaluationCase, id⟩ v) :
    ∃ i cases principal registered, requests i = some (.registerDataset cases principal) ∧
      mayEvaluate principal = true ∧ registered ∈ cases ∧ registered.id = id ∧
      v = .registered registered := by
  obtain ⟨n, e, item, hn, hw, rfl⟩ := hv
  obtain ⟨request, earlier, current, hrequest, -, hwrites⟩ := writes_of_evaluation H hn hw
  generalize hkey : (⟨.evaluationCase, id⟩ : Key) = key, item.attributes.data = v at hwrites
  cases hwrites with
  | @registered cases principal _ registered hmem hmay =>
    exact ⟨e.thread, cases, principal, registered, hrequest, hmay, hmem,
      (congrArg Key.entityId hkey).symm, rfl⟩
  | _ => cases hkey

/-- A type whose values are written under fresh ids. -/
def IdentifiedByUuid (t : EntityType) : Prop := t = .evaluationRun ∨ t = .feedback

/-- A run or a feedback is written under a fresh id. -/
theorem fresh_of_evaluation (H : EvaluationHistory env uuids requests h w) {t : EntityType}
    (ht : IdentifiedByUuid t) {id : String} {n : Nat} {e : Event evaluations}
    {item : Item (Attributes EvaluationEntity)} (hn : h[n]? = some e) (hw : e.Wrote ⟨t, id⟩ item) :
    Fresh (evaluationDrawing uuids) (past e.thread (h.take n)) ⟨t, id⟩ id := by
  obtain ⟨request, earlier, current, -, hpast, hwrites⟩ := writes_of_evaluation H hn hw
  generalize hkey : (⟨t, id⟩ : Key) = key, item.attributes.data = v at hwrites hpast
  rw [hpast]
  have hget : ∀ item' cond, (.inl (.getItem key) : evaluationOps.Op) ≠
      .inl (.putItem key item' cond) := by rintro _ _ ⟨⟩
  cases hwrites with
  | registered => rcases ht with rfl | rfl <;> cases hkey
  | evaluated hfresh => cases hkey; exact hfresh.snoc hget
  | submitted hfresh => cases hkey; exact hfresh.snoc hget
  | analyzed => rcases ht with rfl | rfl <;> cases hkey
  | decided => rcases ht with rfl | rfl <;> cases hkey

theorem item_kept (H : EvaluationHistory env uuids requests h w) {t : EntityType}
    (ht : IdentifiedByUuid t) {id : String} {n : Nat} {e : Event evaluations}
    {item : Item (Attributes EvaluationEntity)} (hn : h[n]? = some e) (hw : e.Wrote ⟨t, id⟩ item) :
    stored evaluations ⟨t, id⟩ w = some item :=
  (evaluationDrawing uuids).stored_of_fresh H rfl (fun _ _ _ => fresh_of_evaluation H ht) hn hw

/-- A run or a feedback that was stored is stored still. -/
theorem entity_kept (H : EvaluationHistory env uuids requests h w) {t : EntityType}
    (ht : IdentifiedByUuid t) {id : String} {v : EvaluationEntity} (hv : WasStored h ⟨t, id⟩ v) :
    evaluationEntity ⟨t, id⟩ w = some v :=
  hv.kept fun _ _ _ => item_kept H ht

/-- What a thread knows it has written is stored. -/
theorem stored_of_put (H : EvaluationHistory env uuids requests h w) {t : EntityType}
    (ht : IdentifiedByUuid t) {id : String} {i : Nat} {v : EvaluationEntity}
    (hput : EvaluationPut (past i h) ⟨t, id⟩ v) : evaluationEntity ⟨t, id⟩ w = some v := by
  obtain ⟨item, cond, rfl, hm⟩ := hput
  obtain ⟨n, e, hn, -, hw⟩ := H.wrote_of_replied hm
  exact entity_kept H ht ⟨n, e, item, hn, hw, rfl⟩

/-- What was listed is what `f` reads of values that were stored. -/
theorem wasStored_of_listed (H : EvaluationHistory env uuids requests h w) {α : Type} {i : Nat}
    {t : EntityType} {f : EvaluationEntity → Except Exc α} {values : List α}
    (hlisted : EvaluationListed (past i h) t f values) {a : α} (ha : a ∈ values) :
    ∃ id v, WasStored h ⟨t, id⟩ v ∧ f v = .ok a := by
  obtain ⟨items, hquery, hvalues⟩ := hlisted
  obtain ⟨v, hv, hread⟩ := exists_of_mapM hvalues ha
  obtain ⟨id, hstored⟩ := wasStored_of_query H rfl hquery hv
  exact ⟨id, v, hstored, hread⟩

/-- The run is an evaluation of cases that were stored, with one result for each. -/
structure Evaluates (env : EvaluationRuntime) (h : List (Event evaluations)) (i : Nat)
    (run : StoredEvaluation) : Prop where
  inRange : FiguresInRange run.toEvaluationRun
  caseCount : run.caseCount = run.cases.length
  evaluated : ∃ (cases : List RegisteredCase) (evaluated : List (EvaluationCase × CaseGeneration))
    (createdAt : DateTime),
    (∀ registered ∈ cases, WasStored h ⟨.evaluationCase, registered.id⟩ (.registered registered)) ∧
    run.cases.map EvaluationCaseResult.caseId = cases.map (fun registered => registered.id) ∧
    List.Forall₂ (GeneratedFor (past i h)) cases evaluated ∧
    runEvaluation env.rt env.caseFold run.id createdAt evaluated = .ok run

theorem evaluates_of_evaluatedFrom (H : EvaluationHistory env uuids requests h w) {i : Nat}
    {run : StoredEvaluation} (hrun : EvaluatedFrom env (past i h) run) : Evaluates env h i run := by
  obtain ⟨cases, evaluated, createdAt, hlisted, hgenerated, hrun⟩ := hrun
  obtain ⟨hinRange, hcount, hids⟩ := figuresInRange hrun
  have hevaluated : evaluated.map (fun e => e.1.id) = cases.map fun case => case.id := by
    rw [← List.forall₂_eq_eq_eq, List.forall₂_map_left_iff, List.forall₂_map_right_iff]
    exact hgenerated.flip.imp fun e registered he => congrArg EvaluationCase.id he.1
  refine ⟨hinRange, hcount, cases, evaluated, createdAt, fun registered hregistered => ?_,
    hids.trans hevaluated, hgenerated, hrun⟩
  obtain ⟨id, v, hv, hread⟩ := wasStored_of_listed H hlisted hregistered
  obtain ⟨-, -, -, registered', -, -, -, rfl, rfl⟩ := registered_of_wasStored H hv
  obtain rfl := Except.ok.inj hread
  exact hv

/-- A stored run is one of a request that was permitted. -/
theorem evaluated_of_stored (H : EvaluationHistory env uuids requests h w) {id : String}
    {v : EvaluationEntity} (hv : evaluationEntity ⟨.evaluationRun, id⟩ w = some v) :
    ∃ i principal run, requests i = some (.runEvaluation principal) ∧
      mayEvaluate principal = true ∧ run.id = id ∧ v = .evaluated run ∧ Evaluates env h i run := by
  obtain ⟨n, e, item, hn, hw, rfl⟩ := wrote_of_value H rfl hv
  obtain ⟨request, earlier, current, hrequest, hpast, hwrites⟩ := writes_of_evaluation H hn hw
  have hsub : earlier ⊆ past e.thread h := fun m hm =>
    mem_past_of_take (n := n) (hpast ▸ List.mem_append_left _ hm)
  generalize hkey : (⟨.evaluationRun, id⟩ : Key) = key, item.attributes.data = v at hwrites
  cases hwrites with
  | @evaluated principal _ run hfresh hrun hmay =>
    exact ⟨e.thread, principal, run, hrequest, hmay, (congrArg Key.entityId hkey).symm, rfl,
      evaluates_of_evaluatedFrom H (hrun.mono hsub)⟩
  | _ => cases hkey

/-- A stored feedback is as it was sent. -/
theorem submitted_of_stored (H : EvaluationHistory env uuids requests h w) {id : String}
    {v : EvaluationEntity} (hv : evaluationEntity ⟨.feedback, id⟩ w = some v) :
    ∃ i feedback principal, requests i = some (.recordFeedback feedback principal) ∧
      maySubmit principal = true ∧ v = .feedback feedback := by
  obtain ⟨n, e, item, hn, hw, rfl⟩ := wrote_of_value H rfl hv
  obtain ⟨request, earlier, current, hrequest, hpast, hwrites⟩ := writes_of_evaluation H hn hw
  generalize hkey : (⟨.feedback, id⟩ : Key) = key, item.attributes.data = v at hwrites
  cases hwrites with
  | @submitted feedback principal _ id hfresh hmay =>
    exact ⟨e.thread, feedback, principal, hrequest, hmay, rfl⟩
  | _ => cases hkey

/-! ## What is published -/

/-- The events that were published, in order. -/
def feedbackJournal : Journal reliableEvaluations FeedbackEvent where
  entries w := w.2.published
  appends op event := op = .inr (.publish event)
  step op c w := by
    match op with
    | .inl _ => exact .inl rfl
    | .inr .uuid4 => exact .inl rfl
    | .inr .utcNow => exact .inl rfl
    | .inr (.generate _) => exact .inl rfl
    | .inr (.publish event) => exact .inr ⟨event, rfl, rfl⟩

/-- An event at a position was published by its request, after the feedback was stored. -/
theorem publication_of (H : EvaluationHistory env uuids requests h w) {n : Nat}
    {event : FeedbackEvent} (hn : w.2.published[n]? = some event) :
    ∃ (k : Nat) (e : Event evaluations) (request : EvaluationRequest), h[k]? = some e ∧
      e.before.2.published.length = n ∧ e.move.op = .inr (.publish event) ∧
      requests e.thread = some request ∧ request.Emits (past e.thread (h.take k)) e.move.op := by
  obtain ⟨k, e, hk, hop, hlength⟩ := (feedbackJournal.faulty evaluationRaises).origin H rfl hn
  obtain ⟨-, ⟨request, hrequest, -, hemits⟩, -⟩ := H.at_position hk
  exact ⟨k, e, request, hk, hlength, hop, hrequest, hemits⟩

/-- The thread that put a feedback under an id drew the id. -/
theorem drawn_of_put (H : EvaluationHistory env uuids requests h w) {i : Nat} {id : String}
    {v : EvaluationEntity} (hput : EvaluationPut (past i h) ⟨.feedback, id⟩ v) :
    ∃ m ∈ past i h, (evaluationDrawing uuids).drawn m = some id := by
  obtain ⟨item, cond, -, hm⟩ := hput
  obtain ⟨n, e, hn, rfl, hw⟩ := H.wrote_of_replied hm
  obtain ⟨m, hm, hdrawn⟩ := (fresh_of_evaluation H (.inr rfl) hn hw).drawn
  exact ⟨m, mem_past_of_take hm, hdrawn⟩

/-- No feedback is published twice. -/
theorem publication_unique (H : EvaluationHistory env uuids requests h w) {m n : Nat}
    {event event' : FeedbackEvent} (hm : w.2.published[m]? = some event)
    (hn : w.2.published[n]? = some event') (hid : event.id = event'.id) : m = n := by
  obtain ⟨k, d, request, hk, hlength, hop, -, hemits⟩ := publication_of H hm
  obtain ⟨k', e, request', hk', hlength', hop', -, hemits'⟩ := publication_of H hn
  rw [hop] at hemits
  rw [hop'] at hemits'
  obtain ⟨-, -, -, -, -, hput, hnone⟩ := hemits
  obtain ⟨-, -, -, -, -, hput', hnone'⟩ := hemits'
  -- both threads drew the id, so they are one, and it publishes once
  have hthread : d.thread = e.thread := by
    obtain ⟨x, hx, hdrawn⟩ := drawn_of_put H (hput.mono fun _ => mem_past_of_take)
    obtain ⟨y, hy, hdrawn'⟩ := drawn_of_put H (hput'.mono fun _ => mem_past_of_take)
    exact (evaluationDrawing uuids).thread_unique H rfl hx (hid ▸ hdrawn) hy hdrawn'
  rcases Nat.lt_trichotomy k k' with hlt | rfl | hgt
  · exact absurd hop (hnone' _ (mem_past_of_lt hk hthread hlt) event)
  · obtain rfl := Option.some.inj (hk.symm.trans hk')
    exact hlength.symm.trans hlength'
  · exact absurd hop' (hnone _ (mem_past_of_lt hk' hthread.symm hgt) event')

end History

/-- Every stored case is one of a dataset that a permitted request registered; every stored run is
an evaluation, for a permitted request, of such cases, and stays as it is; and a run that was
returned is stored. -/
structure EvaluationsSound (env : EvaluationRuntime) (s : Evaluations) : Prop where
  registered : ∀ id v, evaluationEntity ⟨.evaluationCase, id⟩ s.world = some v →
    ∃ i cases principal registered, s.request i = some (.registerDataset cases principal) ∧
      mayEvaluate principal = true ∧ registered ∈ cases ∧ registered.id = id ∧
      v = .registered registered
  evaluated : ∀ id v, evaluationEntity ⟨.evaluationRun, id⟩ s.world = some v →
    ∃ i principal run, s.request i = some (.runEvaluation principal) ∧
      mayEvaluate principal = true ∧ run.id = id ∧ v = .evaluated run ∧
      Evaluates env s.history i run
  kept : ∀ (n : Nat) (e : Event evaluations) id v, s.history[n]? = some e →
    evaluationEntity ⟨.evaluationRun, id⟩ e.before = some v →
      evaluationEntity ⟨.evaluationRun, id⟩ s.world = some v
  returned : ∀ i run, s.outcome i = some (.ok (.run run)) →
    evaluationEntity ⟨.evaluationRun, run.id⟩ s.world = some (.evaluated run)

/-- **Stored evaluations.** -/
theorem evaluations_sound {env : EvaluationRuntime} {uuids : UuidSupply} {s : Evaluations}
    (hs : Evaluations.Reachable env uuids s) : EvaluationsSound env s where
  registered _ _ hv :=
    registered_of_wasStored hs.conforms.history (wrote_of_value hs.conforms.history rfl hv)
  evaluated _ _ hv := evaluated_of_stored hs.conforms.history hv
  kept _ _ _ _ hn hv :=
    entity_kept hs.conforms.history (.inl rfl) (wasStored_of_before hs.conforms.history rfl hn hv)
  returned i run hout := by
    obtain ⟨request, hrequest⟩ := System.request_of_outcome hout
    have hfinishes := hs.conforms.outcome hrequest hout
    cases request with
    | runEvaluation principal => exact stored_of_put hs.conforms.history (.inl rfl) hfinishes
    | _ => cases hfinishes

namespace Sample

/-- The case with the empty answer, as it is registered. -/
def registeredCase : RegisteredCase where
  toEvaluationCase := unnamed.1
  name := "Bearing"
  equipmentId := "press-01"
  sensorSummary := "vibration"
  logSummary := ""

def feedback : SubmittedFeedback where
  causeAccuracy := ⟨4, by decide⟩
  actionUsefulness := ⟨2, by decide⟩
  incidentId := "incident-1"
  analysisId := "analysis-1"
  actualCause := "wear"
  comment := none

def evaluationEnv : EvaluationRuntime where
  rt := default
  caseFold := fun n => [n]
  repr := fun _ => ""
  settings := ⟨none, none⟩

/-- The actions by which a request runs alone; its listings have all that was written, and what the
engine is asked it answers with the empty cause. -/
def servedEvaluation (i : Nat) (request : EvaluationRequest) (steps : Nat) :
    List (Action evaluations EvaluationRequest) :=
  .arrive request :: List.replicate steps
    (.advance i (((0, List.range 3), (whole, unnamed.2)), .none))

/-- A case is registered and evaluated, feedback is given, and the summary is asked for. -/
def assessed : Evaluations :=
  System.run (EvaluationRequest.code evaluationEnv)
    (servedEvaluation 0 (.registerDataset [registeredCase] localPrincipal) 3 ++
      servedEvaluation 1 (.runEvaluation localPrincipal) 7 ++
      servedEvaluation 2 (.recordFeedback feedback localPrincipal) 5 ++
      servedEvaluation 3 .metricsSummary 4)
    (System.start (noEvaluations .unary))

theorem reachable_assessed : Evaluations.Reachable evaluationEnv .unary assessed := ⟨_, rfl⟩

end Sample

/-- The evaluation of the run returned. -/
theorem evaluations_sound_assessed :
    (∃ run, Sample.assessed.outcome 1 = some (.ok (.run run))) ∧
      EvaluationsSound Sample.evaluationEnv Sample.assessed :=
  ⟨⟨_, rfl⟩, evaluations_sound Sample.reachable_assessed⟩

/-- Feedback is stored as permitted requests sent it, and stays; every event that was published is
of a feedback that is stored, no feedback is published twice, and one that was accepted was. -/
structure FeedbackSound (s : Evaluations) : Prop where
  submitted : ∀ id v, evaluationEntity ⟨.feedback, id⟩ s.world = some v →
    ∃ i feedback principal, s.request i = some (.recordFeedback feedback principal) ∧
      maySubmit principal = true ∧ v = .feedback feedback
  kept : ∀ (n : Nat) (e : Event evaluations) id v, s.history[n]? = some e →
    evaluationEntity ⟨.feedback, id⟩ e.before = some v →
      evaluationEntity ⟨.feedback, id⟩ s.world = some v
  published : ∀ event ∈ s.world.2.published,
    evaluationEntity ⟨.feedback, event.id⟩ s.world = some (.feedback event.feedback) ∧
    event.eventType = "feedback.submitted" ∧ event.key = event.feedback.analysisId ∧
    ∃ i principal, s.request i = some (.recordFeedback event.feedback principal) ∧
      event.actorId = principal.subject
  once : (s.world.2.published.map FeedbackEvent.id).Nodup
  accepted : ∀ i feedback principal, s.request i = some (.recordFeedback feedback principal) →
    s.outcome i = some (.ok .accepted) → ∃ event ∈ s.world.2.published, event.feedback = feedback

/-- **Feedback.** -/
theorem feedback_sound {env : EvaluationRuntime} {uuids : UuidSupply} {s : Evaluations}
    (hs : Evaluations.Reachable env uuids s) : FeedbackSound s where
  submitted _ _ hv := submitted_of_stored hs.conforms.history hv
  kept _ _ _ _ hn hv :=
    entity_kept hs.conforms.history (.inr rfl) (wasStored_of_before hs.conforms.history rfl hn hv)
  published event hevent := by
    obtain ⟨n, hn⟩ := List.mem_iff_getElem?.mp hevent
    obtain ⟨k, e, request, hk, -, hop, hrequest, hemits⟩ := publication_of hs.conforms.history hn
    rw [hop] at hemits
    obtain ⟨principal, rfl, htype, hkey, hactor, hput, -⟩ := hemits
    refine ⟨?_, htype, hkey, e.thread, principal, hrequest, hactor⟩
    exact stored_of_put hs.conforms.history (.inr rfl) (hput.mono fun _ => mem_past_of_take)
  once := by
    rw [List.Nodup, List.pairwise_map, List.pairwise_iff_getElem]
    intro m n hm hn hmn hid
    have heq := publication_unique hs.conforms.history (List.getElem?_eq_getElem hm)
      (List.getElem?_eq_getElem hn) hid
    omega
  accepted i feedback principal hrequest hout := by
    obtain ⟨event, rfl, hpublished⟩ := hs.conforms.outcome hrequest hout
    obtain ⟨event', hmem, rfl⟩ := (feedbackJournal.faulty evaluationRaises).mem_of_replied
      hs.conforms.history hpublished (P := fun event' => event' = event)
      fun c w _ => ⟨event, List.mem_concat_self, rfl⟩
    exact ⟨event', hmem, rfl⟩

/-- The feedback of the run was accepted. -/
theorem feedback_sound_assessed :
    Sample.assessed.outcome 2 = some (.ok .accepted) ∧ FeedbackSound Sample.assessed :=
  ⟨rfl, feedback_sound Sample.reachable_assessed⟩

/-! ## The summary -/

/-- The values are what `f` reads of values of a type that were stored. -/
def ListedBy {α : Type} (s : Evaluations) (t : EntityType) (f : EvaluationEntity → Except Exc α)
    (values : List α) : Prop :=
  ∀ a ∈ values, ∃ id v, WasStored s.history ⟨t, id⟩ v ∧ f v = .ok a

/-- The summary has no figures of a run. -/
structure HasNoFigures (summary : MetricsSummary) : Prop where
  causeCandidateAccuracy : summary.causeCandidateAccuracy = .float (.finite 0)
  documentHitRate : summary.documentHitRate = .float (.finite 0)
  resolutionTimeReduction : summary.resolutionTimeReduction = .float (.finite 0)
  evaluationCaseCount : summary.evaluationCaseCount = .int 0

/-- The summary has no figures, or those of a run of the list with no earlier text of its time than
the others. -/
def ReportsGreatest (summary : MetricsSummary) (runs : List EvaluationRun) : Prop :=
  (runs = [] ∧ HasNoFigures summary) ∨ ∃ run ∈ runs, HasFiguresOf summary run ∧
    ∀ other ∈ runs, other.createdAt.isoformat ≤ run.createdAt.isoformat

/-- The average is one of scores. -/
def IsScore (average : ℚ) : Prop := average = 0 ∨ 1 ≤ average ∧ average ≤ 5

/-- A summary that was given: it is one of what was stored, its rates and averages are in range, and
its evaluation is a stored run. -/
structure SummarySound (env : EvaluationRuntime) (s : Evaluations) (summary : MetricsSummary) :
    Prop where
  listings : ∃ feedbackItems analyses approvals runs,
    ListedBy s .feedback asFeedback feedbackItems ∧
    ListedBy s .analysis asAnalysis analyses ∧ ListedBy s .approval asApproval approvals ∧
    ListedBy s .evaluationRun asRun runs ∧
    summary = metricsSummary env.repr env.settings
      (feedbackItems.map SubmittedFeedback.toAnalysisFeedback) analyses approvals
      (runs.map StoredEvaluation.toEvaluationRun) ∧
    ReportsGreatest summary (runs.map StoredEvaluation.toEvaluationRun)
  expertReviewRate : 0 ≤ summary.expertReviewRate ∧ summary.expertReviewRate ≤ 1
  approvalRate : 0 ≤ summary.approvalRate ∧ summary.approvalRate ≤ 1
  averages : IsScore summary.causeAccuracyAverage ∧ IsScore summary.actionUsefulnessAverage
  evaluation : HasNoFigures summary ∨ ∃ run : StoredEvaluation,
    HasFiguresOf summary run.toEvaluationRun ∧ FiguresInRange run.toEvaluationRun ∧
    evaluationEntity ⟨.evaluationRun, run.id⟩ s.world = some (.evaluated run)

section Averages
variable {α : Type} {xs : List α}

theorem average_countP (p : α → Bool) : average (xs.countP p) xs.length = Shares.share p xs := by
  unfold average Shares.share
  split
  · rename_i hzero
    rw [hzero]
    simp
  · rfl

theorem average_sum (g : α → Nat) :
    average (xs.map g).sum xs.length = Shares.mean (fun x => (g x : ℚ)) xs := by
  have hsum : (((xs.map g).sum : Nat) : ℚ) = (xs.map fun x => (g x : ℚ)).sum := by
    rw [Nat.cast_list_sum, List.map_map]
    rfl
  unfold average Shares.mean
  rw [hsum]
  split
  · rename_i hzero
    rw [hzero]
    simp
  · rfl

/-- The average of scores is one. -/
theorem isScore_average (xs : List α) (score : α → {n : Nat // 1 ≤ n ∧ n ≤ 5}) :
    IsScore (average (xs.map fun x => (score x).1).sum xs.length) := by
  by_cases hne : xs = []
  · subst hne
    exact .inl rfl
  · rw [average_sum]
    exact .inr ⟨Shares.le_mean hne fun x _ => by exact_mod_cast (score x).2.1,
      Shares.mean_le hne fun x _ => by exact_mod_cast (score x).2.2⟩

end Averages

section Chosen
variable {repr : Json → String} {settings : MetricsSettings} {feedbackItems : List AnalysisFeedback}
  {analyses : List AnalysisResult} {approvals : List ApprovalRecord} {runs : List EvaluationRun}

theorem hasNoFigures :
    HasNoFigures (metricsSummary repr settings feedbackItems analyses approvals []) := by
  have hruns : evaluationRuns settings [] = [] := by
    unfold evaluationRuns
    split
    · exact List.map_eq_nil_iff.mpr (Ranking.perm_sortDesc _ _).eq_nil
    · rfl
  have hlatest : latestEvaluation repr (evaluationRuns settings []) = .dict [] := by
    rw [hruns]
    rfl
  constructor <;>
    · unfold metricsSummary
      rw [hlatest]
      rfl

/-- The summary has the figures of a run with the greatest text of its time. -/
theorem reports_metricsSummary :
    ReportsGreatest (metricsSummary repr settings feedbackItems analyses approvals runs) runs := by
  by_cases hne : runs = []
  · subst hne
    exact .inl ⟨rfl, hasNoFigures⟩
  · obtain ⟨run, hrun, hchosen, hgreatest⟩ := @exists_latestEvaluation repr settings runs hne
    exact .inr ⟨run, hrun, (ReportsRun.of_chosen hchosen).toHasFiguresOf, hgreatest⟩

end Chosen

section Summary
variable {env : EvaluationRuntime} {uuids : UuidSupply} {s : Evaluations} {i : Nat}

/-- A run that is listed is stored, and in range. -/
theorem ListedBy.run_stored (hs : Evaluations.Reachable env uuids s) {runs : List StoredEvaluation}
    (h : ListedBy s .evaluationRun asRun runs) {run : StoredEvaluation} (hrun : run ∈ runs) :
    FiguresInRange run.toEvaluationRun ∧
      evaluationEntity ⟨.evaluationRun, run.id⟩ s.world = some (.evaluated run) := by
  obtain ⟨id, v, hv, hread⟩ := h run hrun
  have hkept := entity_kept hs.conforms.history (.inl rfl) hv
  obtain ⟨j, principal, run', -, -, rfl, rfl, hevaluates⟩ :=
    evaluated_of_stored hs.conforms.history hkept
  obtain rfl := Except.ok.inj hread
  exact ⟨hevaluates.inRange, hkept⟩

/-- **The summary.** -/
theorem summary_sound (hs : Evaluations.Reachable env uuids s)
    (hrequest : s.request i = some .metricsSummary) {summary : MetricsSummary}
    (hout : s.outcome i = some (.ok (.summary summary))) : SummarySound env s summary := by
  obtain ⟨feedbackItems, analyses, approvals, runs, hfeedback, hanalyses, happrovals, hruns, rfl⟩ :=
    hs.conforms.outcome hrequest hout
  have listed : ∀ {α : Type} {t : EntityType} {f : EvaluationEntity → Except Exc α}
      {values : List α}, EvaluationListed (past i s.history) t f values → ListedBy s t f values :=
    fun hlisted _ => wasStored_of_listed hs.conforms.history hlisted
  have hreports := @reports_metricsSummary env.repr env.settings
    (feedbackItems.map SubmittedFeedback.toAnalysisFeedback) analyses approvals
    (runs.map StoredEvaluation.toEvaluationRun)
  refine ⟨⟨feedbackItems, analyses, approvals, runs, listed hfeedback, listed hanalyses,
    listed happrovals, listed hruns, rfl, hreports⟩, ?_, ?_,
    ⟨isScore_average _ AnalysisFeedback.causeAccuracy,
      isScore_average _ AnalysisFeedback.actionUsefulness⟩, ?_⟩
  · show 0 ≤ average _ _ ∧ average _ _ ≤ 1
    rw [average_countP]
    exact ⟨Shares.share_nonneg, Shares.share_le_one⟩
  · show 0 ≤ average _ _ ∧ average _ _ ≤ 1
    rw [average_countP]
    exact ⟨Shares.share_nonneg, Shares.share_le_one⟩
  · rcases hreports with ⟨-, hnone⟩ | ⟨_, hlatest, hfigures, -⟩
    · exact .inl hnone
    · obtain ⟨run, hrun, rfl⟩ := List.mem_map.mp hlatest
      obtain ⟨hinRange, hstored⟩ := (listed hruns).run_stored hs hrun
      exact .inr ⟨run, hfigures, hinRange, hstored⟩

end Summary

/-- The summary of the run. -/
theorem summary_sound_assessed : ∃ summary,
    Sample.assessed.outcome 3 = some (.ok (.summary summary)) ∧
      SummarySound Sample.evaluationEnv Sample.assessed summary :=
  ⟨_, rfl, summary_sound Sample.reachable_assessed (i := 3) rfl rfl⟩

end AxSentinel
