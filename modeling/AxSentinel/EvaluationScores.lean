import AxSentinel.Engine
import AxSentinel.Evaluations
import AxSentinel.Evidence
import AxSentinel.Shares

/-! # What an evaluation scores

`run_evaluation` of `services/ai_analysis/app/main.py` compares the causes the engine gives with the
expected ones, and the chunks that were retrieved with the expected documents.  `_cause_match` takes
a cause for found if one of the two texts contains the other, and an empty text is part of every
text: a blank cause may be counted as a match (`blankCausesNeverScore_iff`). -/
namespace AxSentinel
open Effects
open Python (Json Str isIn)

/-! ## Cases and runs -/

/-- `EvaluationCase`, the fields `run_evaluation` reads. -/
structure EvaluationCase where
  id : String
  expectedCauses : List String
  expectedDocumentIds : List String
  baselineResolutionMinutes : ℚ
  actualResolutionMinutes : ℚ
  expectedCauses_ne : expectedCauses ≠ []
  baseline_pos : 0 < baselineResolutionMinutes
  actual_nonneg : 0 ≤ actualResolutionMinutes

/-- What `_generate` returns for a case: the engine's answer without its audit, the chunks, and the
audit. -/
structure CaseGeneration where
  generated : Json
  chunks : List RetrievedChunk
  audit : AnalysisAudit

structure EvaluationCaseResult where
  caseId : String
  causeMatch : ℚ
  documentHitRate : ℚ
  resolutionTimeReduction : ℚ

/-- The `EvaluationRun` as it is stored, with the fields the summary does not read. -/
structure StoredEvaluation extends EvaluationRun where
  aiProvider : Str
  modelId : Option Str
  promptVersion : Str
  cases : List EvaluationCaseResult

/-! ## The scores -/

section Scores
variable (rt : Runtime) (caseFold : Nat → List Nat)

/-- `str.casefold`. -/
def casefold (s : Str) : List Nat := s.codePoints.flatMap caseFold

/-- `str(item["cause"])`. -/
def causeText (item : Json) : Except Exc Str := rt.str <$> subscript item "cause"

/-- `normalized in candidate or candidate in normalized`. -/
def eitherContains (normalized candidate : List Nat) : Bool :=
  decide (normalized <:+: candidate) || decide (candidate <:+: normalized)

/-- `_cause_match`. -/
def causeMatch (expected : List String) (generated : List Json) : Except Exc ℚ := do
  let candidates ← generated.mapM fun item => casefold caseFold <$> causeText rt item
  if expected = [] then throw (.other "ZeroDivisionError" "division by zero")
  else pure (Shares.share
    (fun cause => candidates.any (eitherContains (casefold caseFold (.text cause)))) expected)

/-- `_document_hit_rate`. -/
def documentHitRate (expected : List String) (retrieved : List RetrievedChunk) : ℚ :=
  if expected = [] then 1
  else Shares.share (fun reference => retrieved.any fun chunk =>
    reference = chunk.documentId || isIn reference chunk.location) expected

/-- `generated["causes"]`, as `_cause_match` goes through it. -/
def CaseGeneration.causes (generation : CaseGeneration) : Except Exc (List Json) := do
  iterate (← subscript generation.generated "causes")

/-- The causes of a case; where they cannot be read there are none. -/
def causesOf (e : EvaluationCase × CaseGeneration) : List Json := e.2.causes.toOption.getD []

/-- The result of a case. -/
def evaluateCase (evaluated : EvaluationCase × CaseGeneration) :
    Except Exc EvaluationCaseResult := do
  let causes ← evaluated.2.causes
  let score ← causeMatch rt caseFold evaluated.1.expectedCauses causes
  pure {
    caseId := evaluated.1.id
    causeMatch := score
    documentHitRate := documentHitRate evaluated.1.expectedDocumentIds evaluated.2.chunks
    resolutionTimeReduction := (evaluated.1.baselineResolutionMinutes -
      evaluated.1.actualResolutionMinutes) / evaluated.1.baselineResolutionMinutes }

/-- `run_evaluation` of the cases of the table, each with what `_generate` returns for it; the audit
is that of the last. -/
def runEvaluation (id : String) (createdAt : DateTime)
    (evaluated : List (EvaluationCase × CaseGeneration)) : Except Exc StoredEvaluation := do
  if evaluated.isEmpty then throw (.http 409 "Evaluation dataset is empty")
  else
    let results ← evaluated.mapM (evaluateCase rt caseFold)
    let runAudit := evaluated.getLast?.map fun last => last.2.audit
    pure {
      id := id
      createdAt := createdAt
      aiProvider := (runAudit.map AnalysisAudit.aiProvider).getD (.text "unknown")
      modelId := runAudit.bind AnalysisAudit.modelId
      promptVersion := (runAudit.map AnalysisAudit.promptVersion).getD (.text "unknown")
      caseCount := results.length
      causeCandidateAccuracy := Shares.mean EvaluationCaseResult.causeMatch results
      documentHitRate := Shares.mean EvaluationCaseResult.documentHitRate results
      resolutionTimeReduction := Shares.mean EvaluationCaseResult.resolutionTimeReduction results
      cases := results }

/-! ## Blank causes -/

/-- `not text.strip()`. -/
def isBlank (s : Str) : Bool := s.codePoints.all fun n => Python.isSpace (Char.ofNat n)

/-- The item has a cause, and it is blank. -/
def blankCause (item : Json) : Bool :=
  match causeText rt item with
  | .ok text => isBlank text
  | .error _ => false

/-- The item has a cause that is counted as the expected one. -/
def matchesCause (cause : String) (item : Json) : Bool :=
  match causeText rt item with
  | .ok text => eitherContains (casefold caseFold (.text cause)) (casefold caseFold text)
  | .error _ => false

/-- The causes without the blank ones. -/
def withoutBlank (generated : List Json) : List Json :=
  generated.filter fun item => !blankCause rt item

/-- The share of the expected causes that a cause counts for that is not blank. -/
def realCauseShare (expected : List String) (generated : List Json) : ℚ :=
  Shares.share (fun cause => (withoutBlank rt generated).any (matchesCause rt caseFold cause))
    expected

/-- Blank causes never score: leaving them out of the causes of a case makes no difference, a case
with no other causes scores zero, and the accuracy of a run is the mean of the real matches. -/
structure BlankCausesNeverScore (evaluated : List (EvaluationCase × CaseGeneration)) : Prop where
  unchanged : ∀ e ∈ evaluated, ∀ generated, e.2.causes = .ok generated →
    causeMatch rt caseFold e.1.expectedCauses generated =
      causeMatch rt caseFold e.1.expectedCauses (withoutBlank rt generated)
  nothing : ∀ e ∈ evaluated, ∀ generated, e.2.causes = .ok generated →
    (∀ item ∈ generated, blankCause rt item = true) →
      causeMatch rt caseFold e.1.expectedCauses generated = .ok 0
  accuracy : ∀ id createdAt run, runEvaluation rt caseFold id createdAt evaluated = .ok run →
    run.causeCandidateAccuracy = Shares.mean (fun e =>
      realCauseShare rt caseFold e.1.expectedCauses (causesOf e)) evaluated

/-- Where each of the causes has a text, an expected cause that a blank one counts for is also one
that another counts for. -/
def MatchedOtherwise (expected : List String) (generated : List Json) : Prop :=
  (∀ item ∈ generated, ∃ text, causeText rt item = .ok text) → ∀ cause ∈ expected,
    (∃ item ∈ generated, blankCause rt item = true ∧ matchesCause rt caseFold cause item = true) →
      ∃ item ∈ generated, blankCause rt item = false ∧ matchesCause rt caseFold cause item = true

end Scores

/-! ## What the scores count -/

section Counting
variable {rt : Runtime} {caseFold : Nat → List Nat} {expected : List String}
  {generated : List Json}

/-- The share of the expected causes that any cause counts for. -/
def countedCauseShare (rt : Runtime) (caseFold : Nat → List Nat) (expected : List String)
    (generated : List Json) : ℚ :=
  Shares.share (fun cause => generated.any (matchesCause rt caseFold cause)) expected

theorem matchesCause_of_text {item : Json} {text : Str} (h : causeText rt item = .ok text)
    (cause : String) : matchesCause rt caseFold cause item =
      eitherContains (casefold caseFold (.text cause)) (casefold caseFold text) := by
  unfold matchesCause
  rw [h]

theorem candidate_eq_ok {item : Json} {candidate : List Nat}
    (h : casefold caseFold <$> causeText rt item = .ok candidate) :
    ∃ text, causeText rt item = .ok text ∧ casefold caseFold text = candidate := by
  cases htext : causeText rt item with
  | error e =>
    rw [htext] at h
    cases h
  | ok text =>
    rw [htext] at h
    exact ⟨text, rfl, Except.ok.inj h⟩

/-- The score is the share of the expected causes that a cause counts for. -/
theorem causeMatch_eq (hne : expected ≠ [])
    (htexts : ∀ item ∈ generated, ∃ text, causeText rt item = .ok text) :
    causeMatch rt caseFold expected generated =
      .ok (countedCauseShare rt caseFold expected generated) := by
  have hall : ∀ item ∈ generated, ∃ candidate,
      casefold caseFold <$> causeText rt item = .ok candidate := by
    intro item hitem
    obtain ⟨text, htext⟩ := htexts item hitem
    exact ⟨casefold caseFold text, by rw [htext]; rfl⟩
  obtain ⟨candidates, hcandidates⟩ := exists_mapM_iff.mpr hall
  have hany : ∀ cause : String, candidates.any (eitherContains (casefold caseFold (.text cause))) =
      generated.any (matchesCause rt caseFold cause) := by
    intro cause
    have hmap : candidates.map (eitherContains (casefold caseFold (.text cause))) =
        generated.map (matchesCause rt caseFold cause) := by
      refine map_of_mapM hcandidates fun item _ candidate hcandidate => ?_
      obtain ⟨text, htext, rfl⟩ := candidate_eq_ok hcandidate
      exact (matchesCause_of_text htext cause).symm
    simpa [List.any_map] using congrArg (List.any · id) hmap
  unfold causeMatch countedCauseShare
  rw [hcandidates]
  refine (if_neg hne).trans ?_
  simp only [hany]
  rfl

/-- An empty cause counts for every expected one. -/
theorem causeMatch_of_empty (hne : expected ≠ [])
    (htexts : ∀ item ∈ generated, ∃ text, causeText rt item = .ok text) {item : Json}
    (hitem : item ∈ generated) (hempty : causeText rt item = .ok (.text "")) :
    causeMatch rt caseFold expected generated = .ok 1 := by
  rw [causeMatch_eq hne htexts]
  refine congrArg Except.ok (Shares.share_eq_one hne fun cause _ => ?_)
  refine List.any_eq_true.mpr ⟨item, hitem, ?_⟩
  have hinfix : casefold caseFold (.text "") <:+: casefold caseFold (.text cause) :=
    List.nil_infix
  rw [matchesCause_of_text hempty, eitherContains, decide_eq_true hinfix, Bool.or_true]

/-- Where a cause has no text, the comparison raises for it, blank causes or not. -/
theorem causeMatch_withoutBlank_of_error
    (htexts : ¬ ∀ item ∈ generated, ∃ text, causeText rt item = .ok text) :
    causeMatch rt caseFold expected generated =
      causeMatch rt caseFold expected (withoutBlank rt generated) := by
  have hraises : ∃ e, generated.mapM (fun item => casefold caseFold <$> causeText rt item) =
      .error e := by
    cases hmap : generated.mapM (fun item => casefold caseFold <$> causeText rt item) with
    | error e => exact ⟨e, rfl⟩
    | ok candidates =>
      refine absurd (fun item hitem => ?_) htexts
      obtain ⟨candidate, hcandidate⟩ := exists_mapM_iff.mp ⟨candidates, hmap⟩ item hitem
      obtain ⟨text, htext, -⟩ := candidate_eq_ok hcandidate
      exact ⟨text, htext⟩
  obtain ⟨e, he⟩ := hraises
  have hfiltered := mapM_filter_error (p := fun item => !blankCause rt item)
    (fun item _ ⟨e, herror⟩ => by
      unfold blankCause
      cases htext : causeText rt item with
      | error e => rfl
      | ok text =>
        rw [htext] at herror
        cases herror) he
  unfold causeMatch withoutBlank
  rw [he, hfiltered]

theorem realCauseShare_eq : realCauseShare rt caseFold expected generated =
    countedCauseShare rt caseFold expected (withoutBlank rt generated) := rfl

/-- A cause that is not blank is one of the causes. -/
theorem any_of_any_withoutBlank {cause : String}
    (h : (withoutBlank rt generated).any (matchesCause rt caseFold cause) = true) :
    generated.any (matchesCause rt caseFold cause) = true := by
  obtain ⟨item, hitem, hmatches⟩ := List.any_eq_true.mp h
  exact List.any_eq_true.mpr ⟨item, (List.mem_filter.mp hitem).1, hmatches⟩

theorem realCauseShare_le : realCauseShare rt caseFold expected generated ≤
    countedCauseShare rt caseFold expected generated :=
  Shares.share_mono fun _ _ => any_of_any_withoutBlank

/-- Only real matches are counted if no expected cause is matched by blank causes alone. -/
theorem realCauseShare_eq_iff
    (htexts : ∀ item ∈ generated, ∃ text, causeText rt item = .ok text) :
    realCauseShare rt caseFold expected generated =
        countedCauseShare rt caseFold expected generated ↔
      MatchedOtherwise rt caseFold expected generated := by
  unfold realCauseShare countedCauseShare
  rw [Shares.share_eq_iff fun _ _ => any_of_any_withoutBlank]
  constructor
  · rintro h - cause hcause ⟨item, hitem, -, hmatches⟩
    obtain ⟨other, hother, hothers⟩ :=
      List.any_eq_true.mp (h cause hcause (List.any_eq_true.mpr ⟨item, hitem, hmatches⟩))
    obtain ⟨hmem, hreal⟩ := List.mem_filter.mp hother
    exact ⟨other, hmem, by simpa using hreal, hothers⟩
  · intro h cause hcause hany
    obtain ⟨item, hitem, hmatches⟩ := List.any_eq_true.mp hany
    have hreal : ∃ item ∈ generated, blankCause rt item = false ∧
        matchesCause rt caseFold cause item = true := by
      by_cases hblank : blankCause rt item = true
      · exact h htexts cause hcause ⟨item, hitem, hblank, hmatches⟩
      · exact ⟨item, hitem, Bool.eq_false_iff.mpr hblank, hmatches⟩
    obtain ⟨other, hother, hnot, hothers⟩ := hreal
    refine List.any_eq_true.mpr ⟨other, List.mem_filter.mpr ⟨hother, ?_⟩, hothers⟩
    rw [hnot]
    rfl

/-- Leaving out the blank causes changes no score if and only if no expected cause is matched by
them alone. -/
theorem causeMatch_withoutBlank_iff (hne : expected ≠ []) :
    causeMatch rt caseFold expected generated =
        causeMatch rt caseFold expected (withoutBlank rt generated) ↔
      MatchedOtherwise rt caseFold expected generated := by
  by_cases htexts : ∀ item ∈ generated, ∃ text, causeText rt item = .ok text
  · have hreal : ∀ item ∈ withoutBlank rt generated, ∃ text, causeText rt item = .ok text :=
      fun item hitem => htexts item (List.mem_filter.mp hitem).1
    rw [causeMatch_eq hne htexts, causeMatch_eq hne hreal, ← realCauseShare_eq_iff htexts,
      realCauseShare_eq, Except.ok.injEq, eq_comm]
  · exact iff_of_true (causeMatch_withoutBlank_of_error htexts) fun h => absurd h htexts

end Counting

/-! ## What a run reports -/

section Running
variable {rt : Runtime} {caseFold : Nat → List Nat}
  {evaluated : List (EvaluationCase × CaseGeneration)}

theorem causesOf_eq {e : EvaluationCase × CaseGeneration} {generated : List Json}
    (h : e.2.causes = .ok generated) : causesOf e = generated := by
  unfold causesOf
  rw [h]
  rfl

/-- A case that has a result has causes with texts, and the share of the expected ones they count
for is its score. -/
theorem evaluateCase_ok {e : EvaluationCase × CaseGeneration} {result : EvaluationCaseResult}
    (h : evaluateCase rt caseFold e = .ok result) :
    ∃ generated, e.2.causes = .ok generated ∧
      (∀ item ∈ generated, ∃ text, causeText rt item = .ok text) ∧
      result.causeMatch = countedCauseShare rt caseFold e.1.expectedCauses generated ∧
      result.documentHitRate = documentHitRate e.1.expectedDocumentIds e.2.chunks := by
  obtain ⟨generated, hcauses, h⟩ := exists_of_bind h
  obtain ⟨score, hscore, h⟩ := exists_of_bind h
  obtain rfl := Except.ok.inj h
  have htexts : ∀ item ∈ generated, ∃ text, causeText rt item = .ok text := by
    obtain ⟨candidates, hcandidates, -⟩ := exists_of_bind hscore
    intro item hitem
    obtain ⟨candidate, hcandidate⟩ := exists_mapM_iff.mp ⟨candidates, hcandidates⟩ item hitem
    obtain ⟨text, htext, -⟩ := candidate_eq_ok hcandidate
    exact ⟨text, htext⟩
  refine ⟨generated, hcauses, htexts, ?_, rfl⟩
  exact Except.ok.inj (hscore.symm.trans (causeMatch_eq e.1.expectedCauses_ne htexts))

/-- The figures of a run are the means of those of its cases. -/
theorem runEvaluation_ok {id : String} {createdAt : DateTime} {run : StoredEvaluation}
    (h : runEvaluation rt caseFold id createdAt evaluated = .ok run) :
    (∀ e ∈ evaluated, ∃ result, evaluateCase rt caseFold e = .ok result) ∧
      run.causeCandidateAccuracy = Shares.mean (fun e =>
        countedCauseShare rt caseFold e.1.expectedCauses (causesOf e)) evaluated ∧
      run.documentHitRate = Shares.mean (fun e =>
        documentHitRate e.1.expectedDocumentIds e.2.chunks) evaluated := by
  unfold runEvaluation at h
  split at h
  · cases h
  obtain ⟨results, hresults, h⟩ := exists_of_bind h
  obtain rfl := Except.ok.inj h
  refine ⟨exists_mapM_iff.mp ⟨results, hresults⟩, ?_, ?_⟩
  · refine Shares.mean_congr (map_of_mapM hresults fun e _ result hresult => ?_)
    obtain ⟨generated, hcauses, -, hscore, -⟩ := evaluateCase_ok hresult
    rw [hscore, causesOf_eq hcauses]
  · refine Shares.mean_congr (map_of_mapM hresults fun e _ result hresult => ?_)
    obtain ⟨-, -, -, -, hrate⟩ := evaluateCase_ok hresult
    exact hrate

/-- **What the accuracy counts.**  A run reports the mean of the real matches if and only if in no
case an expected cause is matched by blank causes alone. -/
theorem accuracy_eq_iff {id : String} {createdAt : DateTime} {run : StoredEvaluation}
    (h : runEvaluation rt caseFold id createdAt evaluated = .ok run) :
    run.causeCandidateAccuracy = Shares.mean (fun e =>
        realCauseShare rt caseFold e.1.expectedCauses (causesOf e)) evaluated ↔
      ∀ e ∈ evaluated, MatchedOtherwise rt caseFold e.1.expectedCauses (causesOf e) := by
  obtain ⟨hresults, haccuracy, -⟩ := runEvaluation_ok h
  rw [haccuracy, eq_comm, Shares.mean_eq_iff fun _ _ => realCauseShare_le]
  refine forall₂_congr fun e he => ?_
  obtain ⟨result, hresult⟩ := hresults e he
  obtain ⟨generated, hcauses, htexts, -⟩ := evaluateCase_ok hresult
  rw [causesOf_eq hcauses]
  exact realCauseShare_eq_iff htexts

/-- **Blank causes.**  They never score in a run if and only if in each of its cases every expected
cause that a blank one counts for is matched by another cause too. -/
theorem blankCausesNeverScore_iff (rt : Runtime) (caseFold : Nat → List Nat)
    (evaluated : List (EvaluationCase × CaseGeneration)) :
    BlankCausesNeverScore rt caseFold evaluated ↔
      ∀ e ∈ evaluated, ∀ generated, e.2.causes = .ok generated →
        MatchedOtherwise rt caseFold e.1.expectedCauses generated := by
  constructor
  · intro hnever e he generated hcauses
    exact (causeMatch_withoutBlank_iff e.1.expectedCauses_ne).mp
      (hnever.unchanged e he generated hcauses)
  · intro hother
    have hunchanged : ∀ e ∈ evaluated, ∀ generated, e.2.causes = .ok generated →
        causeMatch rt caseFold e.1.expectedCauses generated =
          causeMatch rt caseFold e.1.expectedCauses (withoutBlank rt generated) :=
      fun e he generated hcauses =>
        (causeMatch_withoutBlank_iff e.1.expectedCauses_ne).mpr (hother e he generated hcauses)
    refine ⟨hunchanged, fun e he generated hcauses hblank => ?_, fun id createdAt run hrun => ?_⟩
    · have hnone : withoutBlank rt generated = [] :=
        List.filter_eq_nil_iff.mpr fun item hitem => by simp [hblank item hitem]
      rw [hunchanged e he generated hcauses, hnone,
        causeMatch_eq e.1.expectedCauses_ne fun _ hitem => absurd hitem List.not_mem_nil]
      exact congrArg Except.ok (Shares.share_eq_zero fun _ _ => rfl)
    · refine (accuracy_eq_iff hrun).mpr fun e he => ?_
      obtain ⟨result, hresult⟩ := (runEvaluation_ok hrun).1 e he
      obtain ⟨generated, hcauses, -⟩ := evaluateCase_ok hresult
      exact causesOf_eq hcauses ▸ hother e he generated hcauses

end Running

namespace Sample

/-- One expected cause, and an answer whose only cause is empty. -/
def unnamed : EvaluationCase × CaseGeneration :=
  (⟨"case-1", ["Bearing wear"], ["bearing.md"], 60, 30, by decide, by decide, by decide⟩,
    ⟨.dict [(.text "causes", .list [.dict [(.text "cause", .text "")]])], [],
      ⟨.text "ollama", none, .text promptVersion, .text "", "local", [], none, none,
        .text "not_configured", none, 0, 0, 0⟩⟩)

end Sample

/-- The empty cause is counted. -/
theorem not_blankCausesNeverScore : ¬ ∀ rt caseFold evaluated,
    BlankCausesNeverScore rt caseFold evaluated := by
  intro hall
  have hnever := hall default (fun n => [n]) [Sample.unnamed]
  have hother := (causeMatch_withoutBlank_iff Sample.unnamed.1.expectedCauses_ne).mp
    (hnever.unchanged _ List.mem_cons_self _ rfl)
  obtain ⟨item, hitem, hreal, -⟩ := hother (fun item hitem => by
      obtain rfl := List.mem_singleton.mp hitem
      exact ⟨.text "", rfl⟩) "Bearing wear" (by decide)
    ⟨_, List.mem_cons_self, rfl, by decide⟩
  obtain rfl := List.mem_singleton.mp hitem
  cases hreal

end AxSentinel
