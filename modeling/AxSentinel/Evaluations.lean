import AxSentinel.FixedWidth
import AxSentinel.Json
import AxSentinel.Ranking
import AxSentinel.Service
import Mathlib.Algebra.GroupWithZero.Nat
import Mathlib.Data.List.MinMax
import Mathlib.Data.String.Basic

/-! # The latest evaluation

`metrics_summary` reports the figures of the evaluation run with the greatest `created_at`, compared
as text.  A time without microseconds is written without a fraction, and a `Z` comes after a dot: a
run at a whole second is taken for later than all others of that second (`reportsLatest_iff`). -/
namespace AxSentinel
open Python (Json)

/-! ## Times -/

/-- The days of a month. -/
def daysInMonth (year month : Nat) : Nat :=
  if month = 2 then
    if year % 4 = 0 ∧ (year % 100 ≠ 0 ∨ year % 400 = 0) then 29 else 28
  else if month ∈ [4, 6, 9, 11] then 30
  else 31

/-- A `datetime` in UTC. -/
structure DateTime where
  year : Nat
  month : Nat
  day : Nat
  hour : Nat
  minute : Nat
  second : Nat
  microsecond : Nat
  year_mem : 1 ≤ year ∧ year ≤ 9999
  month_mem : 1 ≤ month ∧ month ≤ 12
  day_mem : 1 ≤ day ∧ day ≤ daysInMonth year month
  hour_lt : hour < 24
  minute_lt : minute < 60
  second_lt : second < 60
  microsecond_lt : microsecond < 1000000
deriving DecidableEq

namespace DateTime

/-- The time up to the second. -/
def wholeSecond (t : DateTime) : List Nat := [t.year, t.month, t.day, t.hour, t.minute, t.second]

/-- What two times are compared by, from the year to the microsecond. -/
def fields (t : DateTime) : List Nat := t.wholeSecond ++ [t.microsecond]

theorem fields_injective : Function.Injective fields := by
  intro s t h
  cases s
  cases t
  simpa [fields, wholeSecond] using h

instance : LinearOrder DateTime := LinearOrder.lift' fields fields_injective

/-- `%Y-%m-%dT%H:%M:%S`: the width of each field, and what follows it. -/
def secondFormat : List (Nat × List Char) :=
  [(4, ['-']), (2, ['-']), (2, ['T']), (2, [':']), (2, [':']), (2, [])]

/-- A time as Pydantic writes it: the fraction only where it is not zero. -/
def isoformat (t : DateTime) : String :=
  let fraction := if t.microsecond = 0 then [] else '.' :: FixedWidth.digits 6 t.microsecond
  String.ofList (FixedWidth.record secondFormat t.wholeSecond ++ (fraction ++ ['Z']))

theorem fits_wholeSecond (t : DateTime) : FixedWidth.Fits secondFormat t.wholeSecond := by
  have hday : daysInMonth t.year t.month ≤ 31 := by
    unfold daysInMonth
    repeat' split
    all_goals decide
  obtain ⟨-, hyear⟩ := t.year_mem
  obtain ⟨-, hmonth⟩ := t.month_mem
  obtain ⟨-, hdays⟩ := t.day_mem
  have hhour := t.hour_lt
  have hminute := t.minute_lt
  have hsecond := t.second_lt
  refine .cons ?_ (.cons ?_ (.cons ?_ (.cons ?_ (.cons ?_ (.cons ?_ .nil))))) <;>
    simp only [Nat.reducePow] <;> omega

/-- Of two times the earlier is the one with the earlier second, or with fewer microseconds in the
same second. -/
theorem lt_iff {s t : DateTime} : s < t ↔ s.wholeSecond < t.wholeSecond ∨
    s.wholeSecond = t.wholeSecond ∧ s.microsecond < t.microsecond := by
  have hlength : s.wholeSecond.length = t.wholeSecond.length := rfl
  show s.wholeSecond ++ [s.microsecond] < t.wholeSecond ++ [t.microsecond] ↔ _
  rw [FixedWidth.append_lt_append_iff hlength, List.cons_lt_cons_iff]
  simp

/-- The text of a time comes before another if its second does, or, in the same second, if it has a
fraction and the other has none or a greater one. -/
theorem isoformat_lt_iff {s t : DateTime} : s.isoformat < t.isoformat ↔
    s.wholeSecond < t.wholeSecond ∨ s.wholeSecond = t.wholeSecond ∧ s.microsecond ≠ 0 ∧
      (t.microsecond = 0 ∨ s.microsecond < t.microsecond) := by
  have hs := s.fits_wholeSecond
  have ht := t.fits_wholeSecond
  rw [String.lt_iff_toList_lt, isoformat, isoformat, String.toList_ofList, String.toList_ofList,
    FixedWidth.append_lt_append_iff (FixedWidth.length_record hs ht),
    FixedWidth.record_lt_iff hs ht, FixedWidth.record_inj hs ht]
  refine or_congr_right (and_congr_right fun _ => ?_)
  -- In the same second a dot is compared with a dot, or with the `Z` that comes after it.
  have hdot : ∀ rest, '.' :: rest < ['Z'] := fun _ => List.cons_lt_cons_iff.mpr (.inl (by decide))
  by_cases hszero : s.microsecond = 0
  · by_cases htzero : t.microsecond = 0
    · simp [hszero, htzero]
    · simpa [hszero, htzero] using (hdot _).le
  · by_cases htzero : t.microsecond = 0
    · simpa [hszero, htzero] using hdot _
    · have hdigits : FixedWidth.digits 6 s.microsecond < FixedWidth.digits 6 t.microsecond ↔
          s.microsecond < t.microsecond :=
        FixedWidth.digits_lt_iff s.microsecond_lt t.microsecond_lt
      simp [hszero, htzero, FixedWidth.append_lt_append_iff, hdigits]

/-- The time is the whole second of another. -/
def IsWholeSecondOf (s t : DateTime) : Prop :=
  s.wholeSecond = t.wholeSecond ∧ s.microsecond = 0

/-- The text of an earlier time comes first, unless the time is the whole second of the other: then
it comes last. -/
theorem isoformat_order {s t : DateTime} (h : s < t) :
    ¬ s.IsWholeSecondOf t ∧ s.isoformat < t.isoformat ∨
      s.IsWholeSecondOf t ∧ t.isoformat < s.isoformat := by
  rcases lt_iff.mp h with hsecond | ⟨hsecond, hmicro⟩
  · exact .inl ⟨fun hwhole => hsecond.ne hwhole.1, isoformat_lt_iff.mpr (.inl hsecond)⟩
  · -- in one second the earlier time has no fraction, or both have one
    by_cases hzero : s.microsecond = 0
    · refine .inr ⟨⟨hsecond, hzero⟩, isoformat_lt_iff.mpr (.inr ⟨hsecond.symm, ?_, .inl hzero⟩)⟩
      omega
    · refine .inl ⟨fun hwhole => hzero hwhole.2, isoformat_lt_iff.mpr (.inr ⟨hsecond, hzero, ?_⟩)⟩
      exact .inr hmicro

/-- Different times have different texts. -/
theorem isoformat_injective : Function.Injective isoformat := by
  intro s t h
  by_contra hne
  rcases lt_or_gt_of_ne hne with hlt | hgt
  · rcases isoformat_order hlt with ⟨-, hless⟩ | ⟨-, hless⟩
    · exact hless.ne h
    · exact hless.ne' h
  · rcases isoformat_order hgt with ⟨-, hless⟩ | ⟨-, hless⟩
    · exact hless.ne' h
    · exact hless.ne h

end DateTime

/-! ## Evaluation runs -/

/-- The fields of an `EvaluationRun` that the summary reads. -/
structure EvaluationRun where
  id : String
  createdAt : DateTime
  caseCount : Nat
  causeCandidateAccuracy : ℚ
  documentHitRate : ℚ
  resolutionTimeReduction : ℚ
deriving DecidableEq

/-- `run.model_dump(mode="json")`. -/
def EvaluationRun.modelDump (run : EvaluationRun) : Json :=
  .dict [(.text "id", .text run.id),
    (.text "created_at", .text run.createdAt.isoformat),
    (.text "case_count", .int run.caseCount),
    (.text "cause_candidate_accuracy", .float (.finite run.causeCandidateAccuracy)),
    (.text "document_hit_rate", .float (.finite run.documentHitRate)),
    (.text "resolution_time_reduction", .float (.finite run.resolutionTimeReduction))]

/-- `list_evaluation_runs`. -/
def listEvaluationRuns (runs : List EvaluationRun) : List EvaluationRun :=
  Ranking.sortDesc EvaluationRun.createdAt runs

/-! ## The summary -/

/-- The scores of an `AnalysisFeedback`. -/
structure AnalysisFeedback where
  causeAccuracy : {n : Nat // 1 ≤ n ∧ n ≤ 5}
  actionUsefulness : {n : Nat // 1 ≤ n ∧ n ≤ 5}

/-- The settings of the metrics service that say where the records are listed. -/
structure MetricsSettings where
  analysisServiceUrl : Option String
  workOrderServiceUrl : Option String

/-- What `metrics_summary` returns. -/
structure MetricsSummary where
  analysisCount : Nat
  expertReviewRate : ℚ
  causeAccuracyAverage : ℚ
  actionUsefulnessAverage : ℚ
  approvalRate : ℚ
  causeCandidateAccuracy : Json
  documentHitRate : Json
  resolutionTimeReduction : Json
  evaluationCaseCount : Json

/-- `total / count if count else 0.0`. -/
def average (total count : Nat) : ℚ := if count = 0 then 0 else total / count

/-- `str(value)`; that of any other value than a text is its `repr`. -/
def strOf (repr : Json → String) : Json → String
  | .str (.text s) => s
  | value => repr value

/-- `latest_evaluation`. -/
def latestEvaluation (repr : Json → String) (evaluationRuns : List Json) : Json :=
  (evaluationRuns.argmax fun item =>
    strOf repr ((item.get? "created_at").getD (.text ""))).getD (.dict [])

/-- `evaluation_runs`: the runs as the analysis service lists them, or those of the table. -/
def evaluationRuns (settings : MetricsSettings) (runs : List EvaluationRun) : List Json :=
  if isSet settings.analysisServiceUrl && isSet settings.workOrderServiceUrl then
    (listEvaluationRuns runs).map EvaluationRun.modelDump
  else runs.map EvaluationRun.modelDump

/-- `metrics_summary`, of the records that are stored. -/
def metricsSummary (repr : Json → String) (settings : MetricsSettings)
    (feedbackItems : List AnalysisFeedback) (analyses : List AnalysisResult)
    (approvals : List ApprovalRecord) (runs : List EvaluationRun) : MetricsSummary :=
  let latest := latestEvaluation repr (evaluationRuns settings runs)
  let zero := Json.float (.finite 0)
  { analysisCount := analyses.length
    expertReviewRate := average (analyses.countP AnalysisResult.expertReviewRequired)
      analyses.length
    causeAccuracyAverage := average (feedbackItems.map fun item => item.causeAccuracy.1).sum
      feedbackItems.length
    actionUsefulnessAverage := average (feedbackItems.map fun item => item.actionUsefulness.1).sum
      feedbackItems.length
    approvalRate := average
      (approvals.countP fun item => item.decision ∈ [.approve, .approveWithChanges])
      approvals.length
    causeCandidateAccuracy := (latest.get? "cause_candidate_accuracy").getD zero
    documentHitRate := (latest.get? "document_hit_rate").getD zero
    resolutionTimeReduction := (latest.get? "resolution_time_reduction").getD zero
    evaluationCaseCount := (latest.get? "case_count").getD (.int 0) }

/-! ## Which run is reported -/

/-- The summary has the figures of the run. -/
structure HasFiguresOf (summary : MetricsSummary) (run : EvaluationRun) : Prop where
  causeCandidateAccuracy :
    summary.causeCandidateAccuracy = .float (.finite run.causeCandidateAccuracy)
  documentHitRate : summary.documentHitRate = .float (.finite run.documentHitRate)
  resolutionTimeReduction :
    summary.resolutionTimeReduction = .float (.finite run.resolutionTimeReduction)
  evaluationCaseCount : summary.evaluationCaseCount = .int run.caseCount

/-- The summary reports the figures of the run. -/
structure ReportsRun (repr : Json → String) (settings : MetricsSettings)
    (feedbackItems : List AnalysisFeedback) (analyses : List AnalysisResult)
    (approvals : List ApprovalRecord) (runs : List EvaluationRun) (run : EvaluationRun) : Prop
    extends HasFiguresOf (metricsSummary repr settings feedbackItems analyses approvals runs) run
    where
  chosen : latestEvaluation repr (evaluationRuns settings runs) = run.modelDump

/-- The run was created last. -/
def IsLatest (runs : List EvaluationRun) (run : EvaluationRun) : Prop :=
  run ∈ runs ∧ ∀ other ∈ runs, other.createdAt ≤ run.createdAt

/-- The summary reports the run that was created last. -/
def ReportsLatest (repr : Json → String) (settings : MetricsSettings)
    (feedbackItems : List AnalysisFeedback) (analyses : List AnalysisResult)
    (approvals : List ApprovalRecord) (runs : List EvaluationRun) : Prop :=
  ∃ run, IsLatest runs run ∧ ReportsRun repr settings feedbackItems analyses approvals runs run

/-- No other run was created at the whole second of the latest. -/
def WholeSecondFree (runs : List EvaluationRun) : Prop :=
  ∀ run, IsLatest runs run → ∀ other ∈ runs,
    other.createdAt.IsWholeSecondOf run.createdAt → other = run

section Summary
variable {repr : Json → String} {settings : MetricsSettings} {runs : List EvaluationRun}

@[simp] theorem strOf_created_at (run : EvaluationRun) :
    strOf repr ((run.modelDump.get? "created_at").getD (.text "")) = run.createdAt.isoformat := rfl

/-- The run that is chosen is one with the greatest text of its time. -/
theorem exists_latestEvaluation (hne : runs ≠ []) :
    ∃ run ∈ runs, latestEvaluation repr (evaluationRuns settings runs) = run.modelDump ∧
      ∀ other ∈ runs, other.createdAt.isoformat ≤ run.createdAt.isoformat := by
  -- Whichever branch is taken, the runs are those that are stored, in some order.
  obtain ⟨listed, hitems, hperm⟩ : ∃ listed : List EvaluationRun,
      evaluationRuns settings runs = listed.map EvaluationRun.modelDump ∧ listed.Perm runs := by
    unfold evaluationRuns
    split
    · exact ⟨_, rfl, Ranking.perm_sortDesc ..⟩
    · exact ⟨_, rfl, .refl _⟩
  unfold latestEvaluation
  rw [hitems]
  cases hmax : (listed.map EvaluationRun.modelDump).argmax fun item =>
      strOf repr ((item.get? "created_at").getD (.text "")) with
  | none =>
    have hnil : listed = [] := List.map_eq_nil_iff.mp (List.argmax_eq_none.mp hmax)
    exact absurd (List.nil_perm.mp (hnil ▸ hperm)) hne
  | some item =>
    obtain ⟨run, hrun, rfl⟩ := List.mem_map.mp (List.argmax_mem hmax)
    refine ⟨run, hperm.mem_iff.mp hrun, rfl, fun other hother => ?_⟩
    have hmem : other.modelDump ∈ listed.map EvaluationRun.modelDump :=
      List.mem_map_of_mem (hperm.mem_iff.mpr hother)
    have hle := List.le_of_mem_argmax hmem hmax
    rwa [strOf_created_at, strOf_created_at] at hle

/-- Some run was created last. -/
theorem exists_isLatest (hne : runs ≠ []) : ∃ run, IsLatest runs run := by
  cases hmax : runs.argmax EvaluationRun.createdAt with
  | none => exact absurd (List.argmax_eq_none.mp hmax) hne
  | some run =>
    exact ⟨run, List.argmax_mem hmax, fun _ hother => List.le_of_mem_argmax hother hmax⟩

/-- Runs with the same time are the same. -/
theorem eq_of_createdAt_eq (hdistinct : (runs.map EvaluationRun.createdAt).Nodup)
    {run other : EvaluationRun} (hrun : run ∈ runs) (hother : other ∈ runs)
    (h : run.createdAt = other.createdAt) : run = other :=
  List.inj_on_of_nodup_map hdistinct hrun hother h

/-- The figures of the summary are those of the run that is chosen. -/
theorem ReportsRun.of_chosen {feedbackItems : List AnalysisFeedback}
    {analyses : List AnalysisResult} {approvals : List ApprovalRecord} {run : EvaluationRun}
    (h : latestEvaluation repr (evaluationRuns settings runs) = run.modelDump) :
    ReportsRun repr settings feedbackItems analyses approvals runs run := by
  refine ⟨⟨?_, ?_, ?_, ?_⟩, h⟩ <;>
    · unfold metricsSummary
      rw [h]
      rfl

/-- The text of the latest time is the greatest if no other time is its whole second. -/
theorem isoformat_le_iff (hdistinct : (runs.map EvaluationRun.createdAt).Nodup)
    {run other : EvaluationRun} (hlatest : IsLatest runs run) (hother : other ∈ runs) :
    other.createdAt.isoformat ≤ run.createdAt.isoformat ↔
      (other.createdAt.IsWholeSecondOf run.createdAt → other = run) := by
  rcases (hlatest.2 other hother).lt_or_eq with hlt | heq
  · have hne : other ≠ run := fun h => hlt.ne (congrArg EvaluationRun.createdAt h)
    rcases DateTime.isoformat_order hlt with ⟨hwhole, hless⟩ | ⟨hwhole, hless⟩
    · exact iff_of_true hless.le fun h => absurd h hwhole
    · exact iff_of_false hless.not_ge fun h => hne (h hwhole)
  · exact iff_of_true (heq ▸ le_rfl) fun _ => eq_of_createdAt_eq hdistinct hother hlatest.1 heq

/-- The run that is reported is the one with the greatest text of its time. -/
theorem reportsRun_iff {feedbackItems : List AnalysisFeedback} {analyses : List AnalysisResult}
    {approvals : List ApprovalRecord} (hdistinct : (runs.map EvaluationRun.createdAt).Nodup)
    {run : EvaluationRun} (hrun : run ∈ runs) :
    ReportsRun repr settings feedbackItems analyses approvals runs run ↔
      ∀ other ∈ runs, other.createdAt.isoformat ≤ run.createdAt.isoformat := by
  obtain ⟨chosen, hmem, hchosen, hgreatest⟩ :=
    @exists_latestEvaluation repr settings runs (List.ne_nil_of_mem hrun)
  constructor
  · intro h other hother
    -- two runs that are dumped alike have the same text of their times
    have hdump : run.modelDump = chosen.modelDump := h.chosen.symm.trans hchosen
    rw [← @strOf_created_at repr run, hdump, strOf_created_at]
    exact hgreatest other hother
  · intro h
    have htext := le_antisymm (h chosen hmem) (hgreatest run hrun)
    have hsame := eq_of_createdAt_eq hdistinct hmem hrun (DateTime.isoformat_injective htext)
    exact .of_chosen (hsame ▸ hchosen)

end Summary

/-- **Which evaluation is reported.**  Of runs with different times the summary reports the latest
if and only if no other was created at the whole second of the latest. -/
theorem reportsLatest_iff (repr : Json → String) (settings : MetricsSettings)
    (feedbackItems : List AnalysisFeedback) (analyses : List AnalysisResult)
    (approvals : List ApprovalRecord) (runs : List EvaluationRun) (hne : runs ≠ [])
    (hdistinct : (runs.map EvaluationRun.createdAt).Nodup) :
    ReportsLatest repr settings feedbackItems analyses approvals runs ↔ WholeSecondFree runs := by
  constructor
  · rintro ⟨run, hlatest, hreports⟩ run' hlatest' other hother
    -- the latest run is the only one
    have htimes := le_antisymm (hlatest.2 run' hlatest'.1) (hlatest'.2 run hlatest.1)
    obtain rfl := eq_of_createdAt_eq hdistinct hlatest'.1 hlatest.1 htimes
    exact (isoformat_le_iff hdistinct hlatest hother).mp
      ((reportsRun_iff hdistinct hlatest.1).mp hreports other hother)
  · intro hfree
    obtain ⟨run, hlatest⟩ := exists_isLatest hne
    refine ⟨run, hlatest, (reportsRun_iff hdistinct hlatest.1).mpr fun other hother => ?_⟩
    exact (isoformat_le_iff hdistinct hlatest hother).mpr (hfree run hlatest other hother)

namespace Sample

/-- A time on the whole second. -/
def whole : DateTime :=
  ⟨2025, 3, 9, 7, 5, 1, 0, by decide, by decide, by decide, by decide, by decide, by decide,
    by decide⟩

/-- A run at the whole second, and one half a second later. -/
def evaluated : List EvaluationRun :=
  [⟨"run-1", whole, 4, 1 / 2, 1, 0⟩,
    ⟨"run-2", { whole with microsecond := 500000, microsecond_lt := by decide }, 5, 1, 1, 0⟩]

example : evaluated.map (fun run => run.createdAt.isoformat) =
    ["2025-03-09T07:05:01Z", "2025-03-09T07:05:01.500000Z"] := by decide

theorem reportsLatest_iff_evaluated :
    ReportsLatest (fun _ => "") ⟨none, none⟩ [] [] [] evaluated ↔ WholeSecondFree evaluated :=
  reportsLatest_iff (fun _ => "") ⟨none, none⟩ [] [] [] evaluated (by decide) (by decide)

end Sample

/-- Of these two runs the first is reported. -/
theorem not_reportsLatest : ¬ ∀ repr settings feedbackItems analyses approvals
    (runs : List EvaluationRun), runs ≠ [] → (runs.map EvaluationRun.createdAt).Nodup →
      ReportsLatest repr settings feedbackItems analyses approvals runs := by
  intro hall
  obtain ⟨run, hlatest, hreports⟩ :=
    hall (fun _ => "") ⟨none, none⟩ [] [] [] Sample.evaluated (by decide) (by decide)
  have htext := (reportsRun_iff (by decide) hlatest.1).mp hreports
  have hnot : ∀ run ∈ Sample.evaluated,
      (∀ other ∈ Sample.evaluated, other.createdAt ≤ run.createdAt) →
      ¬ ∀ other ∈ Sample.evaluated, other.createdAt.isoformat ≤ run.createdAt.isoformat := by
    decide
  exact hnot run hlatest.1 hlatest.2 htext

end AxSentinel
