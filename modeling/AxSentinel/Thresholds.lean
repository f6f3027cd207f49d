import AxSentinel.Platform
import Mathlib.Algebra.Order.Field.Basic
import Mathlib.Tactic.Linarith

/-! # Samples and their thresholds

The two paths that compare a sample with its threshold: `ingest_telemetry` divides, and takes the
ratio for 0 where the threshold is 0; `simulate_incident` multiplies.  They agree with each other,
and with "at the threshold or above", for positive thresholds only, except that at the threshold 0
a negative value is normal on both; and for positive thresholds they round, each in its own way, at
120% (`classification_iff`). -/
namespace AxSentinel
open Effects Service Python

/-! ## What the two handlers return -/

/-- `ingest_telemetry` returns the record of the sample. -/
theorem received_of_ends {replica : Nat} {request : TelemetryRequest} {principal : Principal}
    {telemetry : TelemetryRecord} {w w' : platform.World}
    (h : platform.Ends (ingestTelemetry replica request principal) w (.ok telemetry) w') :
    ∃ id receivedAt, telemetry = .received request id receivedAt := by
  obtain ⟨recorded, w₁, hrecord, h⟩ := h.of_bind_ok
  obtain ⟨_, w₂, -, h⟩ := h.of_bind_ok
  cases h
  obtain ⟨_, _, -, h⟩ := hrecord.of_bind_ok
  obtain ⟨id, _, -, h⟩ := h.of_bind_ok
  obtain ⟨receivedAt, _, -, h⟩ := h.of_bind_ok
  obtain ⟨_, _, -, h⟩ := h.of_bind_ok
  obtain ⟨_, _, -, h⟩ := h.of_bind_ok
  obtain ⟨_, _, -, h⟩ := h.of_bind_ok
  cases h
  exact ⟨id, receivedAt, rfl⟩

/-- `simulate_incident` returns the incident of the request. -/
theorem simulated_of_ends {request : VirtualIncidentRequest} {principal : Principal}
    {incident : Incident} {w w' : platform.World}
    (h : platform.Ends (simulateIncident request principal) w (.ok incident) w') :
    ∃ id detectedAt, incident = .simulated request id detectedAt := by
  obtain ⟨_, _, -, h⟩ := h.of_bind_ok
  obtain ⟨id, _, -, h⟩ := h.of_bind_ok
  obtain ⟨detectedAt, _, -, h⟩ := h.of_bind_ok
  obtain ⟨_, _, -, h⟩ := h.of_bind_ok
  obtain ⟨_, _, -, h⟩ := h.of_bind_ok
  obtain ⟨_, _, -, h⟩ := h.of_bind_ok
  cases h
  exact ⟨id, detectedAt, rfl⟩

/-! ## The comparisons -/

section Comparisons
variable {measuredValue threshold : FiniteFloat}

theorem criticalRatio_eq : criticalRatio = 5404319552844595 / 2 ^ 52 := by decide +kernel

/-- `measured_value / threshold if threshold else 0`, of a quotient that is not infinite. -/
def ratio (measuredValue threshold : ℚ) : ℚ :=
  if threshold ≠ 0 then Binary64.round (measuredValue / threshold) else 0

theorem le_ratio {c : ℚ} (hc : |c| < Binary64.overflow) :
    PyFloat.le (.finite c) (if (threshold : ℚ) ≠ 0 then .ofRat (measuredValue / threshold)
      else .finite 0) = true ↔ c ≤ ratio measuredValue threshold := by
  unfold ratio
  split
  · exact PyFloat.le_ofRat hc _
  · simp [PyFloat.le]

theorem telemetryStatus_eq : telemetryStatus measuredValue threshold =
    if criticalRatio ≤ ratio measuredValue threshold then "critical"
    else if 1 ≤ ratio measuredValue threshold then "warning" else "normal" := by
  have hcritical : |criticalRatio| < Binary64.overflow := by decide +kernel
  have hone : |(1 : ℚ)| < Binary64.overflow := by decide +kernel
  simp only [telemetryStatus, le_ratio hcritical, le_ratio hone]

theorem telemetryStatus_eq_critical :
    telemetryStatus measuredValue threshold = "critical" ↔
      criticalRatio ≤ ratio measuredValue threshold := by
  rw [telemetryStatus_eq]
  split
  · exact iff_of_true rfl ‹_›
  · refine iff_of_false ?_ ‹_›
    split <;> decide

theorem telemetryStatus_ne_normal :
    telemetryStatus measuredValue threshold ≠ "normal" ↔ 1 ≤ ratio measuredValue threshold := by
  have hone : 1 ≤ criticalRatio := by decide +kernel
  rw [telemetryStatus_eq]
  split
  · exact iff_of_true (by decide) (hone.trans ‹_›)
  · split
    · exact iff_of_true (by decide) ‹_›
    · exact iff_of_false (by decide) ‹_›

theorem simulated_severity_eq_critical {request : VirtualIncidentRequest} {id : String}
    {detectedAt : Instant} : (Incident.simulated request id detectedAt).severity = "critical" ↔
      Binary64.round (request.threshold * criticalRatio) ≤ request.measuredValue := by
  rw [← PyFloat.ofRat_le request.measuredValue.2.2]
  unfold Incident.simulated
  dsimp only
  split
  · exact iff_of_true rfl ‹_›
  · exact iff_of_false (by decide) ‹_›

/-- For a positive threshold, the ratio is at least 1 where the value is at the threshold or
above. -/
theorem one_le_ratio_of_pos (h : (0 : ℚ) < threshold) :
    1 ≤ ratio measuredValue threshold ↔ (threshold : ℚ) ≤ measuredValue := by
  rw [ratio, if_pos h.ne']
  exact Binary64.one_le_round_div_iff measuredValue.representable threshold.representable h

/-- It is critical where less than the rounding of the quotient is missing. -/
theorem criticalRatio_le_ratio_of_pos (h : (0 : ℚ) < threshold) :
    criticalRatio ≤ ratio measuredValue threshold ↔
      threshold * criticalRatio - measuredValue < threshold / 2 ^ 53 := by
  rw [ratio, if_pos h.ne', criticalRatio_eq]
  have hround := Binary64.le_round_iff_of_odd (n := 5404319552844595) (by decide) (by decide)
    (by decide) (x := (measuredValue : ℚ) / threshold)
  push_cast at hround
  rw [hround, lt_div_iff₀ h]
  constructor <;> intro hlt <;> linarith

/-- For a negative threshold, the ratio is at least 1 where the value is at the threshold or
below. -/
theorem one_le_ratio_of_neg (h : (threshold : ℚ) < 0) :
    1 ≤ ratio measuredValue threshold ↔ (measuredValue : ℚ) ≤ threshold := by
  rw [ratio, if_pos h.ne, ← neg_div_neg_eq, Binary64.one_le_round_div_iff
    measuredValue.representable.neg threshold.representable.neg (neg_pos.mpr h), neg_le_neg_iff]

/-- The two paths see the same values at 120% of a positive threshold: what is missing from it is
less than the one rounds off the quotient just when it is less than the other rounds off the
product. -/
def SameBoundary (measuredValue threshold : ℚ) : Prop :=
  let missing := threshold * criticalRatio - measuredValue
  let ulp := Binary64.ulp (threshold * criticalRatio)
  missing < threshold / 2 ^ 53 ↔
    missing < ulp / 2 ∨ missing = ulp / 2 ∧ ∃ k : ℤ, measuredValue = 2 * k * ulp

theorem sameBoundary_iff (h : (0 : ℚ) < threshold) : SameBoundary measuredValue threshold ↔
    (criticalRatio ≤ ratio measuredValue threshold ↔
      Binary64.round (threshold * criticalRatio) ≤ measuredValue) := by
  have hpos : 0 < threshold * criticalRatio := mul_pos h (by decide +kernel)
  rw [criticalRatio_le_ratio_of_pos h, Binary64.round_le_iff measuredValue.representable hpos]
  rfl

/-- The comparisons of the two paths are those with the threshold where it is positive and they
see the same values at 120% of it, or where it is 0 and the value negative. -/
theorem comparisons_iff :
    ((1 ≤ ratio measuredValue threshold ↔ (threshold : ℚ) ≤ measuredValue) ∧
      (criticalRatio ≤ ratio measuredValue threshold ↔
        Binary64.round (threshold * criticalRatio) ≤ measuredValue)) ↔
    (0 : ℚ) < threshold ∧ SameBoundary measuredValue threshold ∨
      (threshold : ℚ) = 0 ∧ (measuredValue : ℚ) < 0 := by
  rcases lt_trichotomy (threshold : ℚ) 0 with hneg | hzero | hpos
  · refine iff_of_false (fun ⟨hwarning, hcritical⟩ => ?_) (by simp [hneg.not_gt, hneg.ne])
    rw [one_le_ratio_of_neg hneg] at hwarning
    -- only the threshold itself is both at most and at least the threshold, and it is above 120%
    have heq : (measuredValue : ℚ) = threshold := by
      rcases le_total (measuredValue : ℚ) threshold with hle | hle
      · exact le_antisymm hle (hwarning.mp hle)
      · exact le_antisymm (hwarning.mpr hle) hle
    have habove : Binary64.round (threshold * criticalRatio) ≤ threshold := by
      refine Binary64.round_le threshold.representable ?_
      rw [criticalRatio_eq]
      linarith
    have hratio : ratio measuredValue threshold = 1 := by
      rw [ratio, if_pos hneg.ne, heq, div_self hneg.ne]
      decide +kernel
    rw [hratio, heq] at hcritical
    exact absurd (hcritical.mpr habove) (by decide +kernel)
  · have hratio : ratio measuredValue threshold = 0 := if_neg (by simp [hzero])
    rw [hratio, hzero, zero_mul, Binary64.round_zero]
    by_cases hvalue : (measuredValue : ℚ) < 0
    · refine iff_of_true ⟨iff_of_false (by norm_num) (by linarith),
        iff_of_false (by decide +kernel) (by linarith)⟩ (.inr ⟨rfl, hvalue⟩)
    · refine iff_of_false (fun ⟨hwarning, _⟩ => ?_) (by simp [hvalue])
      linarith [hwarning.mpr (le_of_not_gt hvalue)]
  · rw [one_le_ratio_of_pos hpos, ← sameBoundary_iff hpos]
    simp [hpos, hpos.ne']

end Comparisons

/-- The sample is not normal just when its value is at the threshold or above, and critical just
when the incident is. -/
def Classified (request : TelemetryRequest) (telemetry : TelemetryRecord) (incident : Incident) :
    Prop :=
  (telemetry.status ≠ "normal" ↔ (request.measuredValue : ℚ) ≥ request.threshold) ∧
    (telemetry.status = "critical" ↔ incident.severity = "critical")

/-- **Classification.**  A sample and an incident with the same value and threshold, from any runs,
are classified as they should be if and only if the threshold is positive and the two paths see the
same values at 120% of it, or it is 0 and the value negative. -/
theorem classification_iff {replica : Nat} {request : TelemetryRequest} {principal : Principal}
    {telemetry : TelemetryRecord} {w w' : platform.World}
    (hingest : platform.Ends (ingestTelemetry replica request principal) w (.ok telemetry) w')
    {virtual : VirtualIncidentRequest} {caller : Principal} {incident : Incident}
    {v v' : platform.World}
    (hsimulate : platform.Ends (simulateIncident virtual caller) v (.ok incident) v')
    (hvalue : virtual.measuredValue = request.measuredValue)
    (hthreshold : virtual.threshold = request.threshold) :
    Classified request telemetry incident ↔
      (0 : ℚ) < request.threshold ∧ SameBoundary request.measuredValue request.threshold ∨
        (request.threshold : ℚ) = 0 ∧ (request.measuredValue : ℚ) < 0 := by
  obtain ⟨_, _, rfl⟩ := received_of_ends hingest
  obtain ⟨_, _, rfl⟩ := simulated_of_ends hsimulate
  rw [Classified, simulated_severity_eq_critical, hvalue, hthreshold, TelemetryRecord.received,
    telemetryStatus_ne_normal, telemetryStatus_eq_critical]
  exact comparisons_iff

/-- The two requests, when nothing fails. -/
def ingested (request : TelemetryRequest) : Except Exc TelemetryRecord × platform.World :=
  Machine.execute [] (ingestTelemetry 0 request Sample.manager) (initialWorld .unary)

def simulated (request : VirtualIncidentRequest) : Except Exc Incident × platform.World :=
  Machine.execute [] (simulateIncident request Sample.manager) (initialWorld .unary)

theorem classification_iff_positive :
    Classified Sample.telemetry (.received Sample.telemetry "" 0)
      (.simulated Sample.incident "" 0) ↔
    (0 : ℚ) < 100 ∧ SameBoundary 120 100 ∨ (100 : ℚ) = 0 ∧ (120 : ℚ) < 0 := by
  have hingest : platform.Ends (ingestTelemetry 0 Sample.telemetry Sample.manager)
      (initialWorld .unary) (ingested Sample.telemetry).1 (ingested Sample.telemetry).2 :=
    Machine.ends_execute ..
  have hsimulate : platform.Ends (simulateIncident Sample.incident Sample.manager)
      (initialWorld .unary) (simulated Sample.incident).1 (simulated Sample.incident).2 :=
    Machine.ends_execute ..
  rw [show (ingested Sample.telemetry).1 = .ok (.received Sample.telemetry "" 0) by
    decide +kernel] at hingest
  rw [show (simulated Sample.incident).1 = .ok (.simulated Sample.incident "" 0) by
    decide +kernel] at hsimulate
  exact classification_iff hingest hsimulate rfl rfl

/-- At 8.04, where 6.7 is the limit: the quotient is rounded to the number before 1.2, the product
to 8.04. -/
example : ¬ SameBoundary (Binary64.round 8.04) (Binary64.round 6.7) := by
  intro h
  have hmissing := h.mpr (.inl (by decide +kernel))
  exact absurd hmissing (by decide +kernel)

/-- A cold store at -10 degrees, where -20 is the limit. -/
def coldStore : TelemetryRequest :=
  ⟨"store-1", "temperature", ⟨-10, by decide +kernel⟩, "C", ⟨-20, by decide +kernel⟩,
    ⟨"door open", by decide⟩⟩

def coldStoreIncident : VirtualIncidentRequest :=
  ⟨"store-1", "temperature", ⟨-10, by decide +kernel⟩, ⟨-20, by decide +kernel⟩, "E-2",
    ⟨"door open", by decide⟩⟩

/-- The cold store is far above its limit, its sample is normal, and the incident critical. -/
theorem not_classified : ¬ ∀ replica request principal telemetry w w' virtual caller incident v v',
    platform.Ends (ingestTelemetry replica request principal) w (.ok telemetry) w' →
    platform.Ends (simulateIncident virtual caller) v (.ok incident) v' →
    virtual.measuredValue = request.measuredValue → virtual.threshold = request.threshold →
    Classified request telemetry incident := by
  intro hall
  have hingest : platform.Ends (ingestTelemetry 0 coldStore Sample.manager)
      (initialWorld .unary) (ingested coldStore).1 (ingested coldStore).2 :=
    Machine.ends_execute ..
  have hsimulate : platform.Ends (simulateIncident coldStoreIncident Sample.manager)
      (initialWorld .unary) (simulated coldStoreIncident).1 (simulated coldStoreIncident).2 :=
    Machine.ends_execute ..
  rw [show (ingested coldStore).1 = .ok (.received coldStore "" 0) by decide +kernel] at hingest
  rw [show (simulated coldStoreIncident).1 = .ok (.simulated coldStoreIncident "" 0) by
    decide +kernel] at hsimulate
  obtain ⟨hwarning, -⟩ := hall _ _ _ _ _ _ _ _ _ _ _ hingest hsimulate rfl rfl
  have hstatus : (TelemetryRecord.received coldStore "" 0).status = "normal" := by decide +kernel
  exact hwarning.mpr (by decide +kernel) hstatus

end AxSentinel
