import Mathlib.Data.List.Induction
import Mathlib.Logic.Function.Basic

/-! # Anomaly detection

`services/incident/app/detection.py`: the detector that turns the samples of a
sensor into trigger codes, and its state. -/
namespace AxSentinel

/-- A sample as the detector sees it. -/
structure DetectionSignal where
  equipmentId : String
  sensorType : String
  status : String
deriving DecidableEq, Repr

/-- The pair of an equipment and a sensor type, which streaks are counted for. -/
def DetectionSignal.key (signal : DetectionSignal) : String × String :=
  (signal.equipmentId, signal.sensorType)

/-- The detector's threshold and its streak counters, 0 where none is stored. -/
structure AnomalyDetector where
  warningStreakThreshold : Int
  warningStreaks : String × String → Nat

namespace AnomalyDetector

/-- `AnomalyDetector(warning_streak_threshold)`. -/
def new (warningStreakThreshold : Int) : AnomalyDetector :=
  ⟨warningStreakThreshold, fun _ => 0⟩

/-- The default threshold. -/
def defaultThreshold : Int := 3

/-- `self._warning_streaks[key] = n`. -/
def setStreak (detector : AnomalyDetector) (key : String × String) (n : Nat) : AnomalyDetector :=
  { detector with warningStreaks := Function.update detector.warningStreaks key n }

/-- `AnomalyDetector.evaluate`: the trigger code, if any, and the detector after
it. -/
def evaluate (detector : AnomalyDetector) (signal : DetectionSignal) :
    Option String × AnomalyDetector :=
  let key := signal.key
  if signal.status = "critical" then
    (some "AUTO-CRITICAL", detector.setStreak key 0)
  else if signal.status ≠ "warning" then
    (none, detector.setStreak key 0)
  else
    let streak := detector.warningStreaks key + 1
    if (streak : Int) < detector.warningStreakThreshold then
      (none, detector.setStreak key streak)
    else
      (some "AUTO-WARNING-STREAK", detector.setStreak key 0)

/-- The detector after a sequence of samples. -/
def feed (detector : AnomalyDetector) (signals : List DetectionSignal) : AnomalyDetector :=
  signals.foldl (fun d signal => (d.evaluate signal).2) detector

theorem feed_append (detector : AnomalyDetector) (signals signals' : List DetectionSignal) :
    detector.feed (signals ++ signals') = (detector.feed signals).feed signals' := by
  simp [feed]

theorem feed_snoc (detector : AnomalyDetector) (signals : List DetectionSignal)
    (signal : DetectionSignal) :
    detector.feed (signals ++ [signal]) = ((detector.feed signals).evaluate signal).2 := by
  simp [feed]

@[simp] theorem setStreak_same (detector : AnomalyDetector) (key : String × String) (n : Nat) :
    (detector.setStreak key n).warningStreaks key = n := Function.update_self ..

theorem setStreak_other (detector : AnomalyDetector) {key key' : String × String}
    (h : key' ≠ key) (n : Nat) :
    (detector.setStreak key n).warningStreaks key' = detector.warningStreaks key' :=
  Function.update_of_ne h ..

/-- A sample leaves the threshold, and the streaks of other sensors, alone. -/
theorem evaluate_other (detector : AnomalyDetector) (signal : DetectionSignal) :
    (detector.evaluate signal).2.warningStreakThreshold = detector.warningStreakThreshold ∧
      ∀ key, key ≠ signal.key →
        (detector.evaluate signal).2.warningStreaks key = detector.warningStreaks key := by
  simp only [evaluate]
  split
  · exact ⟨rfl, fun key hkey => setStreak_other _ hkey _⟩
  · split
    · exact ⟨rfl, fun key hkey => setStreak_other _ hkey _⟩
    · split
      · exact ⟨rfl, fun key hkey => setStreak_other _ hkey _⟩
      · exact ⟨rfl, fun key hkey => setStreak_other _ hkey _⟩

/-- The detectors agree on the sensor: they have its streak, and the threshold, in
common. -/
def AgreesOn (key : String × String) (d d' : AnomalyDetector) : Prop :=
  d.warningStreakThreshold = d'.warningStreakThreshold ∧
    d.warningStreaks key = d'.warningStreaks key

/-- Detectors that agree on the sensor of a sample answer it alike, and agree after
it. -/
theorem AgreesOn.evaluate {signal : DetectionSignal} {d d' : AnomalyDetector}
    (h : AgreesOn signal.key d d') : (d.evaluate signal).1 = (d'.evaluate signal).1 ∧
      AgreesOn signal.key (d.evaluate signal).2 (d'.evaluate signal).2 := by
  obtain ⟨hthreshold, hstreak⟩ := h
  simp only [AnomalyDetector.evaluate, hthreshold, hstreak]
  split
  · exact ⟨rfl, hthreshold, by simp⟩
  · split
    · exact ⟨rfl, hthreshold, by simp⟩
    · split
      · exact ⟨rfl, hthreshold, by simp⟩
      · exact ⟨rfl, hthreshold, by simp⟩

/-- For a sensor, only its own samples count. -/
theorem feed_agreesOn (key : String × String) (detector : AnomalyDetector)
    (signals : List DetectionSignal) :
    AgreesOn key (detector.feed signals) (detector.feed (signals.filter (·.key = key))) := by
  induction signals using List.reverseRecOn with
  | nil => exact ⟨rfl, rfl⟩
  | append_singleton signals signal ih =>
    rw [feed_snoc, List.filter_append]
    by_cases hkey : signal.key = key
    · subst hkey
      rw [List.filter_cons_of_pos (by simp), List.filter_nil, feed_snoc]
      exact ih.evaluate.2
    · rw [List.filter_cons_of_neg (by simpa using hkey), List.filter_nil, List.append_nil]
      obtain ⟨hthreshold, hstreaks⟩ := (detector.feed signals).evaluate_other signal
      exact ⟨hthreshold.trans ih.1, (hstreaks key (Ne.symm hkey)).trans ih.2⟩

end AnomalyDetector

/-! ## What a detector answers -/

/-- How many warnings of a sensor in a row a sequence of samples ends in. -/
def trailingWarnings (key : String × String) (signals : List DetectionSignal) : Nat :=
  ((signals.filter (·.key = key)).reverse.takeWhile (·.status = "warning")).length

theorem trailingWarnings_snoc (key : String × String) (signals : List DetectionSignal)
    (signal : DetectionSignal) : trailingWarnings key (signals ++ [signal]) =
      if signal.key = key then
        if signal.status = "warning" then trailingWarnings key signals + 1 else 0
      else trailingWarnings key signals := by
  unfold trailingWarnings
  rw [List.filter_append]
  by_cases hkey : signal.key = key
  · rw [if_pos hkey, List.filter_cons_of_pos (by simpa using hkey), List.filter_nil,
      List.reverse_append, List.reverse_singleton, List.singleton_append]
    by_cases hwarning : signal.status = "warning"
    · simp [hwarning]
    · simp [hwarning]
  · simp [hkey]

/-- Only the samples of the sensor count. -/
theorem trailingWarnings_filter (key : String × String) (signals : List DetectionSignal) :
    trailingWarnings key (signals.filter (·.key = key)) = trailingWarnings key signals := by
  unfold trailingWarnings
  rw [List.filter_filter]
  simp only [Bool.and_self]

namespace AnomalyDetector

/-- The streak of a sensor counts its last warnings, and starts again at the threshold. -/
theorem feed_streak {threshold : Nat} (hpos : 0 < threshold) (key : String × String)
    (signals : List DetectionSignal) :
    ((new threshold).feed signals).warningStreakThreshold = threshold ∧
      ((new threshold).feed signals).warningStreaks key =
        trailingWarnings key signals % threshold := by
  induction signals using List.reverseRecOn with
  | nil => exact ⟨rfl, (Nat.zero_mod _).symm⟩
  | append_singleton signals signal ih =>
    obtain ⟨hthreshold, hstreak⟩ := ih
    obtain ⟨hsame, hother⟩ := ((new threshold).feed signals).evaluate_other signal
    rw [feed_snoc, trailingWarnings_snoc]
    refine ⟨hsame.trans hthreshold, ?_⟩
    by_cases hkey : signal.key = key
    · subst hkey
      rw [if_pos rfl]
      simp only [evaluate, hthreshold, hstreak]
      have hlt := Nat.mod_lt (trailingWarnings signal.key signals) hpos
      by_cases hwarning : signal.status = "warning"
      · rw [if_pos hwarning, if_neg (by simp [hwarning]), if_neg (by simp [hwarning]),
          ← Nat.mod_add_mod]
        split
        · rw [setStreak_same]
          exact (Nat.mod_eq_of_lt (by omega)).symm
        · have hreached : trailingWarnings signal.key signals % threshold + 1 = threshold := by
            omega
          rw [setStreak_same, hreached, Nat.mod_self]
      · rw [if_neg hwarning, if_pos (show signal.status ≠ "warning" from hwarning), Nat.zero_mod]
        split
        · exact setStreak_same ..
        · exact setStreak_same ..
    · rw [if_neg hkey, hother key (Ne.symm hkey), hstreak]

/-- **The answers of a detector.**  A critical sample always triggers, a warning when it
completes a streak, and no other sample does. -/
theorem evaluate_feed {threshold : Nat} (hpos : 0 < threshold) (signals : List DetectionSignal)
    (signal : DetectionSignal) : (((new threshold).feed signals).evaluate signal).1 =
      if signal.status = "critical" then some "AUTO-CRITICAL"
      else if signal.status = "warning" ∧ threshold ∣ trailingWarnings signal.key signals + 1 then
        some "AUTO-WARNING-STREAK"
      else none := by
  obtain ⟨hthreshold, hstreak⟩ := feed_streak hpos signal.key signals
  simp only [evaluate, hthreshold, hstreak]
  by_cases hcritical : signal.status = "critical"
  · rw [if_pos hcritical, if_pos hcritical]
  rw [if_neg hcritical, if_neg hcritical]
  by_cases hwarning : signal.status = "warning"
  · have hlt := Nat.mod_lt (trailingWarnings signal.key signals) hpos
    have hdvd : threshold ∣ trailingWarnings signal.key signals + 1 ↔
        ¬ ((trailingWarnings signal.key signals % threshold + 1 : Nat) : Int) < threshold := by
      rw [Nat.dvd_iff_mod_eq_zero, ← Nat.mod_add_mod]
      constructor
      · intro hzero hbelow
        rw [Nat.mod_eq_of_lt (by omega)] at hzero
        omega
      · intro hreached
        have heq : trailingWarnings signal.key signals % threshold + 1 = threshold := by omega
        rw [heq, Nat.mod_self]
    rw [if_neg (by simp [hwarning])]
    by_cases hbelow :
        ((trailingWarnings signal.key signals % threshold + 1 : Nat) : Int) < threshold
    · rw [if_pos hbelow, if_neg fun h => hdvd.mp h.2 hbelow]
    · rw [if_neg hbelow, if_pos ⟨hwarning, hdvd.mpr hbelow⟩]
  · rw [if_pos (show signal.status ≠ "warning" from hwarning), if_neg fun h => hwarning h.1]

/-! ## A whole stream -/

/-- The answers to a sequence of samples. -/
def answers (detector : AnomalyDetector) : List DetectionSignal → List (Option String)
  | [] => []
  | signal :: signals =>
      (detector.evaluate signal).1 :: (detector.evaluate signal).2.answers signals

/-- The answer to a sample is the one of the detector that has seen the samples before it. -/
theorem answers_getElem? (detector : AnomalyDetector) (earlier later : List DetectionSignal)
    (signal : DetectionSignal) :
    (detector.answers (earlier ++ signal :: later))[earlier.length]? =
      some ((detector.feed earlier).evaluate signal).1 := by
  induction earlier generalizing detector with
  | nil => rfl
  | cons first earlier ih => exact ih (detector.evaluate first).2

/-- The answers for a sensor are those to its own samples. -/
theorem AgreesOn.answers {key : String × String} {d d' : AnomalyDetector} (h : AgreesOn key d d')
    (signals : List DetectionSignal) :
    ((signals.zip (d.answers signals)).filter (·.1.key = key)).map Prod.snd =
      d'.answers (signals.filter (·.key = key)) := by
  induction signals generalizing d d' with
  | nil => rfl
  | cons signal signals ih =>
    rw [AnomalyDetector.answers, List.zip_cons_cons]
    by_cases hkey : signal.key = key
    · subst hkey
      obtain ⟨hanswer, hagrees⟩ := h.evaluate
      rw [List.filter_cons_of_pos (by simp), List.filter_cons_of_pos (by simp), List.map_cons,
        ih hagrees, hanswer, AnomalyDetector.answers]
    · obtain ⟨hthreshold, hstreaks⟩ := d.evaluate_other signal
      rw [List.filter_cons_of_neg (by simpa using hkey),
        List.filter_cons_of_neg (by simpa using hkey)]
      exact ih ⟨hthreshold.trans h.1, (hstreaks key (Ne.symm hkey)).trans h.2⟩

/-- The sample is a warning, and with it the unbroken run of its sensor's warnings is a multiple
of the threshold. -/
def CompletesStreak (threshold : Nat) (earlier : List DetectionSignal)
    (signal : DetectionSignal) : Prop :=
  signal.status = "warning" ∧
    ∃ k, 1 ≤ k ∧ trailingWarnings signal.key (earlier ++ [signal]) = k * threshold

theorem completesStreak_iff {threshold : Nat} {earlier : List DetectionSignal}
    {signal : DetectionSignal} : CompletesStreak threshold earlier signal ↔
      signal.status = "warning" ∧ threshold ∣ trailingWarnings signal.key earlier + 1 := by
  refine and_congr_right fun hwarning => ?_
  rw [trailingWarnings_snoc, if_pos rfl, if_pos hwarning]
  constructor
  · rintro ⟨k, -, hk⟩
    exact ⟨k, hk.trans (Nat.mul_comm ..)⟩
  · rintro ⟨k, hk⟩
    have hne : k ≠ 0 := by
      rintro rfl
      omega
    exact ⟨k, Nat.pos_of_ne_zero hne, hk.trans (Nat.mul_comm ..)⟩

/-- **Streaks.**  In every stream of samples of any sensors: the answer to a sample is
`AUTO-CRITICAL` for a critical one, `AUTO-WARNING-STREAK` for a warning that completes a streak,
and none for any other; and what is answered for a sensor is what its own samples alone would
be. -/
theorem streaks_answered {threshold : Nat} (hpos : 1 ≤ threshold) (signals : List DetectionSignal) :
    (∀ earlier signal later, signals = earlier ++ signal :: later →
      ∃ answer, ((new threshold).answers signals)[earlier.length]? = some answer ∧
        (answer = some "AUTO-CRITICAL" ↔ signal.status = "critical") ∧
        (answer = some "AUTO-WARNING-STREAK" ↔ CompletesStreak threshold earlier signal) ∧
        (answer = none ↔
          signal.status ≠ "critical" ∧ ¬ CompletesStreak threshold earlier signal)) ∧
    ∀ key, ((signals.zip ((new threshold).answers signals)).filter (·.1.key = key)).map Prod.snd =
      (new threshold).answers (signals.filter (·.key = key)) := by
  refine ⟨?_, fun key => AgreesOn.answers ⟨rfl, rfl⟩ signals⟩
  rintro earlier signal later rfl
  refine ⟨_, answers_getElem? _ earlier later signal, ?_⟩
  rw [evaluate_feed hpos, completesStreak_iff]
  by_cases hcritical : signal.status = "critical"
  · simp [hcritical]
  · rw [if_neg hcritical]
    by_cases hcompletes : signal.status = "warning" ∧
        threshold ∣ trailingWarnings signal.key earlier + 1
    · rw [if_pos hcompletes]
      simp [hcompletes]
    · rw [if_neg hcompletes]
      simp [hcritical, hcompletes]

theorem streaks_answered_third : ∃ answer,
    ((new (3 : Nat)).answers (List.replicate 7 ⟨"EQ-1", "vibration", "warning"⟩))[5]? =
      some answer ∧
    (answer = some "AUTO-WARNING-STREAK" ↔
      CompletesStreak 3 (List.replicate 5 ⟨"EQ-1", "vibration", "warning"⟩)
        ⟨"EQ-1", "vibration", "warning"⟩) := by
  obtain ⟨hanswers, -⟩ := streaks_answered (show 1 ≤ 3 by decide)
    (List.replicate 7 ⟨"EQ-1", "vibration", "warning"⟩)
  obtain ⟨answer, hanswer, -, hstreak, -⟩ :=
    hanswers (List.replicate 5 ⟨"EQ-1", "vibration", "warning"⟩) ⟨"EQ-1", "vibration", "warning"⟩
      [⟨"EQ-1", "vibration", "warning"⟩] rfl
  exact ⟨answer, hanswer, hstreak⟩

end AnomalyDetector
end AxSentinel
