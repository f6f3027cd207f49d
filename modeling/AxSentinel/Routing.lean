import AxSentinel.Publications
import Mathlib.Data.List.Sort

/-! # Samples at many replicas

Each replica of the incident service counts the warnings of a sensor in a detector of its own.
So the trigger code of a sample depends on which of the sensor's samples its replica has seen,
and in which order; a single detector fed with all of them in the order of `received_at` may
answer otherwise (`oneDetector_iff`).  It answers alike as long as the samples of a sensor go to
one replica and are evaluated in that order (`InOrder.oneDetector`). -/
namespace AxSentinel
open Effects

/-! ## Samples -/

/-- The sample a thread has received. -/
def Composed.sample (s : Composed) (i : Nat) : Option TelemetryRecord :=
  match s.request i, past i s.history with
  | some (.ingestTelemetry _ request _),
      ⟨.inr .uuid4, .ok id⟩ :: ⟨.inl .now, .ok receivedAt⟩ :: _ =>
      some (.received request id receivedAt)
  | _, _ => none

/-- The thread has received a sample of the sensor. -/
def Composed.samplesSensor (s : Composed) (sensor : String × String) (i : Nat) : Bool :=
  (s.sample i).any fun telemetry => telemetry.signal.key = sensor

/-- When the sample of a thread was received. -/
def Composed.receivedAt (s : Composed) (i : Nat) : Instant :=
  ((s.sample i).map TelemetryRecord.receivedAt).getD 0

/-- The threads that have received the samples of the sensor, in the order of `received_at`. -/
def Composed.samples (s : Composed) (sensor : String × String) : List Nat :=
  ((List.range s.threads.length).filter (s.samplesSensor sensor)).insertionSort
    fun i j => s.receivedAt i ≤ s.receivedAt j

/-- The signals of some threads. -/
def Composed.signals (s : Composed) (threads : List Nat) : List DetectionSignal :=
  threads.filterMap fun i => (s.sample i).map TelemetryRecord.signal

/-- The signals of the sensor that were received before the sample of thread `i`. -/
def Composed.signalsBefore (s : Composed) (sensor : String × String) (i : Nat) :
    List DetectionSignal :=
  s.signals ((s.samples sensor).takeWhile (· ≠ i))

/-- The signal the replica evaluates at an event. -/
def evaluatedAt (replica : Nat) (e : Event platform) : Option DetectionSignal :=
  match e.move.op with
  | .inr (.evaluate r signal) => if r = replica then some signal else none
  | _ => none

theorem evaluatedAt_eq_some {replica : Nat} {e : Event platform} {signal : DetectionSignal} :
    evaluatedAt replica e = some signal ↔ e.move.op = .inr (.evaluate replica signal) := by
  unfold evaluatedAt
  constructor
  · intro h
    split at h
    · rename_i r signal' hop
      split at h
      · rename_i hr
        rw [hop, hr, Option.some.inj h]
      · cases h
    · cases h
  · intro hop
    rw [hop]
    exact if_pos rfl

/-- The signals the replica has evaluated. -/
def evaluated (replica : Nat) (h : List (Event platform)) : List DetectionSignal :=
  h.filterMap (evaluatedAt replica)

/-! ## The detectors of the replicas -/

section History
variable {settings : Settings} {uuids : UuidSupply} {s : Composed}

/-- Only an evaluation changes a detector. -/
theorem exec_detectors (op : platformOps.Op) (c : platform.Choice) (w : platform.World) :
    (∃ replica signal, op = .inr (.evaluate replica signal) ∧
      (platform.exec op c w).2.2.detectors =
        Function.update w.2.detectors replica ((w.2.detectors replica).evaluate signal).2) ∨
      (∀ replica signal, op ≠ .inr (.evaluate replica signal)) ∧
        (platform.exec op c w).2.2.detectors = w.2.detectors := by
  by_cases hop : ∃ replica signal, op = .inr (.evaluate replica signal)
  · obtain ⟨replica, signal, rfl⟩ := hop
    refine .inl ⟨replica, signal, rfl, ?_⟩
    rw [exec_infallible rfl]
  · refine .inr ⟨fun replica signal h => hop ⟨replica, signal, h⟩, ?_⟩
    have reliable : (reliablePlatform.exec op c.1 w).2.2.detectors = w.2.detectors := by
      match op with
      | .inl _ => rfl
      | .inr (.evaluate replica signal) => exact absurd ⟨replica, signal, rfl⟩ hop
      | .inr (.publish _) => rfl
      | .inr (.broadcast _ _) => rfl
      | .inr (.request _) => rfl
      | .inr .response => rfl
      | .inr (.generate _) => rfl
      | .inr .uuid4 => rfl
    rcases reliablePlatform.faulty_exec raises op c w with h | ⟨e, -, -, h | h⟩
    · rw [h]
      exact reliable
    · rw [h]
    · rw [h]
      exact reliable

/-- The detector of a replica was fed with what the replica has evaluated. -/
theorem detectors_eq {allowed : Nat → Moves → platformOps.Op → Prop} {h : List (Event platform)}
    {w : platform.World} (H : platform.History allowed (initialWorld uuids) h w) (replica : Nat) :
    w.2.detectors replica =
      (AnomalyDetector.new AnomalyDetector.defaultThreshold).feed (evaluated replica h) := by
  induction H with
  | nil => rfl
  | @snoc h w i op c H hok ih =>
    unfold evaluated at ih ⊢
    rw [List.filterMap_append]
    rcases exec_detectors op c w with ⟨r, signal, rfl, hdetectors⟩ | ⟨hother, hdetectors⟩
    · rw [hdetectors]
      by_cases hr : r = replica
      · subst hr
        have hat : evaluatedAt r (platform.event i (.inr (.evaluate r signal)) c w) = some signal :=
          if_pos rfl
        rw [List.filterMap_cons_some hat, List.filterMap_nil, AnomalyDetector.feed_snoc, ← ih]
        exact Function.update_self ..
      · have hat : evaluatedAt replica (platform.event i (.inr (.evaluate r signal)) c w) = none :=
          if_neg hr
        rw [List.filterMap_cons_none hat, List.filterMap_nil, List.append_nil, ← ih]
        exact Function.update_of_ne (Ne.symm hr) ..
    · have hat : evaluatedAt replica (platform.event i op c w) = none :=
        Option.eq_none_iff_forall_not_mem.mpr fun signal hsignal =>
          hother replica signal (evaluatedAt_eq_some.mp hsignal)
      rw [hdetectors, List.filterMap_cons_none hat, List.filterMap_nil, List.append_nil, ih]

/-- The answer of a detector that was fed with some signals. -/
def answer (signals : List DetectionSignal) (signal : DetectionSignal) : Option String :=
  (((AnomalyDetector.new AnomalyDetector.defaultThreshold).feed signals).evaluate signal).1

/-- Two such detectors answer alike if the signal is no warning, or ends a streak for both or
for neither. -/
theorem answer_eq_iff (signals signals' : List DetectionSignal) (signal : DetectionSignal) :
    answer signals signal = answer signals' signal ↔ (signal.status = "warning" →
      (3 ∣ trailingWarnings signal.key signals + 1 ↔
        3 ∣ trailingWarnings signal.key signals' + 1)) := by
  have hthreshold : AnomalyDetector.defaultThreshold = ((3 : Nat) : Int) := rfl
  unfold answer
  rw [hthreshold, AnomalyDetector.evaluate_feed (by decide),
    AnomalyDetector.evaluate_feed (by decide)]
  by_cases hwarning : signal.status = "warning"
  · have hcritical : signal.status ≠ "critical" := hwarning ▸ by decide
    rw [if_neg hcritical, if_neg hcritical]
    by_cases hleft : 3 ∣ trailingWarnings signal.key signals + 1
    · by_cases hright : 3 ∣ trailingWarnings signal.key signals' + 1
      · simp [hleft, hright]
      · simp [hwarning, hleft, hright]
    · by_cases hright : 3 ∣ trailingWarnings signal.key signals' + 1
      · simp [hwarning, hleft, hright]
      · simp [hleft, hright]
  · simp [hwarning]

/-- A thread that has received a sample, from its first moves. -/
theorem sample_eq {i : Nat} {replica : Nat} {request : TelemetryRequest} {principal : Principal}
    {id : String} {receivedAt : Instant} {more : Moves}
    (hrequest : s.request i = some (.ingestTelemetry replica request principal))
    (hpast : past i s.history = ⟨.inr .uuid4, .ok id⟩ :: ⟨.inl .now, .ok receivedAt⟩ :: more) :
    s.sample i = some (.received request id receivedAt) := by
  unfold Composed.sample
  rw [hrequest, hpast]

/-- A replica evaluates the sample its thread has received, and answers as a detector that was
fed with what the replica had evaluated. -/
theorem evaluation (hs : Composed.Reachable settings uuids s) {n : Nat} {e : Event platform}
    (hn : s.history[n]? = some e) {replica : Nat} {signal : DetectionSignal}
    (hop : e.move.op = .inr (.evaluate replica signal)) :
    e.move = ⟨.inr (.evaluate replica signal),
        .ok (answer (evaluated replica (s.history.take n)) signal)⟩ ∧
      ∃ telemetry, s.sample e.thread = some telemetry ∧ telemetry.signal = signal := by
  obtain ⟨request, hrequest, hemits⟩ := hs.emitted hn
  obtain ⟨H, -, c, hevent⟩ := hs.history.at_position hn
  rw [hop] at hemits hevent
  obtain ⟨telemetry, principal, id, receivedAt, rfl, rfl, hprefix, -⟩ := hemits
  constructor
  · have hmove := congrArg Event.move hevent
    unfold Machine.event at hmove
    rw [exec_infallible rfl] at hmove
    rw [answer, ← detectors_eq H replica]
    exact hmove
  · obtain ⟨more, hmore⟩ := hprefix
    have happend := past_append e.thread (s.history.take n) (s.history.drop n)
    rw [List.take_append_drop, ← hmore] at happend
    exact ⟨_, sample_eq hrequest happend, rfl⟩

/-! ## Routing -/

/-- Every trigger code is the one a single detector returns that is fed with the samples of the
sensor in the order of `received_at`. -/
def OneDetector (s : Composed) : Prop :=
  ∀ e ∈ s.history, ∀ replica signal trigger,
    e.move = ⟨.inr (.evaluate replica signal), .ok trigger⟩ →
    ∃ telemetry, s.sample e.thread = some telemetry ∧
      trigger = answer (s.signalsBefore telemetry.signal.key e.thread) telemetry.signal

/-- At every warning, the warnings in a row its replica has seen of the sensor and the ones the
sensor has sent up to then complete a streak together or neither does. -/
def StreaksAgree (s : Composed) : Prop :=
  ∀ n e replica signal, s.history[n]? = some e → e.move.op = .inr (.evaluate replica signal) →
    signal.status = "warning" →
    (3 ∣ trailingWarnings signal.key (evaluated replica (s.history.take n)) + 1 ↔
      3 ∣ trailingWarnings signal.key (s.signalsBefore signal.key e.thread) + 1)

/-- **Detection and routing.**  The replicas answer as one detector exactly if the streaks they
count agree with the streaks of the sensors. -/
theorem oneDetector_iff (hs : Composed.Reachable settings uuids s) :
    OneDetector s ↔ StreaksAgree s := by
  constructor
  · intro hone n e replica signal hn hop
    obtain ⟨hmove, -⟩ := evaluation hs hn hop
    obtain ⟨telemetry, hsample, htrigger⟩ :=
      hone e (List.mem_of_getElem? hn) replica signal _ hmove
    obtain ⟨-, telemetry', hsample', rfl⟩ := evaluation hs hn hop
    obtain rfl := Option.some.inj (hsample.symm.trans hsample')
    exact (answer_eq_iff _ _ _).mp htrigger
  · intro hagree e he replica signal trigger hmove
    obtain ⟨n, hn⟩ := List.mem_iff_getElem?.mp he
    have hop : e.move.op = .inr (.evaluate replica signal) := congrArg Move.op hmove
    obtain ⟨hmove', telemetry, hsample, rfl⟩ := evaluation hs hn hop
    refine ⟨telemetry, hsample, ?_⟩
    have hreply := eq_of_heq (Move.mk.inj (hmove.symm.trans hmove')).2
    rw [Except.ok.inj hreply]
    exact (answer_eq_iff _ _ _).mpr (hagree n e replica _ hn hop)

/-! ## One replica for a sensor, in order -/

/-- At every evaluation, the samples of the sensor that the replica has evaluated are the ones
that were received before. -/
def InOrder (s : Composed) : Prop :=
  ∀ n e replica signal, s.history[n]? = some e → e.move.op = .inr (.evaluate replica signal) →
    ∀ j, j ∈ (s.samples signal.key).takeWhile (· ≠ e.thread) ↔
      ∃ (m : Nat) (d : Event platform) (signal' : DetectionSignal), m < n ∧
        s.history[m]? = some d ∧ d.move.op = .inr (.evaluate replica signal') ∧
        signal'.key = signal.key ∧ d.thread = j

end History

/-- In a list without duplicates, every element comes before the ones after it. -/
theorem pairwise_takeWhile {l : List Nat} (hl : l.Nodup) :
    l.Pairwise fun i j => i ∈ l.takeWhile (· ≠ j) := by
  induction l with
  | nil => exact .nil
  | cons a l ih =>
    obtain ⟨ha, hl⟩ := List.nodup_cons.mp hl
    have hne : ∀ j ∈ l, a ≠ j := fun j hj h => ha (h ▸ hj)
    refine .cons (fun j hj => ?_) ((ih hl).imp_of_mem fun hi hj hij => ?_)
    · rw [List.takeWhile_cons_of_pos (by simpa using hne j hj)]
      exact List.mem_cons_self ..
    · rw [List.takeWhile_cons_of_pos (by simpa using hne _ hj)]
      exact List.mem_cons_of_mem _ hij

/-- No two elements come before each other. -/
theorem not_mem_takeWhile {l : List Nat} {i j : Nat} (hi : i ∈ l.takeWhile (· ≠ j)) :
    j ∉ l.takeWhile (· ≠ i) := by
  induction l with
  | nil => cases hi
  | cons a l ih =>
    by_cases haj : a = j
    · rw [List.takeWhile_cons_of_neg (by simpa using haj)] at hi
      cases hi
    · by_cases hai : a = i
      · rw [List.takeWhile_cons_of_neg (by simpa using hai)]
        exact List.not_mem_nil
      · rw [List.takeWhile_cons_of_pos (by simpa using haj)] at hi
        rw [List.takeWhile_cons_of_pos (by simpa using hai)]
        have htail : i ∈ l.takeWhile (· ≠ j) := (List.mem_cons.mp hi).resolve_left (Ne.symm hai)
        exact fun hj => ih htail ((List.mem_cons.mp hj).resolve_left (Ne.symm haj))

section History
variable {settings : Settings} {uuids : UuidSupply} {s : Composed}

/-- The thread whose sample of the sensor the replica evaluates at an event. -/
def threadAt (replica : Nat) (sensor : String × String) (e : Event platform) : Option Nat :=
  (evaluatedAt replica e).bind fun signal => if signal.key = sensor then some e.thread else none

theorem threadAt_eq_some {replica : Nat} {sensor : String × String} {e : Event platform} {j : Nat} :
    threadAt replica sensor e = some j ↔ ∃ signal, e.move.op = .inr (.evaluate replica signal) ∧
      signal.key = sensor ∧ e.thread = j := by
  simp [threadAt, Option.bind_eq_some_iff, evaluatedAt_eq_some]

/-- The threads whose samples of the sensor the replica has evaluated, in that order, are the
ones of the samples received before. -/
theorem InOrder.threads (h : InOrder s) {n : Nat} {e : Event platform} {replica : Nat}
    {signal : DetectionSignal} (hn : s.history[n]? = some e)
    (hop : e.move.op = .inr (.evaluate replica signal)) :
    (s.history.take n).filterMap (threadAt replica signal.key) =
      (s.samples signal.key).takeWhile (· ≠ e.thread) := by
  have hnodup : (s.samples signal.key).Nodup :=
    (List.perm_insertionSort _ _).nodup_iff.mpr (List.nodup_range.filter _)
  have hevaluated : ((s.history.take n).filterMap (threadAt replica signal.key)).Pairwise
      fun i j => i ∈ (s.samples signal.key).takeWhile (· ≠ j) := by
    refine List.pairwise_filterMap.mpr (List.pairwise_iff_getElem.mpr ?_)
    intro m m' hm hm' hlt i hi j hj
    obtain ⟨x, hxop, hxkey, rfl⟩ := threadAt_eq_some.mp hi
    obtain ⟨y, hyop, hykey, rfl⟩ := threadAt_eq_some.mp hj
    rw [List.getElem_take] at hxop hyop ⊢
    rw [List.getElem_take]
    have hat := List.getElem?_eq_getElem (l := s.history) (i := m) (by simp at hm; omega)
    have hat' := List.getElem?_eq_getElem (l := s.history) (i := m') (by simp at hm'; omega)
    rw [← hykey]
    exact (h m' _ _ _ hat' hyop _).mpr ⟨m, _, x, hlt, hat, hxop, hxkey.trans hykey.symm, rfl⟩
  have hreceived := (pairwise_takeWhile hnodup).sublist
    (List.takeWhile_sublist (l := s.samples signal.key) (· ≠ e.thread))
  have hirrefl : ∀ {l : List Nat},
      l.Pairwise (fun i j => i ∈ (s.samples signal.key).takeWhile (· ≠ j)) →
      l.Nodup := by
    refine fun hl => hl.imp ?_
    rintro i j hij rfl
    exact not_mem_takeWhile hij hij
  refine List.Perm.eq_of_pairwise (fun i j _ _ hij hji => absurd hji (not_mem_takeWhile hij))
    hevaluated hreceived
    ((List.perm_ext_iff_of_nodup (hirrefl hevaluated) (hirrefl hreceived)).mpr ?_)
  intro j
  rw [h n e replica signal hn hop j, List.mem_filterMap]
  constructor
  · rintro ⟨d, hd, hj⟩
    obtain ⟨x, hxop, hxkey, rfl⟩ := threadAt_eq_some.mp hj
    obtain ⟨m, hm⟩ := List.mem_iff_getElem?.mp hd
    rw [List.getElem?_take] at hm
    split at hm
    · exact ⟨m, d, x, ‹_›, hm, hxop, hxkey, rfl⟩
    · cases hm
  · rintro ⟨m, d, x, hlt, hm, hxop, hxkey, rfl⟩
    refine ⟨d, List.mem_of_getElem? (i := m) ?_, threadAt_eq_some.mpr ⟨x, hxop, hxkey, rfl⟩⟩
    rw [List.getElem?_take, if_pos hlt, hm]

/-- So are their signals. -/
theorem InOrder.signals (hs : Composed.Reachable settings uuids s) (h : InOrder s) {n : Nat}
    {e : Event platform} {replica : Nat} {signal : DetectionSignal} (hn : s.history[n]? = some e)
    (hop : e.move.op = .inr (.evaluate replica signal)) :
    (evaluated replica (s.history.take n)).filter (·.key = signal.key) =
      s.signalsBefore signal.key e.thread := by
  unfold Composed.signalsBefore Composed.signals evaluated
  rw [← h.threads hn hop, List.filterMap_filterMap, List.filter_filterMap]
  refine List.filterMap_congr fun d hd => ?_
  obtain ⟨m, hm⟩ := List.mem_iff_getElem?.mp (List.mem_of_mem_take hd)
  unfold threadAt
  cases hat : evaluatedAt replica d with
  | none => rfl
  | some signal' =>
    obtain ⟨-, telemetry, hsample, rfl⟩ := evaluation hs hm (evaluatedAt_eq_some.mp hat)
    by_cases hkey : telemetry.signal.key = signal.key
    · simp [hkey, hsample]
    · simp [hkey]

/-- **One replica for a sensor.**  Samples that are evaluated in the order of `received_at`, by
one replica for each sensor, are answered as by one detector. -/
theorem InOrder.oneDetector (hs : Composed.Reachable settings uuids s) (h : InOrder s) :
    OneDetector s := by
  intro e he replica signal trigger hmove
  obtain ⟨n, hn⟩ := List.mem_iff_getElem?.mp he
  have hop : e.move.op = .inr (.evaluate replica signal) := congrArg Move.op hmove
  obtain ⟨hmove', telemetry, hsample, rfl⟩ := evaluation hs hn hop
  have hreply := eq_of_heq (Move.mk.inj (hmove.symm.trans hmove')).2
  refine ⟨telemetry, hsample, (Except.ok.inj hreply).trans ((answer_eq_iff _ _ _).mpr fun _ => ?_)⟩
  rw [← h.signals hs hn hop, trailingWarnings_filter]

end History

namespace Sample

/-- Warnings of one sensor at the given replicas, one after the other, on a clock that moves. -/
def warningsAt (replicas : List Nat) : Composed :=
  System.run (Request.code direct)
    (replicas.zipIdx.flatMap fun (replica, i) =>
      .arrive (.ingestTelemetry replica warning manager) ::
        List.replicate 16 (.advance i ((i + 1, default), default)))
    (System.start (initialWorld uuids))

theorem reachable_warningsAt (replicas : List Nat) :
    Composed.Reachable direct uuids (warningsAt replicas) := ⟨_, rfl⟩

end Sample

/-- Three warnings at one replica. -/
def pinnedWarnings : Composed := Sample.warningsAt [0, 0, 0]

/-- Whether the streaks agree at an event of the run at position `n`. -/
def pinnedAgreeAt (n : Nat) (e : Event platform) : Bool :=
  match e.move.op with
  | .inr (.evaluate replica signal) =>
      decide (
        3 ∣ trailingWarnings signal.key (evaluated replica (pinnedWarnings.history.take n)) + 1 ↔
        3 ∣ trailingWarnings signal.key (pinnedWarnings.signalsBefore signal.key e.thread) + 1)
  | _ => true

theorem oneDetector_pinnedWarnings : OneDetector pinnedWarnings := by
  have hreach : Composed.Reachable Sample.direct Sample.uuids pinnedWarnings :=
    Sample.reachable_warningsAt _
  refine (oneDetector_iff hreach).mpr ?_
  intro n e replica signal hn hop _
  have hlength : pinnedWarnings.history.length = 32 := by decide +kernel
  have hagree : ∀ n < 32, (pinnedWarnings.history[n]?).all (pinnedAgreeAt n) = true := by
    decide +kernel
  have hat := hagree n (hlength ▸ (List.getElem?_eq_some_iff.mp hn).1)
  rw [hn, Option.all_some, pinnedAgreeAt, hop] at hat
  exact of_decide_eq_true hat

/-- Three warnings, the second of them at another replica. -/
def scatteredWarnings : Composed := Sample.warningsAt [0, 1, 0]

/-- The third warning does not trigger. -/
theorem not_oneDetector : ¬ ∀ settings uuids s,
    Composed.Reachable settings uuids s → OneDetector s := by
  intro hall
  have hreach : Composed.Reachable Sample.direct Sample.uuids scatteredWarnings :=
    Sample.reachable_warningsAt _
  let signal : DetectionSignal := ⟨"pump-1", "temperature", "warning"⟩
  have hthird : (scatteredWarnings.history[23]?).bind (evaluatedAt 0) = some signal ∧
      (scatteredWarnings.history[23]?).map Event.thread = some 2 := by decide +kernel
  obtain ⟨e, he, hat⟩ := Option.bind_eq_some_iff.mp hthird.1
  have hthread : e.thread = 2 := by simpa [he] using hthird.2
  obtain ⟨hmove, telemetry, hsample, hsignal⟩ :=
    evaluation hreach he (evaluatedAt_eq_some.mp hat)
  obtain ⟨telemetry', hsample', htrigger⟩ :=
    hall _ _ _ hreach e (List.mem_of_getElem? he) 0 signal _ hmove
  obtain rfl := Option.some.inj (hsample.symm.trans hsample')
  have hnone : answer (evaluated 0 (scatteredWarnings.history.take 23)) signal = none := by
    decide +kernel
  have htriggers : answer (scatteredWarnings.signalsBefore signal.key 2) signal =
      some "AUTO-WARNING-STREAK" := by decide +kernel
  rw [hsignal, hthread, hnone, htriggers] at htrigger
  cases htrigger

end AxSentinel
