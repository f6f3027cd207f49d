import AxSentinel.Polling

/-! # Committed offsets and handled records

A run of the worker is a sequence of iterations of the polling loop and of restarts,
which may come at any point of an iteration.  As long as no exception leaves the record
loop without a restart, every record below a committed offset has been handled
(`committed_handled`).  An exception that does leave it, from `_dead_letter` or from a
`seek`, is caught around the loop, the positions stay where the poll put them, and a
later commit skips the records in between (`not_committedHandled`). -/
namespace AxSentinel
open Effects Worker
open Python (Json Str)

/-- The records of a partition below an offset are handled. -/
abbrev HandledBelow (rt : Runtime) (log : Log) (uuids : UuidSupply) (w : KafkaWorld)
    (tp : TopicPartition) (stop : Nat) : Prop := HandledBetween rt log uuids w tp 0 stop

/-- Every record below a committed offset is handled. -/
def CommittedHandled (rt : Runtime) (log : Log) (uuids : UuidSupply) (w : KafkaWorld) : Prop :=
  ∀ tp, HandledBelow rt log uuids w tp (w.2.committed tp)

/-- A new consumer group, before the first poll. -/
def KafkaWorld.start (uuids : UuidSupply) : KafkaWorld :=
  (∅, ⟨fun _ => 0, fun _ => 0, fun _ => none, [], [], uuids, 0⟩)

/-- What a restart leaves: the positions are the committed offsets again, and the attempts
are forgotten. -/
def KafkaWorld.restarted (w : KafkaWorld) : KafkaWorld :=
  (w.1, { w.2 with positions := w.2.committed, attempts := fun _ => none })

/-- The steps of a run.  An escape is an iteration in which an exception left the record
loop. -/
inductive StepKind where
  | iteration | escape | restart
deriving DecidableEq

section Steps
variable (worker : KafkaEventWorker) (log : Log)

/-- One step of a run. -/
inductive KafkaStep : StepKind → KafkaWorld → KafkaWorld → Prop
  | pollFailed {w w₁ w' : KafkaWorld} {e out} :
      (kafka worker.runtime log .any).Ends (run .poll) w (.error e) w₁ →
      (kafka worker.runtime log .any).Ends (KafkaEventWorker.recover e) w₁ out w' →
      KafkaStep .iteration w w'
  | iterated {w w₁ w₂ w' : KafkaWorld} {batches flags} :
      (kafka worker.runtime log .any).Ends (run .poll) w (.ok batches) w₁ →
      (kafka worker.runtime log .any).Ends (worker.handleBatches batches false false) w₁
        (.ok flags) w₂ →
      (kafka worker.runtime log .any).Ends (KafkaEventWorker.finish flags.1 flags.2)
        w₂ (.ok ()) w' →
      KafkaStep .iteration w w'
  | finishFailed {w w₁ w₂ w₃ w' : KafkaWorld} {batches flags e out} :
      (kafka worker.runtime log .any).Ends (run .poll) w (.ok batches) w₁ →
      (kafka worker.runtime log .any).Ends (worker.handleBatches batches false false) w₁
        (.ok flags) w₂ →
      (kafka worker.runtime log .any).Ends (KafkaEventWorker.finish flags.1 flags.2) w₂
        (.error e) w₃ →
      (kafka worker.runtime log .any).Ends (KafkaEventWorker.recover e) w₃ out w' →
      KafkaStep .iteration w w'
  | escaped {w w₁ w₂ w' : KafkaWorld} {batches e out} :
      (kafka worker.runtime log .any).Ends (run .poll) w (.ok batches) w₁ →
      (kafka worker.runtime log .any).Ends (worker.handleBatches batches false false) w₁
        (.error e) w₂ →
      (kafka worker.runtime log .any).Ends (KafkaEventWorker.recover e) w₂ out w' →
      KafkaStep .escape w w'
  | restarted {w w' : KafkaWorld} :
      (kafka worker.runtime log .any).Visits worker.pollIteration w w' →
      KafkaStep .restart w w'.restarted

/-- The runs of the worker, by the steps they took. -/
inductive KafkaRun (uuids : UuidSupply) : List StepKind → KafkaWorld → Prop
  | start : KafkaRun uuids [] (.start uuids)
  | step {kinds kind w w'} : KafkaRun uuids kinds w → KafkaStep worker log kind w w' →
      KafkaRun uuids (kinds ++ [kind]) w'

end Steps

section Runs
variable {worker : KafkaEventWorker} {log : Log} {uuids : UuidSupply} {w w' : KafkaWorld}

/-- Every iteration is a step, with an escape or without. -/
theorem step_of_pollIteration {out : Except Exc Unit}
    (h : (kafka worker.runtime log .any).Ends worker.pollIteration w out w') :
    ∃ kind, KafkaStep worker log kind w w' := by
  rcases h.of_tryCatch with ⟨_, -, h⟩ | ⟨e, w₃, h, hrecover⟩
  · rcases h.of_bind with ⟨batches, w₁, hpoll, h⟩ | ⟨e, hout, -⟩
    · rcases h.of_bind with ⟨flags, w₂, hhandle, hfinish⟩ | ⟨e, hout, -⟩
      · exact ⟨_, .iterated hpoll hhandle hfinish⟩
      · cases hout
    · cases hout
  · rcases h.of_bind with ⟨batches, w₁, hpoll, h⟩ | ⟨e', heq, hpoll⟩
    · rcases h.of_bind with ⟨flags, w₂, hhandle, hfinish⟩ | ⟨e', heq, hhandle⟩
      · exact ⟨_, .finishFailed hpoll hhandle hfinish hrecover⟩
      · obtain rfl := Except.error.inj heq
        exact ⟨_, .escaped hpoll hhandle hrecover⟩
    · obtain rfl := Except.error.inj heq
      exact ⟨_, .pollFailed hpoll hrecover⟩

/-- The iteration that makes the given choice of a poll, where no exception is raised. -/
def KafkaEventWorker.iterate (worker : KafkaEventWorker) (log : Log)
    (poll : (kafka worker.runtime log .any).Choice) (w : KafkaWorld) : Option KafkaWorld :=
  match (kafka worker.runtime log .any).execute [poll] (run .poll) w with
  | (.ok batches, w₁) =>
      match (kafka worker.runtime log .any).execute []
          (worker.handleBatches batches false false) w₁ with
      | (.ok flags, w₂) =>
          match (kafka worker.runtime log .any).execute [] (finish flags.1 flags.2) w₂ with
          | (.ok _, w') => some w'
          | _ => none
      | _ => none
  | _ => none

theorem step_of_iterate {poll : (kafka worker.runtime log .any).Choice}
    (h : worker.iterate log poll w = some w') : KafkaStep worker log .iteration w w' := by
  unfold KafkaEventWorker.iterate at h
  split at h
  · rename_i batches w₁ hpoll
    split at h
    · rename_i flags w₂ hhandle
      split at h
      · rename_i w₃ hfinish
        obtain rfl := Option.some.inj h
        have ends : ∀ {α : Type} {choices : List (kafka worker.runtime log .any).Choice}
            {program : Worker α} {v v' : KafkaWorld} {a : α},
            (kafka worker.runtime log .any).execute choices program v = (.ok a, v') →
            (kafka worker.runtime log .any).Ends program v (.ok a) v' := by
          intro α choices program v v' a heq
          have hends := Machine.ends_execute choices program v
          rwa [heq] at hends
        exact .iterated (ends hpoll) (ends hhandle) (ends hfinish)
      · cases h
    · cases h
  · cases h

/-- A world between the steps of a run without escapes. -/
structure Ready (rt : Runtime) (log : Log) (uuids : UuidSupply) (w : KafkaWorld) : Prop where
  sane : Sane uuids w
  committed : CommittedHandled rt log uuids w
  positions : ∀ tp, HandledBelow rt log uuids w tp (w.2.positions tp)

theorem CommittedHandled.extends {rt : Runtime} (h : CommittedHandled rt log uuids w)
    (hids : ∀ k tp offset, uuids.draw k ≠ deadLetterId tp offset) (hextends : Extends uuids w w') :
    CommittedHandled rt log uuids w' := by
  intro tp
  rw [hextends.committed]
  exact (h tp).grows hids hextends.grows

theorem Ready.start {rt : Runtime} : Ready rt log uuids (.start uuids) where
  sane := ⟨rfl, fun _ _ => rfl, fun _ _ h => nomatch h⟩
  committed _ _ _ _ hlt := absurd hlt (Nat.not_lt_zero _)
  positions _ _ _ _ hlt := absurd hlt (Nat.not_lt_zero _)

/-- A commit keeps what is committed handled. -/
theorem finish_safe {processedAny batchFailed : Bool}
    (hids : ∀ k tp offset, uuids.draw k ≠ deadLetterId tp offset)
    (hw : Ready worker.runtime log uuids w) :
    Safe worker.runtime log .any (Ready worker.runtime log uuids)
      (KafkaEventWorker.finish processedAny batchFailed) (fun _ _ => True) w := by
  unfold KafkaEventWorker.finish
  split
  · let committed : KafkaWorld := (w.1, { w.2 with committed := w.2.positions })
    have grown : ∀ {tp stop}, HandledBelow worker.runtime log uuids w tp stop →
        HandledBelow worker.runtime log uuids committed tp stop :=
          fun h => h.grows hids (.of_eq rfl rfl)
    have hcommitted : Ready worker.runtime log uuids committed :=
      ⟨⟨hw.sane.supply, hw.sane.undrawn, hw.sane.versioned⟩, fun tp => grown (hw.positions tp),
        fun tp => grown (hw.positions tp)⟩
    rw [← bind_pure (run _)]
    exact safe_perform (v := committed) hw (fun _ => rfl) ⟨hcommitted, trivial⟩
      fun _ _ => ⟨trivial, trivial⟩
  · split
    · rw [← bind_pure (run _)]
      exact safe_local hw (fun _ => rfl) (fun _ => rfl) ⟨hw, trivial⟩
    · exact ⟨hw, trivial⟩

theorem recover_safe {faults : Faults} {I : KafkaWorld → Prop} {e : Exc} (hI : I w) :
    Safe worker.runtime log faults I (KafkaEventWorker.recover e) (fun _ _ => True) w := by
  unfold KafkaEventWorker.recover
  rw [← bind_pure (run _)]
  exact safe_local hI (fun _ => rfl) (fun _ => rfl) ⟨hI, trivial⟩

/-- **On the way of an iteration** that starts with everything below the positions handled,
what is committed is handled. -/
theorem pollIteration_safe (hfresh : uuids.Fresh worker.runtime log)
    (hw : Ready worker.runtime log uuids w) :
    Safe worker.runtime log .any
      (fun w' => Sane uuids w' ∧ CommittedHandled worker.runtime log uuids w')
      worker.pollIteration (fun _ _ => True) w := by
  have hids := hfresh.not_deadLetterId
  have ready : ∀ {v}, Ready worker.runtime log uuids v →
      Sane uuids v ∧ CommittedHandled worker.runtime log uuids v := fun h => ⟨h.sane, h.committed⟩
  have extended : ∀ {v}, Extends uuids w v → Sane uuids v ∧
      CommittedHandled worker.runtime log uuids v := fun h => ⟨h.sane, hw.committed.extends hids h⟩
  refine Machine.safe_tryCatch (safe_poll (ready hw) (fun plan batches hfetch => ?_)
    fun e => recover_safe (ready hw))
  have hpolled := hw.sane.polled plan
  refine Machine.safe_bind (Machine.safe_mono (handleBatches_safe hfresh hpolled.sane
    (pending_of_fetch hids hfetch hw.positions)) (fun _ h => extended (hpolled.trans h)) ?_)
  rintro out w₂ hextends ⟨-, hout⟩
  have hextended := hpolled.trans hextends
  cases out with
  | error e => exact recover_safe (extended hextended)
  | ok flags =>
    refine Machine.safe_mono (finish_safe hids ⟨hextended.sane, (extended hextended).2, hout.1⟩)
      (fun _ => ready) fun out w₃ hw₃ _ => ?_
    cases out with
    | ok _ => trivial
    | error e => exact recover_safe (ready hw₃)

/-- How a poll ends. -/
def PollOutcome (rt : Runtime) (log : Log) (w : KafkaWorld) (out : Except Exc Batches)
    (w' : KafkaWorld) : Prop :=
  match out with
  | .ok batches => ∃ plan : Fetch, fetchBatches rt log w.2.positions plan.val = .ok batches ∧
      w' = w.polled plan
  | .error _ => w' = w

theorem ends_poll {out : Except Exc Batches}
    (h : (kafka worker.runtime log .any).Ends (run .poll) w out w') :
    PollOutcome worker.runtime log w out w' := by
  have hsafe : Safe worker.runtime log .any (fun _ => True) (run .poll)
      (PollOutcome worker.runtime log w) w := by
    rw [← bind_pure (run _)]
    exact safe_poll trivial (fun plan batches hfetch => ⟨trivial, plan, hfetch, rfl⟩) fun _ => rfl
  exact (h.of_safe hsafe).2

/-- The record loop, when no exception leaves it, leaves everything below the positions
handled. -/
theorem ready_of_handled (hfresh : uuids.Fresh worker.runtime log)
    (hw : Ready worker.runtime log uuids w) {w₁ : KafkaWorld} {batches : Batches}
    {flags : Bool × Bool}
    (hpoll : (kafka worker.runtime log .any).Ends (run .poll) w (.ok batches) w₁)
    (hhandle : (kafka worker.runtime log .any).Ends (worker.handleBatches batches false false) w₁
      (.ok flags) w') : Ready worker.runtime log uuids w' := by
  have hids := hfresh.not_deadLetterId
  obtain ⟨plan, hfetch, rfl⟩ := ends_poll hpoll
  have hpolled := hw.sane.polled plan
  obtain ⟨hextends, -, hbelow, -⟩ := hhandle.of_safe (handleBatches_safe hfresh hpolled.sane
    (pending_of_fetch hids hfetch hw.positions))
  have hextended := hpolled.trans hextends
  exact ⟨hextended.sane, hw.committed.extends hids hextended, hbelow⟩

/-- **One step.**  A step that is no escape leaves everything below the positions and below
the committed offsets handled. -/
theorem Ready.step (hfresh : uuids.Fresh worker.runtime log) (hw : Ready worker.runtime log uuids w)
    {kind : StepKind} (hstep : KafkaStep worker log kind w w') (hkind : kind ≠ .escape) :
    Ready worker.runtime log uuids w' := by
  have hids := hfresh.not_deadLetterId
  cases hstep with
  | pollFailed hpoll hrecover =>
    obtain rfl := ends_poll hpoll
    exact (hrecover.of_safe (recover_safe hw)).1
  | iterated hpoll hhandle hfinish =>
    exact (hfinish.of_safe (finish_safe hids (ready_of_handled hfresh hw hpoll hhandle))).1
  | finishFailed hpoll hhandle hfinish hrecover =>
    have hfinished := (hfinish.of_safe
      (finish_safe hids (ready_of_handled hfresh hw hpoll hhandle))).1
    exact (hrecover.of_safe (recover_safe hfinished)).1
  | escaped => exact absurd rfl hkind
  | @restarted _ v hvisits =>
    obtain ⟨hsane, hcommitted⟩ := hvisits.of_safe (pollIteration_safe hfresh hw)
    have grown : CommittedHandled worker.runtime log uuids v.restarted :=
      fun tp => (hcommitted tp).grows hids (.of_eq rfl rfl)
    exact ⟨⟨hsane.supply, hsane.undrawn, hsane.versioned⟩, grown, grown⟩

/-- A run without escapes leaves everything below the positions handled. -/
theorem KafkaRun.ready (hfresh : uuids.Fresh worker.runtime log) {kinds : List StepKind}
    (hrun : KafkaRun worker log uuids kinds w) (hkinds : .escape ∉ kinds) :
    Ready worker.runtime log uuids w := by
  induction hrun with
  | start => exact .start
  | step _ hstep ih =>
    rw [List.mem_append, not_or] at hkinds
    refine (ih hkinds.1).step hfresh hstep fun h => hkinds.2 ?_
    rw [h]
    exact List.mem_singleton.mpr rfl

/-- **No event is lost.**  In every run in which no exception leaves the record loop without
a restart, and at every point of the iteration that comes next, each record below a
committed offset has been handled. -/
theorem committed_handled (hfresh : uuids.Fresh worker.runtime log) {kinds : List StepKind}
    (hrun : KafkaRun worker log uuids kinds w) (hkinds : .escape ∉ kinds)
    (hvisits : (kafka worker.runtime log .any).Visits worker.pollIteration w w') :
    CommittedHandled worker.runtime log uuids w' :=
  (hvisits.of_safe (pollIteration_safe hfresh (hrun.ready hfresh hkinds))).2

end Runs

/-! ## Records for computed runs -/

namespace Sample

def envelopeText : String :=
  "\x7b\"event_id\":\"event-1\",\"event_type\":\"incident.detected\",\"producer\":\"incident\"," ++
    "\"payload\":\x7b\x7d\x7d"

def envelope : Json :=
  .dict [(.text "event_id", .text "event-1"), (.text "event_type", .text "incident.detected"),
    (.text "producer", .text "incident"), (.text "payload", .dict [])]

/-- A runtime, as far as the sample records go. -/
def runtime : Runtime where
  jsonLoads text :=
    if text = "null" then .ok .null
    else if text = envelopeText then .ok envelope
    else .error (.other "JSONDecodeError" "Expecting value: line 1 column 1 (char 0)")
  parseInt
    | .int n => some n
    | _ => none
  parseFloat _ := none
  parseBool _ := none
  parseDatetime _ := none
  invalidEnvelope _ := "1 validation error for EventEnvelope"
  repr _ := "None"
  errorText
    | .validationError message => message
    | e => e.className
  dump value := .ok value
  dumpInstant t := toString t
  surrogateId _ := "�"

def kafkaWorker : KafkaEventWorker := .init runtime 3

def partition : TopicPartition := ⟨"ax.incident.events.v1", 0⟩

/-- A partition with the given values. -/
def log (values : List (Option ByteArray)) : Log := fun tp offset =>
  if tp = partition then values[offset]?.map fun value => ⟨none, value⟩ else none

/-- A poll of one record. -/
def pollOne (log : Log) (faults : Faults) : (kafka runtime log faults).Choice :=
  ((0, .ok ⟨[(partition, 1)], by decide⟩), .none)

/-- The world after an iteration that polls one record, then makes the given choices. -/
def iteration (log : Log) (choices : List (kafka runtime log .any).Choice) (w : KafkaWorld) :
    KafkaWorld :=
  (Machine.execute (pollOne log .any :: choices) kafkaWorker.pollIteration w).2

theorem unary_draw {k : Nat} {c : Char} (hc : c ∈ (UuidSupply.unary.draw k).toList) : c = 'a' := by
  rw [UuidSupply.unary, String.toList_ofList] at hc
  exact List.eq_of_mem_replicate hc

/-- The ids of the supply are none the samples use. -/
theorem fresh (log : Log) : UuidSupply.unary.Fresh runtime log where
  not_deadLetterId k tp offset heq := by
    have hd : 'd' ∈ (UuidSupply.unary.draw k).toList := by
      rw [heq]
      simp [deadLetterId]
    exact absurd (unary_draw hd) (by decide)
  not_named tp offset raw value fields k _ hvalue hvalid hid := by
    have hvalues : value = .null ∨ value = envelope := by
      unfold deserialize at hvalue
      split at hvalue
      · cases hvalue
      · split at hvalue
        · cases hvalue
        · simp only [runtime] at hvalue
          split at hvalue
          · exact .inl (Except.ok.inj hvalue).symm
          · split at hvalue
            · exact .inr (Except.ok.inj hvalue).symm
            · cases hvalue
    rcases hvalues with rfl | rfl
    · cases hvalid
    · obtain rfl := Except.ok.inj hvalid
      have he : 'e' ∈ (UuidSupply.unary.draw k).toList := by
        rw [← Option.some.inj hid]
        decide
      exact absurd (unary_draw he) (by decide)

end Sample

/-- A partition with a valid record. -/
def validOnly : Log := Sample.log [some Sample.envelopeText.toUTF8]

/-- The record is polled, handled and committed. -/
def delivered : Option KafkaWorld :=
  Sample.kafkaWorker.iterate validOnly (Sample.pollOne validOnly .any) (.start .unary)

theorem committed_handled_delivered : ∃ w, delivered = some w ∧
    w.2.committed Sample.partition = 1 ∧ CommittedHandled Sample.runtime validOnly .unary w := by
  have hcommitted : delivered.any (fun w => w.2.committed Sample.partition = 1) = true := by
    decide +kernel
  obtain ⟨w, hw, hone⟩ : ∃ w, delivered = some w ∧ w.2.committed Sample.partition = 1 := by
    simpa [Option.any_eq_true] using hcommitted
  have hstep : KafkaStep Sample.kafkaWorker validOnly .iteration (.start .unary) w :=
    @step_of_iterate _ _ _ _ (Sample.pollOne validOnly .any) hw
  exact ⟨w, hw, hone, committed_handled (Sample.fresh _) (.step .start hstep) (by decide)
    (.here _ _)⟩

/-- A partition with an invalid record, and a valid one after it. -/
def invalidThenValid : Log := Sample.log [some "null".toUTF8, some Sample.envelopeText.toUTF8]

/-- The invalid record is polled three times; at the third its dead-letter message cannot be
published.  The next poll starts after it, and the commit that follows skips it. -/
def skipped : KafkaWorld :=
  let iteration := Sample.iteration invalidThenValid
  let timeout : Exc := .other "KafkaTimeoutError" "Failed to update metadata"
  iteration [] (iteration (List.replicate 5 default ++ [(default, .lost timeout)])
    (iteration [] (iteration [] (.start .unary))))

/-- A committed offset may have an unhandled record below it. -/
theorem not_committedHandled : ¬ ∀ worker log uuids kinds w, uuids.Fresh worker.runtime log →
    KafkaRun worker log uuids kinds w → CommittedHandled worker.runtime log uuids w := by
  intro hall
  have run : ∀ {w}, (∃ kinds, KafkaRun Sample.kafkaWorker invalidThenValid .unary kinds w) →
      ∀ choices, ∃ kinds, KafkaRun Sample.kafkaWorker invalidThenValid .unary kinds
        (Sample.iteration invalidThenValid choices w) := by
    rintro w ⟨kinds, hrun⟩ choices
    obtain ⟨kind, hstep⟩ := @step_of_pollIteration Sample.kafkaWorker _ _ _ _
      (Machine.ends_execute (Sample.pollOne invalidThenValid .any :: choices) _ w)
    exact ⟨_, hrun.step hstep⟩
  obtain ⟨kinds, hrun⟩ : ∃ kinds,
      KafkaRun Sample.kafkaWorker invalidThenValid .unary kinds skipped :=
    run (run (run (run ⟨[], .start⟩ _) _) _) _
  have hcommitted : skipped.2.committed Sample.partition = 2 := by decide +kernel
  have hnone : skipped.2.deadLetters.length = 0 := by decide +kernel
  have htext : String.fromUTF8? "null".toUTF8 = some "null" := by decide +kernel
  obtain ⟨value, hvalue, hhandled⟩ := hall _ _ _ _ _ (Sample.fresh _) hrun Sample.partition 0 _
    (Nat.zero_le 0) (by rw [hcommitted]; decide) rfl
  obtain rfl : value = .null := by
    simp only [deserialize, htext] at hvalue
    exact (Except.ok.inj hvalue).symm
  cases hhandled with
  | stored hvalid => cases hvalid
  | generated hvalid => cases hvalid
  | deadLettered hsent =>
    rw [List.length_eq_zero_iff.mp hnone] at hsent
    cases hsent

end AxSentinel
