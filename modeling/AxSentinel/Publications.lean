import AxSentinel.Platform

/-! # What the services publish

`EventPublisher.publish` of `shared/events.py`: the topic of an event, and the key of its
Kafka message.  The events of a topic that share a key stay in their order; the topic of
the incident events is meant to be keyed by the incident.  But the event of an automatic
incident is published without a key and falls through to the equipment
(`oneKey_iff`). -/
namespace AxSentinel
open Effects Service

/-! ## Topics and keys -/

/-- `TOPIC_BY_PREFIX`. -/
def topicByPrefix : List (String × String) :=
  [("telemetry.", "ax.telemetry.events.v1"), ("incident.", "ax.incident.events.v1"),
    ("analysis.", "ax.analysis.events.v1"), ("document.", "ax.knowledge.events.v1"),
    ("approval.", "ax.work-order.events.v1"), ("work_order.", "ax.work-order.events.v1"),
    ("feedback.", "ax.feedback.events.v1"), ("evaluation.", "ax.feedback.events.v1")]

/-- `topic_for`. -/
def topicFor (eventType : String) : String :=
  match topicByPrefix.find? fun entry => entry.1.toList.isPrefixOf eventType.toList with
  | some entry => entry.2
  | none => "ax.audit.events.v1"

/-- The topic of the incident events. -/
def incidentTopic : String := "ax.incident.events.v1"

/-- The text fields of a payload that a message key may be taken from. -/
def Payload.get? : Payload → String → Option String
  | .entity (.telemetry r), "equipment_id" => some r.equipmentId
  | .entity (.telemetry r), "id" => some r.id
  | .entity (.incident i), "equipment_id" => some i.equipmentId
  | .entity (.incident i), "id" => some i.id
  | .entity (.approval a), "incident_id" => some a.incidentId
  | .entity (.approval a), "id" => some a.id
  | .entity (.workOrder w), "incident_id" => some w.incidentId
  | .entity (.workOrder w), "id" => some w.id
  | .entity (.analysis a), "incident_id" => some a.incidentId
  | .entity (.analysis a), "id" => some a.id
  | .entity (.expertReview r), "incident_id" => some r.incidentId
  | .entity (.expertReview r), "id" => some r.id
  | .statusChanged id _ _ _ _, "id" => some id
  | .statusChanged _ incidentId _ _ _, "incident_id" => some incidentId
  | .statusChanged _ _ equipmentId _ _, "equipment_id" => some equipmentId
  | _, _ => none

/-- `a or b or ... or default`, on strings. -/
def firstTruthy : List (Option String) → String → String
  | [], default => default
  | none :: rest, default => firstTruthy rest default
  | some s :: rest, default => if s = "" then firstTruthy rest default else s

/-- The message key of a publication whose envelope has the given id. -/
def Publication.messageKey (p : Publication) (eventId : String) : String :=
  firstTruthy [p.key, p.payload.get? "incident_id", p.payload.get? "equipment_id",
    p.payload.get? "id"] eventId

theorem Publication.messageKey_of_key {p : Publication} {key : String} (hkey : p.key = some key)
    (hne : key ≠ "") (eventId : String) : p.messageKey eventId = key := by
  simp [messageKey, firstTruthy, hkey, hne]

/-- The event of a new automatic incident. -/
def Publication.automatic (incident : Incident) : Publication :=
  ⟨"incident.detected", .entity (.incident incident), none, none, true⟩

/-- It is keyed by the equipment, if that has an id. -/
theorem Publication.messageKey_automatic {incident : Incident} (hid : incident.id ≠ "")
    (eventId : String) : (automatic incident).messageKey eventId =
      if incident.equipmentId = "" then incident.id else incident.equipmentId := by
  have hfields : [(automatic incident).key, (automatic incident).payload.get? "incident_id",
      (automatic incident).payload.get? "equipment_id", (automatic incident).payload.get? "id"] =
      [none, none, some incident.equipmentId, some incident.id] := rfl
  rw [messageKey, hfields]
  simp [firstTruthy, hid]

/-! ## What a request may publish and evaluate -/

/-- The event of a status change. -/
def Publication.changed (incident : Incident) (status : IncidentStatus) (actorId : String) :
    Publication :=
  ⟨"incident.status_changed",
    .statusChanged incident.id incident.id incident.equipmentId incident.status status,
    some incident.id, some actorId, false⟩

/-- What a request may publish, in view of its past. -/
inductive Request.Publishes : Request → Moves → Publication → Prop
  | simulated {request principal past id detectedAt} : Drew past id →
      Publishes (.simulateIncident request principal) past
        ⟨"incident.detected", .entity (.incident (.simulated request id detectedAt)), some id,
          some principal.subject, true⟩
  | automatic {replica request principal past} {incident : Incident} : Drew past incident.id →
      (∀ m ∈ past, ∀ i, m.op ≠ .inr (.publish (.automatic i))) →
      Publishes (.ingestTelemetry replica request principal) past (.automatic incident)
  | changed {request past} incidentId {incident status actorId} :
      Saw past ⟨.incident, incidentId⟩ (.incident incident) →
      Publishes request past (.changed incident status actorId)
  | other {request past eventType payload key actorId alert} :
      topicFor eventType ≠ incidentTopic →
      Publishes request past ⟨eventType, payload, key, actorId, alert⟩

/-- What a request may feed the detector of a replica. -/
def Request.Evaluates (request : Request) (past : Moves) (replica : Nat)
    (signal : DetectionSignal) : Prop :=
  ∃ telemetry principal id receivedAt, request = .ingestTelemetry replica telemetry principal ∧
    signal = (TelemetryRecord.received telemetry id receivedAt).signal ∧
    [⟨.inr .uuid4, .ok id⟩, ⟨.inl .now, .ok receivedAt⟩] <+: past ∧
    ∀ m ∈ past, ∀ r s, m.op ≠ .inr (.evaluate r s)

/-- What a request may do outside its table, in view of its past. -/
def Request.Emits (request : Request) (past : Moves) : platformOps.Op → Prop
  | .inr (.publish p) => request.Publishes past p
  | .inr (.evaluate replica signal) => request.Evaluates past replica signal
  | _ => True

section Rules
variable {α β : Type} {request : Request} {past : Moves}

/-- A handler that keeps to it. -/
abbrev Emitting (request : Request) (past : Moves) (p : Service α) : Prop :=
  p.Obeys request.Emits (fun _ _ => True) past

theorem emits_ret (a : α) : Emitting request past (pure a) := trivial

theorem emits_raise (e : Exc) : Emitting request past (throw e : Service α) := trivial

theorem emits_perform {op : platformOps.Op} {f : platformOps.Reply op → Service β}
    (hop : request.Emits past op) (h : ∀ r, Emitting request (past ++ [⟨op, .ok r⟩]) (f r)) :
    Emitting request past (Program.perform platformOps op >>= f) :=
  obeys_perform hop (fun _ => trivial) h

theorem emits_publish {p : Publication} {f : Unit → Service β} (hp : request.Publishes past p)
    (h : Emitting request (past ++ [⟨.inr (.publish p), .ok ()⟩]) (f ())) :
    Emitting request past (publish p >>= f) :=
  emits_perform hp fun _ => h

theorem emits_get {t : EntityType} {id : String} {f : Option Entity → Service β}
    (h : ∀ item, Emitting request (past ++ [⟨.inl (.getItem ⟨t, id⟩), .ok item⟩])
      (f (item.map fun item => item.attributes.data))) :
    Emitting request past (Service.get t id >>= f) :=
  obeys_get trivial (fun _ => trivial) h

theorem emits_list {t : EntityType} {f : List Entity → Service β}
    (h : ∀ items : List (Attributes Entity),
      Emitting request (past ++ [⟨.inl (.query t), .ok items⟩]) (f (items.map Attributes.data))) :
    Emitting request past (Service.list t >>= f) :=
  obeys_list trivial (fun _ => trivial) h

theorem emits_put {t : EntityType} {id : String} {v : Entity} {f : Unit → Service β}
    (h : ∀ clock current, Emitting request (past ++ putMoves t id v clock current) (f ())) :
    Emitting request past (Service.put t id v >>= f) :=
  obeys_put trivial (fun _ => trivial) (fun _ _ => trivial) (fun _ _ _ _ _ => trivial) h

theorem emits_ofExcept {x : Except Exc α} {f : α → Service β}
    (h : ∀ a, x = .ok a → Emitting request past (f a)) :
    Emitting request past (Program.ofExcept x >>= f) :=
  obeys_ofExcept (fun _ _ => trivial) h

theorem emits_requireRoles {roles : List Role} {principal : Principal} {f : Unit → Service β}
    (h : Emitting request past (f ())) :
    Emitting request past (requireRoles roles principal >>= f) :=
  obeys_requireRoles (fun _ => trivial) fun _ => h

end Rules

section Handlers
variable {request : Request} {past : Moves}

theorem emits_updateIncidentStatus (incidentId : String) (update : IncidentStatusUpdate)
    (principal : Principal) :
    Emitting request past (updateIncidentStatus incidentId update principal) := by
  unfold updateIncidentStatus
  refine emits_requireRoles (emits_get fun item => ?_)
  cases item with
  | none => exact emits_raise _
  | some item =>
    refine emits_ofExcept fun incident hincident => ?_
    split
    · exact emits_raise _
    · refine emits_put fun clock current => ?_
      refine emits_publish (.changed incidentId
        ⟨item, Incident.modelValidate_eq_ok.mp hincident, ?_⟩)
        (emits_perform trivial fun _ => emits_ret _)
      simp

theorem emits_simulateIncident (request : VirtualIncidentRequest) (principal : Principal) :
    Emitting (.simulateIncident request principal) [] (simulateIncident request principal) := by
  unfold simulateIncident
  refine emits_requireRoles (emits_perform trivial fun id => emits_perform trivial
    fun detectedAt => emits_put fun clock current => ?_)
  refine emits_publish (.simulated ?_) (emits_perform trivial fun _ => emits_ret _)
  simp [Drew]

theorem emits_ingestTelemetry (replica : Nat) (request : TelemetryRequest)
    (principal : Principal) :
    Emitting (.ingestTelemetry replica request principal) []
      (ingestTelemetry replica request principal) := by
  simp only [ingestTelemetry, recordTelemetry, createAutomaticIncident, bind_assoc]
  refine emits_requireRoles (emits_perform trivial fun id => emits_perform trivial
    fun receivedAt => emits_put fun clock current => ?_)
  refine emits_publish (.other (by decide)) (emits_perform trivial fun _ => ?_)
  refine emits_perform ⟨request, principal, id, receivedAt, rfl, rfl, ?_, ?_⟩ fun triggerCode => ?_
  · exact ⟨_, by simp [putMoves]; rfl⟩
  · simp [putMoves]
  cases triggerCode with
  | none => exact emits_ret _
  | some triggerCode =>
    simp only [bind_assoc]
    refine emits_list fun items => emits_ofExcept fun incidents _ => ?_
    split
    · exact emits_ret _
    · simp only [bind_assoc]
      refine emits_perform trivial fun incidentId => emits_perform trivial fun detectedAt =>
        emits_put fun clock current => ?_
      refine emits_publish (.automatic ?_ ?_) (emits_perform trivial fun _ => emits_ret _)
      · simp [Drew, Incident.automatic]
      · simp [putMoves, Publication.automatic]

theorem emits_decideActionPlan (request : ApprovalRequest) (principal : Principal) :
    Emitting (.decideActionPlan request principal) [] (decideActionPlan request principal) := by
  unfold decideActionPlan
  refine emits_requireRoles (emits_perform trivial fun id => emits_put fun clock current =>
    emits_publish (.other (by decide)) ?_)
  split
  · exact emits_ret _
  · split
    · exact emits_raise _
    · exact emits_perform trivial fun id => emits_put fun clock current =>
        emits_publish (.other (by decide)) (emits_ret _)

theorem emits_resolveIncident (settings : Settings) (incidentId : String) (principal : Principal) :
    Emitting request past (resolveIncident settings incidentId principal) := by
  unfold resolveIncident
  split
  · -- the incident service handles the patch, and publishes the change
    exact obeys_patchIncidentStatus (fun _ _ => trivial) (fun _ => trivial)
      fun _ _ _ _ => emits_updateIncidentStatus ..
  · refine emits_get fun item => ?_
    cases item with
    | none => exact emits_ret _
    | some item =>
      refine emits_put fun _ _ => ?_
      split
      · rw [← bind_pure (broadcast _ _)]
        exact emits_perform trivial fun _ => emits_ret _
      · exact emits_ret _

theorem emits_completeWorkOrder (settings : Settings) (workOrderId : String)
    (completion : WorkOrderCompletion) (principal : Principal) :
    Emitting request past (completeWorkOrder settings workOrderId completion principal) := by
  unfold completeWorkOrder
  refine emits_requireRoles (emits_get fun item => ?_)
  cases item with
  | none => exact emits_raise _
  | some item =>
    simp only [Option.map_some]
    split
    · exact emits_raise _
    · refine emits_ofExcept fun workOrder _ => ?_
      split
      · exact emits_raise _
      · refine emits_put fun _ _ => Program.Obeys.bind (emits_resolveIncident ..) fun _ _ =>
          emits_publish (.other (by decide)) (emits_ret _)

theorem emits_analyzeIncident (rt : Runtime) (analysis : AnalysisRequest) (principal : Principal) :
    Emitting request past (analyzeIncident rt analysis principal) := by
  unfold analyzeIncident
  refine emits_requireRoles (emits_perform trivial fun generation => emits_perform trivial
    fun id => emits_ofExcept fun result _ => emits_ofExcept fun _ _ => emits_put fun _ _ => ?_)
  split
  · exact emits_perform trivial fun now => emits_perform trivial fun reviewId =>
      emits_put fun _ _ => emits_publish (.other (by decide)) (emits_ret _)
  · exact emits_publish (.other (by decide)) (emits_ret _)

theorem emits_updateExpertReview (reviewId : String) (update : ExpertReviewUpdate)
    (principal : Principal) :
    Emitting request past (updateExpertReview reviewId update principal) := by
  unfold updateExpertReview
  refine emits_requireRoles (emits_get fun item => ?_)
  cases item with
  | none => exact emits_raise _
  | some item =>
    refine emits_ofExcept fun review _ => ?_
    dsimp only
    split
    · exact emits_raise _
    · exact emits_perform trivial fun now => emits_put fun _ _ => emits_ret _

end Handlers

/-- **Every request emits only what it may.** -/
theorem Request.emits (settings : Settings) (request : Request) :
    (request.code settings).Obeys request.Emits (fun _ _ => True) [] := by
  cases request with
  | simulateIncident request principal =>
    exact (emits_simulateIncident request principal).bind fun _ _ => emits_ret _
  | ingestTelemetry replica request principal =>
    exact (emits_ingestTelemetry replica request principal).bind fun _ _ => emits_ret _
  | updateIncidentStatus incidentId update principal =>
    exact (emits_updateIncidentStatus incidentId update principal).bind fun _ _ => emits_ret _
  | decideActionPlan request principal =>
    exact (emits_decideActionPlan request principal).bind fun _ _ => emits_ret _
  | completeWorkOrder workOrderId completion principal =>
    exact (emits_completeWorkOrder settings workOrderId completion principal).bind
      fun _ _ => emits_ret _
  | analyzeIncident request principal =>
    exact (emits_analyzeIncident _ request principal).bind fun _ _ => emits_ret _
  | updateExpertReview reviewId update principal =>
    exact (emits_updateExpertReview reviewId update principal).bind fun _ _ => emits_ret _

/-! ## What was published -/

section History
variable {settings : Settings} {uuids : UuidSupply} {s : Composed}

/-- In a run, every operation was one its request may emit. -/
theorem Composed.Reachable.emitted (hs : Composed.Reachable settings uuids s) {n : Nat}
    {e : Event platform} (hn : s.history[n]? = some e) :
    ∃ request, s.request e.thread = some request ∧
      request.Emits (past e.thread (s.history.take n)) e.move.op :=
  ((System.Reachable.conforms hs (Request.emits settings)).history.at_position hn).2.1

/-- Only `publish` adds to what is published. -/
theorem exec_published (op : platformOps.Op) (c : platform.Choice) (w : platform.World) :
    (platform.exec op c w).2.2.published = w.2.published ∨
      ∃ p, op = .inr (.publish p) ∧
        (platform.exec op c w).2.2.published = w.2.published ++ [p] := by
  have reliable : (reliablePlatform.exec op c.1 w).2.2.published = w.2.published ∨
      ∃ p, op = .inr (.publish p) ∧
        (reliablePlatform.exec op c.1 w).2.2.published = w.2.published ++ [p] := by
    match op with
    | .inl _ => exact .inl rfl
    | .inr (.publish p) => exact .inr ⟨p, rfl, rfl⟩
    | .inr (.broadcast _ _) => exact .inl rfl
    | .inr (.request _) => exact .inl rfl
    | .inr .response => exact .inl rfl
    | .inr (.evaluate _ _) => exact .inl rfl
    | .inr (.generate _) => exact .inl rfl
    | .inr .uuid4 => exact .inl rfl
  rcases reliablePlatform.faulty_exec raises op c w with h | ⟨e, -, -, h | h⟩
  · rw [h]
    exact reliable
  · rw [h]
    exact .inl rfl
  · rw [h]
    exact reliable

/-- What was published, some event published. -/
theorem event_of_published {allowed : Nat → Moves → platformOps.Op → Prop}
    {h : List (Event platform)} {w : platform.World}
    (H : platform.History allowed (initialWorld uuids) h w) {p : Publication}
    (hp : p ∈ w.2.published) : ∃ (n : Nat) (e : Event platform), h[n]? = some e ∧
      e.move.op = .inr (.publish p) := by
  induction H with
  | nil => cases hp
  | @snoc h w i op c H hok ih =>
    have earlier : p ∈ w.2.published → ∃ (n : Nat) (e : Event platform),
        (h ++ [platform.event i op c w])[n]? = some e ∧ e.move.op = .inr (.publish p) := by
      intro hold
      obtain ⟨n, e, hn, hop⟩ := ih hold
      exact ⟨n, e, getElem?_append_of_some hn _, hop⟩
    rcases exec_published op c w with hsame | ⟨q, hop, hadd⟩
    · exact earlier (hsame ▸ hp)
    · rw [hadd] at hp
      rcases List.mem_append.mp hp with hold | hnew
      · exact earlier hold
      · obtain rfl := List.mem_singleton.mp hnew
        exact ⟨h.length, platform.event i op c w, by simp, hop⟩

/-- What a thread had drawn it has drawn. -/
theorem Drew.of_take {h : List (Event platform)} {i n : Nat} {id : String}
    (hdrew : Drew (past i (h.take n)) id) : Drew (past i h) id := by
  have happend := past_append i (h.take n) (h.drop n)
  rw [List.take_append_drop] at happend
  unfold Drew
  rw [happend]
  exact List.mem_append_left _ hdrew

/-- An id that was drawn is one of the supply. -/
theorem Drew.exists_draw {requests : Nat → Option Request} {h : List (Event platform)}
    {w : platform.World} (H : Composed.History settings requests uuids h w) {i : Nat} {id : String}
    (hdrew : Drew (past i h) id) : ∃ n, id = uuids.draw n := by
  obtain ⟨e, he, -, hmove⟩ := mem_past.mp hdrew
  have hdrawn : id ∈ h.filterMap drawn :=
    List.mem_filterMap.mpr ⟨e, he, by simp [drawn, hmove]⟩
  rw [(drawn_eq H).2] at hdrawn
  obtain ⟨n, -, hn⟩ := List.mem_map.mp hdrawn
  exact ⟨n, hn.symm⟩

/-- The incident an event is about. -/
def Publication.incidentId (p : Publication) : Option String :=
  match p.payload with
  | .entity (.incident incident) => some incident.id
  | .statusChanged _ incidentId _ _ _ => some incidentId
  | _ => none

/-- What was published, some request published. -/
theorem publisher (hs : Composed.Reachable settings uuids s) {p : Publication}
    (hp : p ∈ s.world.2.published) :
    ∃ (n : Nat) (e : Event platform) (request : Request), s.history[n]? = some e ∧
      e.move.op = .inr (.publish p) ∧ s.request e.thread = some request ∧
      request.Publishes (past e.thread (s.history.take n)) p := by
  obtain ⟨n, e, hn, hop⟩ := event_of_published hs.history hp
  obtain ⟨request, hrequest, hemits⟩ := hs.emitted hn
  rw [hop] at hemits
  exact ⟨n, e, request, hn, hop, hrequest, hemits⟩

/-- The event of an automatic incident comes from a thread that ingests telemetry, drew the
id of the incident, and published no such event before. -/
theorem automatic_publisher (hs : Composed.Reachable settings uuids s) {incident : Incident}
    (hp : .automatic incident ∈ s.world.2.published) :
    ∃ (n : Nat) (e : Event platform), s.history[n]? = some e ∧
      e.move.op = .inr (.publish (.automatic incident)) ∧
      Drew (past e.thread s.history) incident.id ∧
      (∃ replica request principal,
        s.request e.thread = some (.ingestTelemetry replica request principal)) ∧
      ∀ m ∈ past e.thread (s.history.take n), ∀ i, m.op ≠ .inr (.publish (.automatic i)) := by
  obtain ⟨n, e, request, hn, hop, hrequest, hpublishes⟩ := publisher hs hp
  generalize hq : Publication.automatic incident = q at hpublishes
  cases hpublishes with
  | simulated hdrew => cases hq
  | changed incidentId hsaw =>
    have htype : "incident.detected" = "incident.status_changed" :=
      congrArg Publication.eventType hq
    exact absurd htype (by decide)
  | other htopic =>
    cases hq
    exact absurd (by decide) htopic
  | automatic hdrew hfirst =>
    cases hq
    exact ⟨n, e, hn, hop, hdrew.of_take, ⟨_, _, _, hrequest⟩, hfirst⟩

/-- An automatic incident is published once. -/
theorem automatic_unique (hs : Composed.Reachable settings uuids s) {i j : Incident}
    (hi : .automatic i ∈ s.world.2.published) (hj : .automatic j ∈ s.world.2.published)
    (hid : i.id = j.id) : i = j := by
  obtain ⟨m, d, hm, hdop, hddrew, -, hdfirst⟩ := automatic_publisher hs hi
  obtain ⟨n, e, hn, heop, hedrew, -, hefirst⟩ := automatic_publisher hs hj
  have hthread : d.thread = e.thread := drawn_unique hs.history hddrew (hid ▸ hedrew)
  have before : ∀ {m n : Nat} {d e : Event platform}, s.history[m]? = some d → d.thread = e.thread →
      m < n → d.move ∈ past e.thread (s.history.take n) := by
    intro m n d e hm hthread hlt
    refine mem_past.mpr ⟨d, List.mem_of_getElem? (i := m) ?_, hthread, rfl⟩
    rw [List.getElem?_take, if_pos hlt, hm]
  rcases Nat.lt_trichotomy m n with hlt | rfl | hgt
  · exact absurd hdop (hefirst _ (before hm hthread hlt) i)
  · obtain rfl := Option.some.inj (hm.symm.trans hn)
    have hop := hdop.symm.trans heop
    cases hop
    rfl
  · exact absurd heop (hdfirst _ (before hn hthread.symm hgt) j)

/-- The id of an incident some thread read is an id that was drawn. -/
theorem Saw.drawn (hs : Composed.Reachable settings uuids s) {i n : Nat} {incidentId : String}
    {incident : Incident}
    (hsaw : Saw (past i (s.history.take n)) ⟨.incident, incidentId⟩ (.incident incident)) :
    ∃ n, incident.id = uuids.draw n := by
  have hsaw' : Saw (past i s.history) ⟨.incident, incidentId⟩ (.incident incident) := by
    have happend := past_append i (s.history.take n) (s.history.drop n)
    rw [List.take_append_drop] at happend
    exact happend ▸ hsaw.append _
  have hkey : incident.id = incidentId := congrArg Key.entityId ((keyed hs.history).2 _ _ _ hsaw')
  obtain ⟨u, hu⟩ := saw_stored hs.history hsaw'
  obtain ⟨j, hdrew, -⟩ := origin hs.history hu
  exact hkey ▸ hdrew.exists_draw hs.history

/-- An event about an incident is keyed by it, or is the event of an automatic incident.
Besides that one, only status changes can be about an automatic incident. -/
theorem keyed_or_automatic (hs : Composed.Reachable settings uuids s)
    (hids : ∀ n, uuids.draw n ≠ "") {p : Publication} {id : String}
    (hp : p ∈ s.world.2.published) (htopic : topicFor p.eventType = incidentTopic)
    (hid : p.incidentId = some id) :
    (∃ incident, p = .automatic incident ∧ incident.id = id ∧ id ≠ "") ∨
      (∀ eventId, p.messageKey eventId = id) ∧ (p.eventType = "incident.status_changed" ∨
        ∀ incident, .automatic incident ∈ s.world.2.published → incident.id ≠ id) := by
  obtain ⟨n, e, request, hn, hop, hrequest, hpublishes⟩ := publisher hs hp
  cases hpublishes with
  | other hother => exact absurd htopic hother
  | @automatic _ _ _ _ incident hdrew =>
    obtain rfl := Option.some.inj hid
    obtain ⟨m, hm⟩ := hdrew.of_take.exists_draw hs.history
    exact .inl ⟨incident, rfl, rfl, hm ▸ hids m⟩
  | @changed _ _ _ incident _ _ hsaw =>
    obtain rfl := Option.some.inj hid
    obtain ⟨m, hm⟩ := Saw.drawn hs hsaw
    exact .inr ⟨Publication.messageKey_of_key rfl (hm ▸ hids m), .inl rfl⟩
  | simulated hdrew =>
    obtain rfl := Option.some.inj hid
    obtain ⟨m, hm⟩ := hdrew.of_take.exists_draw hs.history
    refine .inr ⟨Publication.messageKey_of_key rfl (hm ▸ hids m), .inr ?_⟩
    intro incident hincident hsame
    -- the thread that drew the id would ingest telemetry and simulate an incident
    obtain ⟨-, d, -, -, hddrew, ⟨replica, telemetry, principal, hd⟩, -⟩ :=
      automatic_publisher hs hincident
    rw [hsame] at hddrew
    have hthread := drawn_unique hs.history hddrew hdrew.of_take
    rw [hthread, hrequest] at hd
    cases hd

/-- Any two events about one incident have the same message key. -/
def OneKey (w : platform.World) : Prop :=
  ∀ p q id, p ∈ w.2.published → q ∈ w.2.published → topicFor p.eventType = incidentTopic →
    topicFor q.eventType = incidentTopic → p.incidentId = some id → q.incidentId = some id →
    ∀ eventId eventId', p.messageKey eventId = q.messageKey eventId'

/-- The status of an automatic incident was changed only if its equipment has no id, or the
incident's own. -/
def ChangesKeyedAlike (w : platform.World) : Prop :=
  ∀ i p, .automatic i ∈ w.2.published → p ∈ w.2.published →
    p.eventType = "incident.status_changed" → p.incidentId = some i.id →
    i.equipmentId = "" ∨ i.equipmentId = i.id

/-- **Partition keys.**  The events of every incident share one key as long as no automatic
incident changes its status: its first event is keyed by the equipment, its later ones by
the incident. -/
theorem oneKey_iff (hs : Composed.Reachable settings uuids s) (hids : ∀ n, uuids.draw n ≠ "") :
    OneKey s.world ↔ ChangesKeyedAlike s.world := by
  constructor
  · intro hone i p hi hp hchanged hid
    have hiid : (Publication.automatic i).incidentId = some i.id := rfl
    have htopic : topicFor p.eventType = incidentTopic := hchanged ▸ by decide
    have hitopic : topicFor "incident.detected" = incidentTopic := by decide
    have hkey := hone _ p i.id hi hp hitopic htopic hiid hid "" ""
    obtain ⟨_, _, -, -, hdrew, -⟩ := automatic_publisher hs hi
    obtain ⟨m, hm⟩ := hdrew.exists_draw hs.history
    rw [Publication.messageKey_automatic (hm ▸ hids m)] at hkey
    have hpkey : p.messageKey "" = i.id := by
      rcases keyed_or_automatic hs hids hp htopic hid with ⟨j, rfl, -⟩ | ⟨hpkey, -⟩
      · have htype : "incident.detected" = "incident.status_changed" := hchanged
        exact absurd htype (by decide)
      · exact hpkey ""
    rw [hpkey] at hkey
    by_cases hequipment : i.equipmentId = ""
    · exact .inl hequipment
    · exact .inr (by rwa [if_neg hequipment] at hkey)
  · intro halike p q id hp hq hptopic hqtopic hpid hqid eventId eventId'
    -- the event of an automatic incident, and a status change
    have mixed : ∀ {i q}, .automatic i ∈ s.world.2.published → i.id = id → id ≠ "" →
        q ∈ s.world.2.published → q.incidentId = some id →
        (q.eventType = "incident.status_changed" ∨
          ∀ incident, .automatic incident ∈ s.world.2.published → incident.id ≠ id) →
        ∀ eventId, (Publication.automatic i).messageKey eventId = id := by
      intro i q hi hiid hne hq hqid hkind eventId
      have hchanged := hkind.resolve_right fun hnone => hnone i hi hiid
      subst hiid
      rw [Publication.messageKey_automatic hne]
      rcases halike i q hi hq hchanged hqid with hequipment | hequipment
      · rw [if_pos hequipment]
      · rw [hequipment, if_neg hne]
    rcases keyed_or_automatic hs hids hp hptopic hpid with ⟨i, rfl, hi, hne⟩ | ⟨hpkey, hpkind⟩
    · rcases keyed_or_automatic hs hids hq hqtopic hqid with ⟨j, rfl, hj, -⟩ | ⟨hqkey, hqkind⟩
      · obtain rfl := automatic_unique hs hp hq (hi.trans hj.symm)
        rw [Publication.messageKey_automatic (hi ▸ hne),
          Publication.messageKey_automatic (hi ▸ hne)]
      · rw [hqkey, mixed hp hi hne hq hqid hqkind]
    · rcases keyed_or_automatic hs hids hq hqtopic hqid with ⟨j, rfl, hj, hne⟩ | ⟨hqkey, -⟩
      · rw [hpkey, mixed hq hj hne hp hpid hpkind]
      · rw [hpkey, hqkey]

end History

namespace Sample

/-- A supply of ids none of which is empty. -/
def uuids : UuidSupply where
  draw n := UuidSupply.unary.draw (n + 1)
  injective _ _ h := Nat.succ.inj (UuidSupply.unary.injective h)

theorem uuids_ne_empty (n : Nat) : uuids.draw n ≠ "" := by
  intro hempty
  have hfirst : UuidSupply.unary.draw 0 = "" := rfl
  exact Nat.succ_ne_zero n (UuidSupply.unary.injective (hempty.trans hfirst.symm))

/-- The request of an incident, at one thread, and then the start of its analysis. -/
def changing (request : Request) (incidentId : String) (n : Nat) : Composed :=
  System.run (Request.code direct)
    (.arrive request :: advances 0 n ++
      (.arrive (.updateIncidentStatus incidentId ⟨.analyzing⟩ manager) :: advances 1 6))
    (System.start (initialWorld uuids))

theorem reachable_changing (request : Request) (incidentId : String) (n : Nat) :
    Composed.Reachable direct uuids (changing request incidentId n) := ⟨_, rfl⟩

end Sample

/-- A simulated incident, and a change of its status. -/
def changedSimulated : Composed :=
  Sample.changing (.simulateIncident Sample.incident Sample.manager) "a" 7

theorem oneKey_changedSimulated : OneKey changedSimulated.world := by
  refine (oneKey_iff (Sample.reachable_changing _ _ _) Sample.uuids_ne_empty).mpr ?_
  intro i p hi
  have hkeys : ∀ q ∈ changedSimulated.world.2.published, q.key ≠ none := by decide +kernel
  exact absurd rfl (hkeys _ hi)

/-- A critical sample, and a change of the status of its automatic incident. -/
def changedAutomatic : Composed :=
  Sample.changing (.ingestTelemetry 0 Sample.telemetry Sample.manager) "aa" 16

/-- The two events about the automatic incident have different keys. -/
theorem not_oneKey : ¬ ∀ settings uuids s, (∀ n, uuids.draw n ≠ "") →
    Composed.Reachable settings uuids s → OneKey s.world := by
  intro hall
  let incident : Incident :=
    .automatic (.received Sample.telemetry "a" 0) "AUTO-CRITICAL" "aa" 0
  have hone := hall _ _ changedAutomatic Sample.uuids_ne_empty (Sample.reachable_changing _ _ _)
    (.automatic incident) (.changed incident .analyzing "1") "aa" (by decide +kernel)
    (by decide +kernel) (by decide +kernel) (by decide +kernel) rfl rfl "" ""
  exact absurd hone (by decide +kernel)

end AxSentinel
