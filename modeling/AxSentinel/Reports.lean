import AxSentinel.Journals
import AxSentinel.Publications
import AxSentinel.Sequential
import AxSentinel.StoreRules

/-! # Events tell what was stored

A handler of the incident, work-order and analysis services publishes an event only of what it has
stored: a new entity, a status change it found allowed, or the completion of a work order, and that
one only when it has itself resolved the incident, or found none.  A handler publishes no two events
of one type.  So in every run an event of a new entity is published once, and what it says is
stored, in this or a later version (`events_reported`). -/
namespace AxSentinel
open Effects Service

/-! ## What an event tells -/

/-- The event of a new entity. -/
inductive Entity.ReportedBy : Entity → String → Prop
  | received (record : TelemetryRecord) : ReportedBy (.telemetry record) "telemetry.received"
  | detected {incident : Incident} : incident.status = .detected →
      ReportedBy (.incident incident) "incident.detected"
  | decided (record : ApprovalRecord) : ReportedBy (.approval record) "approval.decided"
  | opened {workOrder : WorkOrder} : workOrder.status = "open" →
      ReportedBy (.workOrder workOrder) "work_order.created"
  | analyzed (result : AnalysisResult) : ReportedBy (.analysis result) "analysis.completed"

theorem Entity.ReportedBy.ne {v : Entity} {eventType : String} (h : v.ReportedBy eventType) :
    eventType ≠ "work_order.completed" := by
  cases h <;> decide

/-- The incident was read, and stored as resolved. -/
def Resolved (past : Moves) (incidentId : String) : Prop :=
  ∃ (v : Entity) (key : Key), Saw past ⟨.incident, incidentId⟩ v ∧
    (key = ⟨.incident, incidentId⟩ ∨ key = v.key) ∧ Put past key v.resolved

/-- The incident was looked for and not there, or the one turned to was stored as resolved. -/
inductive Settled (settings : Settings) (past : Moves) (incidentId : String) : Prop
  | absent : isSet settings.incidentServiceUrl = false →
      (⟨.inl (.getItem ⟨.incident, incidentId⟩), .ok none⟩ : Move platformOps) ∈ past →
      Settled settings past incidentId
  | resolved {id : String} : settings.reached incidentId = some id → Resolved past id →
      Settled settings past incidentId

/-- The event tells of what was stored before. -/
inductive Reports (settings : Settings) (past : Moves) : Publication → Prop
  | created {v : Entity} {eventType : String} {key actorId : Option String} {alert : Bool} :
      v.ReportedBy eventType → Drew past v.key.entityId → Put past v.key v →
      Reports settings past ⟨eventType, .entity v, key, actorId, alert⟩
  | completed {workOrder : WorkOrder} {key actorId : Option String} {alert : Bool} :
      workOrder.status = "resolved" → Put past ⟨.workOrder, workOrder.id⟩ (.workOrder workOrder) →
      Settled settings past workOrder.incidentId →
      Reports settings past ⟨"work_order.completed", .entity (.workOrder workOrder),
        key, actorId, alert⟩
  | changed {incidentId : String} {incident : Incident} {status : IncidentStatus}
      {actorId : String} : Saw past ⟨.incident, incidentId⟩ (.incident incident) →
      status ∈ allowedTransitions incident.status →
      Put past ⟨.incident, incident.id⟩ (.incident { incident with status := status }) →
      Reports settings past (.changed incident status actorId)

/-- The id of a new entity was drawn. -/
theorem Reports.drew {settings : Settings} {past : Moves} {p : Publication} {v : Entity}
    (h : Reports settings past p)
    (hp : p.payload = .entity v) (htype : p.eventType ≠ "work_order.completed") :
    Drew past v.key.entityId := by
  cases h with
  | created _ hdrew => exact Payload.entity.inj hp ▸ hdrew
  | completed => exact absurd rfl htype
  | changed => cases hp

/-- No event of the type was published. -/
def Unpublished (past : Moves) (eventType : String) : Prop :=
  ∀ m ∈ past, ∀ p, m.op = .inr (.publish p) → p.eventType ≠ eventType

/-- What may be published. -/
def MayPublish (settings : Settings) (past : Moves) : platformOps.Op → Prop
  | .inr (.publish p) => HttpRaised past ∨ Unpublished past p.eventType ∧ Reports settings past p
  | _ => True

/-! ## The handlers keep to it -/

section Rules
variable {α β : Type} {settings : Settings} {past : Moves} {Q : Moves → Except Exc β → Prop}

theorem mem_putMoves_op {m : Move platformOps} {t : EntityType} {id : String} {v : Entity}
    {clock : Nat} {current : Option (Item (Attributes Entity))}
    (hm : m ∈ putMoves t id v clock current) : ∀ p, m.op ≠ .inr (.publish p) := by
  simp only [putMoves, List.mem_cons, List.not_mem_nil, or_false] at hm
  rcases hm with rfl | rfl | rfl <;> rintro _ ⟨⟩

theorem Put.mono {past' : Moves} {key : Key} {v : Entity} (h : Put past key v)
    (hsub : past ⊆ past') : Put past' key v := by
  obtain ⟨item, cond, hv, hm⟩ := h
  exact ⟨item, cond, hv, hsub hm⟩

theorem Resolved.append {incidentId : String} (h : Resolved past incidentId) (more : Moves) :
    Resolved (past ++ more) incidentId := by
  obtain ⟨v, key, hsaw, hkey, hput⟩ := h
  exact ⟨v, key, hsaw.append more, hkey, hput.append more⟩

theorem Settled.append {incidentId : String} (h : Settled settings past incidentId)
    (more : Moves) : Settled settings (past ++ more) incidentId := by
  cases h with
  | absent hunset hget => exact .absent hunset (List.mem_append_left _ hget)
  | resolved hreached hresolved => exact .resolved hreached (hresolved.append more)

theorem HttpRaised.append (h : HttpRaised past) (more : Moves) : HttpRaised (past ++ more) := by
  obtain ⟨op, e, hm, he⟩ := h
  exact ⟨op, e, List.mem_append_left _ hm, he⟩

theorem Unpublished.nil (eventType : String) : Unpublished [] eventType :=
  fun _ hm => absurd hm List.not_mem_nil

theorem Unpublished.append {eventType : String} (h : Unpublished past eventType) {more : Moves}
    (hmore : Unpublished more eventType) : Unpublished (past ++ more) eventType := by
  intro m hm
  rcases List.mem_append.mp hm with hm | hm
  · exact h m hm
  · exact hmore m hm

theorem Unpublished.snoc {eventType : String} (h : Unpublished past eventType) {op : platformOps.Op}
    {r : Except Exc (platformOps.Reply op)}
    (hop : ∀ p, op = .inr (.publish p) → p.eventType ≠ eventType) :
    Unpublished (past ++ [⟨op, r⟩]) eventType := by
  refine h.append fun m hm => ?_
  obtain rfl := List.mem_singleton.mp hm
  exact hop

theorem Unpublished.put {eventType : String} (h : Unpublished past eventType) {t : EntityType}
    {id : String} {v : Entity} {clock : Nat} {current : Option (Item (Attributes Entity))} :
    Unpublished (past ++ putMoves t id v clock current) eventType :=
  h.append fun _ hm p hop => absurd hop (mem_putMoves_op hm p)

/-- A handler that publishes only what it may. -/
abbrev Reporting (settings : Settings) (past : Moves) (p : Service α) : Prop :=
  p.Obeys (MayPublish settings) (fun _ _ => True) past

theorem reporting_perform {op : platformOps.Op} {f : platformOps.Reply op → Service β}
    (hop : MayPublish settings past op)
    (hok : ∀ r, Reporting settings (past ++ [⟨op, .ok r⟩]) (f r)) :
    Reporting settings past (Program.perform platformOps op >>= f) :=
  obeys_perform hop (fun _ => trivial) hok

theorem reporting_publish {p : Publication} {f : Unit → Service β}
    (hnew : Unpublished past p.eventType) (hp : Reports settings past p)
    (hok : Reporting settings (past ++ [⟨.inr (.publish p), .ok ()⟩]) (f ())) :
    Reporting settings past (publish p >>= f) :=
  reporting_perform (.inr ⟨hnew, hp⟩) fun _ => hok

theorem reporting_get {t : EntityType} {id : String} {f : Option Entity → Service β}
    (hok : ∀ item, Reporting settings (past ++ [⟨.inl (.getItem ⟨t, id⟩), .ok item⟩])
      (f (item.map fun item => item.attributes.data))) :
    Reporting settings past (Service.get t id >>= f) :=
  obeys_get trivial (fun _ => trivial) hok

theorem reporting_list {t : EntityType} {f : List Entity → Service β}
    (hok : ∀ items : List (Attributes Entity),
      Reporting settings (past ++ [⟨.inl (.query t), .ok items⟩]) (f (items.map Attributes.data))) :
    Reporting settings past (Service.list t >>= f) :=
  obeys_list trivial (fun _ => trivial) hok

theorem reporting_put {t : EntityType} {id : String} {v : Entity} {f : Unit → Service β}
    (hok : ∀ clock current, Reporting settings (past ++ putMoves t id v clock current) (f ())) :
    Reporting settings past (Service.put t id v >>= f) :=
  obeys_put trivial (fun _ => trivial) (fun _ _ => trivial) (fun _ _ _ _ _ => trivial) hok

theorem reporting_ofExcept {x : Except Exc α} {f : α → Service β}
    (hok : ∀ a, x = .ok a → Reporting settings past (f a)) :
    Reporting settings past (Program.ofExcept x >>= f) :=
  obeys_ofExcept (fun _ _ => trivial) hok

theorem reporting_requireRoles {roles : List Role} {principal : Principal} {f : Unit → Service β}
    (hok : Reporting settings past (f ())) :
    Reporting settings past (requireRoles roles principal >>= f) :=
  obeys_requireRoles (fun _ => trivial) fun _ => hok

end Rules

section Handlers
variable {settings : Settings}

theorem reporting_simulateIncident (request : VirtualIncidentRequest) (principal : Principal) :
    Reporting settings [] (simulateIncident request principal) := by
  unfold simulateIncident
  refine reporting_requireRoles (reporting_perform trivial fun id => reporting_perform trivial
    fun detectedAt => reporting_put fun clock current => ?_)
  refine reporting_publish ?_ (.created (.detected rfl) ?_ (put_putMoves ..))
    (reporting_perform trivial fun _ => trivial)
  · simp [Unpublished, putMoves]
  · simp [Drew, Entity.key, Incident.simulated]

theorem reporting_ingestTelemetry (replica : Nat) (request : TelemetryRequest)
    (principal : Principal) :
    Reporting settings [] (ingestTelemetry replica request principal) := by
  simp only [ingestTelemetry, recordTelemetry, createAutomaticIncident, bind_assoc]
  refine reporting_requireRoles (reporting_perform trivial fun id => reporting_perform trivial
    fun receivedAt => reporting_put fun clock current => ?_)
  refine reporting_publish ?_ (.created (.received _) ?_ (put_putMoves ..))
    (reporting_perform trivial fun _ => reporting_perform trivial fun triggerCode => ?_)
  · simp [Unpublished, putMoves]
  · simp [Drew, Entity.key, TelemetryRecord.received]
  cases triggerCode with
  | none => trivial
  | some triggerCode =>
    simp only [bind_assoc]
    refine reporting_list fun items => reporting_ofExcept fun incidents _ => ?_
    split
    · trivial
    · simp only [bind_assoc]
      refine reporting_perform trivial fun incidentId => reporting_perform trivial
        fun detectedAt => reporting_put fun clock current => ?_
      refine reporting_publish ?_ (.created (.detected rfl) ?_ (put_putMoves ..))
        (reporting_perform trivial fun _ => trivial)
      · simp [Unpublished, putMoves]
      · simp [Drew, Entity.key, Incident.automatic]

theorem reporting_decideActionPlan (request : ApprovalRequest) (principal : Principal) :
    Reporting settings [] (decideActionPlan request principal) := by
  unfold decideActionPlan
  refine reporting_requireRoles (reporting_perform trivial fun id => reporting_put
    fun clock current => ?_)
  refine reporting_publish ?_ (.created (.decided _) ?_ (put_putMoves ..)) ?_
  · simp [Unpublished, putMoves]
  · simp [Drew, Entity.key]
  split
  · trivial
  · split
    · trivial
    · refine reporting_perform trivial fun id => reporting_put fun clock current => ?_
      refine reporting_publish ?_ (.created (.opened rfl) ?_ (put_putMoves ..)) trivial
      · simp [Unpublished, putMoves]
      · simp [Drew, Entity.key, WorkOrder.opened]

theorem reporting_analyzeIncident (request : AnalysisRequest) (principal : Principal) :
    Reporting settings [] (analyzeIncident settings.runtime request principal) := by
  unfold analyzeIncident
  refine reporting_requireRoles (reporting_perform trivial fun generation =>
    reporting_perform trivial fun id => reporting_ofExcept fun result hresult =>
      reporting_ofExcept fun _ _ => reporting_put fun clock current => ?_)
  have hid : result.id = id := AnalysisResult.build_id hresult
  split
  · refine reporting_perform trivial fun now => reporting_perform trivial fun reviewId =>
      reporting_put fun _ _ => ?_
    refine reporting_publish ?_ (.created (.analyzed _) ?_ ?_) trivial
    · simp [Unpublished, putMoves]
    · simp [Drew, Entity.key, hid]
    · exact (((put_putMoves ..).append _).append _).append _
  · refine reporting_publish ?_ (.created (.analyzed _) ?_ (put_putMoves ..)) trivial
    · simp [Unpublished, putMoves]
    · simp [Drew, Entity.key, hid]

theorem reporting_updateExpertReview (reviewId : String) (update : ExpertReviewUpdate)
    (principal : Principal) :
    Reporting settings [] (updateExpertReview reviewId update principal) := by
  unfold updateExpertReview
  refine reporting_requireRoles (reporting_get fun item => ?_)
  cases item with
  | none => trivial
  | some item =>
    refine reporting_ofExcept fun review _ => ?_
    dsimp only
    split
    · trivial
    · exact reporting_perform trivial fun now => reporting_put fun _ _ => trivial

/-- An error that is no HTTP exception of an operation is answered with a server error. -/
theorem httpRaised_or (past : Moves) (op : platformOps.Op) {e e' : Exc}
    (h : e.isHttp = false → e'.isHttp = false) :
    HttpRaised (past ++ [⟨op, .error e⟩]) ∨ 400 ≤ responseStatus e' := by
  cases he : e.isHttp with
  | true => exact .inl ⟨op, e, by simp, he⟩
  | false =>
    refine .inr ?_
    have hstatus : responseStatus e' = 500 := by
      cases e' with
      | httpException => cases h he
      | _ => rfl
    omega

/-- A status update to `resolved` resolves the incident, or is refused. -/
theorem reports_updateIncidentStatus {past : Moves} (incidentId : String)
    (update : IncidentStatusUpdate) (principal : Principal)
    (hnew : Unpublished past "incident.status_changed") :
    (updateIncidentStatus incidentId update principal).Obeys (MayPublish settings) (fun past' out =>
      match out with
      | .ok _ => (update.status = .resolved → Resolved past' incidentId) ∧
          ∀ t, t ≠ "incident.status_changed" → Unpublished past t → Unpublished past' t
      | .error e => HttpRaised past' ∨ 400 ≤ responseStatus e) past := by
  unfold updateIncidentStatus requireRoles
  split
  swap
  · exact .inr (by decide)
  refine obeys_get trivial (fun e => httpRaised_or _ _ id) fun item => ?_
  cases item with
  | none => exact .inr (by decide)
  | some item =>
    refine obeys_ofExcept (fun e he => .inr ?_) fun incident hincident => ?_
    · cases hdata : item.attributes.data with
      | incident incident => simp [hdata, Incident.modelValidate] at he
      | _ =>
        simp only [hdata, Incident.modelValidate, Except.error.injEq] at he
        exact he ▸ by decide
    have hdata := Incident.modelValidate_eq_ok.mp hincident
    split
    · exact .inr (show 400 ≤ 409 by decide)
    rename_i hallowed
    refine obeys_put trivial (fun _ => trivial) (fun _ _ => trivial)
      (fun more op e e' h => httpRaised_or _ op h) fun clock current => ?_
    have hsaw : Saw (past ++ [⟨.inl (.getItem ⟨.incident, incidentId⟩), .ok (some item)⟩] ++
        putMoves .incident incident.id (.incident { incident with status := update.status }) clock
          current) ⟨.incident, incidentId⟩ (.incident incident) :=
      ⟨item, hdata, by simp⟩
    have hput := put_putMoves (past ++ [⟨.inl (.getItem ⟨.incident, incidentId⟩), .ok (some item)⟩])
      .incident incident.id (.incident { incident with status := update.status }) clock current
    refine obeys_perform (.inr ⟨?_, .changed hsaw (not_not.mp hallowed) hput⟩)
      (fun e => httpRaised_or _ _ id) fun _ => ?_
    · exact (hnew.snoc (by rintro _ ⟨⟩)).put
    refine obeys_perform trivial (fun e => httpRaised_or _ _ id) fun _ => ⟨?_, ?_⟩
    · intro hresolved
      have hv : Entity.resolved (.incident incident) =
          .incident { incident with status := update.status } := by rw [hresolved, Entity.resolved]
      refine ⟨.incident incident, _, (hsaw.append _).append _, .inr rfl, ?_⟩
      rw [hv]
      exact (hput.append _).append _
    · intro t ht hunpublished
      refine ((((hunpublished.snoc (by rintro _ ⟨⟩)).put).snoc ?_)).snoc (by rintro _ ⟨⟩)
      rintro _ ⟨⟩
      exact ht.symm

/-- Where it returns, the incident is settled. -/
theorem reports_resolveIncident {past : Moves} (incidentId : String)
    (principal : Principal) (hnew : Unpublished past "incident.status_changed") :
    (resolveIncident settings incidentId principal).Obeys (MayPublish settings) (fun past' out =>
      out = .ok () → HttpRaised past' ∨ Settled settings past' incidentId ∧
        ∀ t, t ≠ "incident.status_changed" → Unpublished past t → Unpublished past' t) past := by
  unfold resolveIncident
  split
  · rename_i hset
    unfold patchIncidentStatus
    dsimp only
    split
    · exact nofun
    rename_i route hroute
    refine obeys_perform trivial (fun _ h => nomatch h) fun _ => Program.obeys_bind.mpr ?_
    cases route with
    | unrouted statusCode refused =>
      refine obeys_perform trivial (fun _ h => nomatch h) fun _ => ?_
      rw [if_pos refused]
      exact nofun
    | incident id =>
      have hreached : settings.reached incidentId = some id :=
        Settings.reached_of_route hset hroute
      refine Program.obeys_tryCatch.mpr (Program.obeys_bind.mpr ?_)
      refine (reports_updateIncidentStatus id ⟨.resolved⟩ principal
        (hnew.snoc (by rintro _ ⟨⟩))).mono (fun _ _ h => h) fun past' out hout => ?_
      cases out with
      | ok incident =>
        refine obeys_perform trivial (fun _ h => nomatch h) fun _ _ => .inr ?_
        refine ⟨.resolved hreached ((hout.1 rfl).append _), fun t ht hunpublished => ?_⟩
        exact (hout.2 t ht (hunpublished.snoc (by rintro _ ⟨⟩))).snoc (by rintro _ ⟨⟩)
      | error e =>
        refine obeys_perform trivial (fun _ h => nomatch h) fun _ => ?_
        split
        · exact fun h => nomatch h
        · rename_i hstatus
          exact fun _ => .inl ((hout.resolve_right (by omega)).append _)
  · rename_i hunset
    refine obeys_get trivial (fun _ h => nomatch h) fun item => ?_
    cases item with
    | none =>
      refine fun _ => .inr ⟨.absent (eq_false_of_ne_true hunset) (by simp),
        fun t _ hunpublished => ?_⟩
      exact hunpublished.snoc (by rintro _ ⟨⟩)
    | some item =>
      refine obeys_put trivial (fun _ => trivial) (fun _ _ => trivial)
        (fun _ _ _ _ _ h => nomatch h) fun clock current => ?_
      have hsettled : Settled settings
          (past ++ [⟨.inl (.getItem ⟨.incident, incidentId⟩), .ok (some item)⟩] ++
            putMoves .incident incidentId item.attributes.data.resolved clock current) incidentId :=
        .resolved (if_neg hunset) ⟨_, _, ⟨item, rfl, by simp⟩, .inl rfl, put_putMoves ..⟩
      have hkept : ∀ t, Unpublished past t → Unpublished (past ++
          [⟨.inl (.getItem ⟨.incident, incidentId⟩), .ok (some item)⟩] ++
          putMoves .incident incidentId item.attributes.data.resolved clock current) t :=
        fun t hunpublished => (hunpublished.snoc (by rintro _ ⟨⟩)).put
      split
      · rw [← bind_pure (broadcast _ _)]
        refine obeys_perform trivial (fun _ h => nomatch h) fun _ _ => .inr ?_
        exact ⟨hsettled.append _, fun t _ h => (hkept t h).snoc (by rintro _ ⟨⟩)⟩
      · exact fun _ => .inr ⟨hsettled, fun t _ h => hkept t h⟩

theorem reporting_completeWorkOrder (workOrderId : String)
    (completion : WorkOrderCompletion) (principal : Principal) :
    Reporting settings [] (completeWorkOrder settings workOrderId completion principal) := by
  unfold completeWorkOrder
  refine reporting_requireRoles (reporting_get fun item => ?_)
  cases item with
  | none => trivial
  | some item =>
    simp only [Option.map_some]
    split
    · trivial
    refine reporting_ofExcept fun workOrder _ => ?_
    split
    · trivial
    refine reporting_put fun clock current => Program.obeys_bind.mpr ?_
    have hput := put_putMoves ([] ++ [⟨.inl (.getItem ⟨.workOrder, workOrderId⟩), .ok (some item)⟩])
      .workOrder workOrder.id (.workOrder (workOrder.completed completion)) clock current
    have hnew : ∀ t, Unpublished ([] ++
        [⟨.inl (.getItem ⟨.workOrder, workOrderId⟩), .ok (some item)⟩] ++ putMoves .workOrder
          workOrder.id (.workOrder (workOrder.completed completion)) clock current) t :=
      fun t => ((Unpublished.nil t).snoc (by rintro _ ⟨⟩)).put
    refine (reports_resolveIncident _ principal (hnew _)).extends.mono (fun _ _ => id)
      fun past' out hout => ?_
    obtain ⟨hsub, hout⟩ := hout
    cases out with
    | error e => trivial
    | ok _ =>
      refine reporting_perform ?_ fun _ => trivial
      rcases hout rfl with hraised | ⟨hsettled, hkept⟩
      · exact .inl hraised
      · have htype : "work_order.completed" ≠ "incident.status_changed" := by decide
        exact .inr ⟨hkept _ htype (hnew _), .completed rfl (hput.mono hsub) hsettled⟩

end Handlers

/-- **Every request publishes only what it may.** -/
theorem Request.reports (settings : Settings) (request : Request) :
    (request.code settings).Obeys (MayPublish settings) (fun _ _ => True) [] := by
  cases request with
  | simulateIncident request principal =>
    exact (reporting_simulateIncident request principal).bind fun _ _ => trivial
  | ingestTelemetry replica request principal =>
    exact (reporting_ingestTelemetry replica request principal).bind fun _ _ => trivial
  | updateIncidentStatus incidentId update principal =>
    refine Program.Obeys.bind ?_ fun _ _ => trivial
    exact (reports_updateIncidentStatus incidentId update principal (.nil _)).mono (fun _ _ => id)
      fun _ _ _ => trivial
  | decideActionPlan request principal =>
    exact (reporting_decideActionPlan request principal).bind fun _ _ => trivial
  | completeWorkOrder workOrderId completion principal =>
    exact (reporting_completeWorkOrder workOrderId completion principal).bind
      fun _ _ => trivial
  | analyzeIncident request principal =>
    exact (reporting_analyzeIncident request principal).bind fun _ _ => trivial
  | updateExpertReview reviewId update principal =>
    exact (reporting_updateExpertReview reviewId update principal).bind fun _ _ => trivial

/-! ## What was published -/

/-- The publications, in order. -/
def publicationJournal : Journal reliablePlatform Publication where
  entries w := w.2.published
  appends op p := op = .inr (.publish p)
  step op c w := by
    match op with
    | .inl _ => exact .inl rfl
    | .inr (.publish p) => exact .inr ⟨p, rfl, rfl⟩
    | .inr (.broadcast _ _) => exact .inl rfl
    | .inr (.request _) => exact .inl rfl
    | .inr .response => exact .inl rfl
    | .inr (.evaluate _ _) => exact .inl rfl
    | .inr (.generate _) => exact .inl rfl
    | .inr .uuid4 => exact .inl rfl

/-- Something holds of a step of the request that published the event, before it did. -/
def Before (s : Composed) (p : Publication) (P : Event platform → Prop) : Prop :=
  ∃ (k n : Nat) (d e : Event platform), k < n ∧ s.history[k]? = some d ∧ s.history[n]? = some e ∧
    d.thread = e.thread ∧ e.move.op = .inr (.publish p) ∧ P d

section History
variable {settings : Settings} {uuids : UuidSupply} {s : Composed}

/-- A publication at a position, and the event that made it. -/
theorem reported_of_published (hs : Composed.Reachable settings uuids s) {j : Nat}
    {p : Publication} (hj : s.world.2.published[j]? = some p) :
    ∃ (n : Nat) (e : Event platform), s.history[n]? = some e ∧ e.move.op = .inr (.publish p) ∧
      e.before.2.published.length = j ∧
      Unpublished (past e.thread (s.history.take n)) p.eventType ∧
      Reports settings (past e.thread (s.history.take n)) p := by
  have H := (System.Reachable.conforms hs (Request.reports settings)).history
  obtain ⟨n, e, hn, hop, hlength⟩ := (publicationJournal.faulty raises).origin H rfl hj
  obtain ⟨hbefore, ⟨request, -, hmay⟩, -⟩ := H.at_position hn
  rw [hop] at hmay
  rcases hmay with ⟨op, error, hm, hhttp⟩ | hreports
  · -- no operation of the platform raises an HTTP exception
    obtain ⟨k, d, c, -, -, hexec⟩ := hbefore.exec_of_mem_past hm
    rw [exec_not_http hexec] at hhttp
    cases hhttp
  · exact ⟨n, e, hn, hop, hlength, hreports⟩

/-- What a thread had written was stored at a moment before. -/
theorem before_of_put (hs : Composed.Reachable settings uuids s) {n : Nat} {e : Event platform}
    {p : Publication} (hn : s.history[n]? = some e) (hop : e.move.op = .inr (.publish p))
    {key : Key} {v : Entity} (hput : Put (past e.thread (s.history.take n)) key v) :
    Before s p fun d => entity key d.after = some v := by
  obtain ⟨item, cond, rfl, hm⟩ := hput
  obtain ⟨k, d, hk, hthread, hwrote⟩ := (hs.history.at_position hn).1.wrote_of_replied hm
  rw [List.getElem?_take] at hk
  split at hk
  · refine ⟨k, n, d, e, ‹_›, hk, hn, hthread, hop, ?_⟩
    show entity key d.after = some item.attributes.data
    rw [entity, hwrote.stored_after]
    rfl
  · cases hk

/-- What a thread had read was stored at a moment before. -/
theorem before_of_saw (hs : Composed.Reachable settings uuids s) {n : Nat} {e : Event platform}
    {p : Publication} (hn : s.history[n]? = some e) (hop : e.move.op = .inr (.publish p))
    {key : Key} {v : Entity} (hsaw : Saw (past e.thread (s.history.take n)) key v) :
    v.key = key ∧ Before s p fun d => entity key d.after = some v := by
  have H := (hs.history.at_position hn).1
  refine ⟨(keyed H).2 _ _ _ hsaw, ?_⟩
  obtain ⟨item, rfl, hm⟩ := hsaw
  obtain ⟨k, d, hk, hthread, -, hread⟩ := H.stored_of_read hm
  rw [List.getElem?_take] at hk
  split at hk
  · refine ⟨k, n, d, e, ‹_›, hk, hn, hthread, hop, ?_⟩
    show entity key d.after = some item.attributes.data
    rw [entity, hread]
    rfl
  · cases hk

/-- The request looked for the incident, and did not find it; or it stored the one it turned to as
resolved. -/
def SettledBefore (settings : Settings) (s : Composed) (p : Publication) (incidentId : String) :
    Prop :=
  (isSet settings.incidentServiceUrl = false ∧ Before s p fun d =>
    d.move.op = .inl (.getItem ⟨.incident, incidentId⟩) ∧
      entity ⟨.incident, incidentId⟩ d.before = none) ∨
  ∃ (id : String) (incident : Incident), settings.reached incidentId = some id ∧
    incident.status = .resolved ∧
    Before s p fun d => entity ⟨.incident, id⟩ d.after = some (.incident incident)

theorem before_of_settled (hs : Composed.Reachable settings uuids s) {n : Nat}
    {e : Event platform} {p : Publication} (hn : s.history[n]? = some e)
    (hop : e.move.op = .inr (.publish p)) {incidentId : String}
    (hsettled : Settled settings (past e.thread (s.history.take n)) incidentId) :
    SettledBefore settings s p incidentId := by
  have H := (hs.history.at_position hn).1
  cases hsettled with
  | absent hunset hm =>
    obtain ⟨k, d, c, hk, hevent, hexec⟩ := H.exec_of_mem_past hm
    rw [List.getElem?_take] at hk
    split at hk
    · refine .inl ⟨hunset, k, n, d, e, ‹_›, hk, hn, by rw [hevent]; rfl, hop,
        by rw [hevent]; rfl, ?_⟩
      have hread := (TableMachine.exec_get (M := platform) _ c d.before).2 _ hexec
      rw [entity, stored, ← hread]
      rfl
    · cases hk
  | @resolved id hreached hresolved =>
    obtain ⟨v, key, hsaw, hkey, hput⟩ := hresolved
    obtain ⟨incident, rfl⟩ := incident_of_saw H hsaw
    have hid : (Entity.incident incident).key = ⟨.incident, id⟩ := (keyed H).2 _ _ _ hsaw
    obtain rfl : key = ⟨.incident, id⟩ := hkey.elim (fun h => h) fun h => h.trans hid
    exact .inr ⟨id, _, hreached, rfl, before_of_put hs hn hop hput⟩

/-- A new entity is reported once. -/
theorem reported_once (hs : Composed.Reachable settings uuids s) {i j : Nat} {p q : Publication}
    {u v : Entity} (hi : s.world.2.published[i]? = some p) (hj : s.world.2.published[j]? = some q)
    (hp : p.payload = .entity u) (hq : q.payload = .entity v) (hkey : u.key = v.key)
    (htype : p.eventType = q.eventType) (hnew : u.ReportedBy p.eventType) : i = j := by
  obtain ⟨m, d, hm, hdop, hdlength, hdfirst, hdreports⟩ := reported_of_published hs hi
  obtain ⟨n, e, hn, heop, helength, hefirst, hereports⟩ := reported_of_published hs hj
  have hdrew := (hdreports.drew hp hnew.ne).of_take
  have hdrew' := (hereports.drew hq (htype ▸ hnew.ne)).of_take
  have hthread : d.thread = e.thread := drawn_unique hs.history (hkey ▸ hdrew) hdrew'
  -- the thread publishes no two events of the type
  rcases Nat.lt_trichotomy m n with hlt | rfl | hgt
  · exact absurd htype (hefirst _ (mem_past_of_lt hm hthread hlt) p hdop)
  · obtain rfl := Option.some.inj (hm.symm.trans hn)
    exact hdlength.symm.trans helength
  · exact absurd htype.symm (hdfirst _ (mem_past_of_lt hn hthread.symm hgt) q heop)

/-- Every event tells of an entity that is stored, in this or a later version, or of a status
change that was stored; one of a new entity is published once, and one of a completion after the
request resolved the incident it turned to, or found none. -/
structure EventsReported (settings : Settings) (s : Composed) : Prop where
  stored : ∀ p ∈ s.world.2.published, ∀ v, p.payload = .entity v →
    (v.ReportedBy p.eventType ∨ p.eventType = "work_order.completed") ∧
      ∃ u, entity v.key s.world = some u ∧ v.Evolves u
  once : ∀ (i j : Nat) (p q : Publication) (u v : Entity), s.world.2.published[i]? = some p →
    s.world.2.published[j]? = some q → p.payload = .entity u → q.payload = .entity v →
    u.key = v.key → p.eventType = q.eventType → u.ReportedBy p.eventType → i = j
  completed : ∀ p ∈ s.world.2.published, p.eventType = "work_order.completed" →
    ∃ workOrder : WorkOrder, p.payload = .entity (.workOrder workOrder) ∧
      workOrder.status = "resolved" ∧ SettledBefore settings s p workOrder.incidentId
  changed : ∀ p ∈ s.world.2.published, ∀ id incidentId equipmentId previousStatus status,
    p.payload = .statusChanged id incidentId equipmentId previousStatus status →
      id = incidentId ∧ status ∈ allowedTransitions previousStatus ∧
      ∃ incident : Incident, incident.equipmentId = equipmentId ∧
        incident.status = previousStatus ∧
        (Before s p fun d => entity ⟨.incident, incidentId⟩ d.after = some (.incident incident)) ∧
        Before s p fun d => entity ⟨.incident, incidentId⟩ d.after =
          some (.incident { incident with status := status })

/-- **Events tell what was stored.** -/
theorem events_reported (hs : Composed.Reachable settings uuids s) :
    EventsReported settings s where
  stored p hp v hv := by
    obtain ⟨j, hj⟩ := List.mem_iff_getElem?.mp hp
    obtain ⟨n, e, hn, hop, -, -, hreports⟩ := reported_of_published hs hj
    cases hreports with
    | created hreported _ hput =>
      obtain rfl := Payload.entity.inj hv
      exact ⟨.inl hreported, put_evolves hs.history (hput.mono fun _ => mem_past_of_take)⟩
    | completed _ hput =>
      obtain rfl := Payload.entity.inj hv
      exact ⟨.inr rfl, put_evolves hs.history (hput.mono fun _ => mem_past_of_take)⟩
    | changed => cases hv
  once i j p q u v hi hj hp hq hkey htype hnew := reported_once hs hi hj hp hq hkey htype hnew
  completed p hp htype := by
    obtain ⟨j, hj⟩ := List.mem_iff_getElem?.mp hp
    obtain ⟨n, e, hn, hop, -, -, hreports⟩ := reported_of_published hs hj
    cases hreports with
    | created hreported => exact absurd htype hreported.ne
    | completed hresolved _ hsettled =>
      exact ⟨_, rfl, hresolved, before_of_settled hs hn hop hsettled⟩
    | changed =>
      have hother : "incident.status_changed" ≠ "work_order.completed" := by decide
      exact absurd htype hother
  changed p hp id incidentId equipmentId previousStatus status hpayload := by
    obtain ⟨j, hj⟩ := List.mem_iff_getElem?.mp hp
    obtain ⟨n, e, hn, hop, -, -, hreports⟩ := reported_of_published hs hj
    cases hreports with
    | created => cases hpayload
    | completed => cases hpayload
    | @changed readId incident _ _ hsaw hallowed hput =>
      obtain ⟨rfl, rfl, rfl, rfl, rfl⟩ := Payload.statusChanged.inj hpayload
      obtain ⟨hkey, hstored⟩ := before_of_saw hs hn hop hsaw
      obtain rfl : incident.id = readId := congrArg Key.entityId hkey
      exact ⟨rfl, hallowed, incident, rfl, rfl, hstored, before_of_put hs hn hop hput⟩

end History

namespace Sample

/-- An incident, an approving decision on it, and the completion of the work order. -/
def reported : Composed :=
  run direct (.arrive (.simulateIncident incident manager) :: advances 0 7 ++
    .arrive (.decideActionPlan (decision "analysis-1" "" .approve) manager) :: advances 1 10 ++
    .arrive (.completeWorkOrder "aa" completion worker) :: advances 2 9)

end Sample

/-- Four events were published, the completion after the incident was resolved. -/
theorem events_reported_reported :
    Sample.reported.world.2.published.map Publication.eventType =
        ["incident.detected", "approval.decided", "work_order.created", "work_order.completed"] ∧
      EventsReported Sample.direct Sample.reported :=
  ⟨by rfl, events_reported (Sample.reachable_run _ _)⟩

end AxSentinel
