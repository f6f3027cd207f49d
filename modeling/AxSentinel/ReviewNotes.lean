import AxSentinel.Reviews
import AxSentinel.Sequential

/-! # Completed reviews and their notes

`update_expert_review` applies an update to the review it has read, and only then asks whether
a completed review has a note.  So whatever sets the status and whatever sets the note, what is
written has one if it is completed (`reviews_noted`). -/
namespace AxSentinel
open Effects Service

/-- A completed review has a note. -/
def ExpertReviewCase.Noted (review : ExpertReviewCase) : Prop :=
  review.status = .completed → ∃ note, review.resolutionNote = some note ∧ note ≠ ""

/-- The review is about what the other one is about. -/
structure ExpertReviewCase.SameCase (review created : ExpertReviewCase) : Prop where
  analysisId : review.analysisId = created.analysisId
  incidentId : review.incidentId = created.incidentId
  reasons : review.reasons = created.reasons
  riskLevel : review.riskLevel = created.riskLevel
  confidence : review.confidence = created.confidence
  createdAt : review.createdAt = created.createdAt

/-- An update changes the status, the assignee and the note. -/
theorem ExpertReviewCase.sameCase_updated (review : ExpertReviewCase)
    (update : ExpertReviewUpdate) :
    (review.updated update).SameCase review := by
  obtain ⟨status, assignee, note⟩ := update
  cases status <;> cases assignee <;> cases note <;> exact ⟨rfl, rfl, rfl, rfl, rfl, rfl⟩

theorem ExpertReviewCase.SameCase.trans {a b c : ExpertReviewCase} (hab : a.SameCase b)
    (hbc : b.SameCase c) : a.SameCase c where
  analysisId := hab.analysisId.trans hbc.analysisId
  incidentId := hab.incidentId.trans hbc.incidentId
  reasons := hab.reasons.trans hbc.reasons
  riskLevel := hab.riskLevel.trans hbc.riskLevel
  confidence := hab.confidence.trans hbc.confidence
  createdAt := hab.createdAt.trans hbc.createdAt

/-! ## Notes -/

/-- A review is written with the note it needs. -/
def WritesNoted (_ : Moves) (key : Key) (v : Entity) : Prop :=
  key.entityType = .expertReview → ∀ review, v = .expertReview review → review.Noted

theorem keeps_writesNoted_update (reviewId : String) (update : ExpertReviewUpdate)
    (principal : Principal) :
    Keeps WritesNoted [] (updateExpertReview reviewId update principal) := by
  unfold updateExpertReview
  refine keeps_requireRoles fun _ => (keeps_get fun item => ?_)
  cases item with
  | none => exact keeps_raise _
  | some item =>
    refine keeps_ofExcept fun review _ => ?_
    dsimp only
    split
    · exact keeps_raise _
    · rename_i hchecked
      refine keeps_now fun now => (keeps_put (fun _ => ?_) fun _ _ => keeps_ret _)
      rintro - _ ⟨⟩ hcompleted
      have hset : isSet (review.updated update).resolutionNote = true := by
        by_contra hunset
        exact hchecked ⟨hcompleted, by simpa using hunset⟩
      obtain ⟨note, hnote, hne⟩ := (Option.any_eq_true _ _).mp hset
      exact ⟨note, hnote, of_decide_eq_true hne⟩

theorem keeps_writesNoted_analyze (rt : Runtime) (request : AnalysisRequest)
    (principal : Principal) :
    Keeps WritesNoted [] (analyzeIncident rt request principal) := by
  unfold analyzeIncident
  refine keeps_requireRoles fun _ => (keeps_perform (by rintro _ _ _ ⟨⟩) fun generation => ?_)
  refine keeps_uuid4 fun id => keeps_ofExcept fun result _ => keeps_ofExcept fun _ _ => ?_
  refine keeps_put (fun _ => by rintro ⟨⟩) fun _ _ => ?_
  split
  · refine keeps_now fun now => keeps_uuid4 fun reviewId => ?_
    refine keeps_put (fun _ => ?_) fun _ _ => keeps_publish (keeps_ret _)
    -- a review is opened as pending
    rintro - _ ⟨⟩ hcompleted
    cases hcompleted
  · exact keeps_publish (keeps_ret _)

/-- Every request keeps to this protocol: the others write no reviews. -/
theorem keeps_writesNoted (settings : Settings) (request : Request) :
    Keeps WritesNoted [] (request.code settings) := by
  cases request with
  | updateExpertReview reviewId update principal =>
    exact (keeps_writesNoted_update reviewId update principal).bind fun _ _ => keeps_ret _
  | analyzeIncident request principal =>
    exact (keeps_writesNoted_analyze _ request principal).bind fun _ _ => keeps_ret _
  | _ =>
    refine (Request.obeys settings _).mono (fun past op h key item cond hop => ?_) fun _ _ => id
    obtain ⟨earlier, current, hpast, hcond, hversion, hwrites⟩ := h key item cond hop
    refine ⟨earlier, current, hpast, hcond, hversion, ?_⟩
    generalize item.attributes.data = v at hwrites
    intro hkey
    cases hwrites <;> cases hkey

/-! ## What updates leave alone -/

section History
variable {settings : Settings} {requests : Nat → Option Request} {uuids : UuidSupply}
  {h : List (Event platform)} {w : platform.World}

/-- Every review is about what it was created about. -/
theorem sameCase_created (H : Composed.History settings requests uuids h w) {key : Key}
    {review : ExpertReviewCase} (hstored : entity key w = some (.expertReview review)) :
    ∃ created, CreatedAs h key (.expertReview created) ∧ review.SameCase created := by
  have hinvariant := stored_invariant (fun h _ key v => ∀ review, v = .expertReview review →
    ∃ created, CreatedAs h key (.expertReview created) ∧ review.SameCase created) ?_ ?_ H
  · exact hinvariant.1 key _ hstored review rfl
  · intro h w i op _ _ c key v hI review hv
    obtain ⟨created, hcreated, hsame⟩ := hI review hv
    exact ⟨created, hcreated.snoc _, hsame⟩
  · intro h w i op c H _ _ hsaws key item hwrote hjust review hv
    obtain ⟨request, earlier, current, hrequest, hpast, hwrites⟩ := hjust
    rw [hv] at hwrites
    generalize hv' : Entity.expertReview review = v at hwrites
    cases hwrites with
    | @reviewOpened request principal _ result id now hnew =>
      -- the id is fresh, so this is the creation
      obtain rfl := Entity.expertReview.inj hv'
      have hnone : entity ⟨.expertReview, id⟩ w = none := fresh H hpast hnew
      exact ⟨_, ⟨_, List.mem_append_right _ (List.mem_singleton.mpr rfl), hnone, item, hv, hwrote⟩,
        ⟨rfl, rfl, rfl, rfl, rfl, rfl⟩⟩
    | @reviewUpdated reviewId update principal _ old now hsaw =>
      obtain rfl := Entity.expertReview.inj hv'
      have hsaw' : Saw (past i h) ⟨.expertReview, reviewId⟩ (.expertReview old) :=
        hpast ▸ hsaw.append _
      have hkey := congrArg Key.entityId ((keyed H).2 i _ _ hsaw')
      obtain ⟨created, hcreated, hsame⟩ := hsaws _ _ hsaw' old rfl
      have hid : (old.updated update).id = reviewId := (old.updated_id update).trans hkey
      have hupdated := (old.sameCase_updated update).trans hsame
      refine ⟨created, ?_, ⟨hupdated.analysisId, hupdated.incidentId, hupdated.reasons,
        hupdated.riskLevel, hupdated.confidence, hupdated.createdAt⟩⟩
      rw [hid]
      exact hcreated.snoc _
    | resolvedDirectly v _ _ hsaw =>
      obtain ⟨incident, rfl⟩ := incident_of_saw H (hpast ▸ hsaw.append _)
      cases hv'
    | _ => cases hv'

end History

/-! ## Refused updates -/

/-- The request has tried no write. -/
def WroteNothing (past : Moves) : Prop :=
  ∀ m ∈ past, ∀ key item cond, m.op ≠ .inl (.putItem key item cond)

/-- An answer of the service comes from a request that has tried no write, or is what an
operation raised. -/
def RefusesFirst {α : Type} (past : Moves) (out : Except Exc α) : Prop :=
  ∀ e, out = .error e → e.isHttp = true →
    WroteNothing past ∨ ∃ op e', e'.isHttp = true ∧
      (⟨op, .error e'⟩ : Move platformOps) ∈ past

theorem RefusesFirst.of_wroteNothing {α : Type} {past : Moves} {out : Except Exc α}
    (h : WroteNothing past) : RefusesFirst past out := fun _ _ _ => .inl h

theorem RefusesFirst.of_failed {α : Type} {past : Moves} {op : platformOps.Op} {e e' : Exc}
    (h : e.isHttp = false → e'.isHttp = false) :
    RefusesFirst (past ++ [⟨op, .error e⟩]) (.error e' : Except Exc α) := by
  rintro _ ⟨⟩ hhttp
  refine .inr ⟨op, e, ?_, List.mem_append_right _ (List.mem_singleton.mpr rfl)⟩
  by_contra hne
  rw [h (eq_false_of_ne_true hne)] at hhttp
  cases hhttp

theorem updateExpertReview_refusesFirst (reviewId : String) (update : ExpertReviewUpdate)
    (principal : Principal) :
    (updateExpertReview reviewId update principal).Obeys (fun _ _ => True) RefusesFirst [] := by
  unfold updateExpertReview
  refine obeys_requireRoles (fun _ => .of_wroteNothing (by simp [WroteNothing])) fun _ => ?_
  refine obeys_get trivial (fun _ => .of_failed id) fun item => ?_
  have hread : WroteNothing ([] ++ [⟨.inl (.getItem ⟨.expertReview, reviewId⟩), .ok item⟩]) := by
    simp [WroteNothing]
  cases item with
  | none => exact .of_wroteNothing hread
  | some item =>
    refine obeys_ofExcept (fun _ _ => .of_wroteNothing hread) fun review _ => ?_
    dsimp only
    split
    · exact RefusesFirst.of_wroteNothing hread
    · refine obeys_perform trivial (fun _ => .of_failed id) fun now => ?_
      refine obeys_put trivial (fun _ => trivial) (fun _ _ => trivial)
        (fun _ _ _ _ => .of_failed) fun _ _ => ?_
      exact fun e he => nomatch he

/-- How an update of a review ends. -/
def Request.Refuses : Request → Moves → Except Exc Unit → Prop
  | updateExpertReview .., past, out => RefusesFirst past out
  | _, _, _ => True

theorem Request.refuses (settings : Settings) (request : Request) :
    (request.code settings).Obeys (fun _ _ => True) request.Refuses [] := by
  cases request with
  | updateExpertReview reviewId update principal =>
    refine Program.obeys_bind.mpr ((updateExpertReview_refusesFirst reviewId update principal).mono
      (fun _ _ => id) fun past out hout => ?_)
    cases out with
    | ok review => exact fun e he => nomatch he
    | error e => exact fun e' he' => hout e' (by rw [Except.error.inj he'])
  | _ => exact Program.obeys_true _ _

/-- A thread that has tried no write has left the table alone. -/
theorem unchanged_of_wroteNothing {settings : Settings} {requests : Nat → Option Request}
    {uuids : UuidSupply} {h : List (Event platform)} {w : platform.World}
    (H : Composed.History settings requests uuids h w) {e : Event platform} (he : e ∈ h)
    (hnone : WroteNothing (past e.thread h)) : e.after.1 = e.before.1 := by
  obtain ⟨n, -, -, -, c, hevent⟩ := H.of_mem he
  rcases exec_table e.thread e.move.op c e.before with hsame | ⟨key, item, cond, hop, -⟩
  · rw [show e.after = (platform.exec e.move.op c e.before).2 from congrArg Event.after hevent]
    exact hsame
  · exact absurd hop (hnone e.move (mem_past.mpr ⟨e, he, rfl, rfl⟩) key item cond)

/-- **A completed review always has a note.**  In every state the services reach, every stored
review that is completed has a note; every stored review is about what it was created about; and
an update that was answered 404 or 422 has changed nothing. -/
theorem reviews_noted {settings : Settings} {uuids : UuidSupply} {s : Composed}
    (hs : Composed.Reachable settings uuids s) :
    (∀ key review, entity key s.world = some (.expertReview review) → review.Noted) ∧
    (∀ key review, entity key s.world = some (.expertReview review) →
      (∃ u, CreatedAs s.history key u) ∧ ∀ u, CreatedAs s.history key u →
        ∃ created, u = .expertReview created ∧ review.SameCase created) ∧
    ∀ i reviewId update principal statusCode detail,
      s.request i = some (.updateExpertReview reviewId update principal) →
      s.outcome i = some (.error (.httpException statusCode detail)) →
      statusCode = 404 ∨ statusCode = 422 →
      ∀ e ∈ s.history, e.thread = i → e.after.1 = e.before.1 := by
  have H := hs.history
  refine ⟨fun key review hstored => ?_, fun key review hstored => ?_, ?_⟩
  · have hnoted := (System.Reachable.conforms (Q := fun _ _ _ => True) hs
      (keeps_writesNoted settings)).history
    obtain ⟨n, e, item, hn, ⟨cond, hop, -⟩, hdata⟩ := wrote_of_stored H hstored
    obtain ⟨-, ⟨request, -, hallowed⟩, -⟩ := hnoted.at_position hn
    obtain ⟨earlier, current, -, -, -, hwrites⟩ := hallowed key item cond hop
    have hkey := (keyed H).1 key _ hstored
    exact hwrites (hkey ▸ rfl) review hdata
  · obtain ⟨created, hcreated, hsame⟩ := sameCase_created H hstored
    exact ⟨⟨_, hcreated⟩, fun u hu => ⟨created, hu.unique H hcreated, hsame⟩⟩
  · rintro i reviewId update principal statusCode detail hrequest hout - e he rfl
    have hconforms := hs.conforms (Request.refuses settings)
    rcases hconforms.outcome hrequest hout _ rfl rfl with hnone | ⟨op, e', hhttp, hmem⟩
    · exact unchanged_of_wroteNothing H he hnone
    · -- no operation raises an answer of the service
      obtain ⟨d, hd, -, hmove⟩ := mem_past.mp hmem
      obtain ⟨n, -, -, -, c, hevent⟩ := H.of_mem hd
      have hreply := congrArg Event.move hevent
      rw [hmove] at hreply
      have hraised := exec_not_http (eq_of_heq (Move.mk.inj hreply).2).symm
      rw [hraised] at hhttp
      cases hhttp

/-- A review is closed without a note, which is refused, and then with one. -/
def closedReview : Composed :=
  Sample.run Sample.direct
    (.arrive (.analyzeIncident Sample.analysis Sample.manager) :: .advance 0 ((0, unsure), .none) ::
      Sample.advances 0 10 ++
      (.arrive (.updateExpertReview "a" ⟨some .completed, none, none⟩ Sample.manager) ::
        Sample.advances 1 1) ++
      (.arrive (.updateExpertReview "a" ⟨some .completed, none, some ⟨"done", by decide⟩⟩
        Sample.manager) :: Sample.advances 2 5))

theorem reviews_noted_closedReview :
    (∀ key review, entity key closedReview.world = some (.expertReview review) → review.Noted) ∧
      closedReview.outcome 1 =
        some (.error (.http 422 "Completed reviews require a note")) :=
  ⟨(reviews_noted (Sample.reachable_run _ _)).1, by decide +kernel⟩

end AxSentinel
