import AxSentinel.Creations

/-! # Analyses and their reviews

`analyze_incident` builds an analysis from what the engine answers, stores it and, where
the review policy asks for it, stores a review case after it. -/
namespace AxSentinel
open Effects Service
open Python (Json PyFloat)

/-! ## What the policy makes of an answer -/

/-- The dictionary has all that is read of it, all of that is valid, and the numbers are some
that DynamoDB has. -/
structure ValidAnswer (rt : Runtime) (generation : Generation) : Prop where
  confidence : ∃ value low x, subscript generation.generated "confidence" = .ok value ∧
    isBelow value reviewConfidence = .ok low ∧ Field.float rt value = some x ∧ hasNumber x
  riskLevel : ∃ value riskLevel, subscript generation.generated "risk_level" = .ok value ∧
    RiskLevel.ofValue rt value = .ok riskLevel
  causes : ∃ causes,
    validateEach generation.generated "causes" (CauseCandidate.modelValidate rt) = .ok causes ∧
      ∀ cause ∈ causes, hasNumber cause.confidence
  recommendedActions : ∃ actions,
    validateEach generation.generated "recommended_actions" (ActionStep.modelValidate rt) =
        .ok actions ∧ ∀ action ∈ actions, hasInteger action.sequence
  tokens : hasInteger generation.audit.inputTokens ∧ hasInteger generation.audit.outputTokens

/-- The number a value is, if it is one. -/
def number? : Json → Option ℚ
  | .bool b => some (if b then 1 else 0)
  | .int n => some n
  | .float (.finite q) => some q
  | _ => none

/-- The confidence in the dictionary is one. -/
def ConfidenceInRange (generated : Json) : Prop :=
  ∃ value q, subscript generated "confidence" = .ok value ∧ number? value = some q ∧ 0 ≤ q ∧ q ≤ 1

/-- A float between the bounds. -/
def InRange (lo hi : ℚ) (x : PyFloat) : Prop := ∃ q, x = .finite q ∧ lo ≤ q ∧ q ≤ hi

@[simp] theorem inRange_finite {lo hi q : ℚ} : InRange lo hi (.finite q) ↔ lo ≤ q ∧ q ≤ hi := by
  simp [InRange]

section Confidence
variable {rt : Runtime} {value : Json} {x : PyFloat} {low : Bool}

/-- An integer between 0 and 1 is itself as a float, and no other one is rounded to there. -/
theorem round_inRange {n : ℤ} :
    (0 ≤ Binary64.round n ∧ Binary64.round n ≤ 1) ↔ (0 : ℚ) ≤ n ∧ (n : ℚ) ≤ 1 := by
  have hzero : Binary64.Representable 0 := ⟨0, 0, by norm_num, by norm_num, by norm_num⟩
  have hone : Binary64.Representable 1 := ⟨1, 0, by norm_num, by norm_num, by norm_num⟩
  have htwo : Binary64.Representable 2 := ⟨2, 0, by norm_num, by norm_num, by norm_num⟩
  have hneg : Binary64.Representable (-1) := ⟨-1, 0, by norm_num, by norm_num, by norm_num⟩
  constructor
  · rintro ⟨hlo, hhi⟩
    refine ⟨?_, ?_⟩
    · by_contra hnot
      have hlt : n < 0 := by exact_mod_cast not_le.mp hnot
      have hle : (n : ℚ) ≤ -1 := by exact_mod_cast Int.le_sub_one_of_lt hlt
      linarith [Binary64.round_le hneg hle]
    · by_contra hnot
      have hlt : 1 < n := by exact_mod_cast not_le.mp hnot
      have hle : (2 : ℚ) ≤ n := by exact_mod_cast Int.add_one_le_of_lt hlt
      linarith [Binary64.le_round htwo hle]
  · rintro ⟨hlo, hhi⟩
    exact ⟨Binary64.le_round hzero hlo, Binary64.round_le hone hhi⟩

/-- The float a number is read as is a confidence exactly when the number is one. -/
theorem inRange_float (hreads : Field.float rt value = some x)
    (hbelow : isBelow value reviewConfidence = .ok low) :
    InRange 0 1 x ↔ ∃ q, number? value = some q ∧ 0 ≤ q ∧ q ≤ 1 := by
  cases value with
  | bool b =>
    obtain rfl := Option.some.inj hreads
    simp [number?]
  | int n =>
    obtain rfl := Field.float_int hreads
    simp [number?, round_inRange]
  | float y =>
    obtain rfl := Option.some.inj hreads
    cases y with
    | finite q => simp [number?]
    | _ => simp [InRange, number?]
  | _ => cases hbelow

/-- A confidence the policy takes for high enough reads as a float that is. -/
theorem le_of_not_below (hreads : Field.float rt value = some x)
    (hbelow : isBelow value reviewConfidence = .ok false) (hrange : InRange 0 1 x) :
    InRange reviewConfidence 1 x := by
  obtain ⟨q, rfl, -, hone⟩ := hrange
  refine inRange_finite.mpr ⟨?_, hone⟩
  have hreview : Binary64.Representable reviewConfidence :=
    ⟨6305039478318694, -53, by norm_num, by norm_num, by norm_num [reviewConfidence]⟩
  cases value with
  | bool b =>
    obtain rfl := PyFloat.finite.inj (Option.some.inj hreads)
    exact not_lt.mp (of_decide_eq_false (Except.ok.inj hbelow))
  | int n =>
    have hle : reviewConfidence ≤ n := not_lt.mp (of_decide_eq_false (Except.ok.inj hbelow))
    obtain rfl := PyFloat.finite.inj (Field.float_int hreads)
    exact Binary64.le_round hreview hle
  | float y =>
    obtain rfl := Option.some.inj hreads
    have hnot := Except.ok.inj hbelow
    simp only [PyFloat.lt, PyFloat.le, Bool.and_eq_false_iff, decide_eq_false_iff_not, not_le,
      Bool.not_eq_false', decide_eq_true_eq] at hnot
    exact hnot.elim le_of_lt id
  | _ => cases hbelow

end Confidence

/-- An analysis is built and stored exactly from a valid answer. -/
theorem AnalysisResult.exists_build (rt : Runtime) (request : AnalysisRequest)
    {generation : Generation} (id : String) :
    (∃ result, build rt request generation id = .ok result ∧ result.dynamodbValue = .ok ()) ↔
      ValidAnswer rt generation := by
  constructor
  · rintro ⟨result, h, hstored⟩
    obtain ⟨hnumber, hcauseNumbers, hintegers, htokens⟩ := dynamodbValue_eq_ok.mp hstored
    obtain ⟨confidence, hgiven, h⟩ := exists_of_bind h
    obtain ⟨risk, hrisk, h⟩ := exists_of_bind h
    obtain ⟨riskLevel, hriskLevel, h⟩ := exists_of_bind h
    obtain ⟨decision, hdecision, h⟩ := exists_of_bind h
    obtain ⟨causes, hcauses, h⟩ := exists_of_bind h
    obtain ⟨actions, hactions, h⟩ := exists_of_bind h
    obtain ⟨x, hread, h⟩ := exists_of_bind h
    obtain rfl := Except.ok.inj h
    obtain ⟨low, hlow, -⟩ := exists_of_bind hdecision
    exact ⟨⟨confidence, low, x, hgiven, hlow, validated_eq_ok.mp hread, hnumber⟩,
      ⟨risk, riskLevel, hrisk, hriskLevel⟩, ⟨causes, hcauses, hcauseNumbers⟩,
      ⟨actions, hactions, hintegers⟩, htokens _ rfl⟩
  · rintro ⟨⟨confidence, low, x, hgiven, hlow, hread, hnumber⟩,
      ⟨risk, riskLevel, hrisk, hriskLevel⟩,
      ⟨causes, hcauses, hcauseNumbers⟩, ⟨actions, hactions, hintegers⟩, htokens⟩
    have hbuilt : ∃ result, build rt request generation id = .ok result ∧ result.confidence = x ∧
        result.causes = causes ∧ result.recommendedActions = actions ∧
        result.audit = some generation.audit := by
      obtain ⟨decision, hdecision⟩ : ∃ decision, evaluateReviewPolicy confidence
          (!generation.relatedDocumentIds.isEmpty) riskLevel = .ok decision := by
        rw [evaluateReviewPolicy, hlow]
        exact ⟨_, rfl⟩
      rw [build, hgiven, ok_bind, hrisk, ok_bind, hriskLevel, ok_bind, hdecision, ok_bind, hcauses,
        ok_bind, hactions, ok_bind, validated_eq_ok.mpr hread, ok_bind]
      exact ⟨_, rfl, rfl, rfl, rfl, rfl⟩
    obtain ⟨result, hbuild, rfl, rfl, rfl, haudit⟩ := hbuilt
    refine ⟨result, hbuild, dynamodbValue_eq_ok.mpr ⟨hnumber, hcauseNumbers, hintegers, ?_⟩⟩
    rw [haudit]
    rintro _ ⟨⟩
    exact htokens

/-- The analysis has a confidence, and one without a review is confident and documented. -/
def AnalysisResult.IsSafe (result : AnalysisResult) : Prop :=
  InRange 0 1 result.confidence ∧
    (result.expertReviewRequired = false →
      InRange reviewConfidence 1 result.confidence ∧ result.relatedDocumentIds ≠ [])

/-- The policy waives a review of confident analyses with related documents only. -/
theorem AnalysisResult.BuiltFrom.waived {rt : Runtime} {generation : Generation}
    {confidence : Json} {low : Bool} {result : AnalysisResult}
    (h : result.BuiltFrom rt generation confidence low)
    (hwaived : result.expertReviewRequired = false) :
    low = false ∧ result.relatedDocumentIds ≠ [] := by
  have hreasons := h.review.symm.trans hwaived
  rw [h.reasons] at hreasons
  rw [h.documents]
  cases low with
  | true => simp at hreasons
  | false =>
    refine ⟨rfl, fun hnil => ?_⟩
    simp [hnil] at hreasons

/-- What is built from an answer is as safe as the answer's confidence. -/
theorem AnalysisResult.isSafe_of_build {rt : Runtime} {request : AnalysisRequest}
    {generation : Generation} {id : String} {result : AnalysisResult}
    (h : build rt request generation id = .ok result) :
    result.IsSafe ↔ ConfidenceInRange generation.generated := by
  obtain ⟨confidence, low, hbuilt⟩ := builtFrom_of_build h
  have hrange := inRange_float hbuilt.reads hbuilt.below
  constructor
  · rintro ⟨hinRange, -⟩
    obtain ⟨q, hq, hbounds⟩ := hrange.mp hinRange
    exact ⟨confidence, q, hbuilt.given, hq, hbounds⟩
  · rintro ⟨value, q, hgiven, hq, hbounds⟩
    obtain rfl := Except.ok.inj (hbuilt.given.symm.trans hgiven)
    have hinRange := hrange.mpr ⟨q, hq, hbounds⟩
    refine ⟨hinRange, fun hwaived => ?_⟩
    obtain ⟨rfl, hdocuments⟩ := hbuilt.waived hwaived
    exact ⟨le_of_not_below hbuilt.reads hbuilt.below hinRange, hdocuments⟩

/-! ## Analyses in runs -/

/-- An analysis is built from the engine's answer, the first move of its request. -/
def FromAnswer (rt : Runtime) (earlier : Moves) (key : Key) (v : Entity) : Prop :=
  key.entityType = .analysis → ∀ result, v = .analysis result → ∃ request generation id,
    earlier.head? = some ⟨.inr (.generate request), .ok generation⟩ ∧
      AnalysisResult.build rt request generation id = .ok result ∧ result.dynamodbValue = .ok ()

theorem keeps_fromAnswer (rt : Runtime) (request : AnalysisRequest) (principal : Principal) :
    Keeps (FromAnswer rt) [] (analyzeIncident rt request principal) := by
  unfold analyzeIncident
  refine keeps_requireRoles fun _ => (keeps_perform (by rintro _ _ _ ⟨⟩) fun generation => ?_)
  refine keeps_uuid4 fun id => keeps_ofExcept fun result hresult =>
    keeps_ofExcept fun _ hstored => ?_
  refine keeps_put (fun _ => ?_) fun _ _ => ?_
  · rintro - _ ⟨⟩
    exact ⟨request, generation, id, by simp, hresult, hstored⟩
  split
  · refine keeps_now fun now => keeps_uuid4 fun reviewId => ?_
    refine keeps_put (fun _ => ?_) fun _ _ => keeps_publish (keeps_ret _)
    rintro - _ ⟨⟩
  · exact keeps_publish (keeps_ret _)

/-- Every request keeps to this protocol: the others write no analyses. -/
theorem obeys_fromAnswer (settings : Settings) (request : Request) :
    Keeps (FromAnswer settings.runtime) [] (request.code settings) := by
  have other : (∀ past key v, request.Writes settings past key v → key.entityType ≠ .analysis) →
      Keeps (FromAnswer settings.runtime) [] (request.code settings) := by
    intro hnone
    refine (request.obeys settings).mono (fun past op h key item cond hop => ?_) fun _ _ => id
    obtain ⟨earlier, current, hpast, hcond, hversion, hwrites⟩ := h key item cond hop
    exact ⟨earlier, current, hpast, hcond, hversion, fun hkey => absurd hkey (hnone _ _ _ hwrites)⟩
  cases request with
  | analyzeIncident request principal =>
    exact (keeps_fromAnswer _ request principal).bind fun _ _ => keeps_ret _
  | _ =>
    refine other fun past key v hwrites => ?_
    cases hwrites <;> exact fun h => nomatch h

/-- Thread `i` was answered `generation` for its request. -/
def Answered (s : Composed) (i : Nat) (request : AnalysisRequest) (generation : Generation) :
    Prop :=
  (past i s.history).head? = some ⟨.inr (.generate request), .ok generation⟩

/-- The first move of a thread stays its first move. -/
theorem head?_past_take {h : List (Event platform)} {i n : Nat} {m : Move platformOps}
    (hm : (past i (h.take n)).head? = some m) : (past i h).head? = some m := by
  rw [← List.take_append_drop n h, past_append, List.head?_append, hm]
  rfl

/-- A thread that writes an analysis has built it from the answer it got. -/
theorem build_of_wrote {settings : Settings} {uuids : UuidSupply} {s : Composed}
    (hs : Composed.Reachable settings uuids s) {e : Event platform} (he : e ∈ s.history)
    {id : String} {item : Item (Attributes Entity)} {result : AnalysisResult}
    (hwrote : e.Wrote ⟨.analysis, id⟩ item) (hresult : item.attributes.data = .analysis result) :
    ∃ request generation resultId,
      AnalysisResult.build settings.runtime request generation resultId = .ok result ∧
        result.dynamodbValue = .ok () ∧ Answered s e.thread request generation := by
  have H := (System.Reachable.conforms (Q := fun _ _ _ => True) hs
    (obeys_fromAnswer settings)).history
  obtain ⟨n, hn, -, ⟨request, -, hallowed⟩, -⟩ := H.of_mem he
  obtain ⟨cond, hop, -⟩ := hwrote
  obtain ⟨earlier, current, hpast, -, -, hanswer⟩ := hallowed _ item cond hop
  obtain ⟨request, generation, resultId, hhead, hbuild, hstored⟩ := hanswer rfl result hresult
  refine ⟨request, generation, resultId, hbuild, hstored, head?_past_take (n := n) ?_⟩
  rw [hpast, List.head?_append, hhead]
  rfl

/-- A thread is answered once. -/
theorem Answered.unique {s : Composed} {i : Nat} {request request' : AnalysisRequest}
    {generation generation' : Generation} (h : Answered s i request generation)
    (h' : Answered s i request' generation') : request = request' ∧ generation = generation' := by
  obtain ⟨hop, hreply⟩ := Move.mk.inj (Option.some.inj (h.symm.trans h'))
  exact ⟨ServiceOp.generate.inj (Sum.inr.inj hop), Except.ok.inj (eq_of_heq hreply)⟩

/-- No request the engine answers like this stores an unsafe analysis, in any run in which
values are read like this. -/
def NeverSkipsReview (rt : Runtime) (generation : Generation) : Prop :=
  ∀ settings uuids s, settings.runtime = rt → Composed.Reachable settings uuids s →
    ∀ e ∈ s.history, ∀ request, Answered s e.thread request generation →
      ∀ id item result, e.Wrote ⟨.analysis, id⟩ item →
        item.attributes.data = .analysis result → result.IsSafe

/-- In some run the analysis built from an answer is written. -/
theorem exists_wrote {rt : Runtime} {request : AnalysisRequest} {generation : Generation}
    {result : AnalysisResult}
    (hbuild : AnalysisResult.build rt request generation "" = .ok result)
    (hstored : result.dynamodbValue = .ok ()) :
    ∃ s, Composed.Reachable (Sample.directWith rt) .unary s ∧ ∃ e ∈ s.history,
      Answered s e.thread request generation ∧ ∃ id item, e.Wrote ⟨.analysis, id⟩ item ∧
        item.attributes.data = .analysis result := by
  have hcode : ∃ rest : AnalysisResult → Service Unit,
      (Request.analyzeIncident request Sample.manager).code (Sample.directWith rt) =
        Program.perform platformOps (.inr (.generate request)) >>= fun generation =>
          uuid4 >>= fun id =>
            Program.ofExcept (AnalysisResult.build rt request generation id) >>= fun result =>
              Program.ofExcept result.dynamodbValue >>= fun _ =>
                put .analysis result.id (.analysis result) >>= fun _ => rest result := by
    simp only [Request.code, analyzeIncident, bind_assoc]
    exact ⟨_, rfl⟩
  obtain ⟨rest, hcode⟩ := hcode
  have hfirst := System.Running.first (M := platform) (Request.code (Sample.directWith rt))
    (initialWorld .unary) (.analyzeIncident request Sample.manager)
  rw [hcode] at hfirst
  -- the world and the history when the analysis is built
  let w : platform.World :=
    (∅, ⟨[], [], fun _ => .new AnomalyDetector.defaultThreshold, .unary, 1⟩)
  let h : List (Event platform) :=
    [platform.event 0 (.inr (.generate request)) ((0, generation), .none) (initialWorld .unary),
      platform.event 0 (.inr .uuid4) default (initialWorld .unary)]
  have hbuilt : System.Running (M := platform) (Request.code (Sample.directWith rt))
      (initialWorld .unary) 0 (.analyzeIncident request Sample.manager)
      (Program.ofExcept (AnalysisResult.build rt request generation "") >>= fun result =>
        Program.ofExcept result.dynamodbValue >>= fun _ =>
          put .analysis result.id (.analysis result) >>= fun _ => rest result) w h :=
    (hfirst.advance ((0, generation), .none)).advance default
  rw [hbuild, Program.ofExcept_ok, Program.ret_bind, hstored, Program.ofExcept_ok,
    Program.ret_bind, DynamoRepository.put_left_bind] at hbuilt
  obtain ⟨s, hs, -, -, hhistory⟩ := ((hbuilt.advance default).advance default).advance default
  refine ⟨s, hs, _, hhistory ▸ List.mem_append_right _ (List.mem_singleton.mpr rfl), ?_, ?_⟩
  · rw [Answered, hhistory]
    rfl
  · exact ⟨result.id, DynamoRepository.item .analysis result.id (.analysis result) 0 none,
      ⟨_, rfl, rfl, rfl⟩, rfl⟩

/-- A request for an analysis. -/
def Sample.analysis : AnalysisRequest := ⟨"1", "pump-1", "hot", "noise", []⟩

/-- **Answers that never skip a review.**  In every run every analysis built from an answer is
safe, exactly when the answer does not validate or its confidence is in range. -/
theorem neverSkipsReview_iff (rt : Runtime) (generation : Generation) :
    NeverSkipsReview rt generation ↔
      (ValidAnswer rt generation → ConfidenceInRange generation.generated) := by
  constructor
  · intro hnever hvalid
    obtain ⟨result, hbuild, hstored⟩ :=
      (AnalysisResult.exists_build rt Sample.analysis "").mpr hvalid
    obtain ⟨s, hs, e, he, hanswered, id, item, hwrote, hresult⟩ := exists_wrote hbuild hstored
    exact (AnalysisResult.isSafe_of_build hbuild).mp
      (hnever _ _ s rfl hs e he _ hanswered id item result hwrote hresult)
  · rintro hrange settings uuids s rfl hs e he request hanswered id item result hwrote hresult
    obtain ⟨request', generation', resultId, hbuild, hstored, hbuilt⟩ :=
      build_of_wrote hs he hwrote hresult
    obtain ⟨rfl, rfl⟩ := hanswered.unique hbuilt
    have hvalid := (AnalysisResult.exists_build _ _ _).mp ⟨result, hbuild, hstored⟩
    exact (AnalysisResult.isSafe_of_build hbuild).mpr (hrange hvalid)

/-- An answer with the given confidence, and neither causes nor actions. -/
def answerWith (confidence : Json) : Json :=
  .dict [(.text "confidence", confidence), (.text "risk_level", .text "low"),
    (.text "causes", .list []), (.text "recommended_actions", .list [])]

/-- It is valid whatever the confidence is. -/
theorem validAnswer_answerWith {rt : Runtime} {generation : Generation} {x : PyFloat}
    (h : generation.generated = answerWith (.float x)) (hnumber : hasNumber x)
    (htokens : hasInteger generation.audit.inputTokens ∧
      hasInteger generation.audit.outputTokens) : ValidAnswer rt generation where
  confidence := ⟨.float x, _, x, by rw [h]; rfl, rfl, rfl, hnumber⟩
  riskLevel := ⟨.text "low", .low, by rw [h]; rfl, rfl⟩
  causes := ⟨[], by rw [h]; rfl, nofun⟩
  recommendedActions := ⟨[], by rw [h]; rfl, nofun⟩
  tokens := htokens

/-- An answer whose confidence is 120 percent. -/
def overconfident : Generation :=
  { (default : Generation) with
    generated := answerWith (.float (.finite (6 / 5)))
    relatedDocumentIds := ["manual"] }

/-- Confidences out of range are stored, and skip the review. -/
theorem not_neverSkipsReview : ¬ ∀ rt generation, NeverSkipsReview rt generation := by
  intro hall
  have hvalid : ValidAnswer default overconfident :=
    validAnswer_answerWith rfl (by decide +kernel) (by decide)
  obtain ⟨result, hbuild, hstored⟩ :=
    (AnalysisResult.exists_build default Sample.analysis "").mpr hvalid
  obtain ⟨s, hs, e, he, hanswered, id, item, hwrote, hresult⟩ := exists_wrote hbuild hstored
  have hsafe := hall _ overconfident _ _ s rfl hs e he _ hanswered id item result hwrote hresult
  obtain ⟨_, q, hgiven, hq, -, hone⟩ := (AnalysisResult.isSafe_of_build hbuild).mp hsafe
  obtain rfl := Except.ok.inj hgiven
  obtain rfl := Option.some.inj hq
  exact absurd hone (by decide +kernel)

/-! ## The review queue -/

/-- The review case is about the analysis. -/
def ExpertReviewCase.Names (review : ExpertReviewCase) (result : AnalysisResult) : Prop :=
  review.analysisId = result.id ∧ review.incidentId = result.incidentId

/-- Every analysis that needs a review has exactly one review case, and every review case is
about an analysis that needs it. -/
structure QueueComplete (w : platform.World) : Prop where
  queued : ∀ key result, entity key w = some (.analysis result) →
    result.expertReviewRequired = true →
    ∃! key', ∃ review, entity key' w = some (.expertReview review) ∧ review.Names result
  named : ∀ key review, entity key w = some (.expertReview review) →
    ∃ result, entity ⟨.analysis, review.analysisId⟩ w = some (.analysis result) ∧
      result.expertReviewRequired = true

/-- No request is under way. -/
def Composed.Idle (s : Composed) : Prop := ∀ i, i < s.threads.length → (s.outcome i).isSome = true

/-- The event writes a review case. -/
def WritesReview (e : Event platform) : Prop :=
  ∃ key item review, e.Wrote key item ∧ item.attributes.data = .expertReview review

/-- The event at `m` writes an analysis that needs a review. -/
def AwaitsReview (h : List (Event platform)) (m : Nat) (d : Event platform) : Prop :=
  h[m]? = some d ∧ ∃ key item result, d.Wrote key item ∧
    item.attributes.data = .analysis result ∧ result.expertReviewRequired = true

/-- From the write of an analysis that needs a review until the write of the review, no
operation of the request fails. -/
def Uncut (h : List (Event platform)) : Prop :=
  ∀ m n d e, AwaitsReview h m d → m ≤ n → h[n]? = some e → e.thread = d.thread →
    (∀ k x, m < k → k ≤ n → h[k]? = some x → x.thread = d.thread → ¬ WritesReview x) →
    e.move.reply.isOk = true

/-- The analysis was written, or its write was tried. -/
def Tried (past : Moves) (v : Entity) : Prop :=
  ∃ (item : Item (Attributes Entity)) (cond : Condition), item.attributes.data = v ∧
    ∃ m ∈ past, m.op = .inl (.putItem v.key item cond)

theorem Tried.of_append {past more : Moves} {v : Entity} (h : Tried (past ++ more) v) :
    Tried past v ∨ Tried more v := by
  obtain ⟨item, cond, hdata, m, hm, hop⟩ := h
  rcases List.mem_append.mp hm with hm | hm
  · exact .inl ⟨item, cond, hdata, m, hm, hop⟩
  · exact .inr ⟨item, cond, hdata, m, hm, hop⟩

/-- Other operations are no writes. -/
theorem not_tried {past : Moves} {v : Entity}
    (hnone : ∀ m ∈ past, ∀ key item cond, m.op ≠ .inl (.putItem key item cond)) :
    ¬ Tried past v :=
  fun ⟨_, _, _, m, hm, hop⟩ => hnone m hm _ _ _ hop

theorem Tried.of_putMoves {t : EntityType} {id : String} {u v : Entity} {clock : Nat}
    {current : Option (Item (Attributes Entity))} (h : Tried (putMoves t id u clock current) v) :
    v = u := by
  obtain ⟨item, cond, rfl, m, hm, hop⟩ := h
  simp only [putMoves, List.mem_cons, List.not_mem_nil, or_false] at hm
  rcases hm with rfl | rfl | rfl
  · cases hop
  · cases hop
  · obtain ⟨-, hitem, -⟩ := TableOp.putItem.inj (Sum.inl.inj hop)
    exact congrArg (fun item : Item (Attributes Entity) => item.attributes.data) hitem.symm

/-- The last operation failed. -/
def Failed (past : Moves) : Prop :=
  ∃ earlier op e, past = earlier ++ [⟨op, .error e⟩]

/-- How `analyze_incident` ends: an operation failed, or every analysis that needs a review
has one. -/
def Concluded (past : Moves) : Prop :=
  Failed past ∨ ∀ result, Tried past (.analysis result) → result.expertReviewRequired = true →
    ∃ id now, Put past ⟨.expertReview, id⟩ (.expertReview (.opened result id now))

theorem analyzeIncident_concludes (rt : Runtime) (request : AnalysisRequest)
    (principal : Principal) : (analyzeIncident rt request principal).Obeys (fun _ _ => True)
      (fun past _ => Concluded past) [] := by
  have failed : ∀ {past : Moves} {op e}, Concluded (past ++ [⟨op, .error e⟩]) :=
    .inl ⟨_, _, _, rfl⟩
  unfold analyzeIncident
  refine obeys_requireRoles (fun _ => .inr fun result htried => ?_) fun _ => ?_
  · exact absurd htried (not_tried (by simp))
  refine obeys_perform trivial (fun _ => failed) fun generation => ?_
  refine obeys_perform trivial (fun _ => failed) fun id => ?_
  refine obeys_ofExcept (fun e _ => .inr fun result htried => ?_) fun result hresult => ?_
  · exact absurd htried (not_tried (by simp))
  refine obeys_ofExcept (fun e _ => .inr fun result htried => ?_) fun _ _ => ?_
  · exact absurd htried (not_tried (by simp))
  refine obeys_put trivial (fun _ => trivial) (fun _ _ => trivial) (fun _ _ _ _ _ => failed)
    fun clock current => ?_
  have written : ∀ {result' : AnalysisResult}, Tried ([] ++
      [⟨.inr (.generate request), .ok generation⟩] ++ [⟨.inr .uuid4, .ok id⟩] ++
        putMoves .analysis result.id (.analysis result) clock current)
      (.analysis result') → result' = result := by
    intro result' htried
    rcases htried.of_append with htried | htried
    · exact absurd htried (not_tried (by simp))
    · exact Entity.analysis.inj htried.of_putMoves
  split
  · refine obeys_perform trivial (fun _ => failed) fun now => ?_
    refine obeys_perform trivial (fun _ => failed) fun reviewId => ?_
    refine obeys_put trivial (fun _ => trivial) (fun _ _ => trivial) (fun _ _ _ _ _ => failed)
      fun clock current => ?_
    refine obeys_perform trivial (fun _ => failed) fun _ => .inr fun result' htried _ => ?_
    have heq : result' = result := by
      rcases htried.of_append with htried | htried
      · rcases htried.of_append with htried | htried
        · rcases htried.of_append with htried | htried
          · rcases htried.of_append with htried | htried
            · exact written htried
            · exact absurd htried (not_tried (by simp))
          · exact absurd htried (not_tried (by simp))
        · cases htried.of_putMoves
      · exact absurd htried (not_tried (by simp))
    subst heq
    exact ⟨reviewId, now, (put_putMoves _ _ _ _ _ _).append _⟩
  · rename_i hwaived
    refine obeys_perform trivial (fun _ => failed) fun _ => .inr fun result' htried hrequired => ?_
    rcases htried.of_append with htried | htried
    · exact absurd (written htried ▸ hrequired) hwaived
    · exact absurd htried (not_tried (by simp))

/-- How a request ends. -/
def Request.Ends : Request → Moves → Except Exc Unit → Prop
  | analyzeIncident .., past, _ => Concluded past
  | _, _, _ => True

theorem Request.ends (settings : Settings) (request : Request) :
    (request.code settings).Obeys (fun _ _ => True) request.Ends [] := by
  cases request with
  | analyzeIncident request principal =>
    refine Program.obeys_bind.mpr ((analyzeIncident_concludes _ request principal).mono
      (fun _ _ => id) fun past out hconcluded => ?_)
    cases out with
    | ok result => exact hconcluded
    | error e => exact hconcluded
  | _ => exact Program.obeys_true _ _

/-- The request is one for an analysis. -/
def Request.isAnalysis : Request → Prop
  | analyzeIncident .. => True
  | _ => False

theorem Request.isAnalysis.createsOnly {request : Request} (h : request.isAnalysis) :
    request.createsOnly := by
  cases request with
  | analyzeIncident => trivial
  | _ => exact h.elim

/-- The review case was opened by a thread that had written the analysis it names. -/
def OpenedBy (requests : Nat → Option Request) (h : List (Event platform))
    (review : ExpertReviewCase) (i : Nat) (result : AnalysisResult) : Prop :=
  (∃ request, requests i = some request ∧ request.isAnalysis) ∧
    Put (past i h) ⟨.analysis, result.id⟩ (.analysis result) ∧
    result.expertReviewRequired = true ∧ review.Names result ∧
    ∃ m ∈ past i h, ∃ item cond, m.op = .inl (.putItem ⟨.expertReview, review.id⟩ item cond)

section History
variable {settings : Settings} {requests : Nat → Option Request} {uuids : UuidSupply}
  {h : List (Event platform)} {w : platform.World}

theorem OpenedBy.snoc {review : ExpertReviewCase} {i : Nat} {result : AnalysisResult}
    (ho : OpenedBy requests h review i result) (e : Event platform) :
    OpenedBy requests (h ++ [e]) review i result := by
  obtain ⟨hrequest, hput, hrequired, hnames, m, hm, hop⟩ := ho
  rw [OpenedBy, past_append]
  exact ⟨hrequest, hput.append _, hrequired, hnames, m, List.mem_append_left _ hm, hop⟩

/-- Every review case was opened with the analysis it names. -/
theorem openedBy (H : Composed.History settings requests uuids h w) {key : Key}
    {review : ExpertReviewCase} (hreview : entity key w = some (.expertReview review)) :
    ∃ i result, OpenedBy requests h review i result := by
  have hinvariant := stored_invariant (fun h _ _ v => ∀ review, v = .expertReview review →
    ∃ i result, OpenedBy requests h review i result) ?_ ?_ H
  · exact hinvariant.1 key _ hreview review rfl
  · intro h w i op _ _ c key v hI review hv
    obtain ⟨j, result, ho⟩ := hI review hv
    exact ⟨j, result, ho.snoc _⟩
  · intro h w i op c H hok _ hsaws key item hwrote hjust review hv
    obtain ⟨cond, hop, -⟩ := hwrote
    obtain ⟨request, earlier, current, hrequest, hpast, hwrites⟩ := hjust
    rw [hv] at hwrites
    generalize hv : Entity.expertReview review = v at hwrites
    cases hwrites with
    | @reviewOpened request principal _ result id now hnew hput hrequired =>
      obtain rfl := Entity.expertReview.inj hv
      have hput' : Put (past i h) ⟨.analysis, result.id⟩ (.analysis result) := hpast ▸ hput.append _
      refine ⟨i, result, ⟨_, hrequest, trivial⟩, ?_, hrequired, ⟨rfl, rfl⟩, ?_⟩
      · rw [past_append]
        exact hput'.append _
      · rw [past_snoc_self]
        exact ⟨_, List.mem_append_right _ (List.mem_singleton.mpr rfl), item, cond, hop⟩
    | @reviewUpdated reviewId update principal _ old now hsaw =>
      obtain rfl := Entity.expertReview.inj hv
      have hsaw' : Saw (past i h) ⟨.expertReview, reviewId⟩ (.expertReview old) :=
        hpast ▸ hsaw.append _
      obtain ⟨j, result, ho⟩ := hsaws _ _ hsaw' old rfl
      obtain ⟨hanalysis, hput, hrequired, hnames, m, hm, hop'⟩ := ho.snoc (platform.event i op c w)
      refine ⟨j, result, hanalysis, hput, hrequired, ?_, m, hm, ?_⟩
      · exact ⟨by simpa using hnames.1, by simpa using hnames.2⟩
      · simpa using hop'
    | resolvedDirectly v _ _ hsaw =>
      obtain ⟨incident, rfl⟩ := incident_of_saw H (hpast ▸ hsaw.append _)
      cases hv
    | _ => cases hv

/-- The analysis a review case was opened with is stored, as it was. -/
theorem OpenedBy.stored (H : Composed.History settings requests uuids h w)
    {review : ExpertReviewCase} {i : Nat} {result : AnalysisResult}
    (ho : OpenedBy requests h review i result) :
    entity ⟨.analysis, review.analysisId⟩ w = some (.analysis result) := by
  obtain ⟨-, hput, -, ⟨hid, -⟩, -⟩ := ho
  obtain ⟨v, hv, hevolved⟩ := put_evolves H hput
  cases hevolved
  rw [hid]
  exact hv

/-- Two review cases that name one analysis are the same one. -/
theorem OpenedBy.unique (H : Composed.History settings requests uuids h w)
    {review review' : ExpertReviewCase} {i i' : Nat} {result result' : AnalysisResult}
    (ho : OpenedBy requests h review i result) (ho' : OpenedBy requests h review' i' result')
    (hid : result.id = result'.id) : review.id = review'.id := by
  obtain ⟨⟨request, hrequest, hanalysis⟩, hput, -, -, m, hm, item, cond, hop⟩ := ho
  obtain ⟨⟨request', hrequest', hanalysis'⟩, hput', -, -, m', hm', item', cond', hop'⟩ := ho'
  have hdrew : Drew (past i h) result.id := drew_of_put H hrequest hanalysis.createsOnly hput
  have hdrew' : Drew (past i' h) result'.id := drew_of_put H hrequest' hanalysis'.createsOnly hput'
  obtain rfl := drawn_unique H hdrew (hid ▸ hdrew')
  have hkeys := (written_unique H hrequest hanalysis.createsOnly hm hm' hop hop' rfl).1
  exact congrArg Key.entityId hkeys

/-- An analysis is written by a request for one. -/
theorem isAnalysis_of_wrote (H : Composed.History settings requests uuids h w) {n : Nat}
    {e : Event platform} (hn : h[n]? = some e) {key : Key} {item : Item (Attributes Entity)}
    {result : AnalysisResult} (hwrote : e.Wrote key item)
    (hresult : item.attributes.data = .analysis result) :
    ∃ request, requests e.thread = some request ∧ request.isAnalysis := by
  obtain ⟨cond, hop, -⟩ := hwrote
  obtain ⟨H', ⟨request, hrequest, hallowed⟩, -⟩ := H.at_position hn
  obtain ⟨earlier, current, hpast, -, -, hwrites⟩ := hallowed key item cond hop
  refine ⟨request, hrequest, ?_⟩
  rw [hresult] at hwrites
  generalize hv : Entity.analysis result = v at hwrites
  cases hwrites with
  | analyzed => trivial
  | resolvedDirectly incident _ _ hsaw =>
    have hkey := (keyed H').2 e.thread _ incident (hpast ▸ hsaw.append _)
    cases incident with
    | analysis => cases hkey
    | _ => cases hv
  | _ => cases hv

/-- A thread that has written an analysis opens the review of that one. -/
theorem opened_of_writesReview (H : Composed.History settings requests uuids h w) {n : Nat}
    {e : Event platform} (hn : h[n]? = some e) {request : Request}
    (hrequest : requests e.thread = some request) (hanalysis : request.isAnalysis)
    {result : AnalysisResult} (htried : Tried (past e.thread h) (.analysis result))
    (hwrites : WritesReview e) :
    ∃ id now v, entity ⟨.expertReview, id⟩ w = some v ∧
      (Entity.expertReview (.opened result id now)).Evolves v := by
  obtain ⟨key, item, review, hwrote, hreview⟩ := hwrites
  obtain ⟨cond, hop, -, hafter⟩ := hwrote
  obtain ⟨earlier, current, hpast, -, -, hjust⟩ :=
    creates_of_createsOnly H hn hrequest hanalysis.createsOnly hop
  have hstored : entity key e.after = some item.attributes.data := by
    rw [entity_insert (w := e.before) hafter key, if_pos rfl]
  rw [hreview] at hjust hstored
  generalize hv : Entity.expertReview review = v at hjust hstored
  cases hjust with
  | @reviewOpened request principal _ result' id now hnew hput hrequired =>
    -- the analysis of the review is the one the thread has written
    have hput' : Put (past e.thread h) ⟨.analysis, result'.id⟩ (.analysis result') := by
      rw [← List.take_append_drop n h, past_append, hpast, List.append_assoc]
      exact hput.append _
    obtain ⟨item', cond', hdata', hmem'⟩ := hput'
    obtain ⟨item'', cond'', hdata'', m, hm, hop''⟩ := htried
    obtain ⟨-, rfl⟩ := written_unique H hrequest hanalysis.createsOnly hmem' hm rfl hop'' rfl
    obtain rfl := Entity.analysis.inj (hdata'.symm.trans hdata'')
    obtain ⟨v, hv, hevolved⟩ := evolves H (List.mem_of_getElem? hn) hstored
    exact ⟨id, now, v, hv, hevolved⟩
  | analyzed => cases hv
  | _ => exact hanalysis.elim

/-- A request that wrote an analysis that needs a review and has ended has opened the review, if it
was not cut off before. -/
theorem exists_opened (H : Composed.History settings requests uuids h w) (huncut : Uncut h)
    {n : Nat} {d : Event platform} {item : Item (Attributes Entity)} {result : AnalysisResult}
    (hn : h[n]? = some d) (hwrote : d.Wrote ⟨.analysis, result.id⟩ item)
    (hdata : item.attributes.data = .analysis result)
    (hrequired : result.expertReviewRequired = true) {request : Request}
    (hrequest : requests d.thread = some request) (hanalysis : request.isAnalysis)
    (hconcluded : Concluded (past d.thread h)) :
    ∃ id now v, entity ⟨.expertReview, id⟩ w = some v ∧
      (Entity.expertReview (.opened result id now)).Evolves v := by
  have htried : Tried (past d.thread h) (.analysis result) := by
    obtain ⟨cond, hop, -⟩ := hwrote
    exact ⟨item, cond, hdata, d.move, mem_past.mpr ⟨d, List.mem_of_getElem? hn, rfl, rfl⟩, hop⟩
  rcases hconcluded with ⟨earlier, op, error, hpast⟩ | hreviewed
  · -- the review was written before the failure, or by it
    obtain ⟨k, e, hk, hthread, hmove, -, hlast⟩ := past_last hpast
    have hnk : n ≤ k := Nat.le_of_not_lt fun hlt => hlast n d hlt hn rfl
    have hwritten : ∃ (j : Nat) (x : Event platform), h[j]? = some x ∧
        x.thread = d.thread ∧ WritesReview x := by
      by_contra hnone
      have hok := huncut n k d e ⟨hn, _, item, result, hwrote, hdata, hrequired⟩ hnk hk
        hthread fun j x _ _ hj hx hw => hnone ⟨j, x, hj, hx, hw⟩
      rw [hmove] at hok
      cases hok
    obtain ⟨j, x, hj, hx, hwrites⟩ := hwritten
    exact opened_of_writesReview H hj (hx ▸ hrequest) hanalysis (hx ▸ htried) hwrites
  · obtain ⟨id, now, hput⟩ := hreviewed result htried hrequired
    obtain ⟨v, hv, hevolved⟩ := put_evolves H hput
    exact ⟨id, now, v, hv, hevolved⟩

end History

/-- **The queue is complete while no request is cut off.**  In every run in which no operation
of a request fails from the write of an analysis that needs a review to the write of the review,
whenever no request is under way every analysis that needs a review has exactly one review case,
and every review case names an analysis that needs it. -/
theorem queueComplete_of_uncut {settings : Settings} {uuids : UuidSupply} {s : Composed}
    (hs : Composed.Reachable settings uuids s) (hidle : s.Idle) (huncut : Uncut s.history) :
    QueueComplete s.world := by
  have H := hs.history
  refine ⟨fun key result hresult hrequired => ?_, fun key review hreview => ?_⟩
  · obtain ⟨n, d, item, hn, hwrote, hdata⟩ := wrote_of_stored H hresult
    obtain ⟨request, hrequest, hanalysis⟩ := isAnalysis_of_wrote H hn hwrote hdata
    obtain rfl : Key.mk .analysis result.id = key := (keyed H).1 key _ hresult
    -- the request has ended, with a review or at a failure
    obtain ⟨out, hout⟩ : ∃ out, s.outcome d.thread = some out := by
      obtain ⟨t, ht, -⟩ := Option.map_eq_some_iff.mp hrequest
      exact Option.isSome_iff_exists.mp (hidle _ (List.getElem?_eq_some_iff.mp ht).1)
    have hends := (System.Reachable.conforms hs (Request.ends settings)).outcome hrequest hout
    have hconcluded : Concluded (past d.thread s.history) := by
      cases request with
      | analyzeIncident => exact hends
      | _ => exact hanalysis.elim
    obtain ⟨id, now, v, hv, hevolved⟩ :=
      exists_opened H huncut hn hwrote hdata hrequired hrequest hanalysis hconcluded
    cases hevolved with
    | @expertReview _ review hid hanalysisId =>
      obtain ⟨i, result', ho⟩ := openedBy H hv
      have hsame : result' = result := by
        have hstored := ho.stored H
        rw [hanalysisId] at hstored
        exact Entity.analysis.inj (Option.some.inj (hstored.symm.trans hresult))
      subst hsame
      refine ⟨⟨.expertReview, id⟩, ⟨review, hv, ho.2.2.2.1⟩, ?_⟩
      rintro key' ⟨review', hreview', hnames⟩
      obtain ⟨i', result'', ho'⟩ := openedBy H hreview'
      have hids : result''.id = result'.id := ho'.2.2.2.1.1.symm.trans hnames.1
      have hreviews := OpenedBy.unique H ho' ho hids
      rw [← (keyed H).1 key' _ hreview', Entity.key, hreviews, hid]
      rfl
  · obtain ⟨i, result, ho⟩ := openedBy H hreview
    exact ⟨result, ho.stored H, ho.2.2.1⟩

/-- An answer of low confidence. -/
def unsure : Generation :=
  { (default : Generation) with generated := answerWith (.float (.finite (1 / 2))) }

/-- An analysis with its review. -/
def reviewed : Composed :=
  Sample.run Sample.direct (.arrive (.analyzeIncident Sample.analysis Sample.manager) ::
    .advance 0 ((0, unsure), .none) :: Sample.advances 0 10)

/-- An analysis whose review cannot be stored. -/
def unreviewed : Composed :=
  Sample.run Sample.direct (.arrive (.analyzeIncident Sample.analysis Sample.manager) ::
    .advance 0 ((0, unsure), .none) :: Sample.advances 0 8 ++
      [.advance 0 (default, .lost (.clientError "ProvisionedThroughputExceededException"))])

theorem idle_of_outcomes {s : Composed}
    (h : ((List.range s.threads.length).all fun i => (s.outcome i).isSome) = true) : s.Idle := by
  intro i hi
  exact List.all_eq_true.mp h i (List.mem_range.mpr hi)

theorem queueComplete_reviewed : QueueComplete reviewed.world := by
  have hok : reviewed.history.all (fun e => e.move.reply.isOk) = true := by decide +kernel
  refine queueComplete_of_uncut (Sample.reachable_run _ _) (idle_of_outcomes (by decide +kernel)) ?_
  exact fun m n d e _ _ hn _ _ => List.all_eq_true.mp hok e (List.mem_of_getElem? hn)

/-- The entity is an analysis that needs a review. -/
def Entity.needsReview : Entity → Bool
  | .analysis result => result.expertReviewRequired
  | _ => false

/-- The queue misses analyses. -/
theorem not_queueComplete : ¬ ∀ settings uuids s, Composed.Reachable settings uuids s → s.Idle →
    QueueComplete s.world := by
  intro hall
  have hqueue := hall _ _ unreviewed (Sample.reachable_run _ _)
    (idle_of_outcomes (by decide +kernel))
  have hstored : (entity ⟨.analysis, ""⟩ unreviewed.world).any Entity.needsReview = true := by
    decide +kernel
  obtain ⟨v, hv, hneeds⟩ := (Option.any_eq_true _ _).mp hstored
  cases v with
  | analysis result =>
    obtain ⟨key, ⟨review, hreview, -⟩, -⟩ := hqueue.queued _ result hv hneeds
    have hkeys : unreviewed.world.1.keys = [⟨.analysis, ""⟩] := by decide +kernel
    have hkey := mem_keys_of_entity hreview
    rw [hkeys] at hkey
    obtain rfl := List.mem_singleton.mp hkey
    cases hv.symm.trans hreview
  | _ => cases hneeds

end AxSentinel
