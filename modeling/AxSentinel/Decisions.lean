import AxSentinel.Platform
import AxSentinel.Sequential

/-! # Decisions on action plans

`decide_action_plan` records every decision and opens a work order for an approving
one.  It looks at its own request only: neither at earlier decisions on the same
analysis, nor at the analysis, nor at its expert review.  So a rejected plan stays
rejected exactly as long as nobody approves it later (`staysRejected_iff`), and what
a work order is sure to have is an approving decision (`workOrder_approved`). -/
namespace AxSentinel
open Effects Service

/-- The request opens a work order. -/
def ApprovalRequest.approves (request : ApprovalRequest) (principal : Principal) : Prop :=
  mayDecide principal = true ∧ request.decision ≠ .reject ∧
    ¬ (request.decision = .approveWithChanges ∧ request.checklist = [])

/-- The request records a rejection. -/
def ApprovalRequest.rejects (request : ApprovalRequest) (principal : Principal) : Prop :=
  mayDecide principal = true ∧ request.decision = .reject

instance (request : ApprovalRequest) (principal : Principal) :
    Decidable (request.approves principal) := by
  unfold ApprovalRequest.approves
  infer_instance

/-! ## One decision after another -/

/-- Every stored entity has an id that was issued. -/
def Issued (w : platform.World) : Prop :=
  ∀ key v, entity key w = some v → ∃ k, k < w.2.issued ∧ key.entityId = w.2.uuids.draw k

theorem issued_initial (uuids : UuidSupply) : Issued (initialWorld uuids) :=
  fun key v hv => by simp at hv

/-- The next id is not taken. -/
theorem Issued.next {w : platform.World} (h : Issued w) (t : EntityType) {n : Nat}
    (hn : w.2.issued ≤ n) : entity ⟨t, w.2.uuids.draw n⟩ w = none := by
  rw [Option.eq_none_iff_forall_not_mem]
  intro v hv
  obtain ⟨k, hk, hid⟩ := h _ v hv
  have hkn := w.2.uuids.injective hid
  omega

/-- Storing an entity under an issued id. -/
theorem Issued.store {w w' : platform.World} (h : Issued w) {t : EntityType} {n : Nat} {v : Entity}
    (huuids : w'.2.uuids = w.2.uuids) (hle : w.2.issued ≤ w'.2.issued) (hn : n < w'.2.issued)
    (hstore : ∀ key, entity key w' =
      if key = ⟨t, w.2.uuids.draw n⟩ then some v else entity key w) : Issued w' := by
  intro key u hu
  rw [hstore key] at hu
  rw [huuids]
  split at hu
  · rename_i hkey
    exact ⟨n, hn, by rw [hkey]⟩
  · obtain ⟨k, hk, hid⟩ := h key u hu
    exact ⟨k, Nat.lt_of_lt_of_le hk hle, hid⟩

section Rules
variable {β : Type} {w : platform.World} {Q : Except Exc β → platform.World → Prop}

/-- Storing a new entity, when nothing fails. -/
theorem wp_put_new {t : EntityType} {id : String} {v : Entity} {f : Unit → Service β}
    (hnone : entity ⟨t, id⟩ w = none)
    (h : ∀ w', w'.2 = w.2 →
      (∀ key, entity key w' = if key = ⟨t, id⟩ then some v else entity key w) →
      reliablePlatform.wp (f ()) Q w') :
    reliablePlatform.wp (Service.put t id v >>= f) Q w := by
  have hlookup : w.1.lookup ⟨t, id⟩ = none := Option.map_eq_none_iff.mp hnone
  refine wp_put_over (fun item hitem => by simp [hlookup] at hitem) fun clock => ?_
  exact h _ rfl (@entity_insert w _ ⟨t, id⟩
    (DynamoRepository.item t id v clock (w.1.lookup ⟨t, id⟩)) rfl)

/-- What a decision stores: its record under the next id and, if it approves, an open
work order under the one after. -/
theorem wp_decideActionPlan (hissued : Issued w) (request : ApprovalRequest)
    (principal : Principal) :
    reliablePlatform.wp (decideActionPlan request principal) (fun _ w' =>
      Issued w' ∧ ∃ approvalId id, entity ⟨.approval, approvalId⟩ w = none ∧
        entity ⟨.workOrder, id⟩ w = none ∧ ∀ key, entity key w' =
          if mayDecide principal = true ∧ key = ⟨.approval, approvalId⟩ then
            some (.approval ⟨request, approvalId⟩)
          else if request.approves principal ∧ key = ⟨.workOrder, id⟩ then
            some (.workOrder (.opened request id))
          else entity key w) w := by
  have happroval := hissued.next .approval (Nat.le_refl w.2.issued)
  have hworkOrder := hissued.next .workOrder (Nat.le_succ w.2.issued)
  unfold decideActionPlan
  by_cases hroles : mayDecide principal = true
  · have hrequire : requireRoles [.operatorManager, .systemAdmin] principal = pure () :=
      if_pos hroles
    rw [hrequire]
    intro c
    refine wp_put_new happroval fun w₁ hw₁ hstore₁ c₁ => ?_
    have hissued₁ : Issued w₁ := hissued.store (by rw [hw₁]) (by rw [hw₁]; exact Nat.le_succ _)
      (by rw [hw₁]; exact Nat.lt_succ_self _) hstore₁
    have recorded : ¬ request.approves principal → ∃ approvalId id,
        entity ⟨.approval, approvalId⟩ w = none ∧ entity ⟨.workOrder, id⟩ w = none ∧
        ∀ key, entity key w₁ =
          if mayDecide principal = true ∧ key = ⟨.approval, approvalId⟩ then
            some (.approval ⟨request, approvalId⟩)
          else if request.approves principal ∧ key = ⟨.workOrder, id⟩ then
            some (.workOrder (.opened request id))
          else entity key w := by
      intro happroves
      refine ⟨_, _, happroval, hworkOrder, fun key => ?_⟩
      simp only [hroles, happroves, true_and, false_and, if_false]
      exact hstore₁ key
    by_cases hreject : request.decision = .reject
    · rw [if_pos hreject]
      exact ⟨hissued₁, recorded fun h => h.2.1 hreject⟩
    · rw [if_neg hreject]
      by_cases hchanges : request.decision = .approveWithChanges ∧ request.checklist = []
      · rw [if_pos hchanges]
        exact ⟨hissued₁, recorded fun h => h.2.2 hchanges⟩
      · rw [if_neg hchanges]
        intro c₂
        refine wp_put_new (hissued₁.next .workOrder (Nat.le_refl w₁.2.issued))
          fun w₂ hw₂ hstore₂ c₃ => ?_
        have happroves : request.approves principal := ⟨hroles, hreject, hchanges⟩
        have hissued₂ : Issued w₂ := hissued₁.store (by rw [hw₂]) (by rw [hw₂]; exact Nat.le_succ _)
          (by rw [hw₂]; exact Nat.lt_succ_self _) hstore₂
        refine ⟨hissued₂, _, w₁.2.uuids.draw w₁.2.issued, happroval, ?_, fun key => ?_⟩
        · rw [hw₁]
          exact hworkOrder
        · by_cases hkey : key = ⟨.approval, w.2.uuids.draw w.2.issued⟩
          · have hne : key ≠ ⟨.workOrder, w₁.2.uuids.draw w₁.2.issued⟩ := by simp [hkey]
            refine Eq.trans ?_ (if_pos ⟨hroles, hkey⟩).symm
            exact (hstore₂ key).trans ((if_neg hne).trans ((hstore₁ key).trans (if_pos hkey)))
          · refine Eq.trans ?_ (if_neg fun h => hkey h.2).symm
            by_cases hkey' : key = ⟨.workOrder, w₁.2.uuids.draw w₁.2.issued⟩
            · exact ((hstore₂ key).trans (if_pos hkey')).trans (if_pos ⟨happroves, hkey'⟩).symm
            · refine Eq.trans ?_ (if_neg fun h => hkey' h.2).symm
              exact (hstore₂ key).trans ((if_neg hkey').trans ((hstore₁ key).trans (if_neg hkey)))
  · have hrequire : requireRoles [.operatorManager, .systemAdmin] principal =
        throw (.http 403 "Insufficient role") := if_neg hroles
    rw [hrequire]
    refine ⟨hissued, _, _, happroval, hworkOrder, fun key => ?_⟩
    rw [if_neg fun h => hroles h.1, if_neg fun h => hroles h.1.1]

end Rules

/-- A decision that was requested, and the worlds before and after it. -/
structure Decision where
  request : ApprovalRequest
  principal : Principal
  before : platform.World
  after : platform.World

/-- Decisions made one after another, starting from empty tables. -/
inductive Decides (uuids : UuidSupply) : List Decision → platform.World → Prop
  | start : Decides uuids [] (initialWorld uuids)
  | next {decisions w request principal out w'} : Decides uuids decisions w →
      reliablePlatform.Ends (decideActionPlan request principal) w out w' →
      Decides uuids (decisions ++ [⟨request, principal, w, w'⟩]) w'

/-- An approval record that rejects a plan of the analysis is stored. -/
def HasRejection (w : platform.World) (analysisId : String) : Prop :=
  ∃ key approval, entity key w = some (.approval approval) ∧ approval.analysisId = analysisId ∧
    approval.decision = .reject

/-- The decision creates a work order for the analysis. -/
def Decision.opens (d : Decision) (analysisId : String) : Prop :=
  ∃ key workOrder, entity key d.before = none ∧
    entity key d.after = some (.workOrder workOrder) ∧ workOrder.analysisId = analysisId

/-- No work order is created for an analysis after a rejection of it was stored. -/
def StaysRejected (decisions : List Decision) : Prop :=
  ∀ d ∈ decisions, ∀ analysisId, HasRejection d.before analysisId → ¬ d.opens analysisId

/-- The later request approves a plan that the earlier one rejects. -/
def Decision.overturnedBy (d d' : Decision) : Prop :=
  d.request.rejects d.principal ∧ d'.request.approves d'.principal ∧
    d.request.analysisId = d'.request.analysisId

section Run
variable {uuids : UuidSupply} {decisions : List Decision} {w w' : platform.World}
  {request : ApprovalRequest} {principal : Principal} {out : Except Exc Decided}

theorem Decides.issued (h : Decides uuids decisions w) : Issued w := by
  induction h with
  | start => exact issued_initial uuids
  | next _ hend ih => exact (hend.of_wp (wp_decideActionPlan ih _ _)).1

/-- A decision creates a work order for its own analysis, if it approves. -/
theorem opens_iff (hissued : Issued w)
    (hend : reliablePlatform.Ends (decideActionPlan request principal) w out w')
    (analysisId : String) : (⟨request, principal, w, w'⟩ : Decision).opens analysisId ↔
      request.approves principal ∧ request.analysisId = analysisId := by
  obtain ⟨-, approvalId, id, happroval, hworkOrder, hstore⟩ :=
    hend.of_wp (wp_decideActionPlan hissued request principal)
  constructor
  · rintro ⟨key, workOrder, hnone, hstored, rfl⟩
    rw [hstore key] at hstored
    split at hstored
    · cases hstored
    · split at hstored
      · rename_i happroves
        cases hstored
        exact ⟨happroves.1, rfl⟩
      · cases hnone.symm.trans hstored
  · rintro ⟨happroves, rfl⟩
    refine ⟨⟨.workOrder, id⟩, .opened request id, hworkOrder, ?_, rfl⟩
    rw [hstore, if_neg (by simp), if_pos ⟨happroves, rfl⟩]

/-- A decision adds its own rejection, if it is one, to those stored. -/
theorem hasRejection_next (hissued : Issued w)
    (hend : reliablePlatform.Ends (decideActionPlan request principal) w out w')
    (analysisId : String) : HasRejection w' analysisId ↔ HasRejection w analysisId ∨
      (request.rejects principal ∧ request.analysisId = analysisId) := by
  obtain ⟨-, approvalId, id, happroval, hworkOrder, hstore⟩ :=
    hend.of_wp (wp_decideActionPlan hissued request principal)
  constructor
  · rintro ⟨key, approval, hstored, rfl, hreject⟩
    rw [hstore key] at hstored
    split at hstored
    · rename_i hnew
      cases hstored
      exact .inr ⟨⟨hnew.1, hreject⟩, rfl⟩
    · split at hstored
      · cases hstored
      · exact .inl ⟨key, approval, hstored, rfl, hreject⟩
  · rintro (⟨key, approval, hstored, hid, hreject⟩ | ⟨⟨hroles, hreject⟩, hid⟩)
    · refine ⟨key, approval, ?_, hid, hreject⟩
      rw [hstore key, if_neg, if_neg, hstored]
      · rintro ⟨-, rfl⟩
        cases hworkOrder.symm.trans hstored
      · rintro ⟨-, rfl⟩
        cases happroval.symm.trans hstored
    · exact ⟨_, _, (hstore _).trans (if_pos ⟨hroles, rfl⟩), hid, hreject⟩

/-- The rejections stored are those that were requested. -/
theorem hasRejection_iff (h : Decides uuids decisions w) (analysisId : String) :
    HasRejection w analysisId ↔ ∃ d ∈ decisions, d.request.rejects d.principal ∧
      d.request.analysisId = analysisId := by
  induction h with
  | start => simp [HasRejection]
  | next h hend ih =>
    rw [hasRejection_next h.issued hend, ih]
    simp [or_and_right, exists_or]

/-- **When a rejected plan stays rejected.**  In any sequence of decisions, no work order
is created for an analysis after its rejection was stored, exactly when no permitted
approving request for an analysis comes after a permitted rejecting one. -/
theorem staysRejected_iff (h : Decides uuids decisions w) :
    StaysRejected decisions ↔ decisions.Pairwise fun d d' => ¬ d.overturnedBy d' := by
  induction h with
  | start => simp [StaysRejected]
  | @next decisions w request principal out w' h hend ih =>
    have last : (∀ analysisId, HasRejection w analysisId →
        ¬ (⟨request, principal, w, w'⟩ : Decision).opens analysisId) ↔
        ∀ d ∈ decisions, ¬ d.overturnedBy ⟨request, principal, w, w'⟩ := by
      constructor
      · rintro hstays d hd ⟨hrejects, happroves, hsame⟩
        exact hstays d.request.analysisId ((hasRejection_iff h _).mpr ⟨d, hd, hrejects, rfl⟩)
          ((opens_iff h.issued hend _).mpr ⟨happroves, hsame.symm⟩)
      · intro hnone analysisId hrejection hopens
        obtain ⟨d, hd, hrejects, rfl⟩ := (hasRejection_iff h _).mp hrejection
        obtain ⟨happroves, hsame⟩ := (opens_iff h.issued hend _).mp hopens
        exact hnone d hd ⟨hrejects, happroves, hsame.symm⟩
    have split : StaysRejected (decisions ++ [⟨request, principal, w, w'⟩]) ↔
        StaysRejected decisions ∧ ∀ analysisId, HasRejection w analysisId →
          ¬ (⟨request, principal, w, w'⟩ : Decision).opens analysisId := by
      simp [StaysRejected, or_imp, forall_and]
    rw [split, ih, last, List.pairwise_append]
    simp

end Run

/-- The plan of an analysis is rejected, and then approved. -/
def rejected : Except Exc Decided × platform.World :=
  reliablePlatform.execute [] (decideActionPlan (Sample.decision "a" "i" .reject) Sample.manager)
    (initialWorld .unary)

def overturned : Except Exc Decided × platform.World :=
  reliablePlatform.execute [] (decideActionPlan (Sample.decision "a" "i" .approve) Sample.manager)
    rejected.2

def overturning : List Decision :=
  [⟨Sample.decision "a" "i" .reject, Sample.manager, initialWorld .unary, rejected.2⟩,
    ⟨Sample.decision "a" "i" .approve, Sample.manager, rejected.2, overturned.2⟩]

theorem decides_overturning : Decides .unary overturning overturned.2 := by
  have hreject : reliablePlatform.Ends _ _ rejected.1 rejected.2 := Machine.ends_execute ..
  have happrove : reliablePlatform.Ends _ _ overturned.1 overturned.2 := Machine.ends_execute ..
  exact .next (.next .start hreject) happrove

theorem staysRejected_iff_overturning :
    StaysRejected overturning ↔ overturning.Pairwise fun d d' => ¬ d.overturnedBy d' :=
  staysRejected_iff decides_overturning

/-- A rejected plan becomes a work order. -/
theorem not_staysRejected : ¬ ∀ uuids decisions w, Decides uuids decisions w →
    StaysRejected decisions := by
  intro hall
  have hstays := hall _ _ _ decides_overturning
    ⟨Sample.decision "a" "i" .approve, Sample.manager, rejected.2, overturned.2⟩
    (List.mem_cons_of_mem _ (List.mem_singleton.mpr rfl)) "a"
  have hrejected : entity ⟨.approval, ""⟩ rejected.2 =
      some (.approval ⟨Sample.decision "a" "i" .reject, ""⟩) := by decide +kernel
  have hopened : entity ⟨.workOrder, "aa"⟩ rejected.2 = none ∧
      entity ⟨.workOrder, "aa"⟩ overturned.2 =
        some (.workOrder (.opened (Sample.decision "a" "i" .approve) "aa")) := by decide +kernel
  exact hstays ⟨_, _, hrejected, rfl, rfl⟩ ⟨_, _, hopened.1, hopened.2, rfl⟩

/-! ## What a work order is sure to have -/

/-- The entity type an operation reads or writes, if it is one on the table. -/
def touches : platformOps.Op → Option EntityType
  | .inl (.getItem key) => some key.entityType
  | .inl (.putItem key _ _) => some key.entityType
  | .inl (.query t) => some t
  | _ => none

/-- The operation is on an approval or a work order, if it is on the table. -/
def DecisionOp (_ : Moves) (op : platformOps.Op) : Prop :=
  ∀ t, touches op = some t → t = .approval ∨ t = .workOrder

theorem decisionOp_put {β : Type} {past : Moves} {t : EntityType} {id : String} {v : Entity}
    {f : Unit → Service β} (ht : t = .approval ∨ t = .workOrder)
    (h : ∀ past, (f ()).Obeys DecisionOp (fun _ _ => True) past) :
    (Service.put t id v >>= f).Obeys DecisionOp (fun _ _ => True) past := by
  have own : ∀ u, some t = some u → u = .approval ∨ u = .workOrder := fun u hu =>
    Option.some.inj hu ▸ ht
  rw [DynamoRepository.put_left_bind]
  refine ⟨by rintro _ ⟨⟩, fun r => ?_⟩
  cases r with
  | error e => exact trivial
  | ok clock =>
    refine ⟨own, fun r => ?_⟩
    cases r with
    | error e => exact trivial
    | ok current =>
      refine ⟨own, fun r => ?_⟩
      cases r with
      | error e => exact trivial
      | ok _ => exact h _

theorem decisionOp_perform {β : Type} {past : Moves} {op : ServiceOp}
    {f : platformOps.Reply (.inr op) → Service β}
    (h : ∀ past r, (f r).Obeys DecisionOp (fun _ _ => True) past) :
    (Program.perform platformOps (.inr op) >>= f).Obeys DecisionOp (fun _ _ => True) past := by
  refine ⟨by rintro _ ⟨⟩, fun r => ?_⟩
  cases r with
  | error e => exact trivial
  | ok r => exact h _ r

/-- Decisions touch approvals and work orders only. -/
theorem decideActionPlan_touches (request : ApprovalRequest) (principal : Principal) :
    (decideActionPlan request principal).Obeys DecisionOp (fun _ _ => True) [] := by
  unfold decideActionPlan requireRoles
  split
  · refine decisionOp_perform fun _ id => decisionOp_put (.inl rfl) fun _ => ?_
    refine decisionOp_perform fun _ _ => ?_
    split
    · exact trivial
    · split
      · exact trivial
      · refine decisionOp_perform fun _ id => decisionOp_put (.inr rfl) fun _ => ?_
        exact decisionOp_perform fun _ _ => trivial
  · exact trivial

/-- The work orders that exist were opened behind their expert reviews: the analysis of
each was stored when it was created, with its review closed if it required one. -/
def ReviewGated (h : List (Event platform)) : Prop :=
  ∀ e ∈ h, ∀ key item workOrder, e.Wrote key item →
    item.attributes.data = .workOrder workOrder → entity key e.before = none →
    ∃ analysis, entity ⟨.analysis, workOrder.analysisId⟩ e.before = some (.analysis analysis) ∧
      (analysis.expertReviewRequired = true → ∃ key review,
        entity key e.before = some (.expertReview review) ∧
        review.analysisId = workOrder.analysisId ∧
        (review.status = .completed ∨ review.status = .dismissed))

/-- The work order was created by an approving decision on its analysis and incident,
whose record was stored. -/
def OpenedByApproval (requests : Nat → Option Request) (h : List (Event platform))
    (workOrder : WorkOrder) : Prop :=
  ∃ e ∈ h, ∃ request principal item approvalId,
    requests e.thread = some (.decideActionPlan request principal) ∧
    mayDecide principal = true ∧ request.decision ≠ .reject ∧
    workOrder.analysisId = request.analysisId ∧ workOrder.incidentId = request.incidentId ∧
    e.Wrote ⟨.workOrder, workOrder.id⟩ item ∧
    item.attributes.data = .workOrder (.opened request workOrder.id) ∧
    entity ⟨.approval, approvalId⟩ e.before = some (.approval ⟨request, approvalId⟩)

theorem openedByApproval {settings : Settings} {requests : Nat → Option Request}
    {uuids : UuidSupply} {h : List (Event platform)} {w : platform.World}
    (H : Composed.History settings requests uuids h w) {key : Key} {workOrder : WorkOrder}
    (hv : entity key w = some (.workOrder workOrder)) : OpenedByApproval requests h workOrder := by
  refine (stored_invariant (fun h _ _ v => ∀ workOrder, v = .workOrder workOrder →
    OpenedByApproval requests h workOrder) ?_ ?_ H).1 key _ hv workOrder rfl
  · intro h w i op _ _ c key v hopened workOrder hv
    obtain ⟨e, he, hrest⟩ := hopened workOrder hv
    exact ⟨e, List.mem_append_left _ he, hrest⟩
  · intro h w i op c H hok hstoreds hsaws key item hwrote hjust workOrder hv
    obtain ⟨request, earlier, current, hrequest, hpast, hwrites⟩ := hjust
    have read : ∀ {key u}, Saw earlier key (.workOrder u) →
        OpenedByApproval requests (h ++ [platform.event i op c w]) u := by
      intro key u hsaw
      obtain ⟨e, he, hrest⟩ := hsaws _ _ (hpast ▸ hsaw.append _) u rfl
      exact ⟨e, List.mem_append_left _ he, hrest⟩
    generalize hdata : item.attributes.data = v at hwrites hv
    cases hwrites with
    | @opened request principal _ approvalId id _ hput hroles hdecision =>
      cases hv
      obtain ⟨v, hstored, hevolved⟩ := put_evolves H (hpast ▸ hput.append _)
      cases hevolved
      exact ⟨_, List.mem_append_right _ (List.mem_singleton.mpr rfl), request, principal, item,
        approvalId, hrequest, hroles, hdecision, rfl, rfl, hwrote, hdata, hstored⟩
    | completed hcompletion =>
      cases hv
      have hopened := read hcompletion.1
      exact hopened
    | resolvedDirectly u _ _ hsaw =>
      cases u with
      | workOrder u =>
        cases hv
        exact read hsaw
      | _ => cases hv
    | _ => cases hv

/-- **What a work order is sure to have.**  In every state the services reach, every
work order was created by a permitted approving decision on its analysis and incident,
whose approval record was stored; and no decision reads or writes analyses or expert
reviews. -/
theorem workOrder_approved {settings : Settings} {uuids : UuidSupply} {s : Composed}
    (hs : Composed.Reachable settings uuids s) :
    (∀ key workOrder, entity key s.world = some (.workOrder workOrder) →
      OpenedByApproval s.request s.history workOrder) ∧
    (∀ e ∈ s.history, ∀ request principal,
      s.request e.thread = some (.decideActionPlan request principal) →
      ∀ t, touches e.move.op = some t → t = .approval ∨ t = .workOrder) := by
  refine ⟨fun key workOrder hv => openedByApproval hs.history hv, ?_⟩
  intro e he request principal hrequest
  have hobeys : ∀ r : Request, (r.code settings).Obeys
      (fun past op => (∃ request principal, r = .decideActionPlan request principal) →
        DecisionOp past op) (fun _ _ => True) [] := by
    intro r
    cases r with
    | decideActionPlan request principal =>
      have hrest : (Request.code settings (.decideActionPlan request principal)).Obeys DecisionOp
          (fun _ _ => True) [] :=
        (decideActionPlan_touches request principal).bind fun _ _ => trivial
      exact hrest.mono (fun _ _ h _ => h) fun _ _ => id
    | _ => exact (Request.obeys settings _).mono (fun _ _ _ ⟨_, _, h⟩ => nomatch h) fun _ _ => id
  have H := (System.Reachable.conforms (Q := fun _ _ _ => True) hs hobeys).history
  obtain ⟨n, -, -, ⟨r, hr, hop⟩, -⟩ := H.of_mem he
  exact hop ⟨request, principal, Option.some.inj (hr.symm.trans hrequest)⟩

/-- The plan of an analysis nobody made is approved. -/
def unanalyzed : Composed :=
  Sample.run Sample.remote
    (.arrive (.decideActionPlan (Sample.decision "unknown" "i" .approve) Sample.manager) ::
      Sample.advances 0 10)

theorem workOrder_approved_unanalyzed : OpenedByApproval unanalyzed.request unanalyzed.history
    (.opened (Sample.decision "unknown" "i" .approve) "a") :=
  (workOrder_approved (Sample.reachable_run _ _)).1 ⟨.workOrder, "a"⟩ _ (by decide +kernel)

/-- Work orders are not gated by expert reviews. -/
theorem not_reviewGated : ¬ ∀ settings uuids s, Composed.Reachable settings uuids s →
    ReviewGated s.history := by
  intro hall
  have hreach : Composed.Reachable Sample.remote .unary unanalyzed := Sample.reachable_run _ _
  have hopened : (unanalyzed.history[8]?).any (fun e =>
      accepted e = some (⟨.workOrder, "a"⟩,
        .workOrder (.opened (Sample.decision "unknown" "i" .approve) "a")) ∧
      entity ⟨.workOrder, "a"⟩ e.before = none ∧
      entity ⟨.analysis, "unknown"⟩ e.before = none) = true := by decide +kernel
  obtain ⟨e, he, hfacts⟩ := (Option.any_eq_true _ _).mp hopened
  obtain ⟨haccepted, hnew, hmissing⟩ := of_decide_eq_true hfacts
  obtain ⟨item, hdata, hwrote⟩ :=
    wrote_of_accepted hreach.history (List.mem_of_getElem? he) haccepted
  obtain ⟨analysis, hanalysis, -⟩ :=
    hall _ _ _ hreach e (List.mem_of_getElem? he) _ item _ hwrote hdata hnew
  cases hmissing.symm.trans hanalysis

end AxSentinel
