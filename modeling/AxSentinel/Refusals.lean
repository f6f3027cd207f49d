import AxSentinel.Platform
import AxSentinel.Sequential

/-! # Refused decisions

`decide_action_plan` records a decision and announces it before it looks at the checklist of a
modified approval.  When it then refuses the request, record and event stay.  Every other
refusal comes before the first write (`leavesNoTrace_iff`). -/
namespace AxSentinel
open Effects Service

/-- The request modifies the plan and gives no checklist. -/
def ApprovalRequest.LacksChecklist (request : ApprovalRequest) : Prop :=
  request.decision = .approveWithChanges ∧ request.checklist = []

/-- The next record can be stored: its id names nothing yet, or an item with a version. -/
def Recordable (w : platform.World) : Prop :=
  ∀ item, w.1.lookup ⟨.approval, w.2.uuids.draw w.2.issued⟩ = some item → item.version.isSome = true

/-- However the request is refused, the repository and the published events are as before. -/
def LeavesNoTrace (request : ApprovalRequest) (principal : Principal) (w : platform.World) : Prop :=
  ∀ e w', platform.Ends (decideActionPlan request principal) w (.error e) w' → e.isHttp = true →
    w'.1 = w.1 ∧ w'.2.published = w.2.published

/-! ## Failures are no refusals -/

section Rules
variable {β : Type} {w : platform.World} {Q : Except Exc β → platform.World → Prop}

/-- An operation replies, or raises what is no answer. -/
theorem wp_operation {op : platformOps.Op} {k : Except Exc (platformOps.Reply op) → Service β}
    (hok : ∀ r c, (platform.exec op c w).1 = .ok r →
      platform.wp (k (.ok r)) Q (platform.exec op c w).2)
    (herr : ∀ e w', e.isHttp = false → platform.wp (k (.error e)) Q w') :
    platform.wp (.call op k) Q w := by
  intro c
  cases hreply : (platform.exec op c w).1 with
  | ok r => exact hok r c hreply
  | error e => exact herr e _ (exec_not_http hreply)

theorem wp_announce {p : Publication} {f : Unit → Service β}
    (hok : ∀ w', platform.wp (f ()) Q w') (herr : ∀ e w', e.isHttp = false → Q (.error e) w') :
    platform.wp (publish p >>= f) Q w :=
  wp_operation (fun _ _ _ => hok _) herr

/-- A `put` goes through only over an item with a version, or over none. -/
theorem wp_put_faulty {t : EntityType} {id : String} {v : Entity} {f : Unit → Service β}
    (hok : (∀ item, w.1.lookup ⟨t, id⟩ = some item → item.version.isSome = true) →
      ∀ w', platform.wp (f ()) Q w')
    (herr : ∀ e w', e.isHttp = false → Q (.error e) w') :
    platform.wp (Service.put t id v >>= f) Q w := by
  rw [DynamoRepository.put_left_bind]
  refine wp_operation (fun clock c _ => ?_) herr
  rw [exec_infallible rfl]
  refine wp_operation (fun current c hread => ?_) herr
  obtain ⟨htable, hlookup⟩ := TableMachine.exec_get (M := platform) ⟨t, id⟩ c w
  obtain rfl : current = w.1.lookup ⟨t, id⟩ := hlookup current hread
  have hsame : (platform.exec (.inl (.getItem ⟨t, id⟩)) c w).2.1 = w.1 := htable
  refine wp_operation (fun r c' hwritten => hok ?_ _)
    fun e w' he => herr _ w' (not_http_putError he t id)
  rcases TableMachine.exec_put (M := platform) ⟨t, id⟩
    (DynamoRepository.item t id v clock (w.1.lookup ⟨t, id⟩))
    (.unchanged (w.1.lookup ⟨t, id⟩)) c' (platform.exec (.inl (.getItem ⟨t, id⟩)) c w).2 with
    ⟨-, hfailed⟩ | ⟨hholds, -⟩
  · exact absurd hwritten (hfailed r)
  · have hholds' : (Condition.unchanged (w.1.lookup ⟨t, id⟩)).Holds (w.1.lookup ⟨t, id⟩) :=
      hsame ▸ hholds
    exact Condition.unchanged_holds_self.mp hholds'

end Rules

/-! ## The traces of a decision -/

section Traces
variable {request : ApprovalRequest} {principal : Principal} {w : platform.World}

/-- A permitted decision that gives a checklist where it needs one, or whose record cannot be
stored, is not refused: it raises nothing but failures. -/
theorem not_refused (hroles : mayDecide principal = true)
    (hgives : ¬ (request.LacksChecklist ∧ Recordable w)) :
    platform.wp (decideActionPlan request principal)
      (fun out _ => ∀ e, out = .error e → e.isHttp = false) w := by
  have hrequire : requireRoles [.operatorManager, .systemAdmin] principal = pure () := if_pos hroles
  have failed : ∀ {e : Exc}, e.isHttp = false →
      ∀ e', (Except.error e : Except Exc Decided) = .error e' → e'.isHttp = false := by
    rintro e he _ ⟨⟩
    exact he
  unfold decideActionPlan
  rw [hrequire]
  intro c
  rw [exec_infallible rfl]
  refine wp_put_faulty (fun hversion w₁ => wp_announce (fun w₂ => ?_) fun _ _ => failed)
    fun _ _ => failed
  by_cases hreject : request.decision = .reject
  · rw [if_pos hreject]
    exact fun e he => nomatch he
  · have hgiven : ¬ (request.decision = .approveWithChanges ∧ request.checklist = []) :=
      fun hlacks => hgives ⟨hlacks, hversion⟩
    rw [if_neg hreject, if_neg hgiven]
    intro c'
    rw [exec_infallible rfl]
    refine wp_put_faulty (fun _ w₃ => wp_announce (fun w₄ => ?_) fun _ _ => failed)
      fun _ _ => failed
    exact fun e he => nomatch he

/-- A modified approval without a checklist is refused after its record was announced. -/
theorem refused_late (hroles : mayDecide principal = true) (hlacks : request.LacksChecklist)
    (hrecordable : Recordable w) :
    reliablePlatform.wp (decideActionPlan request principal) (fun out w' =>
      out = .error (.http 422 "A modified approval requires an updated checklist") ∧
        w'.2.published ≠ w.2.published) w := by
  have hrequire : requireRoles [.operatorManager, .systemAdmin] principal = pure () := if_pos hroles
  obtain ⟨hdecision, hempty⟩ := hlacks
  have hreject : request.decision ≠ .reject := by
    rw [hdecision]
    exact nofun
  unfold decideActionPlan
  rw [hrequire]
  intro c
  refine wp_put_over hrecordable fun clock c' => ?_
  rw [if_neg hreject, if_pos ⟨hdecision, hempty⟩]
  refine ⟨rfl, fun hsame => ?_⟩
  have hlength := congrArg List.length hsame
  simp at hlength

/-- **When a refused decision leaves no trace.**  From any state, however an approval request
is refused, repository and published events are as before, unless the caller may decide, the
request modifies the plan without giving a checklist, and its record can be stored. -/
theorem leavesNoTrace_iff (request : ApprovalRequest) (principal : Principal) (w : platform.World) :
    LeavesNoTrace request principal w ↔
      ¬ (mayDecide principal = true ∧ request.LacksChecklist ∧ Recordable w) := by
  constructor
  · rintro hnone ⟨hroles, hlacks, hrecordable⟩
    have hend :=
      Machine.ends_execute (M := reliablePlatform) [] (decideActionPlan request principal) w
    obtain ⟨hout, hpublished⟩ := hend.of_wp (refused_late hroles hlacks hrecordable)
    rw [hout] at hend
    exact hpublished (hnone _ _ hend.faulty rfl).2
  · intro hgives e w' hend hhttp
    by_cases hroles : mayDecide principal = true
    · have hfails := hend.of_wp (not_refused hroles fun h => hgives ⟨hroles, h⟩) e rfl
      exact absurd hhttp (by simp [hfails])
    · have hrequire : requireRoles [.operatorManager, .systemAdmin] principal =
          throw (.http 403 "Insufficient role") := if_neg hroles
      unfold decideActionPlan at hend
      rw [hrequire] at hend
      cases hend
      exact ⟨rfl, rfl⟩

end Traces

/-- A modified approval without a checklist. -/
def unlisted : ApprovalRequest :=
  { Sample.decision "a" "i" .approveWithChanges with checklist := [] }

/-- A refused approval leaves its record and an event. -/
theorem not_leavesNoTrace : ¬ ∀ request principal w, LeavesNoTrace request principal w := by
  intro hall
  have hend : reliablePlatform.Ends (decideActionPlan unlisted Sample.manager) (initialWorld .unary)
      (.error (.http 422 "A modified approval requires an updated checklist")) _ :=
    Machine.ends_execute (M := reliablePlatform) [] _ _
  cases (hall _ _ _ _ _ hend.faulty rfl).2

end AxSentinel
