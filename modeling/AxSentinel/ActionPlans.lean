import AxSentinel.Engine
import Mathlib.Data.Nat.Find

/-! # The action plan of the engine

Of the recommended actions, the first of each distinct instruction is kept, in order, and numbered
from 1 (`plan_faithful`).  Which of the actions with one instruction comes first is not looked at:
a flag the first one lacks is lost (`flags_kept_iff`). -/
namespace AxSentinel
open Python (Json Str setField lookup_setField lookup_setField_of_ne setField_of_lookup)

/-- The kept action is the recommended one with another number. -/
structure RecommendedAction.Renumbered (n : Nat) (action kept : RecommendedAction) : Prop where
  sequence : kept.lookup (.text "sequence") = some (.int n)
  others : ∀ name, name ≠ .text "sequence" → kept.lookup name = action.lookup name

theorem RecommendedAction.renumbered_setField (n : Nat) (action : RecommendedAction) :
    action.Renumbered n (setField (.text "sequence") (.int n) action) :=
  ⟨lookup_setField .., fun _ hname => lookup_setField_of_ne hname ..⟩

namespace OllamaAnalysisEngine
variable (engine : OllamaAnalysisEngine)

/-- The instruction of the action is blank. -/
def Blank (action : RecommendedAction) : Prop := engine.instruction action = []

instance (action : RecommendedAction) : Decidable (engine.Blank action) :=
  inferInstanceAs (Decidable (_ = _))

theorem normalized_eq_nil {action : RecommendedAction} :
    engine.normalized action = [] ↔ engine.Blank action := by
  unfold normalized Blank
  rw [List.flatMap_eq_nil_iff]
  constructor
  · intro h
    rw [List.eq_nil_iff_forall_not_mem]
    exact fun n hn => engine.caseFold_ne_nil n (h n hn)
  · rintro h n hn
    rw [h] at hn
    cases hn

/-- Renumbering does not touch the instruction. -/
theorem normalized_renumbered {n : Nat} {action kept : RecommendedAction}
    (h : action.Renumbered n kept) : engine.normalized kept = engine.normalized action := by
  unfold normalized instruction
  rw [h.others _ (by decide)]

/-- The action at position `i` is the first one with its instruction, which is not blank. -/
def IsFirst (actions : List RecommendedAction) (i : Nat) : Prop :=
  ∃ action, actions[i]? = some action ∧ ¬ engine.Blank action ∧
    ∀ j earlier, j < i → actions[j]? = some earlier →
      engine.normalized earlier ≠ engine.normalized action

/-- `kept` is the plan of `actions`: the first action of each distinct instruction, taken from the
positions `indices` in order, and numbered from 1. -/
structure Deduplicated (actions kept : List RecommendedAction) (indices : List Nat) : Prop where
  ordered : indices.Pairwise (· < ·)
  firsts : ∀ i, i ∈ indices ↔ engine.IsFirst actions i
  length : kept.length = indices.length
  numbered : ∀ n i : Nat, indices[n]? = some i → ∃ action renumbered, actions[i]? = some action ∧
    kept[n]? = some renumbered ∧ action.Renumbered (n + 1) renumbered

/-! ## The loop -/

section Loop
variable {engine} {done kept unique : List RecommendedAction} {seen : List (List Nat)}
  {indices : List Nat} {action : RecommendedAction}

/-- Where the loop stands after the actions `done`. -/
structure Progress (engine : OllamaAnalysisEngine) (done unique : List RecommendedAction)
    (seen : List (List Nat)) (indices : List Nat) : Prop where
  plan : engine.Deduplicated done unique indices
  seen : ∀ k, k ∈ seen ↔ ∃ a ∈ done, ¬ engine.Blank a ∧ engine.normalized a = k

theorem IsFirst.lt {i : Nat} (h : engine.IsFirst done i) : i < done.length := by
  obtain ⟨_, hi, -⟩ := h
  exact (List.getElem?_eq_some_iff.mp hi).1

/-- A later action changes nothing for an earlier one. -/
theorem isFirst_snoc_of_lt {i : Nat} (h : i < done.length) :
    engine.IsFirst (done ++ [action]) i ↔ engine.IsFirst done i := by
  unfold IsFirst
  rw [List.getElem?_append_left h]
  refine exists_congr fun a => and_congr_right fun _ => and_congr_right fun _ => ?_
  refine forall_congr' fun j => forall_congr' fun earlier => ?_
  constructor
  · intro hall hj
    rw [← @List.getElem?_append_left _ _ [action] _ (hj.trans h)]
    exact hall hj
  · intro hall hj
    rw [List.getElem?_append_left (hj.trans h)]
    exact hall hj

/-- The action after `done` is the first of its kind where none of `done` is like it. -/
theorem isFirst_snoc_length : engine.IsFirst (done ++ [action]) done.length ↔
    ¬ engine.Blank action ∧ ∀ a ∈ done, engine.normalized a ≠ engine.normalized action := by
  unfold IsFirst
  rw [List.getElem?_concat_length]
  constructor
  · rintro ⟨a, ha, hblank, hall⟩
    obtain rfl := Option.some.inj ha
    refine ⟨hblank, fun a ha => ?_⟩
    obtain ⟨j, hj, hget⟩ := List.getElem_of_mem ha
    refine hall j a hj ?_
    rw [List.getElem?_append_left hj, List.getElem?_eq_getElem hj, hget]
  · rintro ⟨hblank, hall⟩
    refine ⟨action, rfl, hblank, fun j earlier hj hget => hall earlier ?_⟩
    rw [List.getElem?_append_left hj] at hget
    exact List.mem_of_getElem? hget

theorem isFirst_snoc {i : Nat} : engine.IsFirst (done ++ [action]) i ↔
    engine.IsFirst done i ∨ i = done.length ∧ ¬ engine.Blank action ∧
      ∀ a ∈ done, engine.normalized a ≠ engine.normalized action := by
  rcases Nat.lt_trichotomy i done.length with hlt | rfl | hgt
  · rw [isFirst_snoc_of_lt hlt]
    exact ⟨.inl, fun h => h.resolve_right fun hi => absurd hi.1 (by omega)⟩
  · rw [isFirst_snoc_length]
    exact ⟨fun h => .inr ⟨rfl, h⟩, fun h => (h.resolve_left fun hi => absurd hi.lt (by omega)).2⟩
  · refine iff_of_false (fun h => ?_) fun h => ?_
    · have hlt := h.lt
      rw [List.length_append, List.length_singleton] at hlt
      omega
    · rcases h with h | ⟨hi, -⟩
      · exact absurd h.lt (by omega)
      · omega

/-- The positions of the actions so far stay what they are. -/
theorem Deduplicated.numbered_snoc (h : engine.Deduplicated done unique indices) {n i : Nat}
    (hn : indices[n]? = some i) : ∃ a renumbered, (done ++ [action])[i]? = some a ∧
      unique[n]? = some renumbered ∧ a.Renumbered (n + 1) renumbered := by
  obtain ⟨a, renumbered, hget, hrest⟩ := h.numbered n i hn
  refine ⟨a, renumbered, ?_, hrest⟩
  rw [List.getElem?_append_left (List.getElem?_eq_some_iff.mp hget).1, hget]

/-- An action that is passed over. -/
theorem Progress.skip (h : Progress engine done unique seen indices)
    (hskip : engine.normalized action = [] ∨ engine.normalized action ∈ seen) :
    Progress engine (done ++ [action]) unique seen indices := by
  -- a blank action is none of those `seen` tells of, any other has its like among them
  have hseen : ¬ engine.Blank action → engine.normalized action ∈ seen := fun hblank =>
    hskip.resolve_left fun hnil => hblank (engine.normalized_eq_nil.mp hnil)
  refine ⟨⟨h.plan.ordered, fun i => ?_, h.plan.length, fun n i => h.plan.numbered_snoc⟩,
    fun k => ?_⟩
  · rw [h.plan.firsts, isFirst_snoc]
    refine ⟨.inl, fun hfirst => hfirst.resolve_right ?_⟩
    rintro ⟨-, hblank, hnew⟩
    obtain ⟨a, ha, -, heq⟩ := (h.seen _).mp (hseen hblank)
    exact hnew a ha heq
  · rw [h.seen]
    constructor
    · rintro ⟨a, ha, hrest⟩
      exact ⟨a, List.mem_append_left _ ha, hrest⟩
    · rintro ⟨a, ha, hblank, rfl⟩
      rcases List.mem_append.mp ha with ha | ha
      · exact ⟨a, ha, hblank, rfl⟩
      · obtain rfl := List.mem_singleton.mp ha
        exact (h.seen _).mp (hseen hblank)

/-- An action that is kept. -/
theorem Progress.keep (h : Progress engine done unique seen indices)
    (hkeep : ¬ (engine.normalized action = [] ∨ engine.normalized action ∈ seen)) :
    Progress engine (done ++ [action])
      (unique ++ [setField (.text "sequence") (.int (unique.length + 1)) action])
      (engine.normalized action :: seen) (indices ++ [done.length]) := by
  obtain ⟨hnil, hnew⟩ := not_or.mp hkeep
  have hblank : ¬ engine.Blank action := fun hblank => hnil (engine.normalized_eq_nil.mpr hblank)
  have hfresh : ∀ a ∈ done, engine.normalized a ≠ engine.normalized action := by
    intro a ha heq
    refine hnew ((h.seen _).mpr ⟨a, ha, fun ha => hnil ?_, heq⟩)
    rw [← heq, engine.normalized_eq_nil]
    exact ha
  refine ⟨⟨?_, fun i => ?_, ?_, fun n i hn => ?_⟩, fun k => ?_⟩
  · refine List.pairwise_append.mpr ⟨h.plan.ordered, List.pairwise_singleton .., ?_⟩
    intro i hi j hj
    obtain rfl := List.mem_singleton.mp hj
    exact ((h.plan.firsts i).mp hi).lt
  · rw [isFirst_snoc, List.mem_append, h.plan.firsts, List.mem_singleton]
    exact or_congr_right ⟨fun hi => ⟨hi, hblank, hfresh⟩, And.left⟩
  · rw [List.length_append, List.length_append, h.plan.length, List.length_singleton,
      List.length_singleton]
  · by_cases hlt : n < indices.length
    · rw [List.getElem?_append_left hlt] at hn
      obtain ⟨a, renumbered, hget, hkept, hrest⟩ :=
        @Deduplicated.numbered_snoc _ _ _ _ action h.plan n i hn
      refine ⟨a, renumbered, hget, ?_, hrest⟩
      rw [List.getElem?_append_left (List.getElem?_eq_some_iff.mp hkept).1, hkept]
    · have hlast := (List.getElem?_eq_some_iff.mp hn).1
      rw [List.length_append, List.length_singleton] at hlast
      obtain rfl : n = indices.length := by omega
      rw [List.getElem?_concat_length] at hn
      obtain rfl := Option.some.inj hn
      rw [← h.plan.length]
      exact ⟨action, _, List.getElem?_concat_length, List.getElem?_concat_length,
        action.renumbered_setField (unique.length + 1)⟩
  · rw [List.mem_cons, h.seen]
    constructor
    · rintro (rfl | ⟨a, ha, hrest⟩)
      · exact ⟨action, List.mem_append_right _ (List.mem_singleton_self _), hblank, rfl⟩
      · exact ⟨a, List.mem_append_left _ ha, hrest⟩
    · rintro ⟨a, ha, hrest⟩
      rcases List.mem_append.mp ha with ha | ha
      · exact .inr ⟨a, ha, hrest⟩
      · obtain rfl := List.mem_singleton.mp ha
        exact .inl hrest.2.symm

/-- The whole loop. -/
theorem Progress.uniqueActions (h : Progress engine done unique seen indices)
    (actions : List RecommendedAction) : ∃ kept indices',
      engine.uniqueActions (actions.map .dict) unique seen = .ok kept ∧
        engine.Deduplicated (done ++ actions) kept indices' := by
  induction actions generalizing done unique seen indices with
  | nil => exact ⟨unique, indices, rfl, (List.append_nil done).symm ▸ h.plan⟩
  | cons action actions ih =>
    rw [List.map_cons, OllamaAnalysisEngine.uniqueActions, List.append_cons done]
    by_cases hskip : engine.normalized action = [] ∨ engine.normalized action ∈ seen
    · rw [if_pos hskip]
      exact ih (h.skip hskip)
    · rw [if_neg hskip]
      exact ih (h.keep hskip)

/-- Actions that are told apart already, and numbered, are all kept as they are. -/
theorem uniqueActions_of_numbered {actions : List RecommendedAction}
    (hblank : ∀ action ∈ actions, ¬ engine.Blank action)
    (hdistinct : (actions.map engine.normalized).Nodup)
    (hseen : ∀ action ∈ actions, engine.normalized action ∉ seen)
    (hsequence : ∀ (n : Nat) (action : RecommendedAction), actions[n]? = some action →
      action.lookup (.text "sequence") = some (.int (unique.length + n + 1 : Nat))) :
    engine.uniqueActions (actions.map .dict) unique seen = .ok (unique ++ actions) := by
  induction actions generalizing unique seen with
  | nil => rw [List.append_nil]; rfl
  | cons action actions ih =>
    obtain ⟨hnew, hdistinct⟩ := List.nodup_cons.mp hdistinct
    have hkeep : ¬ (engine.normalized action = [] ∨ engine.normalized action ∈ seen) := by
      rintro (hnil | hold)
      · exact hblank action List.mem_cons_self (engine.normalized_eq_nil.mp hnil)
      · exact hseen action List.mem_cons_self hold
    have hfirst : action.lookup (.text "sequence") = some (.int (unique.length + 1)) :=
      hsequence 0 action rfl
    rw [List.map_cons, OllamaAnalysisEngine.uniqueActions, if_neg hkeep, setField_of_lookup hfirst,
      ih (fun a ha => hblank a (List.mem_cons_of_mem _ ha)) hdistinct ?_ ?_, List.append_assoc,
      List.singleton_append]
    · intro a ha hmem
      rcases List.mem_cons.mp hmem with heq | hold
      · exact hnew (heq ▸ List.mem_map_of_mem ha)
      · exact hseen a (List.mem_cons_of_mem _ ha) hold
    · intro n a ha
      rw [hsequence (n + 1) a ha, List.length_append, List.length_singleton]
      congr 2
      omega

/-! ## The plan -/

/-- An action that is not blank has a first one like it. -/
theorem exists_isFirst {actions : List RecommendedAction} (haction : action ∈ actions)
    (hblank : ¬ engine.Blank action) : ∃ (i : Nat) (first : RecommendedAction),
      actions[i]? = some first ∧
      engine.IsFirst actions i ∧ engine.normalized first = engine.normalized action := by
  classical
  have hlike : ∃ (i : Nat) (first : RecommendedAction), actions[i]? = some first ∧
      engine.normalized first = engine.normalized action := by
    obtain ⟨i, hi, rfl⟩ := List.getElem_of_mem haction
    exact ⟨i, _, List.getElem?_eq_getElem hi, rfl⟩
  obtain ⟨first, hfirst, heq⟩ := Nat.find_spec hlike
  refine ⟨Nat.find hlike, first, hfirst, ⟨first, hfirst, ?_, ?_⟩, heq⟩
  · rw [← engine.normalized_eq_nil, heq, engine.normalized_eq_nil]
    exact hblank
  · intro j earlier hj hearlier hsame
    exact Nat.find_min hlike hj ⟨earlier, hearlier, hsame.trans heq⟩

/-- Where an action of the plan comes from. -/
theorem Deduplicated.origin {actions : List RecommendedAction}
    (h : engine.Deduplicated actions kept indices) {n : Nat} {k : RecommendedAction}
    (hk : kept[n]? = some k) : ∃ i action, indices[n]? = some i ∧ engine.IsFirst actions i ∧
      actions[i]? = some action ∧ action.Renumbered (n + 1) k := by
  have hn : n < indices.length := h.length ▸ (List.getElem?_eq_some_iff.mp hk).1
  have hi : indices[n]? = some indices[n] := List.getElem?_eq_getElem hn
  obtain ⟨a, renumbered, hget, hkept, hrenumbered⟩ := h.numbered n _ hi
  obtain rfl := Option.some.inj (hkept.symm.trans hk)
  exact ⟨_, a, hi, (h.firsts _).mp (List.mem_of_getElem? hi), hget, hrenumbered⟩

/-- The first action of each instruction is in the plan. -/
theorem Deduplicated.kept_of_isFirst {actions : List RecommendedAction}
    (h : engine.Deduplicated actions kept indices) {i : Nat} (hfirst : engine.IsFirst actions i) :
    ∃ n action k, actions[i]? = some action ∧ kept[n]? = some k ∧ action.Renumbered (n + 1) k := by
  obtain ⟨n, hn, hget⟩ := List.getElem_of_mem ((h.firsts i).mpr hfirst)
  obtain ⟨a, k, ha, hk, hrenumbered⟩ :=
    h.numbered n i ((List.getElem?_eq_getElem hn).trans (congrArg some hget))
  exact ⟨n, a, k, ha, hk, hrenumbered⟩

/-- Nothing is kept only where every instruction is blank. -/
theorem Deduplicated.eq_nil_iff {actions : List RecommendedAction}
    (h : engine.Deduplicated actions kept indices) :
    kept = [] ↔ ∀ action ∈ actions, engine.Blank action := by
  constructor
  · rintro rfl action haction
    by_contra hblank
    obtain ⟨i, first, -, hfirst, -⟩ := exists_isFirst haction hblank
    obtain ⟨n, _, _, -, hk, -⟩ := h.kept_of_isFirst hfirst
    cases hk
  · intro hall
    rw [List.eq_nil_iff_forall_not_mem]
    intro k hk
    obtain ⟨n, hn⟩ := List.mem_iff_getElem?.mp hk
    obtain ⟨i, action, -, ⟨first, hget, hblank, -⟩, -⟩ := h.origin hn
    exact hblank (hall first (List.mem_of_getElem? hget))

/-- The plan is its own plan. -/
theorem Deduplicated.uniqueActions {actions : List RecommendedAction}
    (h : engine.Deduplicated actions kept indices) :
    engine.uniqueActions (kept.map .dict) [] [] = .ok kept := by
  refine uniqueActions_of_numbered ?_ ?_ (fun _ _ => List.not_mem_nil) ?_
  · intro k hk hblank
    obtain ⟨n, hn⟩ := List.mem_iff_getElem?.mp hk
    obtain ⟨i, action, -, ⟨first, hget, hnonblank, -⟩, haction, hrenumbered⟩ := h.origin hn
    obtain rfl := Option.some.inj (hget.symm.trans haction)
    refine hnonblank (engine.normalized_eq_nil.mp ?_)
    rw [← engine.normalized_renumbered hrenumbered, engine.normalized_eq_nil]
    exact hblank
  · -- two actions kept come from two positions, the later one new to all before it
    rw [List.Nodup, List.pairwise_map, List.pairwise_iff_getElem]
    intro m n hm hn hmn heq
    obtain ⟨i, a, hi, -, ha, hrenumbered⟩ := h.origin (List.getElem?_eq_getElem hm)
    obtain ⟨j, b, hj, ⟨first, hget, -, hnew⟩, hb, hrenumbered'⟩ :=
      h.origin (List.getElem?_eq_getElem hn)
    obtain rfl := Option.some.inj (hget.symm.trans hb)
    have hij : i < j := by
      obtain ⟨hm', rfl⟩ := List.getElem?_eq_some_iff.mp hi
      obtain ⟨hn', rfl⟩ := List.getElem?_eq_some_iff.mp hj
      exact List.pairwise_iff_getElem.mp h.ordered m n hm' hn' hmn
    refine hnew i a hij ha ?_
    rw [← engine.normalized_renumbered hrenumbered, ← engine.normalized_renumbered hrenumbered']
    exact heq
  · intro n k hk
    obtain ⟨i, action, -, -, -, hrenumbered⟩ := h.origin hk
    rw [hrenumbered.sequence, List.length_nil, Nat.zero_add]

end Loop

/-- The content of the response is an object that recommends the actions. -/
def Recommends (response : Except Exc Json) (actions : List RecommendedAction) : Prop :=
  ∃ payload message content output, response = .ok (.dict payload) ∧
    payload.lookup (.text "message") = some (.dict message) ∧
    message.lookup (.text "content") = some (.str content) ∧ content ≠ .text "" ∧
    engine.loads content = .ok (.dict output) ∧
    (output.lookup (.text "recommended_actions")).getD (.list []) = .list (actions.map .dict)

section Analyze
variable {engine} {response : Except Exc Json} {actions : List RecommendedAction}

/-- What `analyze` makes of the actions. -/
theorem analyze_of_recommends (h : engine.Recommends response actions) :
    ∃ kept indices, engine.Deduplicated actions kept indices ∧
      ((kept = [] ∧ ∃ e, engine.analyze response = .error e) ∨
        (kept ≠ [] ∧ ∃ result, engine.analyze response = .ok result ∧
          result.get? "recommended_actions" = some (.list (kept.map .dict)))) := by
  obtain ⟨payload, message, content, output, rfl, hmessage, hcontent, hne, hloads, hactions⟩ := h
  have hstart : Progress engine [] [] [] [] := by
    refine ⟨⟨.nil, fun i => ?_, rfl, nofun⟩, fun k => ?_⟩
    · exact iff_of_false nofun fun hfirst => absurd hfirst.lt (Nat.not_lt_zero i)
    · exact iff_of_false nofun fun ⟨_, hmem, _⟩ => absurd hmem List.not_mem_nil
  obtain ⟨kept, indices, hunique, hplan⟩ := hstart.uniqueActions actions
  refine ⟨kept, indices, hplan, ?_⟩
  have htruthy : (Json.str content).truthy = true := by simpa [Json.truthy] using hne
  by_cases hkept : kept = []
  · refine .inl ⟨hkept,
      .other "ValueError" "Ollama response did not contain a usable action plan", ?_⟩
    simp [analyze, getOr, hmessage, hcontent, htruthy, hloads, loadContent, hactions, iterate,
      hunique, hkept, bind, Except.bind, throw, throwThe, MonadExceptOf.throw]
  · refine .inr ⟨hkept, .dict (setField (.text "_audit") (engine.audit (.dict payload))
      (setField (.text "recommended_actions") (.list (kept.map .dict)) output)), ?_, ?_⟩
    · simp [analyze, getOr, hmessage, hcontent, htruthy, hloads, loadContent, hactions, iterate,
        hunique, hkept, bind, Except.bind, pure, Except.pure, Json.fields]
    · exact (lookup_setField_of_ne (by decide) ..).trans (lookup_setField ..)

/-- **A faithful plan.**  For every list of action objects: `analyze` raises just when every
instruction is blank; otherwise it keeps the first action of each distinct instruction, in order,
numbered from 1 and otherwise unchanged, and the plan is its own plan. -/
theorem plan_faithful (h : engine.Recommends response actions) :
    ((∃ e, engine.analyze response = .error e) ↔ ∀ action ∈ actions, engine.Blank action) ∧
    ∀ result, engine.analyze response = .ok result → ∃ kept indices,
      result.get? "recommended_actions" = some (.list (kept.map .dict)) ∧
      engine.Deduplicated actions kept indices ∧
      engine.uniqueActions (kept.map .dict) [] [] = .ok kept := by
  obtain ⟨kept, indices, hplan, ⟨hnil, e, hraised⟩ | ⟨hne, result, hok, hkept⟩⟩ :=
    analyze_of_recommends h
  · refine ⟨iff_of_true ⟨e, hraised⟩ (hplan.eq_nil_iff.mp hnil), fun result hok => ?_⟩
    cases hraised.symm.trans hok
  · refine ⟨iff_of_false (fun ⟨e, hraised⟩ => ?_) fun hall => hne (hplan.eq_nil_iff.mpr hall),
      fun result' hok' => ?_⟩
    · cases hok.symm.trans hraised
    · obtain rfl := Except.ok.inj (hok.symm.trans hok')
      exact ⟨kept, indices, hkept, hplan, hplan.uniqueActions⟩

/-! ## Flags -/

/-- The flag of the action is set. -/
def Marked (flag : String) (action : RecommendedAction) : Prop :=
  action.lookup (.text flag) = some (.bool true)

theorem marked_renumbered {flag : String} (hflag : flag ≠ "sequence") {n : Nat}
    {action kept : RecommendedAction} (h : action.Renumbered n kept) :
    Marked flag kept ↔ Marked flag action := by
  unfold Marked
  rw [h.others _ fun hname => hflag (Str.text.inj hname)]

/-- Where an action has the flag, the one kept for its instruction has it. -/
def KeepsFlag (engine : OllamaAnalysisEngine) (flag : String)
    (actions kept : List RecommendedAction) : Prop :=
  ∀ action ∈ actions, ¬ engine.Blank action → Marked flag action →
    ∃ k ∈ kept, engine.normalized k = engine.normalized action ∧ Marked flag k

/-- Where an action has the flag, the first action of the list with its instruction has it. -/
def FirstMarked (engine : OllamaAnalysisEngine) (flag : String)
    (actions : List RecommendedAction) : Prop :=
  ∀ action ∈ actions, ¬ engine.Blank action → Marked flag action →
    ∀ (i : Nat) (first : RecommendedAction), actions[i]? = some first →
      engine.IsFirst actions i → engine.normalized first = engine.normalized action →
      Marked flag first

/-- An instruction has one first action. -/
theorem IsFirst.unique {i j : Nat} {a b : RecommendedAction} (hi : engine.IsFirst actions i)
    (hj : engine.IsFirst actions j) (ha : actions[i]? = some a) (hb : actions[j]? = some b)
    (heq : engine.normalized a = engine.normalized b) : a = b := by
  obtain ⟨a', ha', -, hfirst⟩ := hi
  obtain rfl := Option.some.inj (ha.symm.trans ha')
  obtain ⟨b', hb', -, hfirst'⟩ := hj
  obtain rfl := Option.some.inj (hb.symm.trans hb')
  rcases Nat.lt_trichotomy i j with hlt | rfl | hgt
  · exact absurd heq (hfirst' i a hlt ha)
  · exact Option.some.inj (ha.symm.trans hb)
  · exact absurd heq.symm (hfirst j b hgt hb)

/-- The flags of a plan are those of the first actions. -/
theorem Deduplicated.keepsFlag_iff {kept : List RecommendedAction} {indices : List Nat}
    (h : engine.Deduplicated actions kept indices) {flag : String} (hflag : flag ≠ "sequence") :
    engine.KeepsFlag flag actions kept ↔ engine.FirstMarked flag actions := by
  constructor
  · intro hkeeps action haction hblank hmarked i first hget hfirst heq
    obtain ⟨k, hk, hlike, hkmarked⟩ := hkeeps action haction hblank hmarked
    obtain ⟨n, hn⟩ := List.mem_iff_getElem?.mp hk
    obtain ⟨j, b, -, hj, hb, hrenumbered⟩ := h.origin hn
    rw [engine.normalized_renumbered hrenumbered] at hlike
    rw [hfirst.unique hj hget hb (heq.trans hlike.symm)]
    exact (marked_renumbered hflag hrenumbered).mp hkmarked
  · intro hall action haction hblank hmarked
    obtain ⟨i, first, hget, hfirst, heq⟩ := exists_isFirst haction hblank
    obtain ⟨n, a, k, ha, hk, hrenumbered⟩ := h.kept_of_isFirst hfirst
    obtain rfl := Option.some.inj (hget.symm.trans ha)
    refine ⟨k, List.mem_of_getElem? hk, ?_, ?_⟩
    · rw [engine.normalized_renumbered hrenumbered, heq]
    · rw [marked_renumbered hflag hrenumbered]
      exact hall action haction hblank hmarked i first hget hfirst heq

/-- No safety flag is dropped: whatever plan `analyze` returns keeps it. -/
def KeepsFlags (engine : OllamaAnalysisEngine) (response : Except Exc Json)
    (actions : List RecommendedAction) (flag : String) : Prop :=
  ∀ result kept, engine.analyze response = .ok result →
    result.get? "recommended_actions" = some (.list (kept.map .dict)) →
    engine.KeepsFlag flag actions kept

/-- **Flags.**  De-duplication keeps a safety flag if and only if the first action of each
instruction has the flag wherever another one with the instruction has it. -/
theorem flags_kept_iff (h : engine.Recommends response actions) {flag : String}
    (hflag : flag ∈ ["hazardous", "requires_shutdown"]) :
    engine.KeepsFlags response actions flag ↔ engine.FirstMarked flag actions := by
  have hne : flag ≠ "sequence" := by
    rintro rfl
    exact absurd hflag (by decide)
  obtain ⟨kept, indices, hplan, ⟨hnil, e, hraised⟩ | ⟨-, result, hok, hkept⟩⟩ :=
    analyze_of_recommends h
  · -- every instruction is blank
    refine iff_of_true (fun result kept hok => ?_) fun action haction hblank => ?_
    · cases hraised.symm.trans hok
    · exact absurd (hplan.eq_nil_iff.mp hnil action haction) hblank
  · rw [← hplan.keepsFlag_iff hne]
    constructor
    · exact fun hall => hall result kept hok hkept
    · intro hkeeps result' kept' hok' hkept'
      obtain rfl := Except.ok.inj (hok.symm.trans hok')
      have hlist := Json.list.inj (Option.some.inj (hkept.symm.trans hkept'))
      rwa [← List.map_injective_iff.mpr (fun _ _ => Json.dict.inj) hlist]

end Analyze
end OllamaAnalysisEngine

/-! ## A response -/

namespace Sample

def recommended (n : Int) (instruction : String) (flags : Bool) : RecommendedAction :=
  [(.text "sequence", .int n), (.text "instruction", .text instruction),
    (.text "hazardous", .bool flags), (.text "requires_shutdown", .bool flags)]

/-- The same instruction twice, first without the flags. -/
def twice : List RecommendedAction :=
  [recommended 1 "Stop the pump" false, recommended 2 " stop the pump " true]

def planText : String :=
  "\x7b\"risk_level\":\"high\",\"recommended_actions\":[" ++
    "\x7b\"sequence\":1,\"instruction\":\"Stop the pump\"," ++
    "\"hazardous\":false,\"requires_shutdown\":false\x7d," ++
    "\x7b\"sequence\":2,\"instruction\":\" stop the pump \"," ++
    "\"hazardous\":true,\"requires_shutdown\":true\x7d]\x7d"

def plan : Json := .dict [(.text "risk_level", .text "high"),
  (.text "recommended_actions", .list (twice.map .dict))]

/-- An engine, as far as the sample goes; the case folding is that of the ASCII letters. -/
def engine : OllamaAnalysisEngine where
  model := "qwen3:4b"
  promptHash := ""
  loads
    | .text s =>
        if s = planText then .ok plan
        else .error (.other "JSONDecodeError" "Expecting value: line 1 column 1 (char 0)")
    | _ => .error (.other "JSONDecodeError" "Expecting value: line 1 column 1 (char 0)")
  repr _ := "None"
  caseFold n := if 65 ≤ n ∧ n ≤ 90 then [n + 32] else [n]
  caseFold_ne_nil n := by
    split
    · exact List.cons_ne_nil _ _
    · exact List.cons_ne_nil _ _

def planResponse : Except Exc Json :=
  .ok (.dict [(.text "message", .dict [(.text "content", .text planText)])])

theorem recommends_twice : engine.Recommends planResponse twice := by
  have hloads : engine.loads (.text planText) = .ok plan := by simp only [engine, if_true]
  refine ⟨_, [(.text "content", .text planText)], .text planText, _, rfl, rfl, rfl, ?_, hloads, rfl⟩
  decide +kernel

end Sample

namespace OllamaAnalysisEngine
open Sample

theorem plan_faithful_twice :
    ((∃ e, engine.analyze planResponse = .error e) ↔ ∀ action ∈ twice, engine.Blank action) ∧
    ∀ result, engine.analyze planResponse = .ok result → ∃ kept indices,
      result.get? "recommended_actions" = some (.list (kept.map .dict)) ∧
      engine.Deduplicated twice kept indices ∧
      engine.uniqueActions (kept.map .dict) [] [] = .ok kept :=
  plan_faithful recommends_twice

theorem flags_kept_iff_twice :
    engine.KeepsFlags planResponse twice "hazardous" ↔ engine.FirstMarked "hazardous" twice :=
  flags_kept_iff recommends_twice (by decide)

/-- The hazardous action is dropped, and the harmless one with its instruction kept. -/
theorem not_keepsFlags : ¬ ∀ (engine : OllamaAnalysisEngine) response actions flag,
    engine.Recommends response actions → flag ∈ ["hazardous", "requires_shutdown"] →
    engine.KeepsFlags response actions flag := by
  intro hall
  have hkeeps := hall engine planResponse twice "hazardous" recommends_twice (by decide)
  have hblank : ∀ action ∈ twice, ¬ engine.Blank action := by decide +kernel
  obtain ⟨kept, indices, hplan, ⟨hnil, -⟩ | ⟨-, result, hok, hkept⟩⟩ :=
    analyze_of_recommends recommends_twice
  · exact hblank _ List.mem_cons_self (hplan.eq_nil_iff.mp hnil _ List.mem_cons_self)
  · have hmem : recommended 2 " stop the pump " true ∈ twice := .tail _ (.head _)
    have hfirst : engine.IsFirst twice 0 := ⟨_, rfl, hblank _ List.mem_cons_self, nofun⟩
    have hmarked := (hplan.keepsFlag_iff (by decide)).mp (hkeeps result kept hok hkept) _ hmem
      (hblank _ hmem) rfl 0 _ rfl hfirst (by decide +kernel)
    cases hmarked

end OllamaAnalysisEngine
end AxSentinel
