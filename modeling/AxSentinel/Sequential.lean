import AxSentinel.AnalysisService
import AxSentinel.WorkOrderService

/-! # One request at a time

When no other request acts in between, what a handler does to the world is seen
through its `View`: the stored entities, as a partial map, and the detectors.
`Ensures p R V` says that every execution of `p` from a world with the view `V`,
with any faults, ends as `R` says; the rules below step through a handler. -/
namespace AxSentinel
open Effects Service

/-- What the handlers act on, as far as results are concerned. -/
@[ext] structure View where
  entities : Key → Option Entity
  detectors : Nat → AnomalyDetector

namespace View

/-- The view of a world. -/
def of (w : platform.World) : View := ⟨fun key => entity key w, w.2.detectors⟩

/-- The view after `v` is stored under `key`. -/
def store (V : View) (key : Key) (v : Entity) : View :=
  { V with entities := Function.update V.entities key (some v) }

@[simp] theorem store_self (V : View) (key : Key) (v : Entity) :
    (V.store key v).entities key = some v := Function.update_self ..

@[simp] theorem store_other {key key' : Key} (h : key' ≠ key) (V : View) (v : Entity) :
    (V.store key v).entities key' = V.entities key' := Function.update_of_ne h ..

@[simp] theorem store_detectors (V : View) (key : Key) (v : Entity) :
    (V.store key v).detectors = V.detectors := rfl

/-- The view after the detector of a replica is fed a sample. -/
def evaluate (V : View) (replica : Nat) (signal : DetectionSignal) : View :=
  { V with
    detectors := Function.update V.detectors replica ((V.detectors replica).evaluate signal).2 }

@[simp] theorem evaluate_entities (V : View) (replica : Nat) (signal : DetectionSignal) :
    (V.evaluate replica signal).entities = V.entities := rfl

/-- The values a listing of an entity type may return. -/
def Lists (V : View) (t : EntityType) (values : List Entity) : Prop :=
  ∀ v, v ∈ values ↔ ∃ key, V.entities key = some v ∧ key.entityType = t

end View

variable {α β : Type}

/-- Every execution of `p` from a world with view `V` ends as `R` says. -/
def Ensures (p : Service α) (R : Except Exc α → View → Prop) (V : View) : Prop :=
  ∀ w, View.of w = V → platform.wp p (fun out w' => R out (View.of w')) w

theorem Ensures.ends {p : Service α} {R : Except Exc α → View → Prop} {w w' : platform.World}
    {out : Except Exc α} (h : Ensures p R (View.of w)) (hend : platform.Ends p w out w') :
    R out (View.of w') := hend.of_wp (h w rfl)

theorem Ensures.mono {p : Service α} {R S : Except Exc α → View → Prop} {V : View}
    (h : Ensures p R V) (hRS : ∀ out V', R out V' → S out V') : Ensures p S V :=
  fun w hw => Machine.wp_mono (h w hw) fun out w' => hRS out (View.of w')

section Rules
variable {R : Except Exc β → View → Prop} {V : View}

theorem ensures_ret {a : β} (h : R (.ok a) V) : Ensures (pure a) R V := by
  rintro w rfl
  exact h

theorem ensures_raise {e : Exc} (h : R (.error e) V) : Ensures (throw e) R V := by
  rintro w rfl
  exact h

/-- Sequencing. -/
theorem ensures_bind {p : Service α} {f : α → Service β}
    (h : Ensures p (fun out V' =>
      match out with
      | .ok a => Ensures (f a) R V'
      | .error e => R (.error e) V') V) : Ensures (p >>= f) R V := by
  intro w hw
  refine Machine.wp_bind.mpr (Machine.wp_mono (h w hw) fun out w' hout => ?_)
  cases out with
  | ok a => exact hout w' rfl
  | error e => exact hout

theorem ensures_tryCatch {p : Service β} {handler : Exc → Service β}
    (h : Ensures p (fun out V' =>
      match out with
      | .ok a => R (.ok a) V'
      | .error e => Ensures (handler e) R V') V) :
    Ensures (MonadExcept.tryCatch p handler) R V := by
  intro w hw
  refine Machine.wp_tryCatch.mpr (Machine.wp_mono (h w hw) fun out w' hout => ?_)
  cases out with
  | ok a => exact hout
  | error e => exact hout w' rfl

theorem ensures_ofExcept {x : Except Exc α} {f : α → Service β}
    (hok : ∀ a, x = .ok a → Ensures (f a) R V) (herr : ∀ e, x = .error e → R (.error e) V) :
    Ensures (Program.ofExcept x >>= f) R V := by
  cases x with
  | ok a => exact hok a rfl
  | error e => exact ensures_raise (herr e rfl)

theorem ensures_requireRoles {roles : List Role} {principal : Principal} {f : Unit → Service β}
    (hok : principal.roles.any (· ∈ roles) = true → Ensures (f ()) R V)
    (herr : principal.roles.any (· ∈ roles) = false →
      R (.error (.http 403 "Insufficient role")) V) :
    Ensures (requireRoles roles principal >>= f) R V := by
  unfold requireRoles
  split
  · rename_i h
    exact hok h
  · rename_i h
    exact ensures_raise (herr (eq_false_of_ne_true h))

/-- An operation that keeps the view either replies or fails. -/
theorem ensures_call {op : platformOps.Op} {k : Except Exc (platformOps.Reply op) → Service β}
    (hview : ∀ c w, View.of w = V → View.of (reliablePlatform.exec op c w).2 = V)
    (hok : ∀ r, (∃ c w, View.of w = V ∧ (reliablePlatform.exec op c w).1 = .ok r) →
      Ensures (k (.ok r)) R V)
    (herr : ∀ e, ((∃ c w, View.of w = V ∧ (reliablePlatform.exec op c w).1 = .error e) ∨
      raises op e = true) → Ensures (k (.error e)) R V) :
    Ensures (.call op k) R V := by
  intro w hw c
  rcases reliablePlatform.faulty_exec raises op c w with hexec | ⟨e, he, hraised, hworld⟩
  · rw [hexec]
    have hv := hview c.1 w hw
    cases hout : (reliablePlatform.exec op c.1 w).1 with
    | ok r => exact hok r ⟨c.1, w, hw, hout⟩ _ hv
    | error e => exact herr e (.inl ⟨c.1, w, hw, hout⟩) _ hv
  · rw [hraised]
    rcases hworld with hworld | hworld <;> rw [hworld]
    · exact herr e (.inr he) w hw
    · exact herr e (.inr he) _ (hview c.1 w hw)

theorem not_http_of_raises {op : platformOps.Op} {e : Exc} (h : raises op e = true) :
    e.isHttp = false := by
  simp only [raises, Bool.and_eq_true, Bool.not_eq_true'] at h
  exact h.2

/-- What an operation raises is not an answer of the service. -/
theorem exec_not_http {op : platformOps.Op} {c : platform.Choice} {w : platform.World} {e : Exc}
    (h : (platform.exec op c w).1 = .error e) : e.isHttp = false := by
  rcases reliablePlatform.faulty_exec raises op c w with hexec | ⟨e', he', hraised, -⟩
  · rw [hexec] at h
    match op with
    | .inl (.putItem key item cond) =>
      by_cases hc : cond.Holds (w.1.lookup key)
      · simp [hc] at h
      · simp only [hc, if_false] at h
        rw [← Except.error.inj h]
        rfl
    | .inl (.getItem _) => cases h
    | .inl (.query _) => cases h
    | .inl .now => cases h
    | .inr (.publish _) => cases h
    | .inr (.broadcast _ _) => cases h
    | .inr (.request _) => cases h
    | .inr .response => cases h
    | .inr (.evaluate _ _) => cases h
    | .inr (.generate _) => cases h
    | .inr .uuid4 => cases h
  · obtain rfl := Except.error.inj (hraised.symm.trans h)
    exact not_http_of_raises he'

/-- An operation outside the table, other than `evaluate`. -/
theorem ensures_perform {op : ServiceOp} {f : platformOps.Reply (.inr op) → Service β}
    (hop : ∀ replica signal, op ≠ .evaluate replica signal)
    (hok : ∀ r, Ensures (f r) R V) (herr : ∀ e, e.isHttp = false → R (.error e) V) :
    Ensures (Program.perform platformOps (.inr op) >>= f) R V := by
  have reliable : ∀ c w, View.of (reliablePlatform.exec (.inr op) c w).2 = View.of w ∧
      ∃ r, (reliablePlatform.exec (.inr op) c w).1 = .ok r := by
    intro c w
    cases op with
    | evaluate replica signal => exact absurd rfl (hop replica signal)
    | _ => exact ⟨rfl, _, rfl⟩
  refine ensures_call (fun c w hw => ((reliable c w).1).trans hw) (fun r _ => hok r) fun e he => ?_
  rcases he with ⟨c, w, -, he⟩ | he
  · obtain ⟨r, hr⟩ := (reliable c w).2
    cases hr.symm.trans he
  · exact ensures_raise (herr e (not_http_of_raises he))

theorem ensures_publish {p : Publication} {f : Unit → Service β} (hok : Ensures (f ()) R V)
    (herr : ∀ e, e.isHttp = false → R (.error e) V) : Ensures (publish p >>= f) R V :=
  ensures_perform nofun (fun _ => hok) herr

theorem ensures_broadcast {channel : String} {m : Entity} {f : Unit → Service β}
    (hok : Ensures (f ()) R V) (herr : ∀ e, e.isHttp = false → R (.error e) V) :
    Ensures (broadcast channel m >>= f) R V :=
  ensures_perform nofun (fun _ => hok) herr

theorem ensures_uuid4 {f : String → Service β} (hok : ∀ id, Ensures (f id) R V) :
    Ensures (uuid4 >>= f) R V := by
  refine ensures_call (fun c w hw => hw) (fun r _ => hok r) fun e he => ?_
  rcases he with ⟨c, w, -, he⟩ | he
  · cases he
  · cases he

theorem ensures_now {f : Instant → Service β} (hok : ∀ clock, Ensures (f clock) R V) :
    Ensures (Service.now >>= f) R V := by
  refine ensures_call (fun c w hw => hw) (fun r _ => hok r) fun e he => ?_
  rcases he with ⟨c, w, -, he⟩ | he
  · cases he
  · cases he

/-- Feeding the detector of a replica never fails. -/
theorem ensures_evaluate {replica : Nat} {signal : DetectionSignal}
    {f : Option String → Service β}
    (h : Ensures (f ((V.detectors replica).evaluate signal).1) R (V.evaluate replica signal)) :
    Ensures (Program.perform platformOps (.inr (.evaluate replica signal)) >>= f) R V := by
  rintro w rfl c
  rw [exec_infallible rfl]
  exact h _ rfl

theorem ensures_get {t : EntityType} {id : String} {f : Option Entity → Service β}
    (hok : Ensures (f (V.entities ⟨t, id⟩)) R V) (herr : ∀ e, e.isHttp = false → R (.error e) V) :
    Ensures (Service.get t id >>= f) R V := by
  rw [DynamoRepository.get_left_bind]
  refine ensures_call (fun c w hw => hw) (fun r hr => ?_) fun e he => ?_
  · obtain ⟨c, w, rfl, hr⟩ := hr
    obtain rfl : stored platform ⟨t, id⟩ w = r := Except.ok.inj hr
    exact hok
  · rcases he with ⟨c, w, -, he⟩ | he
    · cases he
    · exact ensures_raise (herr e (not_http_of_raises he))

/-- A query returns the stored entities of its type. -/
theorem lists_entries (t : EntityType) (w : platform.World) :
    (View.of w).Lists t (((w.1.entries.filter fun e => e.1.entityType = t).map
      fun e => e.2.attributes).map Attributes.data) := by
  intro v
  simp only [List.map_map, List.mem_map, List.mem_filter, decide_eq_true_eq, Function.comp]
  constructor
  · rintro ⟨⟨key, item⟩, ⟨hmem, rfl⟩, rfl⟩
    have hlookup : w.1.lookup key = some item := AList.mem_lookup_iff.mpr hmem
    exact ⟨key, by simp [View.of, entity, stored, TableMachine.table, hlookup], rfl⟩
  · rintro ⟨key, hv, rfl⟩
    obtain ⟨item, hitem, rfl⟩ := Option.map_eq_some_iff.mp hv
    exact ⟨⟨key, item⟩, ⟨AList.mem_lookup_iff.mp hitem, rfl⟩, rfl⟩

theorem ensures_list {t : EntityType} {f : List Entity → Service β}
    (hok : ∀ values, V.Lists t values → Ensures (f values) R V)
    (herr : ∀ e, e.isHttp = false → R (.error e) V) :
    Ensures (Service.list t >>= f) R V := by
  rw [DynamoRepository.list_left_bind]
  refine ensures_call (fun c w hw => hw) (fun r hr => ?_) fun e he => ?_
  · obtain ⟨c, w, rfl, hr⟩ := hr
    obtain rfl := Except.ok.inj hr
    exact hok _ (lists_entries t w)
  · rcases he with ⟨c, w, -, he⟩ | he
    · cases he
    · exact ensures_raise (herr e (not_http_of_raises he))

/-- A write stores its item, or fails, before or after storing it. -/
theorem exec_putItem (key : Key) (item : Item (Attributes Entity)) (cond : Condition)
    (c : platform.Choice) (w : platform.World) :
    (∃ r, (platform.exec (.inl (.putItem key item cond)) c w).1 = .ok r ∧
      View.of (platform.exec (.inl (.putItem key item cond)) c w).2 =
        (View.of w).store key item.attributes.data) ∨
    (∃ e, (platform.exec (.inl (.putItem key item cond)) c w).1 = .error e ∧
      e.isHttp = false ∧
      (View.of (platform.exec (.inl (.putItem key item cond)) c w).2 = View.of w ∨
        View.of (platform.exec (.inl (.putItem key item cond)) c w).2 =
          (View.of w).store key item.attributes.data)) := by
  have inserted : View.of (w.1.insert key item, w.2) =
      (View.of w).store key item.attributes.data := by
    refine View.ext (funext fun key' => (entity_insert rfl key').trans ?_) rfl
    exact (Function.update_apply (View.of w).entities key _ key').symm
  have reliable : ∀ c, reliablePlatform.exec (.inl (.putItem key item cond)) c w =
      if cond.Holds (w.1.lookup key) then (.ok (), w.1.insert key item, w.2)
      else (.error (.clientError conditionalCheckFailed), w) := by
    intro c
    by_cases hc : cond.Holds (w.1.lookup key) <;> simp [hc]
  rcases reliablePlatform.faulty_exec raises (.inl (.putItem key item cond)) c w with
    hexec | ⟨e, he, hraised, hworld⟩
  · rw [hexec, reliable]
    split
    · exact .inl ⟨(), rfl, inserted⟩
    · exact .inr ⟨_, rfl, rfl, .inl rfl⟩
  · refine .inr ⟨e, hraised, not_http_of_raises he, ?_⟩
    rcases hworld with hworld | hworld
    · exact .inl (by rw [hworld])
    · rw [hworld, reliable]
      split
      · exact .inr inserted
      · exact .inl rfl

theorem ensures_put {t : EntityType} {id : String} {v : Entity} {f : Unit → Service β}
    (hok : Ensures (f ()) R (V.store ⟨t, id⟩ v))
    (herr : ∀ e, e.isHttp = false → R (.error e) V ∧ R (.error e) (V.store ⟨t, id⟩ v)) :
    Ensures (Service.put t id v >>= f) R V := by
  rw [DynamoRepository.put_left_bind]
  refine ensures_call (fun c w hw => hw) (fun clock _ => ?_) fun e he => ?_
  swap
  · rcases he with ⟨c, w, -, he⟩ | he
    · cases he
    · exact ensures_raise (herr e (not_http_of_raises he)).1
  refine ensures_call (fun c w hw => hw) (fun current _ => ?_) fun e he => ?_
  swap
  · rcases he with ⟨c, w, -, he⟩ | he
    · cases he
    · exact ensures_raise (herr e (not_http_of_raises he)).1
  rintro w rfl c
  rcases exec_putItem ⟨t, id⟩ (DynamoRepository.item t id v clock current) (.unchanged current) c w
    with ⟨r, hr, hview⟩ | ⟨e, he, hhttp, hview⟩
  · rw [hr]
    exact hok _ hview
  · rw [he]
    obtain ⟨hbefore, hafter⟩ := herr _ (not_http_putError hhttp t id)
    change R (.error (DynamoRepository.putError t id e)) (View.of _)
    rcases hview with hview | hview <;> rw [hview]
    · exact hbefore
    · exact hafter

end Rules

/-! ## When nothing fails -/

section Reliable
variable {w : platform.World} {Q : Except Exc β → platform.World → Prop}

/-- Storing an entity over an item with a version, or over none. -/
theorem wp_put_over {t : EntityType} {id : String} {v : Entity} {f : Unit → Service β}
    (hversion : ∀ item, w.1.lookup ⟨t, id⟩ = some item → item.version.isSome = true)
    (h : ∀ clock, reliablePlatform.wp (f ()) Q
      (w.1.insert ⟨t, id⟩ (DynamoRepository.item t id v clock (w.1.lookup ⟨t, id⟩)), w.2)) :
    reliablePlatform.wp (Service.put t id v >>= f) Q w := by
  rw [DynamoRepository.put_left_bind]
  intro c c'
  let item := DynamoRepository.item t id v c.1 (w.1.lookup ⟨t, id⟩)
  show reliablePlatform.wp (.call (.inl (.putItem ⟨t, id⟩ item
    (.unchanged (w.1.lookup ⟨t, id⟩)))) _) Q w
  intro c''
  have hexec : reliablePlatform.exec (.inl (.putItem ⟨t, id⟩ item
      (.unchanged (w.1.lookup ⟨t, id⟩)))) c'' w = (.ok (), w.1.insert ⟨t, id⟩ item, w.2) := by
    simp [Condition.unchanged_holds_self.mpr hversion]
  rw [hexec]
  exact h c.1

end Reliable
end AxSentinel
