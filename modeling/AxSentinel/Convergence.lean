import AxSentinel.Console

/-! # When a console converges

Every sighting in the system is of the stored incident or of an older state of it (`Seen`).  A
console that was not left out of the latest state, and does not show it, is due to get it: some
request has yet to send it, or some socket to receive it (`Invariant`).  So where nothing is under
way the console shows the latest state, or was left out of it; and in the runs of
`converges_of_inOrder` a console that was left out of an update shows nothing older. -/
namespace AxSentinel
open Effects

/-! ## Merging -/

theorem mem_mergeIncidents {current incoming : List Sighting} {x : Sighting} :
    x ∈ mergeIncidents current incoming ↔
      x ∈ Merging.merge (fun x => x.attributes.id) current incoming := by
  rw [mergeIncidents, List.mem_insertionSort]

theorem Shown.mem_of_mem_merge {shown : Shown} {incoming : List Sighting} {x : Sighting}
    (h : x ∈ (shown.merge incoming).incidents) : x ∈ incoming ∨
      x ∈ shown.incidents ∧ ∀ y ∈ incoming, y.attributes.id ≠ x.attributes.id :=
  Merging.mem_of_mem_merge (mem_mergeIncidents.mp h)

theorem Shown.mem_merge {shown : Shown} {incoming : List Sighting} {x : Sighting}
    (h : x ∈ shown.incidents ∨ x ∈ incoming)
    (hsame : ∀ y ∈ incoming, y.attributes.id = x.attributes.id → y = x) :
    x ∈ (shown.merge incoming).incidents :=
  mem_mergeIncidents.mpr (Merging.mem_merge shown.nodup h hsame)

/-! ## Writes -/

/-- A conditional write is of a later version. -/
theorem IncidentTable.age_lt_of_unchanged {t : IncidentTable} {current : Option Sighting}
    {incident : Incident} (h : (Condition.unchanged current).Holds (t.item incident.id))
    {old : Sighting} (hold : t.item incident.id = some old) :
    old.age < Sighting.age ⟨some (versionOf current + 1), incident⟩ := by
  have hversion : versionOf (t.item incident.id) = versionOf current := h.versionOf_eq
  rw [hold] at hversion
  show versionOf (some old) < versionOf current + 1
  omega

/-! ## What is under way -/

/-- The incident a request has written. -/
def UpdateStage.written : UpdateStage → Option Sighting
  | publish item => some item
  | startBroadcast item => some item
  | send item _ _ => some item
  | _ => none

/-- A request has yet to send the incident to the console. -/
def UpdateStage.Owes (owner : Socket → Console) (c : Console) (x : Sighting) : UpdateStage → Prop
  | publish item => item = x
  | startBroadcast item => item = x
  | send item sockets _ => item = x ∧ ∃ socket ∈ sockets, owner socket = c
  | _ => False

namespace ConsoleSystem

/-- The sightings in the system outside the table. -/
inductive Around (w : ConsoleSystem) (x : Sighting) : Prop
  | shown (c) : x ∈ (w.shown c).incidents → Around w x
  | sent (socket) : x ∈ w.inbox socket → Around w x
  | read {k : Nat} {f : Refresh} :
      w.fetches[k]? = some (some f) → x ∈ f.read → Around w x
  | written {k : Nat} {stage : UpdateStage} :
      w.requests[k]? = some stage → stage.written = some x → Around w x

/-- The console is yet to get the incident. -/
inductive Due (owner : Socket → Console) (w : ConsoleSystem) (c : Console) (x : Sighting) : Prop
  | sent {socket} : owner socket = c → x ∈ w.inbox socket → Due owner w c x
  | unsent {k : Nat} {stage : UpdateStage} :
      w.requests[k]? = some stage → stage.Owes owner c x → Due owner w c x

/-- The sighting is of what is stored, or of an earlier version, but not of one before `t₀`. -/
structure Seen (t₀ t : IncidentTable) (x : Sighting) : Prop where
  upper : ∃ y, t.item x.attributes.id = some y ∧ (x = y ∨ x.age < y.age)
  lower : ∀ y, t₀.item x.attributes.id = some y → y.age ≤ x.age

theorem Seen.eq_or_lt {t₀ t : IncidentTable} {x y : Sighting} (h : Seen t₀ t x)
    (hy : t.item x.attributes.id = some y) : x = y ∨ x.age < y.age := by
  obtain ⟨z, hz, hxz⟩ := h.upper
  obtain rfl := Option.some.inj (hy.symm.trans hz)
  exact hxz

/-- What the console shows of the incident is not older. -/
def UpToDate (w : ConsoleSystem) (c : Console) (x : Sighting) : Prop :=
  ∀ y ∈ (w.shown c).incidents, y.attributes.id = x.attributes.id → x.age ≤ y.age

/-- The invariant; `Missed c x` says that the console was left out of the incident. -/
structure Invariant (owner : Socket → Console) (t₀ : IncidentTable)
    (Missed : Console → Sighting → Prop) (w : ConsoleSystem) : Prop where
  kept : ∀ id x, t₀.item id = some x → ∃ y, w.table.item id = some y ∧ x.age ≤ y.age
  seen : ∀ x, w.Around x → Seen t₀ w.table x
  covered : ∀ c id x, w.table.item id = some x → t₀.item id = some x ∨ Due owner w c x ∨
    Missed c x ∨ x ∈ (w.shown c).incidents
  latest : ∀ c, ∀ y ∈ (w.shown c).incidents, ∀ x, w.table.item y.attributes.id = some x →
    y = x ∨ Due owner w c x

variable {owner : Socket → Console} {t₀ : IncidentTable}
  {Missed Missed' : Console → Sighting → Prop} {w w' : ConsoleSystem}

/-- Nothing has happened. -/
theorem invariant_initial (t₀ : IncidentTable) :
    Invariant owner t₀ Missed (initial t₀) where
  kept id x hx := ⟨x, hx, le_rfl⟩
  seen x h := by
    cases h with
    | shown c hx => cases hx
    | sent socket hx => cases hx
    | read hk hx => cases hk
    | written hk hx => cases hk
  covered c id x hx := .inl hx
  latest c y hy := nomatch hy

/-- A step that neither writes nor merges. -/
theorem Invariant.mono (h : Invariant owner t₀ Missed w) (htable : w'.table = w.table)
    (hshown : w'.shown = w.shown)
    (haround : ∀ x, w'.Around x → w.Around x ∨ w.table.item x.attributes.id = some x)
    (hmissed : ∀ c x, Missed c x → Missed' c x)
    (hdue : ∀ c x, Due owner w c x → Due owner w' c x ∨ Missed' c x ∧ w.UpToDate c x) :
    Invariant owner t₀ Missed' w' where
  kept := htable ▸ h.kept
  seen x hx := by
    rw [htable]
    rcases haround x hx with hx | hx
    · exact h.seen x hx
    · refine ⟨⟨x, hx, .inl rfl⟩, fun y hy => ?_⟩
      obtain ⟨z, hz, hage⟩ := h.kept _ y hy
      obtain rfl := Option.some.inj (hx.symm.trans hz)
      exact hage
  covered c id x hx := by
    rw [htable] at hx
    rw [hshown]
    rcases h.covered c id x hx with hinitial | hx | hx | hx
    · exact .inl hinitial
    · exact .inr ((hdue c x hx).imp_right fun hmiss => .inl hmiss.1)
    · exact .inr (.inr (.inl (hmissed c x hx)))
    · exact .inr (.inr (.inr hx))
  latest c y hy x hx := by
    rw [htable] at hx
    rw [hshown] at hy
    rcases h.latest c y hy x hx with heq | hx'
    · exact .inl heq
    · rcases hdue c x hx' with hx' | ⟨-, huptodate⟩
      · exact .inr hx'
      · -- The console was left out, and shows nothing older.
        have hage := huptodate y hy (w.table.keyed _ x hx).symm
        exact .inl (((h.seen y (.shown c hy)).eq_or_lt hx).resolve_right (not_lt.mpr hage))

theorem Invariant.weaken (h : Invariant owner t₀ Missed w)
    (hmissed : ∀ c x, Missed c x → Missed' c x) : Invariant owner t₀ Missed' w :=
  h.mono rfl rfl (fun _ hx => .inl hx) hmissed fun _ _ hx => .inl hx

/-- A step that writes an incident. -/
theorem Invariant.write (h : Invariant owner t₀ Missed w) {item : Sighting}
    (hlater : ∀ old, w.table.item item.attributes.id = some old → old.age < item.age)
    (htable : w'.table = w.table.put item) (hshown : w'.shown = w.shown)
    (haround : ∀ x, w'.Around x → w.Around x ∨ x = item)
    (hmissed : ∀ c x, Missed c x → Missed' c x)
    (hdue : ∀ c x, Due owner w c x → Due owner w' c x)
    (hnew : ∀ c, Due owner w' c item ∨ Missed' c item ∧ w.UpToDate c item) :
    Invariant owner t₀ Missed' w' where
  kept id x hx := by
    obtain ⟨y, hy, hage⟩ := h.kept id x hx
    rw [htable]
    by_cases hid : id = item.attributes.id
    · subst hid
      exact ⟨item, w.table.put_self item, le_of_lt (lt_of_le_of_lt hage (hlater y hy))⟩
    · exact ⟨y, (IncidentTable.put_other hid).trans hy, hage⟩
  seen x hx := by
    rw [htable]
    rcases haround x hx with hx | rfl
    · obtain ⟨⟨y, hy, hxy⟩, hlower⟩ := h.seen x hx
      by_cases hid : x.attributes.id = item.attributes.id
      · refine ⟨⟨item, hid ▸ w.table.put_self item, .inr ?_⟩, hlower⟩
        have hitem := hlater y (hid ▸ hy)
        rcases hxy with rfl | hxy
        · exact hitem
        · exact lt_trans hxy hitem
      · exact ⟨⟨y, (IncidentTable.put_other hid).trans hy, hxy⟩, hlower⟩
    · refine ⟨⟨x, w.table.put_self x, .inl rfl⟩, fun y hy => ?_⟩
      obtain ⟨z, hz, hage⟩ := h.kept _ y hy
      exact le_of_lt (lt_of_le_of_lt hage (hlater z hz))
  covered c id x hx := by
    rw [htable] at hx
    rw [hshown]
    by_cases hid : id = item.attributes.id
    · subst hid
      obtain rfl := Option.some.inj ((w.table.put_self item).symm.trans hx)
      exact .inr ((hnew c).imp_right fun hmiss => .inl hmiss.1)
    · rw [IncidentTable.put_other hid] at hx
      rcases h.covered c id x hx with hinitial | hx | hx | hx
      · exact .inl hinitial
      · exact .inr (.inl (hdue c x hx))
      · exact .inr (.inr (.inl (hmissed c x hx)))
      · exact .inr (.inr (.inr hx))
  latest c y hy x hx := by
    rw [htable] at hx
    rw [hshown] at hy
    by_cases hid : y.attributes.id = item.attributes.id
    · rw [hid, w.table.put_self] at hx
      obtain rfl := Option.some.inj hx
      refine .inr ((hnew c).resolve_right fun hmiss => ?_)
      -- What the console shows is older than what is written now.
      obtain ⟨z, hz, hyz⟩ := (h.seen y (.shown c hy)).upper
      have hold := hlater z (hid ▸ hz)
      have hage := hmiss.2 y hy hid
      rcases hyz with rfl | hyz
      · exact absurd hold (not_lt.mpr hage)
      · exact absurd (lt_trans hyz hold) (not_lt.mpr hage)
    · rw [IncidentTable.put_other hid] at hx
      exact (h.latest c y hy x hx).imp_right (hdue c x)

/-- After a merge there is nothing around that was not before. -/
theorem Around.of_merge {c : Console} {incoming : List Sighting} {x : Sighting} (h : w'.Around x)
    (hshown : w'.shown = Function.update w.shown c ((w.shown c).merge incoming))
    (hrequests : w'.requests = w.requests)
    (hfetches : ∀ (k : Nat) (f : Refresh), w'.fetches[k]? = some (some f) →
      w.fetches[k]? = some (some f))
    (hinbox : ∀ socket, ∀ x ∈ w'.inbox socket, x ∈ w.inbox socket)
    (haround : ∀ x ∈ incoming, w.Around x) : w.Around x := by
  cases h with
  | shown c' hx =>
    rw [hshown] at hx
    by_cases hc : c' = c
    · subst hc
      rw [Function.update_self] at hx
      rcases Shown.mem_of_mem_merge hx with hx | ⟨hx, -⟩
      · exact haround x hx
      · exact .shown c' hx
    · rw [Function.update_of_ne hc] at hx
      exact .shown c' hx
  | sent socket hx => exact .sent socket (hinbox socket x hx)
  | read hk hx => exact .read (hfetches _ _ hk) hx
  | written hk hx => exact .written (hrequests ▸ hk) hx

/-- What a console was due it is due after a merge, unless it is what was merged. -/
theorem Due.of_merge {c c' : Console} {incoming : List Sighting} {x : Sighting}
    (h : Due owner w c' x) (hrequests : w'.requests = w.requests)
    (hreceived : ∀ socket, ∀ x ∈ w.inbox socket, x ∈ w'.inbox socket ∨
      owner socket = c ∧ incoming = [x]) :
    Due owner w' c' x ∨ c' = c ∧ incoming = [x] := by
  cases h with
  | @sent socket howner hx =>
    rcases hreceived socket x hx with hx | ⟨rfl, hx⟩
    · exact .inl (.sent howner hx)
    · exact .inr ⟨howner.symm, hx⟩
  | unsent hk howes => exact .inl (.unsent (hrequests ▸ hk) howes)

/-- A step that merges sightings into what a console shows. -/
theorem Invariant.merge (h : Invariant owner t₀ Missed w) {c : Console} {incoming : List Sighting}
    (htable : w'.table = w.table)
    (hshown : w'.shown = Function.update w.shown c ((w.shown c).merge incoming))
    (hrequests : w'.requests = w.requests)
    (hfetches : ∀ (k : Nat) (f : Refresh), w'.fetches[k]? = some (some f) →
      w.fetches[k]? = some (some f))
    (hinbox : ∀ socket, ∀ x ∈ w'.inbox socket, x ∈ w.inbox socket)
    (hreceived : ∀ socket, ∀ x ∈ w.inbox socket, x ∈ w'.inbox socket ∨
      owner socket = c ∧ incoming = [x])
    (haround : ∀ x ∈ incoming, w.Around x)
    (hfresh : ∀ x ∈ incoming, ∀ y ∈ (w.shown c).incidents, y.attributes.id = x.attributes.id →
      y.age ≤ x.age)
    (hmissed : ∀ x ∈ incoming, ∀ y, Missed c y → y.attributes.id = x.attributes.id →
      y.age ≤ x.age) : Invariant owner t₀ Missed w' := by
  have hself : w'.shown c = (w.shown c).merge incoming := by rw [hshown, Function.update_self]
  have hother : ∀ {c'}, c' ≠ c → w'.shown c' = w.shown c' := by
    intro c' hne
    rw [hshown, Function.update_of_ne hne]
  have hdue : ∀ c' x, Due owner w c' x → Due owner w' c' x ∨ c' = c ∧ incoming = [x] :=
    fun c' x hx => hx.of_merge hrequests hreceived
  refine ⟨htable ▸ h.kept, ?_, ?_, ?_⟩
  · intro x hx
    rw [htable]
    exact h.seen x (hx.of_merge hshown hrequests hfetches hinbox haround)
  · intro c' id x hx
    rw [htable] at hx
    have hid := w.table.keyed id x hx
    rcases h.covered c' id x hx with hinitial | hdue' | hmiss | hmem
    · exact .inl hinitial
    · rcases hdue c' x hdue' with hx' | ⟨rfl, rfl⟩
      · exact .inr (.inl hx')
      · refine .inr (.inr (.inr ?_))
        rw [hself]
        refine Shown.mem_merge (.inr (List.mem_singleton_self x)) fun y hy _ => ?_
        exact List.mem_singleton.mp hy
    · exact .inr (.inr (.inl hmiss))
    · refine .inr (.inr (.inr ?_))
      by_cases hc : c' = c
      · subst hc
        rw [hself]
        refine Shown.mem_merge (.inl hmem) fun y hy hyx => ?_
        -- What is merged is not older than the stored incident, so it is that.
        have hage := hfresh y hy x hmem hyx.symm
        exact ((h.seen y (haround y hy)).eq_or_lt (hyx ▸ hid ▸ hx)).resolve_right
          (not_lt.mpr hage)
      · exact hother hc ▸ hmem
  · intro c' y hy x hx
    rw [htable] at hx
    have hid := w.table.keyed _ x hx
    by_cases hc : c' = c
    · subst hc
      rw [hself] at hy
      rcases Shown.mem_of_mem_merge hy with hy | ⟨hy, hne⟩
      · rcases (h.seen y (haround y hy)).eq_or_lt hx with rfl | hlt
        · exact .inl rfl
        · -- The console has not shown or missed the stored incident, so it is due to get it.
          rcases h.covered c' _ x hx with hinitial | hdue' | hmiss | hmem
          · exact absurd ((h.seen y (haround y hy)).lower x hinitial) (not_le.mpr hlt)
          · rcases hdue c' x hdue' with hx' | ⟨-, rfl⟩
            · exact .inr hx'
            · exact .inl (List.mem_singleton.mp hy)
          · exact absurd (hmissed y hy x hmiss hid) (not_le.mpr hlt)
          · exact absurd (hfresh y hy x hmem hid) (not_le.mpr hlt)
      · rcases h.latest c' y hy x hx with heq | hdue'
        · exact .inl heq
        · refine .inr ((hdue c' x hdue').resolve_right ?_)
          rintro ⟨-, rfl⟩
          exact hne x (List.mem_singleton_self x) hid
    · rw [hother hc] at hy
      refine (h.latest c' y hy x hx).imp_right fun hdue' => ?_
      exact (hdue c' x hdue').resolve_right fun heq => hc heq.1

/-! ## One step -/

/-- An element of a list in which one was set. -/
theorem eq_or_getElem?_of_set {A : Type} {l : List A} {k j : Nat} {a b : A}
    (h : (l.set k a)[j]? = some b) : b = a ∨ l[j]? = some b := by
  rw [List.getElem?_set] at h
  split at h
  · split at h
    · exact .inl (Option.some.inj h).symm
    · cases h
  · exact .inr h

theorem mem_update {inbox : Socket → List Sighting} {items : List Sighting} {socket other : Socket}
    {x : Sighting} : x ∈ Function.update inbox socket items other ↔
      other = socket ∧ x ∈ items ∨ other ≠ socket ∧ x ∈ inbox other := by
  by_cases hother : other = socket
  · subst hother
    rw [Function.update_self]
    simp
  · rw [Function.update_of_ne hother]
    simp [hother]

section Stage
variable {k : Nat} {stage stage' : UpdateStage} {x : Sighting}

/-- What is around after the request `k` has come to a stage. -/
theorem around_of_set (hrequests : w'.requests = w.requests.set k stage')
    (hfetches : w'.fetches = w.fetches) (hshown : w'.shown = w.shown)
    (hinbox : ∀ socket, ∀ y ∈ w'.inbox socket, y ∈ w.inbox socket ∨ stage'.written = some y)
    (h : w'.Around x) : w.Around x ∨ stage'.written = some x := by
  cases h with
  | shown c hx => exact .inl (.shown c (hshown ▸ hx))
  | sent socket hx => exact (hinbox socket x hx).imp_left (.sent socket)
  | read hk hx => exact .inl (.read (hfetches ▸ hk) hx)
  | written hj hx =>
    rw [hrequests] at hj
    rcases eq_or_getElem?_of_set hj with rfl | hj
    · exact .inr hx
    · exact .inl (.written hj hx)

/-- What was due is due still, but for what the request `k` owed. -/
theorem due_of_set (hk : w.requests[k]? = some stage)
    (hrequests : w'.requests = w.requests.set k stage')
    (hinbox : ∀ socket, ∀ y ∈ w.inbox socket, y ∈ w'.inbox socket) {c : Console}
    (h : Due owner w c x) : Due owner w' c x ∨ stage.Owes owner c x := by
  cases h with
  | @sent socket howner hx => exact .inl (.sent howner (hinbox socket x hx))
  | @unsent j other hj howes =>
    by_cases hjk : k = j
    · subst hjk
      obtain rfl := Option.some.inj (hk.symm.trans hj)
      exact .inr howes
    · refine .inl (.unsent (k := j) ?_ howes)
      rw [hrequests, List.getElem?_set_ne hjk]
      exact hj

/-- What the stage owes is due when the request `k` has come to it. -/
theorem Due.of_set (hk : w.requests[k]? = some stage)
    (hrequests : w'.requests = w.requests.set k stage') {c : Console}
    (h : stage'.Owes owner c x) : Due owner w' c x := by
  refine .unsent (k := k) ?_ h
  rw [hrequests]
  exact List.getElem?_set_self (List.getElem?_eq_some_iff.mp hk).1

/-- A request comes to a stage without a write. -/
theorem Invariant.comeTo (h : Invariant owner t₀ Missed w) (hk : w.requests[k]? = some stage)
    (htable : w'.table = w.table) (hrequests : w'.requests = w.requests.set k stage')
    (hfetches : w'.fetches = w.fetches) (hshown : w'.shown = w.shown)
    (hsent : ∀ socket, ∀ y ∈ w'.inbox socket, y ∈ w.inbox socket ∨ stage'.written = some y)
    (hinbox : ∀ socket, ∀ y ∈ w.inbox socket, y ∈ w'.inbox socket)
    (hwritten : ∀ y, stage'.written = some y → stage.written = some y)
    (hmissed : ∀ c y, Missed c y → Missed' c y)
    (howes : ∀ c y, stage.Owes owner c y → Due owner w' c y ∨ Missed' c y ∧ w.UpToDate c y) :
    Invariant owner t₀ Missed' w' := by
  refine h.mono htable hshown (fun y hy => ?_) hmissed fun c y hy => ?_
  · rcases around_of_set hrequests hfetches hshown hsent hy with hy | hy
    · exact .inl hy
    · exact .inl (.written hk (hwritten y hy))
  · rcases due_of_set hk hrequests hinbox hy with hy | hy
    · exact .inl hy
    · exact howes c y hy

theorem Invariant.setStage (h : Invariant owner t₀ Missed w) (hk : w.requests[k]? = some stage)
    (hwritten : ∀ y, stage'.written = some y → stage.written = some y)
    (hmissed : ∀ c y, Missed c y → Missed' c y)
    (howes : ∀ c y, stage.Owes owner c y →
      stage'.Owes owner c y ∨ Missed' c y ∧ w.UpToDate c y) :
    Invariant owner t₀ Missed' (w.setStage k stage') :=
  h.comeTo hk rfl rfl rfl rfl (fun _ _ hy => .inl hy) (fun _ _ hy => hy) hwritten hmissed
    fun c y hy => (howes c y hy).imp_left (Due.of_set hk rfl)

/-- A request writes an incident and comes to a stage. -/
theorem Invariant.putItem (h : Invariant owner t₀ Missed w) {incident : Incident}
    {current : Option Sighting} {item : Sighting}
    (hk : w.requests[k]? = some (.putItem incident current))
    (hunchanged : (Condition.unchanged current).Holds (w.table.item incident.id))
    (hitem : item = ⟨some (versionOf current + 1), incident⟩)
    (htable : w'.table = w.table.put item) (hrequests : w'.requests = w.requests.set k stage')
    (hfetches : w'.fetches = w.fetches) (hinbox : w'.inbox = w.inbox) (hshown : w'.shown = w.shown)
    (hwritten : ∀ y, stage'.written = some y → y = item)
    (hmissed : ∀ c y, Missed c y → Missed' c y)
    (hnew : ∀ c, stage'.Owes owner c item ∨ Missed' c item ∧ w.UpToDate c item) :
    Invariant owner t₀ Missed' w' := by
  subst hitem
  refine h.write (fun old hold => IncidentTable.age_lt_of_unchanged hunchanged hold) htable hshown
    (fun y hy => ?_) hmissed (fun c y hy => ?_) fun c => (hnew c).imp_left (Due.of_set hk hrequests)
  · have hinbox' : ∀ socket, ∀ y ∈ w'.inbox socket, y ∈ w.inbox socket ∨ stage'.written = some y :=
      fun socket y hy => .inl (hinbox ▸ hy)
    exact (around_of_set hrequests hfetches hshown hinbox' hy).imp_right (hwritten y)
  · exact (due_of_set hk hrequests (fun _ _ h => hinbox ▸ h) hy).resolve_right id

/-- What the sockets have after a send. -/
theorem mem_inbox_send {item : Sighting} {socket other : Socket}
    {sockets disconnected : List Socket} {outcome : Outcome} :
    x ∈ (w.perform k outcome (.send item (socket :: sockets) disconnected)).inbox other ↔
      x ∈ w.inbox other ∨ outcome ≠ .lost ∧ other = socket ∧ x = item := by
  show x ∈ (if outcome = .lost then w.inbox
    else Function.update w.inbox socket (w.inbox socket ++ [item])) other ↔ _
  by_cases hlost : outcome = .lost
  · rw [if_pos hlost]
    exact ⟨.inl, fun h => h.resolve_right fun h => h.1 hlost⟩
  · rw [if_neg hlost]
    rw [mem_update, List.mem_append, List.mem_singleton]
    by_cases hother : other = socket
    · simp [hlost, hother]
    · simp [hother]

/-- A request sends the incident to a socket, or fails to. -/
theorem Invariant.send (h : Invariant owner t₀ Missed w) {item : Sighting} {socket : Socket}
    {sockets disconnected : List Socket} {outcome : Outcome}
    (hk : w.requests[k]? = some (.send item (socket :: sockets) disconnected))
    (hmissed : ∀ c y, Missed c y → Missed' c y)
    (hlost : outcome = .lost → Missed' (owner socket) item ∧ w.UpToDate (owner socket) item) :
    Invariant owner t₀ Missed'
      (w.perform k outcome (.send item (socket :: sockets) disconnected)) := by
  refine h.comeTo hk rfl rfl rfl rfl (fun other y hy => ?_)
    (fun other y hy => mem_inbox_send.mpr (.inl hy)) (fun y hy => hy) hmissed fun c y howes => ?_
  · exact (mem_inbox_send.mp hy).imp_right fun hy => congrArg some hy.2.2.symm
  · obtain ⟨rfl, other, hother, rfl⟩ := howes
    rcases List.mem_cons.mp hother with rfl | hother
    · by_cases houtcome : outcome = .lost
      · exact .inr (hlost houtcome)
      · exact .inl (.sent rfl (mem_inbox_send.mpr (.inr ⟨houtcome, rfl, rfl⟩)))
    · refine .inl (Due.of_set hk rfl ?_)
      exact ⟨rfl, other, hother, rfl⟩

end Stage

/-- The next operation of a request. -/
theorem Invariant.perform (h : Invariant owner t₀ Missed w) {k : Nat} {stage : UpdateStage}
    {outcome : Outcome} (hk : w.requests[k]? = some stage)
    (hleft : ∀ c x, LeavesOut owner w (.advance k outcome) c x → w.UpToDate c x) :
    Invariant owner t₀ (fun c x => Missed c x ∨ LeavesOut owner w (.advance k outcome) c x)
      (w.perform k outcome stage) := by
  have hmissed : ∀ c x, Missed c x → Missed c x ∨ LeavesOut owner w (.advance k outcome) c x :=
    fun _ _ hx => .inl hx
  cases stage with
  | get incidentId status =>
    have hnext : ∀ stage' : UpdateStage, stage'.written = none →
        Invariant owner t₀ _ (w.setStage k stage') := fun stage' hnone =>
      h.setStage hk (fun y hy => nomatch hnone.symm.trans hy) hmissed fun _ _ howes => howes.elim
    simp only [ConsoleSystem.perform]
    split
    · exact hnext _ rfl
    · split
      · exact hnext _ rfl
      · exact hnext _ rfl
  | getItem incident =>
    refine h.setStage hk (fun y hy => ?_) hmissed fun _ _ howes => howes.elim
    split at hy
    · cases hy
    · cases hy
  | putItem incident current =>
    by_cases hwrite : outcome ≠ .lost ∧
        (Condition.unchanged current).Holds (w.table.item incident.id)
    · simp only [ConsoleSystem.perform, if_pos hwrite]
      refine h.putItem hk hwrite.2 rfl rfl rfl rfl rfl rfl (fun y hy => ?_) hmissed fun c => ?_
      · split at hy
        · exact (Option.some.inj hy).symm
        · cases hy
      · split
        · exact .inl rfl
        · next hdone =>
          obtain rfl : outcome = .late := by
            cases outcome with
            | done => exact absurd rfl hdone
            | lost => exact absurd rfl hwrite.1
            | late => rfl
          have hout : LeavesOut owner w (.advance k .late) c _ := .unpublished c hk hwrite.2
          exact .inr ⟨.inr hout, hleft c _ hout⟩
    · simp only [ConsoleSystem.perform, if_neg hwrite]
      exact h.setStage hk (fun y hy => nomatch hy) hmissed fun _ _ howes => howes.elim
  | publish item =>
    by_cases hdone : outcome = .done
    · simp only [ConsoleSystem.perform, if_pos hdone]
      exact h.setStage hk (fun y hy => hy) hmissed fun c y howes => .inl howes
    · simp only [ConsoleSystem.perform, if_neg hdone]
      refine h.setStage hk (fun y hy => nomatch hy) hmissed fun c y howes => ?_
      obtain rfl : item = y := howes
      have hout : LeavesOut owner w (.advance k outcome) c item := .unbroadcast c hk hdone
      exact .inr ⟨.inr hout, hleft c _ hout⟩
  | startBroadcast item => exact h.weaken hmissed
  | send item sockets disconnected =>
    cases sockets with
    | nil =>
      refine h.comeTo hk rfl rfl rfl rfl (fun _ _ hy => .inl hy) (fun _ _ hy => hy)
        (fun _ hy => nomatch hy) hmissed fun c y howes => ?_
      obtain ⟨-, socket, hsocket, -⟩ := howes
      cases hsocket
    | cons socket sockets =>
      refine h.send hk hmissed fun hlost => ?_
      have hout : LeavesOut owner w (.advance k .lost) (owner socket) item := .unsent hk
      rw [← hlost] at hout
      exact ⟨.inr hout, hleft _ _ hout⟩
  | ended => exact h.weaken hmissed

/-- What is around after a step of no request. -/
theorem Around.of_step {x : Sighting} (h : w'.Around x) (hshown : w'.shown = w.shown)
    (hinbox : ∀ socket, ∀ y ∈ w'.inbox socket, y ∈ w.inbox socket)
    (hrequests : ∀ {k : Nat} {stage : UpdateStage}, w'.requests[k]? = some stage →
      w.requests[k]? = some stage ∨ stage.written = none)
    (hfetches : ∀ {k : Nat} {f : Refresh}, w'.fetches[k]? = some (some f) → x ∈ f.read →
      w.Around x ∨ w.table.item x.attributes.id = some x) :
    w.Around x ∨ w.table.item x.attributes.id = some x := by
  cases h with
  | shown c hx => exact .inl (.shown c (hshown ▸ hx))
  | sent socket hx => exact .inl (.sent socket (hinbox socket x hx))
  | read hk hx => exact hfetches hk hx
  | written hk hx =>
    rcases hrequests hk with hk | hnone
    · exact .inl (.written hk hx)
    · exact nomatch hnone.symm.trans hx

theorem Due.mono {c : Console} {x : Sighting} (h : Due owner w c x)
    (hrequests : ∀ {k : Nat} {stage : UpdateStage}, w.requests[k]? = some stage →
      w'.requests[k]? = some stage)
    (hinbox : ∀ socket, ∀ y ∈ w.inbox socket, y ∈ w'.inbox socket) : Due owner w' c x := by
  cases h with
  | @sent socket howner hx => exact .sent howner (hinbox socket x hx)
  | unsent hk howes => exact .unsent (hrequests hk) howes

theorem mem_listIncidents {read : List Sighting} {x : Sighting} :
    x ∈ listIncidents read ↔ x ∈ read := by
  rw [listIncidents, List.mem_insertionSort]

/-- A step that sends, writes and merges nothing; it may begin requests, and read what is stored. -/
theorem Invariant.quiet (h : Invariant owner t₀ Missed w) (htable : w'.table = w.table)
    (hshown : w'.shown = w.shown) (hinbox : w'.inbox = w.inbox)
    (hbegun : ∀ {k : Nat} {stage : UpdateStage}, w'.requests[k]? = some stage →
      w.requests[k]? = some stage ∨ stage.written = none)
    (hgoes : ∀ {k : Nat} {stage : UpdateStage}, w.requests[k]? = some stage →
      w'.requests[k]? = some stage)
    (hread : ∀ {k : Nat} {f : Refresh} {x : Sighting}, w'.fetches[k]? = some (some f) →
      x ∈ f.read → w.Around x ∨ w.table.item x.attributes.id = some x) :
    Invariant owner t₀ Missed w' := by
  refine h.mono htable hshown (fun x hx => ?_) (fun _ _ hx => hx) fun c x hx => .inl ?_
  · exact hx.of_step hshown (fun _ _ hy => hinbox ▸ hy) hbegun hread
  · exact hx.mono hgoes fun _ _ hy => hinbox ▸ hy

/-- A page of the incidents is read, as they are stored. -/
theorem Invariant.page (h : Invariant owner t₀ Missed w) (k : Nat) (ids : List String) :
    Invariant owner t₀ Missed (ConsoleSystem.step owner w (.page k ids)) := by
  simp only [ConsoleSystem.step]
  split
  · next f hk =>
    refine h.quiet rfl rfl rfl .inl (fun hk => hk) fun {j g x} hj hy => ?_
    rcases eq_or_getElem?_of_set hj with hf | hj
    · obtain rfl := Option.some.inj hf
      rcases List.mem_append.mp hy with hy | hy
      · exact .inl (.read hk hy)
      · obtain ⟨id, -, hid⟩ := List.mem_filterMap.mp hy
        exact .inr (w.table.keyed id x hid ▸ hid)
    · exact .inl (.read hj hy)
  · exact h

/-- A broadcast starts, on the sockets that are connected. -/
theorem Invariant.start (h : Invariant owner t₀ Missed w) {k : Nat} {sockets : List Socket}
    (hmissed : ∀ c x, Missed c x → Missed' c x)
    (hleft : ∀ c x, LeavesOut owner w (.start k sockets) c x →
      Missed' c x ∧ w.UpToDate c x) :
    Invariant owner t₀ Missed' (ConsoleSystem.step owner w (.start k sockets)) := by
  simp only [ConsoleSystem.step]
  split
  · next item hk =>
    split
    · next hperm =>
      refine h.setStage hk (fun y hy => hy) hmissed fun c y howes => ?_
      obtain rfl : item = y := howes
      by_cases hsocket : ∃ socket ∈ sockets, owner socket = c
      · exact .inl ⟨rfl, hsocket⟩
      · refine .inr (hleft c item (.unconnected hk hperm fun socket hmem howner => ?_))
        exact hsocket ⟨socket, (List.isPerm_iff.mp hperm).mem_iff.mpr hmem, howner⟩
    · exact h.weaken hmissed
  · exact h.weaken hmissed

/-- A socket is closed, with what it has not read. -/
theorem Invariant.close (h : Invariant owner t₀ Missed w) {socket : Socket}
    (hmissed : ∀ c x, Missed c x → Missed' c x)
    (hleft : ∀ c x, LeavesOut owner w (.close socket) c x → Missed' c x ∧ w.UpToDate c x) :
    Invariant owner t₀ Missed' (ConsoleSystem.step owner w (.close socket)) := by
  refine h.mono rfl rfl (fun x hx => ?_) hmissed fun c x hx => ?_
  · refine hx.of_step rfl (fun other y hy => ?_) .inl fun hk hy => .inl (.read hk hy)
    rcases mem_update.mp hy with ⟨-, hy⟩ | ⟨-, hy⟩
    · cases hy
    · exact hy
  · cases hx with
    | @sent other howner hx =>
      by_cases hother : other = socket
      · subst hother howner
        exact .inr (hleft _ x (.unread hx))
      · exact .inl (.sent howner (mem_update.mpr (.inr ⟨hother, hx⟩)))
    | unsent hk howes => exact .inl (.unsent hk howes)

/-- The list that was read is merged. -/
theorem Invariant.reply (h : Invariant owner t₀ Missed w) {k : Nat}
    (hfresh : ∀ c x, Merges owner w (.reply k) c x →
      ∀ y, y ∈ (w.shown c).incidents ∨ Missed c y → y.attributes.id = x.attributes.id →
        y.age ≤ x.age) :
    Invariant owner t₀ Missed (ConsoleSystem.step owner w (.reply k)) := by
  simp only [ConsoleSystem.step]
  split
  · next f hk =>
    have hmerges : ∀ x ∈ listIncidents f.read, Merges owner w (.reply k) f.console x :=
      fun x hx => .snapshot hk (mem_listIncidents.mp hx)
    refine h.merge (c := f.console) rfl rfl rfl (fun j g hj => ?_) (fun _ _ hy => hy)
      (fun _ _ hy => .inl hy) (fun x hx => .read hk (mem_listIncidents.mp hx))
      (fun x hx y hy => hfresh _ x (hmerges x hx) y (.inl hy))
      fun x hx y hy => hfresh _ x (hmerges x hx) y (.inr hy)
    exact (eq_or_getElem?_of_set hj).resolve_left fun h => nomatch h
  · exact h

/-- A message is merged. -/
theorem Invariant.receive (h : Invariant owner t₀ Missed w) {socket : Socket}
    (hfresh : ∀ c x, Merges owner w (.receive socket) c x →
      ∀ y, y ∈ (w.shown c).incidents ∨ Missed c y → y.attributes.id = x.attributes.id →
        y.age ≤ x.age) :
    Invariant owner t₀ Missed (ConsoleSystem.step owner w (.receive socket)) := by
  simp only [ConsoleSystem.step]
  split
  · next item items hinbox =>
    have hmerges : Merges owner w (.receive socket) (owner socket) item := .message hinbox
    refine h.merge rfl (show _ = Function.update w.shown (owner socket) (Shown.merge _ [item])
      from rfl) rfl (fun _ _ hj => hj) (fun other y hy => ?_) (fun other y hy => ?_)
      (fun x hx => ?_) (fun x hx y hy => ?_) fun x hx y hy => ?_
    · rcases mem_update.mp hy with ⟨rfl, hmem⟩ | ⟨-, hmem⟩
      · exact hinbox ▸ List.mem_cons_of_mem item hmem
      · exact hmem
    · by_cases hother : other = socket
      · subst hother
        rw [hinbox] at hy
        rcases List.mem_cons.mp hy with rfl | hy
        · exact .inr ⟨rfl, rfl⟩
        · exact .inl (mem_update.mpr (.inl ⟨rfl, hy⟩))
      · exact .inl (mem_update.mpr (.inr ⟨hother, hy⟩))
    · obtain rfl := List.mem_singleton.mp hx
      exact .sent socket (hinbox ▸ List.mem_cons_self)
    · obtain rfl := List.mem_singleton.mp hx
      exact hfresh _ x hmerges y (.inl hy)
    · obtain rfl := List.mem_singleton.mp hx
      exact hfresh _ x hmerges y (.inr hy)
  · exact h

/-- A step.  No console merges what is older than an incident that it shows or has missed, and none
is left out of an update that is newer than what it shows. -/
theorem Invariant.step (h : Invariant owner t₀ Missed w) (a : ConsoleAction)
    (hfresh : ∀ c x, Merges owner w a c x → ∀ y, y ∈ (w.shown c).incidents ∨ Missed c y →
      y.attributes.id = x.attributes.id → y.age ≤ x.age)
    (hleft : ∀ c x, LeavesOut owner w a c x → w.UpToDate c x) :
    Invariant owner t₀ (fun c x => Missed c x ∨ LeavesOut owner w a c x)
      (ConsoleSystem.step owner w a) := by
  have hmissed : ∀ c x, Missed c x → Missed c x ∨ LeavesOut owner w a c x :=
    fun _ _ hx => .inl hx
  have hnew : ∀ c x, LeavesOut owner w a c x →
      (Missed c x ∨ LeavesOut owner w a c x) ∧ w.UpToDate c x :=
    fun c x hx => ⟨.inr hx, hleft c x hx⟩
  cases a with
  | request incidentId status =>
    refine .weaken (h.quiet rfl rfl rfl (fun hk => ?_) (fun hk => getElem?_append_of_some hk _)
      fun hk hy => .inl (.read hk hy)) hmissed
    rcases getElem?_snoc.mp hk with hk | ⟨-, rfl⟩
    · exact .inl hk
    · exact .inr rfl
  | advance k outcome =>
    simp only [ConsoleSystem.step]
    cases hk : w.requests[k]? with
    | none => exact h.weaken hmissed
    | some stage => exact h.perform hk hleft
  | start k sockets => exact h.start hmissed hnew
  | connect socket =>
    exact .weaken (h.quiet rfl rfl rfl .inl (fun hk => hk)
      fun hk hy => .inl (.read hk hy)) hmissed
  | close socket => exact h.close hmissed hnew
  | fetch console =>
    refine .weaken (h.quiet rfl rfl rfl .inl (fun hk => hk) fun hk hy => ?_) hmissed
    rcases getElem?_snoc.mp hk with hk | ⟨-, hf⟩
    · exact .inl (.read hk hy)
    · obtain rfl := Option.some.inj hf
      cases hy
  | page k ids => exact (h.page k ids).weaken hmissed
  | reply k => exact (h.reply hfresh).weaken hmissed
  | abandon k =>
    refine .weaken (h.quiet rfl rfl rfl .inl (fun hk => hk) fun hj hy => ?_) hmissed
    exact .inl (.read ((eq_or_getElem?_of_set hj).resolve_left fun h => nomatch h) hy)
  | receive socket => exact (h.receive hfresh).weaken hmissed

/-! ## Runs -/

/-- The console was left out of the incident in one of the first `n` steps. -/
def LeftOut (owner : Socket → Console) (table : IncidentTable) (actions : List ConsoleAction)
    (n : Nat) (c : Console) (x : Sighting) : Prop :=
  ∃ m < n, ∃ a, actions[m]? = some a ∧ LeavesOut owner (run owner table (actions.take m)) a c x

/-- No console merges what is older than an incident that it shows or was left out of, and none is
left out of an update while it shows an older state. -/
structure InOrder (owner : Socket → Console) (table : IncidentTable)
    (actions : List ConsoleAction) : Prop where
  notOlder : ∀ n a c x, actions[n]? = some a →
    Merges owner (run owner table (actions.take n)) a c x →
    ∀ y ∈ ((run owner table (actions.take n)).shown c).incidents,
      y.attributes.id = x.attributes.id → y.age ≤ x.age
  notMissed : ∀ n a c x, actions[n]? = some a →
    Merges owner (run owner table (actions.take n)) a c x →
    ∀ y, LeftOut owner table actions n c y → y.attributes.id = x.attributes.id → y.age ≤ x.age
  notBehind : ∀ n a c x, actions[n]? = some a →
    LeavesOut owner (run owner table (actions.take n)) a c x →
    (run owner table (actions.take n)).UpToDate c x

variable {table : IncidentTable} {actions : List ConsoleAction}

theorem InOrder.invariant (h : InOrder owner table actions) (n : Nat) :
    Invariant owner table (LeftOut owner table actions n) (run owner table (actions.take n)) := by
  induction n with
  | zero => exact invariant_initial table
  | succ n ih =>
    have hmissed : ∀ c x, LeftOut owner table actions n c x →
        LeftOut owner table actions (n + 1) c x :=
      fun c x ⟨m, hm, hleft⟩ => ⟨m, Nat.lt_succ_of_lt hm, hleft⟩
    rw [List.take_add_one]
    cases ha : actions[n]? with
    | none =>
      rw [Option.toList_none, List.append_nil]
      exact ih.mono rfl rfl (fun _ hx => .inl hx) hmissed fun _ _ hx => .inl hx
    | some a =>
      have hrun : run owner table (actions.take n ++ (some a).toList) =
          step owner (run owner table (actions.take n)) a := by
        rw [run, List.foldl_append]
        rfl
      rw [hrun]
      have hstep := ih.step a
        (fun c x hx y hy => hy.elim (h.notOlder n a c x ha hx y) (h.notMissed n a c x ha hx y))
        fun c x => h.notBehind n a c x ha
      refine hstep.mono rfl rfl (fun _ hx => .inl hx) (fun c x hx => ?_) fun _ _ hx => .inl hx
      rcases hx with hx | hx
      · exact hmissed c x hx
      · exact ⟨n, Nat.lt_succ_self n, a, ha, hx⟩

theorem Quiescent.not_due (h : w.Quiescent) {c : Console} {x : Sighting} : ¬ Due owner w c x := by
  rintro (⟨-, hx⟩ | ⟨hk, howes⟩)
  · rw [h.inbox] at hx
    cases hx
  · rw [h.requests _ (List.mem_of_getElem? hk)] at howes
    exact howes

/-- In such a run the consoles show what is stored. -/
theorem converges_of_inOrder (hrun : InOrder owner table actions)
    (hquiet : (run owner table actions).Quiescent) : (run owner table actions).Converged := by
  have h := hrun.invariant actions.length
  rw [List.take_length] at h
  intro c y hy
  obtain ⟨x, hx, -⟩ := (h.seen y (.shown c hy)).upper
  obtain rfl : y = x := (h.latest c y hy x hx).resolve_right hquiet.not_due
  exact ⟨y, hx, rfl⟩

/-! ## Runs of an update or two -/

/-- A detected incident. -/
def detectedIncident : Incident where
  id := "1"
  equipmentId := "PRESS-001"
  status := .detected
  severity := "high"
  detectedAt := 0
  payload := ⟨"PRESS-001", "vibration_rms", ⟨12, by decide +kernel⟩, ⟨10, by decide +kernel⟩,
    "VIB", ⟨"rising", by decide⟩⟩
  source := "virtual"
  telemetryId := none

/-- The table with it. -/
def oneDetected : IncidentTable where
  item id := if id = "1" then some ⟨some 1, detectedIncident⟩ else none
  keyed id x h := by
    split at h
    · next hid =>
      obtain rfl := Option.some.inj h
      exact hid.symm
    · cases h

/-- A console connects and loads, and is sent an update. -/
def followed : List ConsoleAction :=
  [.connect 0, .fetch 0, .page 0 ["1"], .reply 0, .request "1" .analyzing, .advance 0 .done,
    .advance 0 .done, .advance 0 .done, .advance 0 .done, .start 0 [0], .advance 0 .done,
    .advance 0 .done, .receive 0]

/-- A console connects and loads; two updates are written one after the other, and broadcast in the
other order. -/
def overtaken : List ConsoleAction :=
  [.connect 0, .fetch 0, .page 0 ["1"], .reply 0, .request "1" .analyzing, .advance 0 .done,
    .advance 0 .done, .advance 0 .done, .request "1" .reviewRequired, .advance 1 .done,
    .advance 1 .done, .advance 1 .done, .advance 1 .done, .start 1 [0], .advance 1 .done,
    .advance 1 .done, .advance 0 .done, .start 0 [0], .advance 0 .done, .advance 0 .done,
    .receive 0, .receive 0]

/-- Only the other consoles are left out, of the broadcast. -/
theorem leavesOut_followed {n : Nat} {a : ConsoleAction} {c : Console} {x : Sighting}
    (hn : followed[n]? = some a)
    (h : LeavesOut id (run id oneDetected (followed.take n)) a c x) : n = 9 ∧ c ≠ 0 := by
  match n, hn with
  | 9, hn =>
    obtain rfl : _ = a := Option.some.inj hn
    cases h with
    | unconnected hk hperm hconnections =>
      refine ⟨rfl, fun hc => hconnections 0 ?_ hc.symm⟩
      exact List.mem_singleton_self 0
  | 5, hn | 6, hn | 7, hn | 8, hn | 10, hn | 11, hn =>
    obtain rfl : _ = a := Option.some.inj hn
    cases h with
    | unbroadcast _ _ hdone => exact absurd rfl hdone
  | 0, hn | 1, hn | 2, hn | 3, hn | 4, hn | 12, hn =>
    obtain rfl : _ = a := Option.some.inj hn
    cases h

theorem merges_followed {n : Nat} {a : ConsoleAction} {c : Console} {x : Sighting}
    (hn : followed[n]? = some a)
    (h : Merges id (run id oneDetected (followed.take n)) a c x) :
    c = 0 ∧ (n = 3 ∨ n = 12 ∧ x.age = 2) := by
  match n, hn with
  | 3, hn =>
    obtain rfl : _ = a := Option.some.inj hn
    cases h with
    | snapshot hk hx =>
      obtain rfl := Option.some.inj (Option.some.inj hk)
      exact ⟨rfl, .inl rfl⟩
  | 12, hn =>
    obtain rfl : _ = a := Option.some.inj hn
    cases h with
    | message hinbox =>
      obtain ⟨rfl, -⟩ := List.cons.inj hinbox.symm
      exact ⟨rfl, .inr ⟨rfl, rfl⟩⟩
  | 0, hn | 1, hn | 2, hn | 4, hn | 5, hn | 6, hn | 7, hn | 8, hn | 9, hn | 10, hn | 11, hn =>
    obtain rfl : _ = a := Option.some.inj hn
    cases h

theorem inOrder_followed : InOrder id oneDetected followed where
  notOlder n a c x hn hx y hy _ := by
    obtain ⟨rfl, rfl | ⟨rfl, hage⟩⟩ := merges_followed hn hx
    · cases hy
    · obtain rfl : y = ⟨some 1, detectedIncident⟩ := List.mem_singleton.mp hy
      rw [hage]
      decide
  notMissed n a c x hn hx y hleft _ := by
    obtain ⟨m, -, b, hm, hleft⟩ := hleft
    exact absurd (merges_followed hn hx).1 (leavesOut_followed hm hleft).2
  notBehind n a c x hn hx y hy _ := by
    obtain ⟨rfl, hc⟩ := leavesOut_followed hn hx
    have hshown : (run id oneDetected (followed.take 9)).shown =
        Function.update (fun _ => ⟨[], List.nodup_nil⟩) 0
          ((run id oneDetected (followed.take 9)).shown 0) := rfl
    rw [hshown, Function.update_of_ne hc] at hy
    cases hy

theorem quiescent_followed : (run id oneDetected followed).Quiescent where
  requests := by decide
  fetches := by decide
  inbox socket := by
    cases socket with
    | zero => rfl
    | succ socket => rfl

theorem converges_of_inOrder_followed : (run id oneDetected followed).Converged :=
  converges_of_inOrder inOrder_followed quiescent_followed

theorem quiescent_overtaken : (run id oneDetected overtaken).Quiescent where
  requests := by decide
  fetches := by decide
  inbox socket := by
    cases socket with
    | zero => rfl
    | succ socket => rfl

/-- A console that gets the broadcasts of two updates in the other order does not converge. -/
theorem not_converges : ¬ ∀ (owner : Socket → Console) (table : IncidentTable)
    (actions : List ConsoleAction), (run owner table actions).Quiescent →
    (run owner table actions).Converged := by
  intro h
  obtain ⟨x, hx, hstatus⟩ := h id oneDetected overtaken quiescent_overtaken 0
    ⟨some 2, { detectedIncident with status := .analyzing }⟩ (List.mem_singleton_self _)
  obtain rfl : x = ⟨some 3, { detectedIncident with status := .reviewRequired }⟩ :=
    (Option.some.inj hx).symm
  cases hstatus

end ConsoleSystem
end AxSentinel
