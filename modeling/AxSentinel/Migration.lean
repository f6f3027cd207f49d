import AxSentinel.Dynamo

/-! # Moving the prototype's records

`scripts/migrate-domain-tables.py` copies the records of the prototype's table into the tables
of the services, on every deployment.  It writes each record without a condition.  So a record
its service has updated since an earlier run is put back as the prototype had it, and its
version with it (`harmless_iff`). -/
namespace AxSentinel
open Effects

/-! ## The tables -/

/-- `ENTITY_TABLES`. -/
def entityTables : List (String × String) :=
  [("equipment", "axsentinel-asset"), ("maintenance", "axsentinel-asset"),
    ("telemetry", "axsentinel-incident"), ("incident", "axsentinel-incident"),
    ("analysis", "axsentinel-analysis"), ("expert_review", "axsentinel-analysis"),
    ("evaluation_case", "axsentinel-analysis"), ("evaluation_run", "axsentinel-analysis"),
    ("document", "axsentinel-knowledge"), ("approval", "axsentinel-work-order"),
    ("work_order", "axsentinel-work-order"), ("feedback", "axsentinel-metrics"),
    ("processed_event", "axsentinel-events")]

/-- The table of the service that owns an entity type. -/
def EntityType.table : EntityType → String
  | equipment | maintenance => "axsentinel-asset"
  | telemetry | incident => "axsentinel-incident"
  | analysis | expertReview | evaluationCase | evaluationRun => "axsentinel-analysis"
  | document => "axsentinel-knowledge"
  | approval | workOrder => "axsentinel-work-order"
  | feedback => "axsentinel-metrics"
  | processedEvent => "axsentinel-events"

/-- The script knows the table of every entity type. -/
theorem entityTables_lookup (t : EntityType) : entityTables.lookup t.name = some t.table := by
  cases t <;> decide

/-- Where an item is: its table, and its key there. -/
structure Address where
  table : String
  pk : String
  sk : String
deriving DecidableEq

/-- Where a service keeps an entity. -/
def Key.address (key : Key) : Address := ⟨key.entityType.table, key.pk, "METADATA"⟩

/-- The attributes of an item besides its key and version. -/
structure ItemAttributes (D : Type) where
  entityType : String
  entityId : String
  updatedAt : Nat
  data : D
deriving DecidableEq

/-- An item of the prototype's table. -/
structure SourceItem (D : Type) where
  pk : String
  sk : String
  version : Option Int
  attributes : ItemAttributes D
deriving DecidableEq

/-- The prototype's table: it has one item for each key. -/
structure SourceTable (D : Type) where
  items : List (SourceItem D)
  nodup : (items.map fun item => (item.pk, item.sk)).Nodup

/-- `item.setdefault("version", 1)`. -/
def SourceItem.setDefault {D : Type} (item : SourceItem D) : SourceItem D :=
  { item with version := some (item.version.getD 1) }

/-! ## Operations -/

/-- What the script does: it reads the prototype's table, and writes items in batches. -/
inductive ScriptOp (D : Type) where
  | scan
  | batchPut (table : String) (item : SourceItem D)

abbrev scriptOps (D : Type) : Signature Exc where
  Op := ScriptOp D
  Reply
    | .scan => List (SourceItem D)
    | .batchPut .. => Unit

/-- The services' operations on their tables, and the script's. -/
abbrev deploymentOps (D : Type) : Signature Exc := (storeOps D).sum (scriptOps D)

/-- An item as its service reads it. -/
def viewItem {D : Type} (key : Key) (item : Item (ItemAttributes D)) : Item (Attributes D) :=
  ⟨item.version, ⟨key.entityType, key.entityId, item.attributes.updatedAt, item.attributes.data⟩⟩

/-- An item as its service writes it. -/
def storeItem {D : Type} (item : Item (Attributes D)) : Item (ItemAttributes D) :=
  ⟨item.version, ⟨item.attributes.entityType.name, item.attributes.entityId,
    item.attributes.updatedAt, item.attributes.data⟩⟩

/-- `ResourceNotFoundException`. -/
def resourceNotFound : Exc := .clientError "ResourceNotFoundException"

/-- All tables.  Nobody writes to the prototype's table, if it exists, so its pages are read as
one; the script's writes have no condition. -/
abbrev deployment {D : Type} (source : Option (SourceTable D)) : Machine (deploymentOps D) where
  World := Table Address (ItemAttributes D)
  Choice := Nat
  exec
    | .inl (.getItem key), _, t => (.ok ((t.lookup key.address).map (viewItem key)), t)
    | .inl (.putItem key item cond), _, t =>
        if cond.Holds ((t.lookup key.address).map (viewItem key)) then
          (.ok (), t.insert key.address (storeItem item))
        else (.error (.clientError conditionalCheckFailed), t)
    | .inl (.query entityType), _, t =>
        (.ok ((t.entries.filter fun e => e.1.table = entityType.table ∧
          e.2.attributes.entityType = entityType.name).map fun e =>
            ⟨entityType, e.2.attributes.entityId, e.2.attributes.updatedAt,
              e.2.attributes.data⟩), t)
    | .inl .now, clock, t => (.ok clock, t)
    | .inr .scan, _, t =>
        match source with
        | some source => (.ok source.items, t)
        | none => (.error resourceNotFound, t)
    | .inr (.batchPut table item), _, t =>
        (.ok (), t.insert ⟨table, item.pk, item.sk⟩ ⟨item.version, item.attributes⟩)

/-! ## The script -/

section Script
variable {D : Type}

/-- The script and the services it runs beside. -/
abbrev Script (D : Type) := Program (deploymentOps D)

/-- `grouped[target_name].append(item)`. -/
def appendTo {α : Type} (target : String) (item : α) :
    List (String × List α) → List (String × List α)
  | [] => [(target, [item])]
  | (name, items) :: grouped =>
      if name = target then (name, items ++ [item]) :: grouped
      else (name, items) :: appendTo target item grouped

/-- The items by the table they belong to; those of an unknown type are skipped. -/
def groupItems (items : List (SourceItem D)) : List (String × List (SourceItem D)) :=
  items.foldl (fun grouped item =>
    match entityTables.lookup item.attributes.entityType with
    | none => grouped
    | some target => appendTo target item.setDefault grouped) []

/-- The writes into one table. -/
def copyItems (target : String) : List (SourceItem D) → Script D Unit
  | [] => pure ()
  | item :: items => do
      .perform (deploymentOps D) (.inr (.batchPut target item))
      copyItems target items

/-- The writes into all tables. -/
def copyGroups : List (String × List (SourceItem D)) → Script D Unit
  | [] => pure ()
  | (target, items) :: grouped => do
      copyItems target items
      copyGroups grouped

/-- `main`; what it prints is left out. -/
def migrate : Script D Unit := do
  let items ←
    try
      some <$> Program.perform (deploymentOps D) (.inr .scan)
    catch error =>
      if error = resourceNotFound then pure none else throw error
  match items with
  | none => pure ()
  | some items => copyGroups (groupItems items)

/-- A run of the script, or a write of a service. -/
inductive Job (D : Type) where
  | migrate
  | put (entityType : EntityType) (entityId : String) (value : D)

def Job.code : Job D → Script D Unit
  | migrate => AxSentinel.migrate
  | put entityType entityId value => (DynamoRepository.put entityType entityId value).left

/-! ## What a job may do -/

/-- The moves a job has behind it. -/
abbrev ScriptMoves (D : Type) := List (Move (deploymentOps D))

/-- The item is one the script found, with a version, and the table is the one of its type. -/
def Copies (items : List (SourceItem D)) (table : String) (item : SourceItem D) : Prop :=
  ∃ x ∈ items, entityTables.lookup x.attributes.entityType = some table ∧ item = x.setDefault

/-- What a job may do next, in view of its past: the script writes what it found, and a service
writes the next version of the item it has just read, if that is unchanged. -/
def Deploys (past : ScriptMoves D) : (deploymentOps D).Op → Prop
  | .inl (.putItem key item cond) => ∃ earlier current,
      past = earlier ++ [⟨.inl (.getItem key), .ok current⟩] ∧ cond = .unchanged current ∧
        item.version = some (versionOf current + 1)
  | .inr (.batchPut table item) => ∃ items,
      (⟨.inr .scan, .ok items⟩ : Move (deploymentOps D)) ∈ past ∧ Copies items table item
  | _ => True

theorem mem_appendTo {α : Type} {target table : String} {item : α}
    {grouped : List (String × List α)} {group : List α}
    (h : (table, group) ∈ appendTo target item grouped) :
    ∀ y ∈ group, table = target ∧ y = item ∨ ∃ group', (table, group') ∈ grouped ∧ y ∈ group' := by
  induction grouped with
  | nil =>
    obtain ⟨rfl, rfl⟩ := Prod.mk.inj (List.mem_singleton.mp h)
    exact fun y hy => .inl ⟨rfl, List.mem_singleton.mp hy⟩
  | cons entry grouped ih =>
    obtain ⟨name, items⟩ := entry
    unfold appendTo at h
    by_cases hname : name = target
    · rw [if_pos hname] at h
      rcases List.mem_cons.mp h with heq | hmem
      · obtain ⟨rfl, rfl⟩ := Prod.mk.inj heq
        intro y hy
        rcases List.mem_append.mp hy with hold | hnew
        · exact .inr ⟨items, List.mem_cons_self .., hold⟩
        · exact .inl ⟨hname, List.mem_singleton.mp hnew⟩
      · exact fun y hy => .inr ⟨group, List.mem_cons_of_mem _ hmem, hy⟩
    · rw [if_neg hname] at h
      rcases List.mem_cons.mp h with heq | hmem
      · exact fun y hy => .inr ⟨group, heq ▸ List.mem_cons_self .., hy⟩
      · intro y hy
        rcases ih hmem y hy with hnew | ⟨group', hgroup', hy'⟩
        · exact .inl hnew
        · exact .inr ⟨group', List.mem_cons_of_mem _ hgroup', hy'⟩

/-- The groups hold copies only. -/
theorem copies_groupItems (items : List (SourceItem D)) :
    ∀ table group, (table, group) ∈ groupItems items → ∀ y ∈ group, Copies items table y := by
  induction items using List.reverseRecOn with
  | nil => nofun
  | append_singleton items item ih =>
    intro table group hgroup y hy
    have earlier : ∀ {group y}, (table, group) ∈ groupItems items → y ∈ group →
        Copies (items ++ [item]) table y := by
      intro group y hgroup hy
      obtain ⟨x, hx, htable, rfl⟩ := ih table group hgroup y hy
      exact ⟨x, List.mem_append_left _ hx, htable, rfl⟩
    rw [groupItems, List.foldl_append, ← groupItems, List.foldl_cons, List.foldl_nil] at hgroup
    split at hgroup
    · exact earlier hgroup hy
    · rename_i target htarget
      rcases mem_appendTo hgroup y hy with ⟨rfl, rfl⟩ | ⟨group', hgroup', hy'⟩
      · exact ⟨item, List.mem_append_right _ (List.mem_singleton.mpr rfl), htarget, rfl⟩
      · exact earlier hgroup' hy'

/-- A job that keeps to it. -/
abbrev Deploying (past : ScriptMoves D) (p : Script D Unit) : Prop :=
  p.Obeys Deploys (fun _ _ => True) past

theorem deploys_copyItems {items : List (SourceItem D)} {table : String}
    {group : List (SourceItem D)} (hgroup : ∀ y ∈ group, Copies items table y)
    {past : ScriptMoves D} (hpast : ⟨.inr .scan, .ok items⟩ ∈ past)
    {p : Script D Unit} (hp : ∀ more, Deploying (past ++ more) p) :
    Deploying past (copyItems table group >>= fun _ => p) := by
  induction group generalizing past with
  | nil => exact List.append_nil past ▸ hp []
  | cons item group ih =>
    obtain ⟨hitem, hgroup⟩ := List.forall_mem_cons.mp hgroup
    refine ⟨⟨items, hpast, hitem⟩, fun r => ?_⟩
    cases r with
    | error e => trivial
    | ok r =>
      refine ih hgroup (List.mem_append_left _ hpast) fun more => ?_
      rw [List.append_assoc]
      exact hp _

theorem deploys_copyGroups {items : List (SourceItem D)}
    {grouped : List (String × List (SourceItem D))}
    (hgrouped : ∀ table group, (table, group) ∈ grouped → ∀ y ∈ group, Copies items table y)
    {past : ScriptMoves D} (hpast : ⟨.inr .scan, .ok items⟩ ∈ past) :
    Deploying past (copyGroups grouped) := by
  induction grouped generalizing past with
  | nil => trivial
  | cons entry grouped ih =>
    obtain ⟨table, group⟩ := entry
    refine deploys_copyItems (hgrouped table group (List.mem_cons_self ..)) hpast fun more => ?_
    exact ih (fun table group h => hgrouped table group (List.mem_cons_of_mem _ h))
      (List.mem_append_left _ hpast)

/-- **Every job keeps to its protocol.** -/
theorem Job.deploys (job : Job D) : job.code.Obeys Deploys (fun _ _ => True) [] := by
  cases job with
  | migrate =>
    refine ⟨trivial, fun r => ?_⟩
    cases r with
    | error e =>
      show Program.Obeys _ _ _ ((if e = resourceNotFound then _ else _) >>= _)
      split
      · trivial
      · trivial
    | ok items =>
      exact deploys_copyGroups (copies_groupItems items) (List.mem_singleton.mpr rfl)
  | put entityType entityId value =>
    show Program.Obeys _ _ _ (DynamoRepository.put entityType entityId value).left
    rw [DynamoRepository.put_left]
    refine ⟨trivial, fun r => ?_⟩
    cases r with
    | error e => trivial
    | ok clock =>
      refine ⟨trivial, fun r => ?_⟩
      cases r with
      | error e => trivial
      | ok current =>
        refine ⟨⟨_, current, rfl, rfl, rfl⟩, fun r => ?_⟩
        cases r with
        | error e => trivial
        | ok _ => trivial

end Script

/-! ## Runs -/

section Runs
variable {D : Type} {source : Option (SourceTable D)} {w₀ : Table Address (ItemAttributes D)}
  {s : System (deployment source) (Job D) Unit} {h : List (Event (deployment source))}
  {w : Table Address (ItemAttributes D)}

/-- The systems some run of the script and the services leads to, from any tables. -/
abbrev Deployed (w₀ : Table Address (ItemAttributes D))
    (s : System (deployment source) (Job D) Unit) : Prop :=
  System.Reachable Job.code w₀ s

/-- The histories of jobs that keep to their protocol. -/
abbrev DeployedHistory (w₀ : Table Address (ItemAttributes D))
    (h : List (Event (deployment source))) (w : Table Address (ItemAttributes D)) : Prop :=
  (deployment source).History (fun _ past op => Deploys past op) w₀ h w

theorem Deployed.history (hs : Deployed w₀ s) : DeployedHistory w₀ s.history s.world :=
  (System.Reachable.conforms hs Job.deploys).history.mono fun _ _ _ ⟨_, _, hop⟩ => hop

/-- The event is a write of the script at an address. -/
def Migrates (e : Event (deployment source)) (address : Address) : Prop :=
  ∃ table item, e.move.op = .inr (.batchPut table item) ∧ address = ⟨table, item.pk, item.sk⟩

/-- The event is a write of a service at an address that takes effect. -/
def Updates (e : Event (deployment source)) (address : Address) : Prop :=
  ∃ key item cond, e.move = ⟨.inl (.putItem key item cond), .ok ()⟩ ∧ address = key.address

/-- The version of the item at an address. -/
def versionAtAddress (address : Address) (w : Table Address (ItemAttributes D)) : Option Int :=
  (w.lookup address).bind Item.version

/-- The item the script writes at an address. -/
def copyAt (source : Option (SourceTable D)) (address : Address) :
    Option (Item (ItemAttributes D)) :=
  (source.bind fun source => source.items.find? fun x => x.pk = address.pk ∧ x.sk = address.sk).map
    fun x => ⟨x.setDefault.version, x.attributes⟩

/-- A table has one item for each key. -/
theorem copyAt_eq {source : SourceTable D} {x : SourceItem D} (hx : x ∈ source.items)
    {address : Address} (hpk : x.pk = address.pk) (hsk : x.sk = address.sk) :
    copyAt (some source) address = some ⟨x.setDefault.version, x.attributes⟩ := by
  have hfound : source.items.find? (fun x => x.pk = address.pk ∧ x.sk = address.sk) = some x := by
    cases hfind : source.items.find? (fun x => x.pk = address.pk ∧ x.sk = address.sk) with
    | none => exact absurd (List.find?_eq_none.mp hfind x hx) (by simp [hpk, hsk])
    | some y =>
      have hy := List.find?_some hfind
      simp only [decide_eq_true_eq] at hy
      have heq := List.inj_on_of_nodup_map source.nodup (List.mem_of_find?_eq_some hfind) hx
        (by rw [hy.1, hy.2, hpk, hsk])
      rw [heq]
  rw [copyAt, Option.bind_some, hfound]
  rfl

/-- What a scan found is what the table holds. -/
theorem items_of_scan (H : DeployedHistory w₀ h w) {e : Event (deployment source)} (he : e ∈ h)
    {items : List (SourceItem D)} (hmove : e.move = ⟨.inr .scan, .ok items⟩) :
    ∃ source', source = some source' ∧ items = source'.items := by
  obtain ⟨n, -, -, -, c, hevent⟩ := H.of_mem he
  rw [congrArg Move.op hmove] at hevent
  have hreply := eq_of_heq (Move.mk.inj (hmove.symm.trans (congrArg Event.move hevent))).2
  cases source with
  | none => cases hreply
  | some source => exact ⟨source, rfl, Except.ok.inj hreply⟩

/-- What a step does to the item at an address: the script writes its copy, a service writes the
next version, or it stays. -/
theorem deployed_step (H : DeployedHistory w₀ h w) {n : Nat} {e : Event (deployment source)}
    (hn : h[n]? = some e) (address : Address) :
    (Migrates e address ∧ ∃ x, copyAt source address = some x ∧
        e.after.lookup address = some x) ∨
      (Updates e address ∧ ∀ v, versionAtAddress address e.before = some v →
        versionAtAddress address e.after = some (v + 1)) ∨
      (¬ Migrates e address ∧ ¬ Updates e address ∧
        e.after.lookup address = e.before.lookup address) := by
  obtain ⟨-, hok, c, hevent⟩ := H.at_position hn
  have hafter : e.after = ((deployment source).exec e.move.op c e.before).2 :=
    congrArg Event.after hevent
  have hmove : e.move = ⟨e.move.op, ((deployment source).exec e.move.op c e.before).1⟩ :=
    congrArg Event.move hevent
  -- an operation that writes nothing
  have unchanged : e.after = e.before → (∀ table item, e.move.op ≠ .inr (.batchPut table item)) →
      (∀ key item cond, e.move ≠ ⟨.inl (.putItem key item cond), .ok ()⟩) →
      ¬ Migrates e address ∧ ¬ Updates e address ∧
        e.after.lookup address = e.before.lookup address := by
    intro hsame hbatch hput
    refine ⟨?_, ?_, by rw [hsame]⟩
    · rintro ⟨table, item, hop, -⟩
      exact hbatch table item hop
    · rintro ⟨key, item, cond, hmove, -⟩
      exact hput key item cond hmove
  generalize hop : e.move.op = op at hok hafter hmove unchanged
  rcases op with (key | ⟨key, item, cond⟩ | t | _) | (_ | ⟨table, item⟩)
  · exact .inr (.inr (unchanged hafter (by rintro _ _ ⟨⟩) (by rw [hmove]; rintro _ _ _ ⟨⟩)))
  · obtain ⟨earlier, current, -, rfl, hversion⟩ := hok
    by_cases hholds : (Condition.unchanged current).Holds
        ((e.before.lookup key.address).map (viewItem key))
    · simp only [if_pos hholds] at hafter hmove
      by_cases haddress : address = key.address
      · subst haddress
        refine .inr (.inl ⟨⟨key, item, _, hmove, rfl⟩, fun v hv => ?_⟩)
        have hcurrent : versionOf current = v := by
          obtain ⟨x, hx, hxv⟩ := Option.bind_eq_some_iff.mp hv
          rw [← hholds.versionOf_eq, hx]
          simp [versionOf, viewItem, hxv]
        rw [versionAtAddress, hafter, AList.lookup_insert, ← hcurrent, ← hversion]
        rfl
      · refine .inr (.inr ⟨?_, ?_, ?_⟩)
        · rintro ⟨table, item', hop', -⟩
          rw [hop] at hop'
          cases hop'
        · rintro ⟨key', item', cond', hmove', rfl⟩
          have hop' := congrArg Move.op hmove'
          rw [hop] at hop'
          cases hop'
          exact haddress rfl
        · rw [hafter]
          exact AList.lookup_insert_ne haddress
    · simp only [if_neg hholds] at hafter hmove
      exact .inr (.inr (unchanged hafter (by rintro _ _ ⟨⟩) (by rw [hmove]; rintro _ _ _ ⟨⟩)))
  · exact .inr (.inr (unchanged hafter (by rintro _ _ ⟨⟩) (by rw [hmove]; rintro _ _ _ ⟨⟩)))
  · exact .inr (.inr (unchanged hafter (by rintro _ _ ⟨⟩) (by rw [hmove]; rintro _ _ _ ⟨⟩)))
  · refine .inr (.inr (unchanged ?_ (by rintro _ _ ⟨⟩) (by rw [hmove]; rintro _ _ _ ⟨⟩)))
    rw [hafter]
    cases source with
    | none => rfl
    | some source => rfl
  · obtain ⟨items, hscan, x, hx, htable, rfl⟩ := hok
    obtain ⟨d, hd, -, hdmove⟩ := mem_past.mp hscan
    obtain ⟨source', rfl, rfl⟩ := items_of_scan H (List.mem_of_mem_take hd) hdmove
    by_cases haddress : address = ⟨table, x.pk, x.sk⟩
    · subst haddress
      refine .inl ⟨⟨table, x.setDefault, hop, rfl⟩, _, copyAt_eq hx rfl rfl, ?_⟩
      rw [hafter]
      exact AList.lookup_insert _
    · refine .inr (.inr ⟨?_, ?_, ?_⟩)
      · rintro ⟨table', item', hop', rfl⟩
        rw [hop] at hop'
        cases hop'
        exact haddress rfl
      · rintro ⟨key, item, cond, hput, -⟩
        rw [hput] at hop
        cases hop
      · rw [hafter]
        exact AList.lookup_insert_ne haddress

/-- The record at the address was migrated, and then updated by its service, before position
`n`. -/
def MigratedThenUpdated (h : List (Event (deployment source))) (address : Address) (n : Nat) :
    Prop :=
  ∃ (l m : Nat) (d u : Event (deployment source)), l < m ∧ m < n ∧ h[l]? = some d ∧
    h[m]? = some u ∧ Migrates d address ∧ Updates u address

/-- No write of the script changes the data, or lowers the version, of a record that was
migrated before and then updated by its service. -/
def Harmless (h : List (Event (deployment source))) : Prop :=
  ∀ n e address, h[n]? = some e → Migrates e address → MigratedThenUpdated h address n →
    ∀ x, e.before.lookup address = some x → ∃ y, e.after.lookup address = some y ∧
      y.attributes.data = x.attributes.data ∧
      ∀ v, x.version = some v → ∃ v', y.version = some v' ∧ v ≤ v'

/-- The script writes no record that was migrated before and then updated by its service. -/
def SparesUpdates (h : List (Event (deployment source))) : Prop :=
  ∀ n e address, h[n]? = some e → Migrates e address → ¬ MigratedThenUpdated h address n

theorem Migrates.not_updates {e : Event (deployment source)} {address address' : Address}
    (hm : Migrates e address) : ¬ Updates e address' := by
  obtain ⟨table, item, hop, -⟩ := hm
  rintro ⟨key, item', cond, hmove, -⟩
  rw [congrArg Move.op hmove] at hop
  cases hop

/-- A record that was migrated has the version of its copy, or a later one. -/
theorem version_of_migrated (H : DeployedHistory w₀ h w) {address : Address} {l : Nat}
    {d : Event (deployment source)} (hl : h[l]? = some d) (hd : Migrates d address)
    {x : Item (ItemAttributes D)} (hx : copyAt source address = some x) {v₀ : Int}
    (hv₀ : x.version = some v₀) : ∃ v, versionAtAddress address w = some v ∧ v₀ ≤ v := by
  induction H with
  | nil => simp at hl
  | @snoc h w i op c H hok ih =>
    have H' := Machine.History.snoc i op c H hok
    have hlast : (h ++ [(deployment source).event i op c w])[h.length]? =
        some ((deployment source).event i op c w) := by simp
    have earlier : ¬ Migrates ((deployment source).event i op c w) address → h[l]? = some d := by
      intro hnot
      rcases getElem?_snoc.mp hl with hl | ⟨-, rfl⟩
      · exact hl
      · exact absurd hd hnot
    rcases deployed_step H' hlast address with ⟨-, y, hy, hlookup⟩ | ⟨hup, hnext⟩ | ⟨hnot, -, hsame⟩
    · obtain rfl := Option.some.inj (hx.symm.trans hy)
      have hafter : versionAtAddress address ((deployment source).exec op c w).2 = some v₀ := by
        have hlookup' : ((deployment source).exec op c w).2.lookup address = _ := hlookup
        rw [versionAtAddress, hlookup']
        exact hv₀
      exact ⟨v₀, hafter, Int.le_refl _⟩
    · obtain ⟨v, hv, hle⟩ := ih (earlier fun hm => hm.not_updates hup)
      exact ⟨v + 1, hnext v hv, by omega⟩
    · obtain ⟨v, hv, hle⟩ := ih (earlier hnot)
      have hafter : versionAtAddress address ((deployment source).exec op c w).2 =
          versionAtAddress address w := congrArg (Option.bind · _) hsame
      exact ⟨v, hafter.trans hv, hle⟩

theorem copyAt_version {address : Address} {x : Item (ItemAttributes D)}
    (hx : copyAt source address = some x) : ∃ v, x.version = some v := by
  obtain ⟨y, -, rfl⟩ := Option.map_eq_some_iff.mp hx
  exact ⟨_, rfl⟩

theorem MigratedThenUpdated.append {address : Address} {n : Nat}
    (h' : MigratedThenUpdated h address n) (t : List (Event (deployment source))) :
    MigratedThenUpdated (h ++ t) address n := by
  obtain ⟨l, m, d, u, hlm, hmn, hl, hm, hd, hu⟩ := h'
  exact ⟨l, m, d, u, hlm, hmn, getElem?_append_of_some hl t, getElem?_append_of_some hm t, hd, hu⟩

theorem MigratedThenUpdated.take {address : Address} {n : Nat}
    (h' : MigratedThenUpdated h address n) : MigratedThenUpdated (h.take n) address n := by
  obtain ⟨l, m, d, u, hlm, hmn, hl, hm, hd, hu⟩ := h'
  refine ⟨l, m, d, u, hlm, hmn, ?_, ?_, hd, hu⟩
  · rw [List.getElem?_take, if_pos (Nat.lt_trans hlm hmn), hl]
  · rw [List.getElem?_take, if_pos hmn, hm]

theorem Harmless.of_append {t : List (Event (deployment source))} (hh : Harmless (h ++ t)) :
    Harmless h := by
  intro n d address hn hd hbefore
  exact hh n d address (getElem?_append_of_some hn t) hd (hbefore.append t)

/-- As long as the script does no harm, a record that was migrated and then updated has a later
version than its copy. -/
theorem Harmless.version_gt (H : DeployedHistory w₀ h w) (hh : Harmless h) {address : Address}
    (hupdated : MigratedThenUpdated h address h.length) {x : Item (ItemAttributes D)}
    (hx : copyAt source address = some x) {v₀ : Int} (hv₀ : x.version = some v₀) :
    ∃ v, versionAtAddress address w = some v ∧ v₀ < v := by
  induction H with
  | nil =>
    obtain ⟨l, m, d, u, -, -, hl, -⟩ := hupdated
    simp at hl
  | @snoc h w i op c H hok ih =>
    have H' := Machine.History.snoc i op c H hok
    have hlast : (h ++ [(deployment source).event i op c w])[h.length]? =
        some ((deployment source).event i op c w) := by simp
    -- the record was updated before the last event, or the last event updates it
    have recent : MigratedThenUpdated h address h.length ∨
        Updates ((deployment source).event i op c w) address ∧
          ∃ (l : Nat) (d : Event (deployment source)), h[l]? = some d ∧ Migrates d address := by
      obtain ⟨l, m, d, u, hlm, hmn, hl, hm, hd, hu⟩ := hupdated
      rw [List.length_append, List.length_singleton] at hmn
      have hlt : l < h.length := by omega
      rw [List.getElem?_append_left hlt] at hl
      rcases getElem?_snoc.mp hm with hm | ⟨-, rfl⟩
      · exact .inl ⟨l, m, d, u, hlm, (List.getElem?_eq_some_iff.mp hm).1, hl, hm, hd, hu⟩
      · exact .inr ⟨hu, l, d, hl, hd⟩
    rcases deployed_step H' hlast address with
      ⟨hmigrates, y, hy, hlookup⟩ | ⟨hup, hnext⟩ | ⟨-, hnot, hsame⟩
    · -- the script would write the copy over it, with a lower version
      rcases recent with hbefore | ⟨hup, -⟩
      · obtain rfl := Option.some.inj (hx.symm.trans hy)
        obtain ⟨v, hv, hlt⟩ := ih hh.of_append hbefore
        obtain ⟨z, hz, hzv⟩ := Option.bind_eq_some_iff.mp hv
        obtain ⟨y', hy', -, hversion⟩ := hh _ _ address hlast hmigrates (hbefore.append _) z hz
        obtain rfl := Option.some.inj (hlookup.symm.trans hy')
        obtain ⟨v', hv', hle⟩ := hversion v hzv
        obtain rfl := Option.some.inj (hv₀.symm.trans hv')
        omega
      · exact absurd hup hmigrates.not_updates
    · rcases recent with hbefore | ⟨-, l, d, hl, hd⟩
      · obtain ⟨v, hv, hlt⟩ := ih hh.of_append hbefore
        exact ⟨v + 1, hnext v hv, by omega⟩
      · obtain ⟨v, hv, hle⟩ := version_of_migrated H hl hd hx hv₀
        exact ⟨v + 1, hnext v hv, by omega⟩
    · rcases recent with hbefore | ⟨hup, -⟩
      · obtain ⟨v, hv, hlt⟩ := ih hh.of_append hbefore
        have hafter : versionAtAddress address ((deployment source).exec op c w).2 =
            versionAtAddress address w := congrArg (Option.bind · _) hsame
        exact ⟨v, hafter.trans hv, hlt⟩
      · exact absurd hup hnot

/-- **Migrating again.**  The script does no harm exactly if it never writes a record that its
service has updated since the script first wrote it. -/
theorem harmless_iff (hs : Deployed w₀ s) : Harmless s.history ↔ SparesUpdates s.history := by
  constructor
  · intro hh n e address hn he hbefore
    have hlength : (s.history.take n).length = n := by
      rw [List.length_take, Nat.min_eq_left (Nat.le_of_lt (List.getElem?_eq_some_iff.mp hn).1)]
    have hprefix : Harmless (s.history.take n) := by
      refine Harmless.of_append (t := s.history.drop n) ?_
      rw [List.take_append_drop]
      exact hh
    rcases deployed_step hs.history hn address with ⟨-, x, hx, hlookup⟩ | ⟨hup, -⟩ | ⟨hnot, -⟩
    · obtain ⟨v₀, hv₀⟩ := copyAt_version hx
      obtain ⟨v, hv, hlt⟩ := hprefix.version_gt (hs.history.at_position hn).1
        (hlength.symm ▸ hbefore.take) hx hv₀
      obtain ⟨z, hz, hzv⟩ := Option.bind_eq_some_iff.mp hv
      obtain ⟨y, hy, -, hversion⟩ := hh n e address hn he hbefore z hz
      obtain rfl := Option.some.inj (hlookup.symm.trans hy)
      obtain ⟨v', hv', hle⟩ := hversion v hzv
      obtain rfl := Option.some.inj (hv₀.symm.trans hv')
      omega
    · exact he.not_updates hup
    · exact hnot he
  · exact fun hspares n e address hn he hbefore => absurd hbefore (hspares n e address hn he)

end Runs

/-! ## Computed runs -/

namespace Sample

/-- The prototype's record of an incident, without a version. -/
def prototype : SourceTable String where
  items := [⟨"INCIDENT#1", "METADATA", none, "incident", "1", 0, "detected"⟩]
  nodup := by decide

/-- Jobs on empty tables, one after the other. -/
def jobs (jobs : List (Job String)) : System (deployment (some prototype)) (Job String) Unit :=
  System.run Job.code
    (jobs.zipIdx.flatMap fun (job, i) => .arrive job :: List.replicate 3 (.advance i 0))
    (System.start ∅)

theorem deployed_jobs (list : List (Job String)) : Deployed ∅ (jobs list) := ⟨_, rfl⟩

end Sample

/-- The address an event migrates. -/
def migratedAddress {D : Type} {source : Option (SourceTable D)} (e : Event (deployment source)) :
    Option Address :=
  match e.move.op with
  | .inr (.batchPut table item) => some ⟨table, item.pk, item.sk⟩
  | _ => none

/-- The address an event updates. -/
def updatedAddress {D : Type} {source : Option (SourceTable D)} (e : Event (deployment source)) :
    Option Address :=
  match e.move with
  | ⟨.inl (.putItem key _ _), .ok _⟩ => some key.address
  | _ => none

theorem migratedAddress_eq_some {D : Type} {source : Option (SourceTable D)}
    {e : Event (deployment source)} {address : Address} :
    migratedAddress e = some address ↔ Migrates e address := by
  unfold migratedAddress
  constructor
  · intro h
    split at h
    · rename_i table item hop
      exact ⟨table, item, hop, (Option.some.inj h).symm⟩
    · cases h
  · rintro ⟨table, item, hop, rfl⟩
    rw [hop]

theorem updatedAddress_eq_some {D : Type} {source : Option (SourceTable D)}
    {e : Event (deployment source)} {address : Address} :
    updatedAddress e = some address ↔ Updates e address := by
  unfold updatedAddress
  constructor
  · intro h
    split at h
    · rename_i key item cond reply hmove
      exact ⟨key, item, cond, hmove, (Option.some.inj h).symm⟩
    · cases h
  · rintro ⟨key, item, cond, hmove, rfl⟩
    rw [hmove]

/-- The record is migrated twice, and then updated by its service. -/
def migratedBefore : System (deployment (some Sample.prototype)) (Job String) Unit :=
  Sample.jobs [.migrate, .migrate, .put .incident "1" "analyzing"]

theorem harmless_migratedBefore : Harmless migratedBefore.history := by
  have hdeployed : Deployed ∅ migratedBefore := Sample.deployed_jobs _
  refine (harmless_iff hdeployed).mpr ?_
  have hlength : migratedBefore.history.length = 7 := by decide +kernel
  have hmigrated : ∀ n < 7, ((migratedBefore.history[n]?).bind migratedAddress).isSome = true →
      n < 4 := by decide +kernel
  have hupdated : ∀ m < 7, ((migratedBefore.history[m]?).bind updatedAddress).isSome = true →
      m = 6 := by decide +kernel
  rintro n e address hn he ⟨l, m, d, u, -, hmn, -, hm, -, hu⟩
  have hn4 : n < 4 := by
    refine hmigrated n (hlength ▸ (List.getElem?_eq_some_iff.mp hn).1) ?_
    rw [hn, Option.bind_some, migratedAddress_eq_some.mpr he]
    rfl
  have hm6 : m = 6 := by
    refine hupdated m (hlength ▸ (List.getElem?_eq_some_iff.mp hm).1) ?_
    rw [hm, Option.bind_some, updatedAddress_eq_some.mpr hu]
    rfl
  omega

/-- The record is migrated, its service updates it, and the script runs again. -/
def migratedAgain : System (deployment (some Sample.prototype)) (Job String) Unit :=
  Sample.jobs [.migrate, .put .incident "1" "analyzing", .migrate]

/-- The update is undone. -/
theorem not_harmless : ¬ ∀ (source : Option (SourceTable String)) w₀
    (s : System (deployment source) (Job String) Unit), Deployed w₀ s → Harmless s.history := by
  intro hall
  have hharmless := hall _ _ migratedAgain (Sample.deployed_jobs _)
  let address : Address := ⟨"axsentinel-incident", "INCIDENT#1", "METADATA"⟩
  have hevents : (migratedAgain.history[1]?).bind migratedAddress = some address ∧
      (migratedAgain.history[4]?).bind updatedAddress = some address ∧
      (migratedAgain.history[6]?).bind migratedAddress = some address := by decide +kernel
  have hitems : (migratedAgain.history[6]?).map (fun e => (e.before.lookup address).map
        fun x => x.attributes.data) = some (some "analyzing") ∧
      (migratedAgain.history[6]?).map (fun e => (e.after.lookup address).map
        fun x => x.attributes.data) = some (some "detected") := by decide +kernel
  obtain ⟨d, hd, hdmigrates⟩ := Option.bind_eq_some_iff.mp hevents.1
  obtain ⟨u, hu, hupdates⟩ := Option.bind_eq_some_iff.mp hevents.2.1
  obtain ⟨e, he, hmigrates⟩ := Option.bind_eq_some_iff.mp hevents.2.2
  rw [he, Option.map_some, Option.map_some] at hitems
  obtain ⟨x, hx, hxdata⟩ := Option.map_eq_some_iff.mp (Option.some.inj hitems.1)
  obtain ⟨y, hy, hydata⟩ := Option.map_eq_some_iff.mp (Option.some.inj hitems.2)
  obtain ⟨y', hy', hsame, -⟩ := hharmless 6 e address he (migratedAddress_eq_some.mp hmigrates)
    ⟨1, 4, d, u, by decide, by decide, hd, hu, migratedAddress_eq_some.mp hdmigrates,
      updatedAddress_eq_some.mp hupdates⟩ x hx
  obtain rfl := Option.some.inj (hy.symm.trans hy')
  rw [hxdata, hydata] at hsame
  exact absurd hsame (by decide)

end AxSentinel
