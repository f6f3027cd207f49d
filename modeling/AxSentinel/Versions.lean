import AxSentinel.Dynamo

/-! # The versions of an entity

Any number of calls of `put` on one table, in any interleaving of their reads and conditional
writes.  A call is in one of five states, and from each of them it makes one step
(`PutState.step`).  So the calls that succeed on a key write its versions one after another,
and their number is what the version has grown by (`puts_linearised`).

The table stands beside any other machine, whose operations `put` does not use. -/
namespace AxSentinel
open Effects

/-- A call of `put`. -/
structure PutCall (D : Type) where
  entityType : EntityType
  entityId : String
  value : D

def PutCall.key {D : Type} (call : PutCall D) : Key := ⟨call.entityType, call.entityId⟩

section Puts
variable {D : Type} {G : Signature Exc}

/-- The program of a call. -/
def PutCall.code (G : Signature Exc) (call : PutCall D) : Program ((storeOps D).sum G) Unit :=
  (DynamoRepository.put call.entityType call.entityId call.value).left

/-- What is left of a call once it has read the item. -/
def PutCall.guarded (G : Signature Exc) (call : PutCall D) (clock : Nat)
    (current : Option (Item (Attributes D))) : Program ((storeOps D).sum G) Unit :=
  .call (.inl (.putItem call.key
      (DynamoRepository.item call.entityType call.entityId call.value clock current)
      (.unchanged current))) fun
    | .error e => .raise (DynamoRepository.putError call.entityType call.entityId e)
    | .ok _ => .ret ()

/-- What is left of a call once it has read the clock. -/
def PutCall.clocked (G : Signature Exc) (call : PutCall D) (clock : Nat) :
    Program ((storeOps D).sum G) Unit :=
  .call (.inl (.getItem call.key)) fun
    | .error e => .raise e
    | .ok current => call.guarded G clock current

theorem PutCall.code_eq (call : PutCall D) : call.code G = .call (.inl .now) fun
    | .error e => .raise e
    | .ok clock => call.clocked G clock := by
  refine (DynamoRepository.put_left call.entityType call.entityId call.value).trans ?_
  refine Program.call_congr (F := (storeOps D).sum G) (fun _ => ?_) fun _ => rfl
  refine Program.call_congr (F := (storeOps D).sum G) (fun _ => ?_) fun _ => rfl
  exact Program.call_congr (F := (storeOps D).sum G) (fun _ => rfl) fun _ => rfl

/-- The states of a call. -/
inductive PutState (call : PutCall D) : Program ((storeOps D).sum G) Unit → Prop
  | called : PutState call (call.code G)
  | clocked (clock) : PutState call (call.clocked G clock)
  | read (clock current) : PutState call (call.guarded G clock current)
  | stored : PutState call (.ret ())
  | refused (e) : PutState call (.raise e)

/-- The program has returned. -/
def returned : Program ((storeOps D).sum G) Unit → Bool
  | .ret _ => true
  | _ => false

/-- The version a move writes to a key, if it is a write of the key that succeeds. -/
def acceptedVersion (key : Key) : Move ((storeOps D).sum G) → Option Int
  | ⟨.inl (.putItem key' item _), .ok _⟩ => if key' = key then item.version else none
  | _ => none

/-- The move is a write that succeeds. -/
def isWrite : Move ((storeOps D).sum G) → Bool
  | ⟨.inl (.putItem ..), .ok _⟩ => true
  | _ => false

variable (N : Machine G)

/-- The table, beside another machine. -/
abbrev tableBeside (D : Type) (N : Machine G) : Machine ((storeOps D).sum G) :=
  (storeMachine D).sum N

/-- The version of the item stored under a key, 0 where there is none. -/
def versionAt (key : Key) (w : (tableBeside D N).World) : Int := versionOf (w.1.lookup key)

/-- What a step of a call does: nothing is written, and the call has not returned, or the item
gets its next version, and the call returns. -/
inductive PutStep (call : PutCall D) (i : Nat) (w : (tableBeside D N).World) :
    Event (tableBeside D N) → Program ((storeOps D).sum G) Unit → Prop
  | quiet {move p} : isWrite move = false → returned p = false → PutState call p →
      PutStep call i w ⟨i, move, w, w⟩ p
  | write {item : Item (Attributes D)} {cond} :
      item.version = some (versionAt N call.key w + 1) →
      PutStep call i w
        ⟨i, ⟨.inl (.putItem call.key item cond), .ok ()⟩, w, (w.1.insert call.key item, w.2)⟩
        (.ret ())

variable {N}

theorem PutState.step {call : PutCall D} {op : ((storeOps D).sum G).Op} {k} (i : Nat)
    (h : PutState call (.call op k)) (c : (tableBeside D N).Choice) (w : (tableBeside D N).World) :
    PutStep N call i w ((tableBeside D N).event i op c w)
      (k ((tableBeside D N).exec op c w).1) := by
  generalize hp : Program.call op k = p at h
  cases h with
  | called =>
    rw [PutCall.code_eq] at hp
    cases hp
    exact .quiet rfl rfl (.clocked c.1)
  | clocked clock =>
    cases hp
    exact .quiet rfl rfl (.read clock _)
  | read clock current =>
    cases hp
    let item := DynamoRepository.item call.entityType call.entityId call.value clock current
    by_cases hc : (Condition.unchanged current).Holds (w.1.lookup call.key)
    · have hexec : (tableBeside D N).exec (.inl (.putItem call.key item (.unchanged current))) c w =
          (.ok (), (w.1.insert call.key item, w.2)) := by simp [hc]
      have hversion : item.version = some (versionAt N call.key w + 1) := by
        rw [versionAt, hc.versionOf_eq]
        rfl
      rw [Machine.event, hexec]
      exact .write hversion
    · have hexec : (tableBeside D N).exec (.inl (.putItem call.key item (.unchanged current))) c w =
          (.error (.clientError conditionalCheckFailed), w) := by simp [hc]
      rw [Machine.event, hexec]
      exact .quiet rfl rfl (.refused _)
  | stored => cases hp
  | refused e => cases hp

variable (D N) in
/-- Calls of `put` that share a table. -/
abbrev Puts : Type := System (tableBeside D N) (PutCall D) Unit

/-- The versions written to a key, in the order of the writes. -/
def Puts.written (s : Puts D N) (key : Key) : List Int :=
  s.history.filterMap fun e => acceptedVersion key e.move

/-- The number of calls that succeeded on a key. -/
def Puts.succeeded (s : Puts D N) (key : Key) : Nat :=
  s.threads.countP fun thread => decide (thread.1.key = key) && returned thread.2

/-- The number of writes of a call. -/
def Puts.writesOf (s : Puts D N) (i : Nat) : Nat := (past i s.history).countP isWrite

/-- What holds of the calls at every moment. -/
structure Linear (w₀ : (tableBeside D N).World) (s : Puts D N) : Prop where
  states : ∀ i call p, s.threads[i]? = some (call, p) → PutState call p ∧
    s.writesOf i = if returned p = true then 1 else 0
  silent : ∀ i, s.threads.length ≤ i → past i s.history = []
  version : ∀ key, versionAt N key s.world = versionAt N key w₀ + s.succeeded key
  written : ∀ key, s.written key =
    (List.range (s.succeeded key)).map fun n : Nat => versionAt N key w₀ + n + 1
  quiet : ∀ e ∈ s.history, isWrite e.move = false → e.after.1 = e.before.1

theorem Linear.start (w₀ : (tableBeside D N).World) : Linear w₀ (System.start w₀ : Puts D N) where
  states := by simp [System.start]
  silent _ _ := rfl
  version key := by simp [System.start, Puts.succeeded]
  written _ := rfl
  quiet _ he := nomatch he

theorem Linear.arrive {w₀ : (tableBeside D N).World} {s : Puts D N} (h : Linear w₀ s)
    (call : PutCall D) : Linear w₀ (s.step (PutCall.code G) (.arrive call)) := by
  have hcalled : returned (call.code G) = false := by rw [PutCall.code_eq]; rfl
  have hsucceeded : ∀ key, Puts.succeeded (s.step (PutCall.code G) (.arrive call)) key =
      s.succeeded key := by
    intro key
    simp [Puts.succeeded, System.step, List.countP_append, hcalled]
  refine ⟨fun i call' p hp => ?_, fun i hi => h.silent i ?_, fun key => ?_, fun key => ?_, h.quiet⟩
  · change (s.threads ++ [(call, call.code G)])[i]? = some (call', p) at hp
    rcases getElem?_snoc.mp hp with hp | ⟨rfl, heq⟩
    · exact h.states i call' p hp
    · obtain ⟨rfl, rfl⟩ := Prod.mk.inj heq
      refine ⟨.called, ?_⟩
      rw [hcalled]
      exact congrArg (List.countP isWrite) (h.silent _ (Nat.le_refl _))
  · simp only [System.step, List.length_append, List.length_singleton] at hi
    omega
  · rw [hsucceeded]
    exact h.version key
  · rw [hsucceeded]
    exact h.written key

theorem acceptedVersion_of_not_isWrite {key : Key} {move : Move ((storeOps D).sum G)}
    (h : isWrite move = false) : acceptedVersion key move = none := by
  unfold isWrite at h
  split at h
  · cases h
  · rename_i hmove
    unfold acceptedVersion
    split
    · exact absurd rfl (hmove _ _ _ _)
    · rfl

/-- A thread that makes a step counts afterwards as it did not before. -/
theorem countP_set_call {threads : List (PutCall D × Program ((storeOps D).sum G) Unit)} {i : Nat}
    {call : PutCall D} {op : ((storeOps D).sum G).Op} {k} (p : Program ((storeOps D).sum G) Unit)
    (hi : threads[i]? = some (call, .call op k)) (key : Key) :
    (threads.set i (call, p)).countP (fun t => decide (t.1.key = key) && returned t.2) =
      threads.countP (fun t => decide (t.1.key = key) && returned t.2) +
        if call.key = key ∧ returned p = true then 1 else 0 := by
  obtain ⟨hlt, hget⟩ := List.getElem?_eq_some_iff.mp hi
  have hreturned : returned (Program.call op k) = false := rfl
  rw [List.countP_set hlt, hget]
  simp [hreturned]

/-- After a step of a call the others, and their moves, are as before. -/
theorem Linear.states_step {w₀ : (tableBeside D N).World} {s : Puts D N} (h : Linear w₀ s) {i : Nat}
    {call : PutCall D} {op : ((storeOps D).sum G).Op} {k}
    (hi : s.threads[i]? = some (call, .call op k)) {p : Program ((storeOps D).sum G) Unit}
    {e : Event (tableBeside D N)} (hthread : e.thread = i) (hp : PutState call p)
    (hwrite : isWrite e.move = returned p) {j : Nat} {call' : PutCall D}
    {p' : Program ((storeOps D).sum G) Unit}
    (hj : (s.threads.set i (call, p))[j]? = some (call', p')) :
    PutState call' p' ∧
      (past j (s.history ++ [e])).countP isWrite = if returned p' = true then 1 else 0 := by
  by_cases hij : i = j
  · subst hij
    have hlt : i < s.threads.length := (List.getElem?_eq_some_iff.mp hi).1
    simp only [List.getElem?_set, hlt, if_true, Option.some.injEq, Prod.mk.injEq] at hj
    obtain ⟨rfl, rfl⟩ := hj
    have hzero : (past i s.history).countP isWrite = 0 := (h.states i call _ hi).2
    refine ⟨hp, ?_⟩
    rw [past_append, List.countP_append, hzero]
    simp [past, hthread, hwrite]
  · have hold := h.states j call' p' (by simpa [List.getElem?_set, hij] using hj)
    refine ⟨hold.1, ?_⟩
    rw [past_append, List.countP_append, ← hold.2]
    simp [past, hthread, hij, Puts.writesOf]

/-- A write of the next version of an item is a new version of its key. -/
theorem versionAt_insert {w : (tableBeside D N).World} {key : Key} {item : Item (Attributes D)}
    (hversion : item.version = some (versionAt N key w + 1)) (key' : Key) :
    versionAt N key' (w.1.insert key item, w.2) =
      versionAt N key' w + if key = key' then 1 else 0 := by
  by_cases hkey : key = key'
  · subst hkey
    simp [versionAt, versionOf, hversion]
  · rw [versionAt, AList.lookup_insert_ne (Ne.symm hkey), versionAt, if_neg hkey, Int.add_zero]

theorem acceptedVersion_putItem (key key' : Key) (item : Item (Attributes D))
    (cond : Condition) : acceptedVersion (G := G) key' ⟨.inl (.putItem key item cond), .ok ()⟩ =
      if key = key' then item.version else none := rfl

theorem Linear.advance {w₀ : (tableBeside D N).World} {s : Puts D N} (h : Linear w₀ s) (i : Nat)
    (c : (tableBeside D N).Choice) : Linear w₀ (s.step (PutCall.code G) (.advance i c)) := by
  simp only [System.step]
  split
  swap
  · exact h
  rename_i call op k hi
  have hstep := (h.states i call _ hi).1.step i c s.world
  generalize k ((tableBeside D N).exec op c s.world).1 = p at hstep ⊢
  have hafter : ((tableBeside D N).exec op c s.world).2 =
    ((tableBeside D N).event i op c s.world).after := rfl
  rw [hafter]
  generalize (tableBeside D N).event i op c s.world = e at hstep ⊢
  have hthread : e.thread = i := by cases hstep <;> rfl
  have hcount := countP_set_call p hi
  have hsilent : ∀ j, (s.threads.set i (call, p)).length ≤ j → past j (s.history ++ [e]) = [] := by
    intro j hj
    have hlt : i < s.threads.length := (List.getElem?_eq_some_iff.mp hi).1
    rw [List.length_set] at hj
    rw [past_append, h.silent j hj]
    simp [past, hthread, show i ≠ j by omega]
  cases hstep with
  | @quiet move _ hmove hp hstate' =>
    have hsame : ∀ key, Puts.succeeded (N := N)
        ⟨s.world, s.threads.set i (call, p), s.history ++ [⟨i, move, s.world, s.world⟩]⟩ key =
        s.succeeded key := by
      intro key
      rw [Puts.succeeded, hcount, Puts.succeeded, hp]
      simp
    refine ⟨fun j _ _ hj => h.states_step hi hthread hstate' (hmove.trans hp.symm) hj, hsilent,
      fun key => ?_, fun key => ?_, ?_⟩
    · rw [hsame]
      exact h.version key
    · rw [hsame, ← h.written key, Puts.written, List.filterMap_append, Puts.written]
      simp [acceptedVersion_of_not_isWrite hmove]
    · intro e he hquiet
      rcases List.mem_append.mp he with he | he
      · exact h.quiet e he hquiet
      · rw [List.mem_singleton.mp he]
  | @write item cond hversion =>
    have hmore : ∀ key, Puts.succeeded (N := N)
        ⟨(s.world.1.insert call.key item, s.world.2), s.threads.set i (call, .ret ()),
          s.history ++ [⟨i, ⟨.inl (.putItem call.key item cond), .ok ()⟩, s.world,
            (s.world.1.insert call.key item, s.world.2)⟩]⟩ key =
        s.succeeded key + if call.key = key then 1 else 0 := by
      intro key
      rw [Puts.succeeded, hcount, Puts.succeeded]
      simp [returned]
    refine ⟨fun j _ _ hj => h.states_step hi hthread .stored rfl hj, hsilent, fun key => ?_,
      fun key => ?_, ?_⟩
    · rw [hmore, versionAt_insert hversion, h.version]
      split
      · omega
      · omega
    · rw [hmore, Puts.written, List.filterMap_append]
      by_cases hkey : call.key = key
      · -- the new version is the next one
        subst hkey
        have hlast := (acceptedVersion_putItem (G := G) call.key call.key item cond).trans
          ((if_pos rfl).trans (hversion.trans (by rw [h.version])))
        rw [if_pos rfl, List.range_succ, List.map_append, ← h.written]
        refine congrArg (s.written call.key ++ ·) ?_
        simp only [List.filterMap_cons, hlast, List.filterMap_nil, List.map_cons, List.map_nil]
      · have hnone := (acceptedVersion_putItem (G := G) call.key key item cond).trans (if_neg hkey)
        rw [if_neg hkey, Nat.add_zero, ← h.written]
        simp only [List.filterMap_cons, hnone, List.filterMap_nil, List.append_nil, Puts.written]
    · intro e he hquiet
      rcases List.mem_append.mp he with he | he
      · exact h.quiet e he hquiet
      · obtain rfl := List.mem_singleton.mp he
        cases hquiet

theorem linear_run (w₀ : (tableBeside D N).World)
    (acts : List (Action (tableBeside D N) (PutCall D))) :
    Linear w₀ (System.run (PutCall.code G) acts (System.start w₀)) :=
  (System.reachable_run _ w₀ acts).invariant (.start w₀) fun _ a h => by
    cases a with
    | arrive call => exact h.arrive call
    | advance i c => exact h.advance i c

/-- **The versions of an entity count its writes.**  In every run of calls of `put` on any
table, a call writes once at most; one that raises `ConcurrentUpdateError` changes nothing; and
the versions written to a key are the ones that follow its first version, each once, one for
each call that succeeds on the key. -/
theorem puts_linearised (w₀ : (tableBeside D N).World)
    (acts : List (Action (tableBeside D N) (PutCall D))) :
    let s : Puts D N := System.run (PutCall.code G) acts (System.start w₀)
    (∀ i, s.writesOf i ≤ 1) ∧
    (∀ i message, s.outcome i = some (.error (.concurrentUpdateError message)) →
      ∀ e ∈ s.history, e.thread = i → e.after.1 = e.before.1) ∧
    (∀ key, s.written key =
      (List.range (s.succeeded key)).map fun n : Nat => versionAt N key w₀ + n + 1) ∧
    (∀ key, (s.succeeded key : Int) = versionAt N key s.world - versionAt N key w₀) ∧
    ∀ key, (s.written key).Nodup := by
  intro s
  have h : Linear w₀ s := linear_run w₀ acts
  refine ⟨fun i => ?_, fun i message hout e he hi => ?_, h.written, fun key => ?_, fun key => ?_⟩
  · cases hthread : s.threads[i]? with
    | none =>
      have hsilent := h.silent i (List.getElem?_eq_none_iff.mp hthread)
      rw [Puts.writesOf, hsilent]
      exact Nat.zero_le 1
    | some thread =>
      rw [(h.states i thread.1 thread.2 hthread).2]
      split <;> omega
  · -- no write of the call succeeded
    have hnone : s.writesOf i = 0 := by
      simp only [System.outcome] at hout
      split at hout
      · cases hout
      · rename_i call e' hthread
        exact (h.states i call _ hthread).2
      · cases hout
    refine h.quiet e he (eq_false_of_ne_true fun hwrite => ?_)
    exact List.countP_eq_zero.mp hnone e.move (mem_past.mpr ⟨e, he, hi, rfl⟩) hwrite
  · have hversion := h.version key
    omega
  · rw [h.written]
    refine List.nodup_range.map fun m n hmn => ?_
    have hsum : versionAt N key w₀ + m + 1 = versionAt N key w₀ + n + 1 := hmn
    omega

end Puts
end AxSentinel
