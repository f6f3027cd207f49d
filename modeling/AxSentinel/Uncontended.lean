import AxSentinel.Versions

/-! # Puts nobody interferes with

`put` takes the version of an item that has none for 0, and then writes on the condition that
the stored version is 0.  Of a missing attribute that condition is false.  So a call of `put`
that no other write of its key interferes with succeeds exactly when the item it replaces, if
there is one, has a version (`succeeds_iff`); on an item without one it raises
`ConcurrentUpdateError`, every time. -/
namespace AxSentinel
open Effects

section Clients
variable {D : Type} {G : Signature Exc}

/-- What shares a table: calls of `put`, and any other programs. -/
inductive Client (D : Type) (G : Signature Exc) where
  | put (call : PutCall D)
  | other (program : Program ((storeOps D).sum G) Unit)

/-- The program of a client. -/
def Client.code : Client D G → Program ((storeOps D).sum G) Unit
  | put call => call.code G
  | other program => program

/-- The item a call writes over the one it has read. -/
abbrev PutCall.item (call : PutCall D) (clock : Nat) (current : Option (Item (Attributes D))) :
    Item (Attributes D) :=
  DynamoRepository.item call.entityType call.entityId call.value clock current

/-- The write of a call. -/
abbrev PutCall.write (G : Signature Exc) (call : PutCall D) (clock : Nat)
    (current : Option (Item (Attributes D))) : ((storeOps D).sum G).Op :=
  .inl (.putItem call.key (call.item clock current) (.unchanged current))

/-- What a call answers when its write comes out as `reply`. -/
def PutCall.answer (call : PutCall D) : Except Exc Unit → Except Exc Unit
  | .ok _ => .ok ()
  | .error e => .error (DynamoRepository.putError call.entityType call.entityId e)

/-- How a call ends: as its write came out, or with a read that failed. -/
def PutCall.Ends (call : PutCall D) (past : List (Move ((storeOps D).sum G)))
    (out : Except Exc Unit) : Prop :=
  (∃ clock current reply, out = call.answer reply ∧
    past = [⟨.inl .now, .ok clock⟩, ⟨.inl (.getItem call.key), .ok current⟩,
      ⟨call.write G clock current, reply⟩]) ∨
  ∃ earlier e, past = earlier ++ [⟨.inl .now, .error e⟩] ∨
    past = earlier ++ [⟨.inl (.getItem call.key), .error e⟩]

theorem PutCall.ends (call : PutCall D) :
    (call.code G).Obeys (fun _ _ => True) call.Ends [] := by
  rw [PutCall.code_eq]
  refine ⟨trivial, fun r => ?_⟩
  cases r with
  | error e => exact .inr ⟨[], e, .inl rfl⟩
  | ok clock =>
    refine ⟨trivial, fun r => ?_⟩
    cases r with
    | error e => exact .inr ⟨_, e, .inr rfl⟩
    | ok current =>
      refine ⟨trivial, fun r => ?_⟩
      cases r with
      | ok _ => exact .inl ⟨clock, current, .ok (), rfl, rfl⟩
      | error e => exact .inl ⟨clock, current, .error e, rfl, rfl⟩

/-- How a client ends. -/
def Client.Ends : Client D G → List (Move ((storeOps D).sum G)) → Except Exc Unit → Prop
  | put call, past, out => call.Ends past out
  | other _, _, _ => True

theorem Client.ends (client : Client D G) :
    client.code.Obeys (fun _ _ => True) client.Ends [] := by
  cases client with
  | put call => exact call.ends
  | other program => exact Program.obeys_true program []

variable {N : Machine G}

/-- The item under the key has a version, if there is one. -/
def VersionedAt (key : Key) (w : (tableBeside D N).World) : Prop :=
  ∀ item, w.1.lookup key = some item → item.version.isSome = true

variable (D N) in
/-- Clients that share a table. -/
abbrev Clients : Type := System (tableBeside D N) (Client D G) Unit

/-- No other write of the key takes effect between the read and the write of thread `i`. -/
def Uncontended (h : List (Event (tableBeside D N))) (i : Nat) (key : Key) : Prop :=
  ∀ m n d e item cond, h[m]? = some d → d.thread = i → d.move.op = .inl (.getItem key) →
    h[n]? = some e → e.thread = i → e.move.op = .inl (.putItem key item cond) →
    Undisturbed h i key m n

/-- The call that thread `i` serves returns, having stored its value under the next version;
`get` then returns it. -/
structure Succeeds (s : Clients D N) (i : Nat) (call : PutCall D) : Prop where
  returned : s.outcome i = some (.ok ())
  stored : ∃ e ∈ s.history, e.thread = i ∧ ∃ item, e.Wrote call.key item ∧
    item.version = some (versionAt N call.key e.before + 1) ∧
    ∀ out w, (tableBeside D N).Ends (DynamoRepository.get call.entityType call.entityId).left
      e.after out w → out = .ok (some call.value)

/-! ## The moves of a call -/

variable {allowed : Nat → List (Move ((storeOps D).sum G)) → ((storeOps D).sum G).Op → Prop}
  {h : List (Event (tableBeside D N))} {w₀ w : (tableBeside D N).World}

/-- The clock and the reads of the table reply. -/
theorem reads_reply (H : (tableBeside D N).History allowed w₀ h w) {e : Event (tableBeside D N)}
    (he : e ∈ h) {x : Exc} : e.move ≠ ⟨.inl .now, .error x⟩ ∧
      ∀ key, e.move ≠ ⟨.inl (.getItem key), .error x⟩ := by
  obtain ⟨n, -, -, -, c, hevent⟩ := H.of_mem he
  have hmove := congrArg Event.move hevent
  constructor
  · intro hfailed
    rw [hfailed] at hmove
    cases eq_of_heq (Move.mk.inj hmove).2
  · intro key hfailed
    rw [hfailed] at hmove
    cases eq_of_heq (Move.mk.inj hmove).2

/-- A read replies with the item that is stored, and changes nothing. -/
theorem read_current (H : (tableBeside D N).History allowed w₀ h w) {d : Event (tableBeside D N)}
    (hd : d ∈ h) {key : Key} {current : Option (Item (Attributes D))}
    (hmove : d.move = ⟨.inl (.getItem key), .ok current⟩) :
    current = d.before.1.lookup key ∧ d.after = d.before := by
  obtain ⟨n, -, -, -, c, hevent⟩ := H.of_mem hd
  rw [hmove] at hevent
  have hreply := congrArg Event.move hevent
  rw [hmove] at hreply
  exact ⟨Except.ok.inj (eq_of_heq (Move.mk.inj hreply).2), congrArg Event.after hevent⟩

/-- The call of thread `i` reads its item at `d` and nowhere else, and writes at `e`, on the
condition that it is still the one it read; it was, and the write came out as `out` says. -/
structure CallAt (h : List (Event (tableBeside D N))) (i : Nat) (call : PutCall D)
    (out : Except Exc Unit) (d e : Event (tableBeside D N)) : Prop where
  read : d ∈ h ∧ d.thread = i ∧ d.move.op = .inl (.getItem call.key)
  readOnce : ∀ x ∈ h, x.thread = i → x.move.op = .inl (.getItem call.key) → x = d
  write : e ∈ h ∧ e.thread = i
  unchanged : e.before.1.lookup call.key = d.before.1.lookup call.key
  step : ∃ clock c,
    e = (tableBeside D N).event i (call.write G clock (d.before.1.lookup call.key)) c e.before ∧
    out = call.answer
      ((tableBeside D N).exec (call.write G clock (d.before.1.lookup call.key)) c e.before).1

/-- A call that no other write interfered with, and that has ended. -/
theorem exists_callAt {s : Clients D N} (hs : System.Reachable Client.code w₀ s) {i : Nat}
    {call : PutCall D} {out : Except Exc Unit} (hrequest : s.request i = some (.put call))
    (hout : s.outcome i = some out) (hquiet : Uncontended s.history i call.key) :
    ∃ d e, CallAt s.history i call out d e := by
  have hconforms := hs.conforms Client.ends
  have H := hconforms.history
  have failed : ∀ {earlier op x}, past i s.history = earlier ++ [⟨op, .error x⟩] →
      ∃ e ∈ s.history, e.move = ⟨op, .error x⟩ := by
    intro earlier op x hpast
    have hmem : (⟨op, .error x⟩ : Move ((storeOps D).sum G)) ∈ past i s.history :=
      hpast ▸ List.mem_append_right _ (List.mem_singleton.mpr rfl)
    obtain ⟨e, he, -, hmove⟩ := mem_past.mp hmem
    exact ⟨e, he, hmove⟩
  rcases hconforms.outcome hrequest hout with
    ⟨clock, current, reply, rfl, hpast⟩ | ⟨earlier, x, hpast | hpast⟩
  swap
  · obtain ⟨e, he, hmove⟩ := failed hpast
    exact absurd hmove (reads_reply H he).1
  swap
  · obtain ⟨e, he, hmove⟩ := failed hpast
    exact absurd hmove ((reads_reply H he).2 _)
  -- the write is the last event of the thread, the read the last one before it
  have hsplit : past i s.history =
      [⟨.inl .now, .ok clock⟩, ⟨.inl (.getItem call.key), .ok current⟩] ++
        [⟨call.write G clock current, reply⟩] := hpast
  obtain ⟨n, e, hn, hthread, hmove, hearlier, hlast⟩ := past_last hsplit
  have hsplit' : past i (s.history.take n) =
      [⟨.inl .now, .ok clock⟩] ++ [⟨.inl (.getItem call.key), .ok current⟩] := hearlier
  obtain ⟨m, d, hm, hdthread, hdmove, hfirst, hdlast⟩ := past_last hsplit'
  have hlt : m < n := by
    have hlength := (List.getElem?_eq_some_iff.mp hm).1
    simp only [List.length_take] at hlength
    omega
  rw [List.getElem?_take, if_pos hlt] at hm
  rw [List.take_take, Nat.min_eq_left (Nat.le_of_lt hlt)] at hfirst
  have hd := List.mem_of_getElem? hm
  obtain ⟨rfl, hafter⟩ := read_current H hd hdmove
  have hop : d.move.op = .inl (.getItem call.key) := by rw [hdmove]
  have hunchanged : e.before.1.lookup call.key = d.before.1.lookup call.key := by
    by_contra hne
    have hne' : stored (tableBeside D N) call.key e.before ≠
        stored (tableBeside D N) call.key d.after := by
      rw [hafter]
      exact hne
    obtain ⟨k, x, item, hmk, hkn, hk, hwrote⟩ := H.wrote_between call.key hlt hm hn hne'
    have hother : x.thread ≠ i :=
      hdlast k x hmk (by rw [List.getElem?_take, if_pos hkn, hk])
    exact hquiet m n d e _ _ hm hdthread hop hn hthread (by rw [hmove]) k x item hmk hkn hk hother
      hwrote
  refine ⟨d, e, ⟨hd, hdthread, hop⟩, fun x hx hxthread hxop => ?_,
    ⟨List.mem_of_getElem? hn, hthread⟩, hunchanged, clock, ?_⟩
  · obtain ⟨k, hk⟩ := List.mem_iff_getElem?.mp hx
    have hkn : k ≤ n := Nat.le_of_not_lt fun hnk => hlast k x hnk hk hxthread
    rcases Nat.lt_or_eq_of_le hkn with hkn | rfl
    · have hkm : k ≤ m := by
        refine Nat.le_of_not_lt fun hmk => hdlast k x hmk ?_ hxthread
        rw [List.getElem?_take, if_pos hkn, hk]
      rcases Nat.lt_or_eq_of_le hkm with hkm | rfl
      · -- before the read the call has only looked at the clock
        have hmem : x.move ∈ past i (s.history.take m) := by
          refine mem_past.mpr ⟨x, List.mem_of_getElem? (i := k) ?_, hxthread, rfl⟩
          rw [List.getElem?_take, if_pos hkm, hk]
        rw [hfirst] at hmem
        rw [List.mem_singleton.mp hmem] at hxop
        cases hxop
      · exact Option.some.inj (hk.symm.trans hm)
    · obtain rfl := Option.some.inj (hk.symm.trans hn)
      rw [hmove] at hxop
      cases hxop
  · obtain ⟨-, -, c, hevent⟩ := H.at_position hn
    have hwrite : e.move.op = call.write G clock (d.before.1.lookup call.key) := by rw [hmove]
    rw [hthread, hwrite] at hevent
    refine ⟨c, hevent, ?_⟩
    have hreply := congrArg Event.move hevent
    rw [hmove] at hreply
    rw [eq_of_heq (Move.mk.inj hreply).2]

/-! ## When a call succeeds -/

/-- What `get` returns of a stored item. -/
theorem get_stored {t : EntityType} {id : String} {item : Item (Attributes D)}
    {w w' : (tableBeside D N).World} {out : Except Exc (Option D)}
    (hstored : w.1.lookup ⟨t, id⟩ = some item)
    (hend : (tableBeside D N).Ends (DynamoRepository.get t id).left w out w') :
    out = .ok (some item.attributes.data) := by
  have hreads : (tableBeside D N).wp (DynamoRepository.get t id).left
      (fun out _ => out = .ok (some item.attributes.data)) w := by
    rw [← bind_pure (DynamoRepository.get t id).left, DynamoRepository.get_left_bind]
    intro c
    show Except.ok ((w.1.lookup ⟨t, id⟩).map _) = _
    rw [hstored]
    rfl
  exact hend.of_wp hreads

/-- **When an uncontended put succeeds.**  A call of `put` that has ended, and whose key no
other write changed between its read and its write, succeeds exactly when the item it read has
a version or is none; the next version is then one more than it was. -/
theorem succeeds_iff {s : Clients D N} (hs : System.Reachable Client.code w₀ s) {i : Nat}
    {call : PutCall D} {out : Except Exc Unit} (hrequest : s.request i = some (.put call))
    (hout : s.outcome i = some out) (hquiet : Uncontended s.history i call.key) :
    Succeeds s i call ↔ ∀ d ∈ s.history, d.thread = i → d.move.op = .inl (.getItem call.key) →
      VersionedAt call.key d.before := by
  obtain ⟨d, e, ⟨hd, hdthread, hdop⟩, honce, ⟨he, hthread⟩, hunchanged,
    clock, c, hevent, hanswer⟩ :=
    exists_callAt hs hrequest hout hquiet
  have hcondition : (∀ x ∈ s.history, x.thread = i → x.move.op = .inl (.getItem call.key) →
      VersionedAt call.key x.before) ↔
      (Condition.unchanged (d.before.1.lookup call.key)).Holds (e.before.1.lookup call.key) := by
    rw [hunchanged, Condition.unchanged_holds_self]
    constructor
    · exact fun hall => hall d hd hdthread hdop
    · intro hversion x hx hxthread hxop
      rw [honce x hx hxthread hxop]
      exact hversion
  rw [hcondition]
  by_cases hc : (Condition.unchanged (d.before.1.lookup call.key)).Holds
      (e.before.1.lookup call.key)
  · have hexec : (tableBeside D N).exec (call.write G clock (d.before.1.lookup call.key))
        c e.before =
        (.ok (), (e.before.1.insert call.key (call.item clock (d.before.1.lookup call.key)),
          e.before.2)) := by simp [hc]
    have hstored : e.after.1 =
        e.before.1.insert call.key (call.item clock (d.before.1.lookup call.key)) := by
      rw [show e.after = _ from congrArg Event.after hevent]
      exact congrArg (fun r => r.2.1) hexec
    refine iff_of_true ⟨?_, e, he, hthread, _, ⟨_, ?_, hc, hstored⟩, ?_, ?_⟩ hc
    · rw [hout, hanswer, hexec]
      rfl
    · rw [show e.move = _ from congrArg Event.move hevent]
      rfl
    · rw [versionAt, hunchanged]
      rfl
    · intro out w hend
      exact get_stored (hstored ▸ AList.lookup_insert _) hend
  · have hexec : ((tableBeside D N).exec (call.write G clock (d.before.1.lookup call.key)) c
        e.before).1 = .error (.clientError conditionalCheckFailed) := by simp [hc]
    refine iff_of_false (fun hsucceeds => ?_) hc
    have hok := hsucceeds.returned
    rw [hout, hanswer, hexec] at hok
    cases hok

end Clients

/-! ## Computed runs -/

/-- Nothing stands beside the table. -/
def nothingBeside : Machine (⟨Empty, Empty.elim⟩ : Signature Exc) where
  World := Unit
  Choice := Unit
  exec op := op.elim

/-- An incident, of the given version. -/
def storedIncident (version : Option Int) : Table Key (Attributes String) :=
  (∅ : Table Key (Attributes String)).insert ⟨.incident, "1"⟩
    ⟨version, .incident, "1", 1, "detected"⟩

/-- The incident is put, and nothing else happens. -/
def putAlone (version : Option Int) : Clients String nothingBeside :=
  System.run Client.code
    [.arrive (.put ⟨.incident, "1", "resolved"⟩), .advance 0 (2, ()), .advance 0 (2, ()),
      .advance 0 (2, ())]
    (System.start (storedIncident version, ()))

theorem uncontended_of_alone {D : Type} {G : Signature Exc} {N : Machine G}
    {h : List (Event (tableBeside D N))} {i : Nat} (halone : ∀ e ∈ h, e.thread = i) (key : Key) :
    Uncontended h i key :=
  fun _ _ _ _ _ _ _ _ _ _ _ _ _ x _ _ _ hx hother _ =>
    hother (halone x (List.mem_of_getElem? hx))

/-- The put of an incident with a version succeeds. -/
theorem succeeds_putAlone : Succeeds (putAlone (some 1)) 0 ⟨.incident, "1", "resolved"⟩ := by
  have hreach : System.Reachable Client.code (storedIncident (some 1), ()) (putAlone (some 1)) :=
    System.reachable_run _ _ _
  refine (succeeds_iff hreach rfl (show _ = some (.ok ()) by decide +kernel)
    (uncontended_of_alone ?_ _)).mpr ?_
  · decide
  · intro d hd _ _ item hitem
    have hversions : (putAlone (some 1)).history.all (fun e =>
        (e.before.1.lookup ⟨.incident, "1"⟩).all fun item => item.version.isSome) = true := by
      decide +kernel
    have hd' := List.all_eq_true.mp hversions d hd
    have hlookup : d.before.1.lookup ⟨.incident, "1"⟩ = some item := hitem
    rw [hlookup] at hd'
    exact hd'

/-- The put of an older incident fails, though nobody interferes. -/
theorem not_succeeds : ¬ ∀ (w₀ : (tableBeside String nothingBeside).World)
    (s : Clients String nothingBeside), System.Reachable Client.code w₀ s → ∀ i call out,
      s.request i = some (.put call) → s.outcome i = some out →
      Uncontended s.history i call.key → Succeeds s i call := by
  intro hall
  have hraised : (putAlone none).outcome 0 =
      some (.error (.concurrentUpdateError "incident/1 was updated concurrently")) := by
    decide +kernel
  have hsucceeds := hall _ (putAlone none) (System.reachable_run _ _ _) 0
    ⟨.incident, "1", "resolved"⟩ _ rfl hraised (uncontended_of_alone (by decide) _)
  cases hraised.symm.trans hsucceeds.returned

end AxSentinel
