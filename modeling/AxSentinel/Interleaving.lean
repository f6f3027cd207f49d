import AxSentinel.Program
import Mathlib.Data.List.Induction

/-! # Interleaved programs and their histories

Any number of programs share the world of one machine.  A `System` holds the
world, the programs still running (with the request each one serves) and the
history of every operation performed so far, with the world before and after
it.  A scheduler admits requests and advances programs, one operation at a time,
in any order (`System.step`).

Reasoning about such runs is split in two.  `Program.Obeys` shows, program by
program and without a world, that each operation is allowed by the program's
own past.  `System.Reachable.conforms` turns this into a fact about histories: the
history of every reachable system is a `History` whose operations are all
allowed by the past of their own thread.  What a system keeps invariant is then
shown by induction on `History`, and no program is looked at again.
-/
namespace Effects

/-! ## Positions of a list that grows -/

section Positions
variable {A : Type} {l : List A} {k : Nat} {a b : A}

theorem getElem?_append_of_some (h : l[k]? = some a) (t : List A) : (l ++ t)[k]? = some a :=
  (List.getElem?_append_left (List.getElem?_eq_some_iff.mp h).1).trans h

theorem getElem?_snoc : (l ++ [a])[k]? = some b ↔ l[k]? = some b ∨ k = l.length ∧ b = a := by
  constructor
  · intro h
    rcases Nat.lt_trichotomy k l.length with hlt | rfl | hgt
    · exact .inl ((List.getElem?_append_left hlt).symm.trans h)
    · rw [List.getElem?_concat_length] at h
      exact .inr ⟨rfl, (Option.some.inj h).symm⟩
    · rw [List.getElem?_eq_none (by simpa using Nat.succ_le_of_lt hgt)] at h
      cases h
  · rintro (h | ⟨rfl, rfl⟩)
    · exact getElem?_append_of_some h [a]
    · exact List.getElem?_concat_length

end Positions

variable {E : Type} {F : Signature E} {α β Req : Type}

/-! ## What a program may do next -/

/-- An operation and how it came out. -/
structure Move (F : Signature E) where
  op : F.Op
  reply : Except E (F.Reply op)

/-- `p.Obeys P Q past`: after the moves `past`, every operation `p` performs is
allowed by `P` in view of the moves before it, and `p` ends as `Q` says, whatever
the replies are. -/
def Program.Obeys (P : List (Move F) → F.Op → Prop)
    (Q : List (Move F) → Except E α → Prop) : List (Move F) → Program F α → Prop
  | past, .ret a => Q past (.ok a)
  | past, .raise e => Q past (.error e)
  | past, .call op k => P past op ∧ ∀ r, (k r).Obeys P Q (past ++ [⟨op, r⟩])

namespace Program
variable {P P' : List (Move F) → F.Op → Prop} {past : List (Move F)}

@[simp] theorem obeys_ret {Q : List (Move F) → Except E α → Prop} {a : α} :
    (Program.ret a : Program F α).Obeys P Q past ↔ Q past (.ok a) := Iff.rfl

@[simp] theorem obeys_raise {Q : List (Move F) → Except E α → Prop} {e : E} :
    (Program.raise e : Program F α).Obeys P Q past ↔ Q past (.error e) := Iff.rfl

@[simp] theorem obeys_call {Q : List (Move F) → Except E α → Prop} {op : F.Op}
    {k : Except E (F.Reply op) → Program F α} :
    (Program.call op k).Obeys P Q past ↔
      P past op ∧ ∀ r, (k r).Obeys P Q (past ++ [⟨op, r⟩]) := Iff.rfl

theorem Obeys.mono {Q Q' : List (Move F) → Except E α → Prop} {p : Program F α}
    (h : p.Obeys P Q past) (hP : ∀ past op, P past op → P' past op)
    (hQ : ∀ past out, Q past out → Q' past out) : p.Obeys P' Q' past := by
  induction p generalizing past with
  | ret a => exact hQ _ _ h
  | raise e => exact hQ _ _ h
  | call op k ih => exact ⟨hP _ _ h.1, fun r => ih r (h.2 r)⟩

/-- Nothing is forbidden. -/
theorem obeys_true (p : Program F α) (past : List (Move F)) :
    p.Obeys (fun _ _ => True) (fun _ _ => True) past := by
  induction p generalizing past with
  | ret a => trivial
  | raise e => trivial
  | call op k ih => exact ⟨trivial, fun r => ih r _⟩

/-- Sequencing: the second program starts from the past the first one leaves. -/
theorem obeys_bind {p : Program F α} {f : α → Program F β}
    {Q : List (Move F) → Except E β → Prop} :
    (p >>= f).Obeys P Q past ↔ p.Obeys P (fun past' out =>
      match out with
      | .ok a => (f a).Obeys P Q past'
      | .error e => Q past' (.error e)) past := by
  induction p generalizing past with
  | ret a => exact Iff.rfl
  | raise e => exact Iff.rfl
  | call op k ih => exact and_congr_right fun _ => forall_congr' fun r => ih r

theorem obeys_tryCatch {p : Program F α} {handler : E → Program F α}
    {Q : List (Move F) → Except E α → Prop} :
    (MonadExcept.tryCatch p handler).Obeys P Q past ↔ p.Obeys P (fun past' out =>
      match out with
      | .ok a => Q past' (.ok a)
      | .error e => (handler e).Obeys P Q past') past := by
  induction p generalizing past with
  | ret a => exact Iff.rfl
  | raise e => exact Iff.rfl
  | call op k ih => exact and_congr_right fun _ => forall_congr' fun r => ih r

/-- A program that obeys `P`, followed by programs that obey `P` after any past. -/
theorem Obeys.bind {p : Program F α} {f : α → Program F β}
    (h : p.Obeys P (fun _ _ => True) past)
    (hf : ∀ past a, (f a).Obeys P (fun _ _ => True) past) :
    (p >>= f).Obeys P (fun _ _ => True) past := by
  refine obeys_bind.mpr (h.mono (fun _ _ => id) fun past' out _ => ?_)
  cases out with
  | ok a => exact hf past' a
  | error e => trivial

theorem Obeys.tryCatch {p : Program F α} {handler : E → Program F α}
    (h : p.Obeys P (fun _ _ => True) past)
    (hhandler : ∀ past e, (handler e).Obeys P (fun _ _ => True) past) :
    (MonadExcept.tryCatch p handler).Obeys P (fun _ _ => True) past := by
  refine obeys_tryCatch.mpr (h.mono (fun _ _ => id) fun past' out _ => ?_)
  cases out with
  | ok a => trivial
  | error e => exact hhandler past' e

/-- A program restricted to some operations, whatever its past: it obeys what these
operations obey, and ends as any of their sequences does. -/
theorem Obeys.of_only {S : F.Op → Prop} {p : Program F α} {past₀ : List (Move F)}
    {Q : List (Move F) → Except E α → Prop}
    (h : p.Obeys (fun _ op => S op) (fun _ _ => True) past₀)
    (hP : ∀ more op, (∀ m ∈ more, S m.op) → S op → P (past ++ more) op)
    (hQ : ∀ more out, (∀ m ∈ more, S m.op) → Q (past ++ more) out) : p.Obeys P Q past := by
  induction p generalizing past past₀ with
  | ret a => simpa using hQ [] (.ok a) nofun
  | raise e => simpa using hQ [] (.error e) nofun
  | call op k ih =>
    refine ⟨by simpa using hP [] op nofun h.1, fun r => ih r (h.2 r) ?_ ?_⟩
    · intro more op' hmore hop'
      rw [List.append_assoc]
      exact hP _ op' (List.forall_mem_cons.mpr ⟨h.1, hmore⟩) hop'
    · intro more out hmore
      rw [List.append_assoc]
      exact hQ _ out (List.forall_mem_cons.mpr ⟨h.1, hmore⟩)

/-- What holds of the past, and is kept by every move a program may make, holds when it
ends. -/
theorem Obeys.invariant {I : List (Move F) → Prop} {p : Program F α}
    (h : p.Obeys P (fun _ _ => True) past) (hI : I past)
    (hstep : ∀ past op r, P past op → I past → I (past ++ [⟨op, r⟩])) :
    p.Obeys P (fun past _ => I past) past := by
  induction p generalizing past with
  | ret a => exact hI
  | raise e => exact hI
  | call op k ih => exact ⟨h.1, fun r => ih r (h.2 r) (hstep _ _ _ h.1 hI)⟩

end Program

/-! ## Events and histories -/

/-- A move of a thread, with the world before and after it. -/
structure Event (M : Machine F) where
  thread : Nat
  move : Move F
  before : M.World
  after : M.World

/-- The moves of thread `i` in a history. -/
def past {M : Machine F} (i : Nat) (h : List (Event M)) : List (Move F) :=
  (h.filter fun e => e.thread = i).map Event.move

namespace Machine

/-- The event of thread `i` performing `op` under the choice `c` in `w`. -/
def event (M : Machine F) (i : Nat) (op : F.Op) (c : M.Choice) (w : M.World) : Event M :=
  ⟨i, ⟨op, (M.exec op c w).1⟩, w, (M.exec op c w).2⟩

/-- The histories from `w₀` in which thread `i` performs `op` only when `allowed`
by its own past.  The last argument is the world the history ends in. -/
inductive History (M : Machine F) (allowed : Nat → List (Move F) → F.Op → Prop)
    (w₀ : M.World) : List (Event M) → M.World → Prop
  | nil : M.History allowed w₀ [] w₀
  | snoc {h w} (i op) (c : M.Choice) : M.History allowed w₀ h w → allowed i (past i h) op →
      M.History allowed w₀ (h ++ [M.event i op c w]) (M.exec op c w).2

end Machine

@[simp] theorem past_nil {M : Machine F} (i : Nat) : past i ([] : List (Event M)) = [] := rfl

theorem past_append {M : Machine F} (i : Nat) (h h' : List (Event M)) :
    past i (h ++ h') = past i h ++ past i h' := by
  simp [past]

@[simp] theorem past_snoc_self {M : Machine F} (i : Nat) (h : List (Event M)) (op : F.Op)
    (c : M.Choice) (w : M.World) :
    past i (h ++ [M.event i op c w]) = past i h ++ [⟨op, (M.exec op c w).1⟩] := by
  simp [past, Machine.event]

theorem past_snoc_other {M : Machine F} {i j : Nat} (hij : i ≠ j) (h : List (Event M))
    (op : F.Op) (c : M.Choice) (w : M.World) :
    past i (h ++ [M.event j op c w]) = past i h := by
  simp [past, Machine.event, Ne.symm hij]

/-- What a thread remembers happened in the history. -/
theorem mem_past {M : Machine F} {i : Nat} {h : List (Event M)} {m : Move F} :
    m ∈ past i h ↔ ∃ e ∈ h, e.thread = i ∧ e.move = m := by
  simp [past, and_assoc]

/-- The last move of a thread is an event, after which the thread does nothing. -/
theorem past_last {M : Machine F} {i : Nat} {h : List (Event M)} {earlier : List (Move F)}
    {m : Move F} (hp : past i h = earlier ++ [m]) :
    ∃ k e, h[k]? = some e ∧ e.thread = i ∧ e.move = m ∧ past i (h.take k) = earlier ∧
      ∀ j x, k < j → h[j]? = some x → x.thread ≠ i := by
  induction h using List.reverseRecOn with
  | nil => simp at hp
  | append_singleton h e ih =>
    rw [past_append] at hp
    by_cases hi : e.thread = i
    · have hsingle : past i [e] = [e.move] := by simp [past, hi]
      rw [hsingle] at hp
      obtain ⟨hearlier, hm⟩ := List.append_inj' hp rfl
      refine ⟨h.length, e, by simp, hi, List.singleton_inj.mp hm, by simpa using hearlier, ?_⟩
      intro j x hj hx
      rw [List.getElem?_eq_none (by simpa using Nat.succ_le_of_lt hj)] at hx
      cases hx
    · have hsingle : past i [e] = [] := by simp [past, hi]
      rw [hsingle, List.append_nil] at hp
      obtain ⟨k, d, hk, hd, hm, hearlier, hlast⟩ := ih hp
      have hlt : k < h.length := (List.getElem?_eq_some_iff.mp hk).1
      refine ⟨k, d, getElem?_append_of_some hk [e], hd, hm,
        by rw [List.take_append_of_le_length (Nat.le_of_lt hlt), hearlier], ?_⟩
      intro j x hj hx
      rcases getElem?_snoc.mp hx with hx | ⟨-, rfl⟩
      · exact hlast j x hj hx
      · exact hi

/-- The moves a thread has behind it when it performs the event at `n` are events
at earlier positions. -/
theorem past_position {M : Machine F} {h : List (Event M)} {i n : Nat} {m : Move F}
    (hm : m ∈ past i (h.take n)) :
    ∃ k e, k < n ∧ h[k]? = some e ∧ e.thread = i ∧ e.move = m := by
  obtain ⟨e, he, hi, hmove⟩ := mem_past.mp hm
  obtain ⟨k, hk⟩ := List.mem_iff_getElem?.mp he
  rw [List.getElem?_take] at hk
  split at hk
  · exact ⟨k, e, ‹_›, hk, hi, hmove⟩
  · cases hk

/-- The world thread `i` finds when it performs its first operation; `w`, while it has
performed none. -/
def firstWorld {M : Machine F} (i : Nat) (h : List (Event M)) (w : M.World) : M.World :=
  ((h.find? fun e => e.thread = i).map Event.before).getD w

theorem find?_of_silent {M : Machine F} {i : Nat} {h : List (Event M)} (hp : past i h = []) :
    h.find? (fun e => e.thread = i) = none := by
  refine List.find?_eq_none.mpr fun e he hi => ?_
  have hmove : e.move ∈ past i h := mem_past.mpr ⟨e, he, of_decide_eq_true hi, rfl⟩
  rw [hp] at hmove
  cases hmove

theorem firstWorld_of_silent {M : Machine F} {i : Nat} {h : List (Event M)}
    (hp : past i h = []) (w : M.World) : firstWorld i h w = w := by
  rw [firstWorld, find?_of_silent hp]
  rfl

theorem firstWorld_append {M : Machine F} {i : Nat} {h : List (Event M)} (hp : past i h ≠ [])
    (h' : List (Event M)) (w w' : M.World) : firstWorld i (h ++ h') w' = firstWorld i h w := by
  obtain ⟨m, hm⟩ := List.exists_mem_of_ne_nil _ hp
  obtain ⟨e, he, hi, -⟩ := mem_past.mp hm
  obtain ⟨d, hd⟩ := Option.isSome_iff_exists.mp
    (List.find?_isSome.mpr ⟨e, he, decide_eq_true hi⟩ : (h.find? fun e => e.thread = i).isSome)
  rw [firstWorld, firstWorld, List.find?_append, hd]
  rfl

@[simp] theorem firstWorld_snoc_self {M : Machine F} (i : Nat) (h : List (Event M)) (op : F.Op)
    (c : M.Choice) (w w' : M.World) :
    firstWorld i (h ++ [M.event i op c w]) w' = firstWorld i h w := by
  by_cases hp : past i h = []
  · rw [firstWorld_of_silent hp, firstWorld, List.find?_append, find?_of_silent hp]
    simp [Machine.event]
  · exact firstWorld_append hp _ w w'

/-- How many events of a history are as `P` says, each in view of the events before it. -/
def tally {M : Machine F} (P : List (Event M) → Event M → Prop) [∀ h e, Decidable (P h e)]
    (h : List (Event M)) : Nat :=
  h.zipIdx.countP fun x => P (h.take x.2) x.1

section Tally
variable {M : Machine F} {P : List (Event M) → Event M → Prop} [∀ h e, Decidable (P h e)]

@[simp] theorem tally_nil : tally P [] = 0 := rfl

theorem tally_snoc (h : List (Event M)) (e : Event M) :
    tally P (h ++ [e]) = tally P h + if P h e then 1 else 0 := by
  have hearlier : h.zipIdx.countP (fun x => P ((h ++ [e]).take x.2) x.1) = tally P h := by
    refine List.countP_congr fun x hx => ?_
    have hlt : x.2 < h.length := by simpa using List.snd_lt_of_mem_zipIdx hx
    rw [List.take_append_of_le_length (Nat.le_of_lt hlt)]
  rw [tally, List.zipIdx_append, List.countP_append, hearlier]
  simp [List.countP_cons]

/-- Nothing is counted exactly if no event is as `P` says. -/
theorem tally_eq_zero {h : List (Event M)} :
    tally P h = 0 ↔ ∀ n e, h[n]? = some e → ¬ P (h.take n) e := by
  simp only [tally, List.countP_eq_zero, decide_eq_true_eq]
  constructor
  · exact fun hall n e hn => hall (e, n) (List.mem_zipIdx_iff_getElem?.mpr hn)
  · exact fun hall x hx => hall x.2 x.1 (List.mem_zipIdx_iff_getElem?.mp hx)

end Tally

namespace Machine
namespace History
variable {M : Machine F} {allowed allowed' : Nat → List (Move F) → F.Op → Prop}
variable {w₀ w : M.World} {h : List (Event M)}

theorem mono (H : M.History allowed w₀ h w)
    (hle : ∀ i past op, allowed i past op → allowed' i past op) : M.History allowed' w₀ h w := by
  induction H with
  | nil => exact .nil
  | snoc i op c _ hok ih => exact .snoc i op c ih (hle _ _ _ hok)

/-- The event at position `n`: its prefix is a history that ends in the world
before it, and it is an allowed step from there. -/
theorem at_position (H : M.History allowed w₀ h w) {n : Nat} {e : Event M}
    (hn : h[n]? = some e) : M.History allowed w₀ (h.take n) e.before ∧
      allowed e.thread (past e.thread (h.take n)) e.move.op ∧
      ∃ c, e = M.event e.thread e.move.op c e.before := by
  induction H with
  | nil => simp at hn
  | @snoc h w i op c H hok ih =>
    rcases getElem?_snoc.mp hn with hn | ⟨rfl, rfl⟩
    · have hlt : n < h.length := (List.getElem?_eq_some_iff.mp hn).1
      rw [List.take_append_of_le_length (Nat.le_of_lt hlt)]
      exact ih hn
    · rw [List.take_left']
      · exact ⟨H, hok, c, rfl⟩
      · rfl

theorem of_mem (H : M.History allowed w₀ h w) {e : Event M} (he : e ∈ h) :
    ∃ n, h[n]? = some e ∧ M.History allowed w₀ (h.take n) e.before ∧
      allowed e.thread (past e.thread (h.take n)) e.move.op ∧
      ∃ c, e = M.event e.thread e.move.op c e.before := by
  obtain ⟨n, hn⟩ := List.mem_iff_getElem?.mp he
  exact ⟨n, hn, H.at_position hn⟩

/-- A preorder on worlds that every allowed step respects relates the world
after an event to the world the history ends in. -/
theorem after_le (H : M.History allowed w₀ h w) (le : M.World → M.World → Prop)
    (refl : ∀ w, le w w) (trans : ∀ {a b c}, le a b → le b c → le a c)
    (step : ∀ {h w}, M.History allowed w₀ h w → ∀ i op c, allowed i (past i h) op →
      le w (M.exec op c w).2) {e : Event M} (he : e ∈ h) : le e.after w := by
  induction H with
  | nil => simp at he
  | @snoc h w i op c H hok ih =>
    rcases List.mem_append.mp he with he | he
    · exact trans (ih he) (step H i op c hok)
    · obtain rfl := List.mem_singleton.mp he
      exact refl _

/-- The same preorder relates the world after an event to the world before any
later one. -/
theorem after_le_before (H : M.History allowed w₀ h w) (le : M.World → M.World → Prop)
    (refl : ∀ w, le w w) (trans : ∀ {a b c}, le a b → le b c → le a c)
    (step : ∀ {h w}, M.History allowed w₀ h w → ∀ i op c, allowed i (past i h) op →
      le w (M.exec op c w).2) {m n : Nat} {d e : Event M} (hmn : m < n)
    (hm : h[m]? = some d) (hn : h[n]? = some e) : le d.after e.before := by
  refine (H.at_position hn).1.after_le le refl trans step (List.mem_of_getElem? (i := m) ?_)
  rw [List.getElem?_take, if_pos hmn, hm]

end History
end Machine

/-! ## Systems of threads -/

/-- The shared world, the threads (the request each one serves and what is left
of its program) and the history. -/
structure System (M : Machine F) (Req β : Type) where
  world : M.World
  threads : List (Req × Program F β)
  history : List (Event M)

/-- What a scheduler does next: admit a request, or let a thread perform its next
operation. -/
inductive Action (M : Machine F) (Req : Type) where
  | arrive (req : Req)
  | advance (i : Nat) (c : M.Choice)

namespace System
variable {M : Machine F}

/-- No thread yet, and nothing has happened. -/
def start (w : M.World) : System M Req β := ⟨w, [], []⟩

/-- The request thread `i` serves. -/
def request (s : System M Req β) (i : Nat) : Option Req := (s.threads[i]?).map Prod.fst

/-- One action of the scheduler.  `code` gives the program of each request; an
action on a thread that has ended changes nothing. -/
def step (code : Req → Program F β) (s : System M Req β) : Action M Req → System M Req β
  | .arrive req => { s with threads := s.threads ++ [(req, code req)] }
  | .advance i c =>
      match s.threads[i]? with
      | some (req, .call op k) =>
          { world := (M.exec op c s.world).2
            threads := s.threads.set i (req, k (M.exec op c s.world).1)
            history := s.history ++ [M.event i op c s.world] }
      | _ => s

/-- A run of the scheduler. -/
def run (code : Req → Program F β) (acts : List (Action M Req)) (s : System M Req β) :
    System M Req β := acts.foldl (step code) s

/-- The systems some run leads to from `w₀`. -/
def Reachable (code : Req → Program F β) (w₀ : M.World) (s : System M Req β) : Prop :=
  ∃ acts, run code acts (start w₀) = s

variable {code : Req → Program F β} {w₀ : M.World} {s : System M Req β}

theorem reachable_run (code : Req → Program F β) (w₀ : M.World) (acts : List (Action M Req)) :
    Reachable code w₀ (run code acts (start w₀)) := ⟨acts, rfl⟩

/-- What holds at the start and is kept by every action holds of every reachable
system. -/
theorem Reachable.invariant {I : System M Req β → Prop} (hs : Reachable code w₀ s)
    (start : I (start w₀)) (step : ∀ s a, I s → I (step code s a)) : I s := by
  obtain ⟨acts, rfl⟩ := hs
  suffices h : ∀ (s : System M Req β), I s → I (run code acts s) from h _ start
  induction acts with
  | nil => exact fun _ h => h
  | cons a acts ih => exact fun s h => ih _ (step s a h)

/-- Requests stay with the threads they were given to. -/
theorem request_step {i : Nat} {req : Req} (a : Action M Req) (h : s.request i = some req) :
    (s.step code a).request i = some req := by
  obtain ⟨⟨req', p⟩, ht, rfl⟩ := Option.map_eq_some_iff.mp h
  cases a with
  | arrive r =>
    have hthreads : (s.threads ++ [(r, code r)])[i]? = some (req', p) :=
      getElem?_append_of_some ht _
    simp [step, request, hthreads]
  | advance j c =>
    simp only [step]
    split
    · rename_i r op k hj
      by_cases hij : j = i
      · subst hij
        rw [ht] at hj
        obtain ⟨rfl, rfl⟩ := Prod.mk.inj (Option.some.inj hj)
        simp [request, (List.getElem?_eq_some_iff.mp ht).1]
      · simp [request, hij, ht]
    · exact h

/-- Some run leads to the world `w` by the history `h`, with `p` left of the request `req`
that thread `i` serves. -/
def Running (code : Req → Program F β) (w₀ : M.World) (i : Nat) (req : Req) (p : Program F β)
    (w : M.World) (h : List (Event M)) : Prop :=
  ∃ s : System M Req β, Reachable code w₀ s ∧ s.threads[i]? = some (req, p) ∧ s.world = w ∧
    s.history = h

theorem Running.first (code : Req → Program F β) (w₀ : M.World) (req : Req) :
    Running code w₀ 0 req (code req) w₀ [] :=
  ⟨_, reachable_run code w₀ [.arrive req], rfl, rfl, rfl⟩

theorem Running.advance {i : Nat} {req : Req} {op : F.Op} {k : Except E (F.Reply op) → Program F β}
    {w : M.World} {h : List (Event M)} (hr : Running code w₀ i req (.call op k) w h)
    (c : M.Choice) :
    Running code w₀ i req (k (M.exec op c w).1) (M.exec op c w).2 (h ++ [M.event i op c w]) := by
  obtain ⟨s, ⟨acts, hacts⟩, hi, rfl, rfl⟩ := hr
  have hlt : i < s.threads.length := (List.getElem?_eq_some_iff.mp hi).1
  have hstep : run code (acts ++ [.advance i c]) (start w₀) = s.step code (.advance i c) := by
    rw [← hacts, run, run, List.foldl_append]
    rfl
  refine ⟨_, ⟨acts ++ [.advance i c], hstep⟩, ?_⟩
  have hafter : s.step code (.advance i c) =
      ⟨(M.exec op c s.world).2, s.threads.set i (req, k (M.exec op c s.world).1),
        s.history ++ [M.event i op c s.world]⟩ := by
    simp only [step, hi]
  rw [hafter]
  exact ⟨List.getElem?_set_self hlt, rfl, rfl⟩

/-- How a thread ended, if it has. -/
def outcome (s : System M Req β) (i : Nat) : Option (Except E β) :=
  match s.threads[i]? with
  | some (_, .ret b) => some (.ok b)
  | some (_, .raise e) => some (.error e)
  | _ => none

/-- A thread that has ended serves a request. -/
theorem request_of_outcome {i : Nat} {out : Except E β} (h : s.outcome i = some out) :
    ∃ req, s.request i = some req := by
  unfold outcome at h
  cases ht : s.threads[i]? with
  | none =>
    rw [ht] at h
    cases h
  | some thread => exact ⟨thread.1, by rw [request, ht, Option.map_some]⟩

section Protocol
variable (P : Req → List (Move F) → F.Op → Prop) (Q : Req → List (Move F) → Except E β → Prop)

/-- The invariant behind `Reachable.conforms`: the history is allowed by the
requests admitted so far, and what is left of each program obeys its protocol. -/
structure Conforms (w₀ : M.World) (s : System M Req β) : Prop where
  history : M.History (fun i past op => ∃ req, s.request i = some req ∧ P req past op)
    w₀ s.history s.world
  threads : ∀ i req (p : Program F β), s.threads[i]? = some (req, p) →
    p.Obeys (P req) (Q req) (past i s.history)
  silent : ∀ i, s.threads.length ≤ i → past i s.history = []

variable {P Q}

theorem conforms_start : Conforms P Q w₀ (start w₀ : System M Req β) :=
  ⟨.nil, by simp [start], by simp [start]⟩

theorem Conforms.arrive (hcode : ∀ req, (code req).Obeys (P req) (Q req) [])
    (h : Conforms P Q w₀ s) (req : Req) : Conforms P Q w₀ (s.step code (.arrive req)) := by
  refine ⟨h.history.mono fun i past op ⟨r, hr, hP⟩ => ⟨r, request_step _ hr, hP⟩, ?_, ?_⟩
  · intro i r p hp
    change (s.threads ++ [(req, code req)])[i]? = some (r, p) at hp
    rcases getElem?_snoc.mp hp with hp | ⟨rfl, heq⟩
    · exact h.threads i r p hp
    · obtain ⟨rfl, rfl⟩ := Prod.mk.inj heq
      exact (h.silent _ (Nat.le_refl _)).symm ▸ hcode r
  · exact fun i hi => h.silent i (by simp [step] at hi; omega)

theorem Conforms.advance (h : Conforms P Q w₀ s) (i : Nat) (c : M.Choice) :
    Conforms P Q w₀ (s.step code (.advance i c)) := by
  have hreq : ∀ j req, s.request j = some req →
      (s.step code (.advance i c)).request j = some req := fun _ _ => request_step _
  simp only [step] at hreq ⊢
  split
  · rename_i req op k hi
    simp only [hi] at hreq
    have hlt : i < s.threads.length := (List.getElem?_eq_some_iff.mp hi).1
    obtain ⟨hP, hk⟩ := h.threads i req _ hi
    refine ⟨.snoc i op c (h.history.mono fun j past op ⟨r, hr, hP⟩ => ⟨r, hreq j r hr, hP⟩)
      ⟨req, hreq i req (by simp [request, hi]), hP⟩, ?_, ?_⟩
    · intro j r p hp
      by_cases hij : i = j
      · subst hij
        simp only [List.getElem?_set, hlt, if_true, Option.some.injEq, Prod.mk.injEq] at hp
        obtain ⟨rfl, rfl⟩ := hp
        rw [past_snoc_self]
        exact hk _
      · rw [past_snoc_other (Ne.symm hij)]
        exact h.threads j r p (by simpa [List.getElem?_set, hij] using hp)
    · intro j hj
      have hge : s.threads.length ≤ j := by simpa using hj
      rw [past_snoc_other (by omega)]
      exact h.silent j hge
  · exact h

/-- **Histories of reachable systems.**  If the program of every request obeys its
protocol, then in every reachable system each operation in the history was
allowed by its request's protocol, in view of its own thread's past. -/
theorem Reachable.conforms (hs : Reachable code w₀ s)
    (hcode : ∀ req, (code req).Obeys (P req) (Q req) []) : Conforms P Q w₀ s :=
  hs.invariant conforms_start fun _ a h => by
    cases a with
    | arrive req => exact h.arrive hcode req
    | advance i c => exact h.advance i c

/-- A thread that has ended has ended as its protocol says. -/
theorem Conforms.outcome (h : Conforms P Q w₀ s) {i : Nat} {req : Req} {out : Except E β}
    (hreq : s.request i = some req) (hout : s.outcome i = some out) :
    Q req (past i s.history) out := by
  obtain ⟨⟨req', p⟩, ht, rfl⟩ := Option.map_eq_some_iff.mp hreq
  have hob := h.threads i req' p ht
  simp only [System.outcome, ht] at hout
  cases p with
  | ret b =>
    obtain rfl := Option.some.inj hout
    exact hob
  | raise e =>
    obtain rfl := Option.some.inj hout
    exact hob
  | call op k => cases hout

end Protocol
end System
end Effects
