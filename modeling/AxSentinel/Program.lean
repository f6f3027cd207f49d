import Mathlib.Logic.Basic

/-! # Effectful programs and the machines that run them

A `Program` is a finite-depth tree of operations: at each node it performs one
operation of its `Signature` and continues with the reply, or with the
exception the operation raised.  Nothing here says what an operation does: that
is a `Machine`, a world and a total function on it.  The outcomes a machine
may choose among (a clock reading, a reply of a remote service, a fault) are its
`Choice`s, so that one program has many executions.

Two readings of a program follow.  `Ends` is the big-step reading, one execution
from start to end without interference; `wp` is its weakest precondition, the
rule sequential proofs use, and `safe` adds an invariant of the worlds on the
way.  `Obeys` is about the program alone: whatever the replies are, every
operation it performs is allowed by its own past.  It is the rule proofs about
interleaved programs use (see `Interleaving`).
-/
namespace Effects

/-! ## Computations that may raise -/

/-- A sequence that succeeds. -/
theorem exists_of_bind {E α β : Type} {x : Except E α} {f : α → Except E β} {b : β}
    (h : x >>= f = .ok b) : ∃ a, x = .ok a ∧ f a = .ok b := by
  cases x with
  | error e => cases h
  | ok a => exact ⟨a, rfl, h⟩

theorem ok_bind {E α β : Type} (a : α) (f : α → Except E β) :
    ((.ok a : Except E α) >>= f) = f a :=
  rfl

/-- What a `mapM` that succeeds returns comes from the list. -/
theorem exists_of_mapM {E α β : Type} {f : α → Except E β} {xs : List α} {ys : List β}
    (h : xs.mapM f = .ok ys) {y : β} (hy : y ∈ ys) : ∃ x ∈ xs, f x = .ok y := by
  induction xs generalizing ys with
  | nil =>
    obtain rfl := Except.ok.inj (show Except.ok [] = Except.ok ys from h)
    cases hy
  | cons x xs ih =>
    rw [List.mapM_cons] at h
    obtain ⟨z, hz, h⟩ := exists_of_bind h
    obtain ⟨zs, hzs, h⟩ := exists_of_bind h
    obtain rfl := Except.ok.inj (show Except.ok (z :: zs) = Except.ok ys from h)
    rcases List.mem_cons.mp hy with rfl | hy
    · exact ⟨x, List.mem_cons_self, hz⟩
    · obtain ⟨x', hx', hfx'⟩ := ih hzs hy
      exact ⟨x', List.mem_cons_of_mem _ hx', hfx'⟩

/-- What a `mapM` that succeeds returns corresponds to the list item by item. -/
theorem map_of_mapM {E α β γ : Type} {f : α → Except E β} {xs : List α} {ys : List β} {g : β → γ}
    {g' : α → γ} (h : xs.mapM f = .ok ys) (hg : ∀ x ∈ xs, ∀ y, f x = .ok y → g y = g' x) :
    ys.map g = xs.map g' := by
  induction xs generalizing ys with
  | nil =>
    obtain rfl := Except.ok.inj (show Except.ok [] = Except.ok ys from h)
    rfl
  | cons x xs ih =>
    obtain ⟨hx, hxs⟩ := List.forall_mem_cons.mp hg
    rw [List.mapM_cons] at h
    obtain ⟨z, hz, h⟩ := exists_of_bind h
    obtain ⟨zs, hzs, h⟩ := exists_of_bind h
    obtain rfl := Except.ok.inj (show Except.ok (z :: zs) = Except.ok ys from h)
    rw [List.map_cons, List.map_cons, hx z hz, ih hzs hxs]

/-- A `mapM` that raises does so for an item, and leaving out others makes no difference. -/
theorem mapM_filter_error {E α β : Type} {f : α → Except E β} {p : α → Bool} {xs : List α} {e : E}
    (hkeep : ∀ x ∈ xs, (∃ e, f x = .error e) → p x = true) (h : xs.mapM f = .error e) :
    (xs.filter p).mapM f = .error e := by
  induction xs with
  | nil => cases h
  | cons x xs ih =>
    obtain ⟨hx, hxs⟩ := List.forall_mem_cons.mp hkeep
    rw [List.mapM_cons] at h
    cases hfx : f x with
    | error e' =>
      rw [hfx] at h
      rw [List.filter_cons_of_pos (hx ⟨e', hfx⟩), List.mapM_cons, hfx]
      exact h
    | ok y =>
      rw [hfx] at h
      have hrest : xs.mapM f = .error e := by
        cases hmap : xs.mapM f with
        | error e' =>
          rw [hmap] at h
          exact h
        | ok ys =>
          rw [hmap] at h
          cases h
      by_cases hp : p x = true
      · rw [List.filter_cons_of_pos hp, List.mapM_cons, hfx, ih hxs hrest]
        rfl
      · rw [List.filter_cons_of_neg hp]
        exact ih hxs hrest

/-- A `mapM` succeeds if it does for each item. -/
theorem exists_mapM_iff {E α β : Type} {f : α → Except E β} {xs : List α} :
    (∃ ys, xs.mapM f = .ok ys) ↔ ∀ x ∈ xs, ∃ y, f x = .ok y := by
  induction xs with
  | nil => exact iff_of_true ⟨[], rfl⟩ fun _ hx => absurd hx List.not_mem_nil
  | cons x xs ih =>
    rw [List.mapM_cons, List.forall_mem_cons, ← ih]
    constructor
    · rintro ⟨_, h⟩
      obtain ⟨y, hy, h⟩ := exists_of_bind h
      obtain ⟨ys, hys, -⟩ := exists_of_bind h
      exact ⟨⟨y, hy⟩, ys, hys⟩
    · rintro ⟨⟨y, hy⟩, ys, hys⟩
      exact ⟨y :: ys, by rw [hy, hys]; rfl⟩

/-! ## Programs -/

/-- The operations of a kind of program, and the reply each one gives.  `E` is
the type of the exceptions they may raise. -/
structure Signature (E : Type) where
  Op : Type
  Reply : Op → Type

variable {E : Type}

/-- Programs over a signature: they return, raise, or perform an operation and
continue with its outcome. -/
inductive Program (F : Signature E) (α : Type) where
  | ret (a : α)
  | raise (e : E)
  | call (op : F.Op) (k : Except E (F.Reply op) → Program F α)

/-- Two signatures side by side. -/
abbrev Signature.sum (F G : Signature E) : Signature E where
  Op := F.Op ⊕ G.Op
  Reply := Sum.elim F.Reply G.Reply

namespace Program
variable {F G : Signature E} {α β : Type}

/-- Sequencing; an exception ends the program. -/
def bind : Program F α → (α → Program F β) → Program F β
  | ret a, f => f a
  | raise e, _ => raise e
  | call op k, f => call op fun r => (k r).bind f

/-- `p`, with the exceptions it raises handled by `handler`. -/
def tryCatch : Program F α → (E → Program F α) → Program F α
  | ret a, _ => ret a
  | raise e, handler => handler e
  | call op k, handler => call op fun r => (k r).tryCatch handler

instance : Monad (Program F) where
  pure := ret
  bind := bind

instance : MonadExcept E (Program F) where
  throw := raise
  tryCatch := tryCatch

/-- One operation; its exception, if any, is the program's. -/
def perform (F : Signature E) (op : F.Op) : Program F (F.Reply op) :=
  call op fun
    | .ok r => ret r
    | .error e => raise e

/-- A computation without operations. -/
def ofExcept : Except E α → Program F α
  | .ok a => ret a
  | .error e => raise e

/-- A program over the left signature, read over both. -/
def left : Program F α → Program (F.sum G) α
  | ret a => ret a
  | raise e => raise e
  | call op k => call (.inl op : (F.sum G).Op) fun r => (k r).left

/-- A program over the right signature, read over both. -/
def right : Program G α → Program (F.sum G) α
  | ret a => ret a
  | raise e => raise e
  | call op k => call (.inr op : (F.sum G).Op) fun r => (k r).right

@[simp] theorem pure_eq (a : α) : (pure a : Program F α) = ret a := rfl
@[simp] theorem throw_eq (e : E) : (throw e : Program F α) = raise e := rfl
@[simp] theorem ret_bind (a : α) (f : α → Program F β) : ret a >>= f = f a := rfl
@[simp] theorem raise_bind (e : E) (f : α → Program F β) : raise e >>= f = raise e := rfl
@[simp] theorem call_bind (op : F.Op) (k : Except E (F.Reply op) → Program F α)
    (f : α → Program F β) : call op k >>= f = call op fun r => k r >>= f := rfl

/-- Two programs that start with one operation are equal if they go on alike. -/
theorem call_congr {op : F.Op} {k k' : Except E (F.Reply op) → Program F α}
    (hok : ∀ r, k (.ok r) = k' (.ok r)) (herror : ∀ e, k (.error e) = k' (.error e)) :
    call op k = call op k' :=
  congrArg (call op) (funext fun
    | .ok r => hok r
    | .error e => herror e)

theorem map_id (p : Program F α) : id <$> p = p := by
  induction p with
  | ret a => rfl
  | raise e => rfl
  | call op k ih => exact congrArg (call op) (funext ih)

theorem bind_bind {γ : Type} (p : Program F α) (f : α → Program F β) (g : β → Program F γ) :
    p >>= f >>= g = p >>= fun a => f a >>= g := by
  induction p with
  | ret a => rfl
  | raise e => rfl
  | call op k ih => exact congrArg (call op) (funext ih)

instance : LawfulMonad (Program F) := .mk' _ map_id (fun _ _ => rfl) bind_bind

@[simp] theorem ofExcept_ok (a : α) : (ofExcept (.ok a) : Program F α) = ret a := rfl
@[simp] theorem ofExcept_error (e : E) : (ofExcept (.error e) : Program F α) = raise e := rfl

@[simp] theorem tryCatch_ret (a : α) (h : E → Program F α) :
    MonadExcept.tryCatch (ret a : Program F α) h = ret a := rfl
@[simp] theorem tryCatch_raise (e : E) (h : E → Program F α) :
    MonadExcept.tryCatch (raise e : Program F α) h = h e := rfl
@[simp] theorem tryCatch_call (op : F.Op) (k : Except E (F.Reply op) → Program F α)
    (h : E → Program F α) :
    MonadExcept.tryCatch (call op k) h = call op fun r => MonadExcept.tryCatch (k r) h := rfl

end Program

/-- What the operations of a signature do: a world, the choices left open, and
the outcome of an operation under a choice. -/
structure Machine (F : Signature E) where
  World : Type
  Choice : Type
  exec : (op : F.Op) → Choice → World → Except E (F.Reply op) × World

namespace Machine
variable {F G : Signature E} {α β : Type}

/-- Two machines side by side, each with its own world. -/
abbrev sum (M : Machine F) (N : Machine G) : Machine (F.sum G) where
  World := M.World × N.World
  Choice := M.Choice × N.Choice
  exec
    | .inl op, c, w => ((M.exec op c.1 w.1).1, (M.exec op c.1 w.1).2, w.2)
    | .inr op, c, w => ((N.exec op c.2 w.2).1, w.1, (N.exec op c.2 w.2).2)

/-- How an operation may go wrong: not at all, before it takes effect, or after,
when only its reply is lost. -/
inductive Fault (E : Type) where
  | none
  | lost (e : E)
  | late (e : E)
deriving Inhabited

/-- The machine whose operations may raise at any point, each the exceptions it
`raises`. -/
abbrev faulty (M : Machine F) (raises : F.Op → E → Bool) : Machine F where
  World := M.World
  Choice := M.Choice × Fault E
  exec op c w :=
    match c.2 with
    | .none => M.exec op c.1 w
    | .lost e => if raises op e then (.error e, w) else M.exec op c.1 w
    | .late e => if raises op e then (.error e, (M.exec op c.1 w).2) else M.exec op c.1 w

/-- A faulty operation either does what the machine does, or raises, with or
without its effect. -/
theorem faulty_exec (M : Machine F) (raises : F.Op → E → Bool) (op : F.Op)
    (c : M.Choice × Fault E) (w : M.World) :
    (M.faulty raises).exec op c w = M.exec op c.1 w ∨
      ∃ e, raises op e = true ∧ ((M.faulty raises).exec op c w).1 = .error e ∧
        (((M.faulty raises).exec op c w).2 = w ∨
          ((M.faulty raises).exec op c w).2 = (M.exec op c.1 w).2) := by
  obtain ⟨c, f⟩ := c
  cases f with
  | none => exact .inl rfl
  | lost e =>
    cases he : raises op e with
    | false => exact .inl (by simp [faulty, he])
    | true => exact .inr ⟨e, he, by simp [faulty, he], .inl (by simp [faulty, he])⟩
  | late e =>
    cases he : raises op e with
    | false => exact .inl (by simp [faulty, he])
    | true => exact .inr ⟨e, he, by simp [faulty, he], .inr (by simp [faulty, he])⟩

/-! ## One execution, start to end -/

/-- `M.Ends p w out w'`: some execution of `p` from `w` ends in `w'` with the
outcome `out`. -/
inductive Ends (M : Machine F) : Program F α → M.World → Except E α → M.World → Prop
  | ret (a w) : M.Ends (.ret a) w (.ok a) w
  | raise (e w) : M.Ends (.raise e) w (.error e) w
  | call (op k) (c : M.Choice) {w w' : M.World} {out : Except E α} :
      M.Ends (k (M.exec op c w).1) (M.exec op c w).2 out w' → M.Ends (.call op k) w out w'

/-- The weakest precondition of `p` for `Q`, over all its executions. -/
def wp (M : Machine F) :
    Program F α → (Except E α → M.World → Prop) → M.World → Prop
  | .ret a, Q, w => Q (.ok a) w
  | .raise e, Q, w => Q (.error e) w
  | .call op k, Q, w => ∀ c, M.wp (k (M.exec op c w).1) Q (M.exec op c w).2

variable {M : Machine F}

@[simp] theorem wp_ret {a : α} {Q : Except E α → M.World → Prop} {w : M.World} :
    M.wp (.ret a) Q w ↔ Q (.ok a) w := Iff.rfl

@[simp] theorem wp_raise {e : E} {Q : Except E α → M.World → Prop} {w : M.World} :
    M.wp (.raise e) Q w ↔ Q (.error e) w := Iff.rfl

theorem wp_mono {p : Program F α} {Q R : Except E α → M.World → Prop} {w : M.World}
    (h : M.wp p Q w) (hQR : ∀ out w', Q out w' → R out w') : M.wp p R w := by
  induction p generalizing w with
  | ret a => exact hQR _ _ h
  | raise e => exact hQR _ _ h
  | call op k ih => exact fun c => ih _ (h c)

/-- One operation, whatever is chosen. -/
theorem wp_perform {op : F.Op} {Q : Except E (F.Reply op) → M.World → Prop} {w : M.World} :
    M.wp (Program.perform F op) Q w ↔ ∀ c, Q (M.exec op c w).1 (M.exec op c w).2 := by
  refine forall_congr' fun c => ?_
  cases (M.exec op c w).1 with
  | ok r => exact Iff.rfl
  | error e => exact Iff.rfl

/-- Sequencing: what the first program leaves is what the second starts from. -/
theorem wp_bind {p : Program F α} {f : α → Program F β}
    {Q : Except E β → M.World → Prop} {w : M.World} :
    M.wp (p >>= f) Q w ↔ M.wp p (fun out w' =>
      match out with
      | .ok a => M.wp (f a) Q w'
      | .error e => Q (.error e) w') w := by
  induction p generalizing w with
  | ret a => exact Iff.rfl
  | raise e => exact Iff.rfl
  | call op k ih => exact forall_congr' fun c => ih _

/-- Handlers: what the program leaves when it raises is what the handler starts
from. -/
theorem wp_tryCatch {p : Program F α} {handler : E → Program F α}
    {Q : Except E α → M.World → Prop} {w : M.World} :
    M.wp (MonadExcept.tryCatch p handler) Q w ↔ M.wp p (fun out w' =>
      match out with
      | .ok a => Q (.ok a) w'
      | .error e => M.wp (handler e) Q w') w := by
  induction p generalizing w with
  | ret a => exact Iff.rfl
  | raise e => exact Iff.rfl
  | call op k ih => exact forall_congr' fun c => ih _

/-- `wp` speaks about exactly the executions of `Ends`. -/
theorem wp_iff_ends {p : Program F α} {Q : Except E α → M.World → Prop} {w : M.World} :
    M.wp p Q w ↔ ∀ out w', M.Ends p w out w' → Q out w' := by
  induction p generalizing w with
  | ret a =>
    constructor
    · rintro h _ _ ⟨⟩
      exact h
    · exact fun h => h _ _ (.ret a w)
  | raise e =>
    constructor
    · rintro h _ _ ⟨⟩
      exact h
    · exact fun h => h _ _ (.raise e w)
  | call op k ih =>
    constructor
    · rintro h out w' (_ | _ | ⟨_, _, c, hend⟩)
      exact (ih _).mp (h c) out w' hend
    · intro h c
      exact (ih _).mpr fun out w' hend => h out w' (.call op k c hend)

theorem Ends.of_wp {p : Program F α} {Q : Except E α → M.World → Prop} {w w' : M.World}
    {out : Except E α} (hend : M.Ends p w out w') (h : M.wp p Q w) : Q out w' :=
  wp_iff_ends.mp h out w' hend

/-- Two executions, one after the other. -/
theorem Ends.bind {p : Program F α} {f : α → Program F β} {a : α} {w w₁ w' : M.World}
    {out : Except E β} (hp : M.Ends p w (.ok a) w₁) (hf : M.Ends (f a) w₁ out w') :
    M.Ends (p >>= f) w out w' := by
  induction p generalizing w with
  | ret b =>
    cases hp
    exact hf
  | raise e => cases hp
  | call op k ih =>
    rcases hp with _ | _ | ⟨_, _, c, hend⟩
    exact .call op _ c (ih _ hend)

/-- An operation that replies. -/
theorem Ends.perform {op : F.Op} {r : F.Reply op} {w w' : M.World} (c : M.Choice)
    (hexec : M.exec op c w = (.ok r, w')) : M.Ends (Program.perform F op) w (.ok r) w' := by
  refine .call op _ c ?_
  rw [hexec]
  exact .ret r w'

/-- One operation, whatever its outcome. -/
theorem Ends.of_perform {op : F.Op} {r : Except E (F.Reply op)} {w w' : M.World}
    (h : M.Ends (Program.perform F op) w r w') : ∃ c, M.exec op c w = (r, w') := by
  rcases h with _ | _ | ⟨_, _, c, hend⟩
  refine ⟨c, ?_⟩
  cases hreply : (M.exec op c w).1 with
  | ok r' =>
    rw [hreply] at hend
    cases hend
    exact Prod.ext hreply rfl
  | error e =>
    rw [hreply] at hend
    cases hend
    exact Prod.ext hreply rfl

/-- A computation without operations. -/
theorem Ends.of_ofExcept {x out : Except E α} {w w' : M.World}
    (h : M.Ends (Program.ofExcept x) w out w') : x = out ∧ w = w' := by
  cases x with
  | ok a =>
    cases h
    exact ⟨rfl, rfl⟩
  | error e =>
    cases h
    exact ⟨rfl, rfl⟩

/-- An execution of a sequence is one of its first program, and if that one returns, one
of the second from there. -/
theorem Ends.of_bind {p : Program F α} {f : α → Program F β} {w w' : M.World}
    {out : Except E β} (h : M.Ends (p >>= f) w out w') :
    (∃ a w₁, M.Ends p w (.ok a) w₁ ∧ M.Ends (f a) w₁ out w') ∨
      ∃ e, out = .error e ∧ M.Ends p w (.error e) w' := by
  induction p generalizing w with
  | ret a => exact .inl ⟨a, w, .ret a w, h⟩
  | raise e =>
    cases h
    exact .inr ⟨e, rfl, .raise e _⟩
  | call op k ih =>
    rcases h with _ | _ | ⟨_, _, c, hend⟩
    rcases ih _ hend with ⟨a, w₁, hp, hf⟩ | ⟨e, hout, hp⟩
    · exact .inl ⟨a, w₁, .call op k c hp, hf⟩
    · exact .inr ⟨e, hout, .call op k c hp⟩

/-- A sequence that returns. -/
theorem Ends.of_bind_ok {p : Program F α} {f : α → Program F β} {w w' : M.World} {b : β}
    (h : M.Ends (p >>= f) w (.ok b) w') :
    ∃ a w₁, M.Ends p w (.ok a) w₁ ∧ M.Ends (f a) w₁ (.ok b) w' := by
  rcases h.of_bind with hok | ⟨e, hout, -⟩
  · exact hok
  · cases hout

/-- An execution of a program with a handler is one of the program, if that one returns, and
otherwise goes on with the handler. -/
theorem Ends.of_tryCatch {p : Program F α} {handler : E → Program F α} {w w' : M.World}
    {out : Except E α} (h : M.Ends (MonadExcept.tryCatch p handler) w out w') :
    (∃ a, out = .ok a ∧ M.Ends p w (.ok a) w') ∨
      ∃ e w₁, M.Ends p w (.error e) w₁ ∧ M.Ends (handler e) w₁ out w' := by
  induction p generalizing w with
  | ret a =>
    cases h
    exact .inl ⟨a, rfl, .ret a _⟩
  | raise e => exact .inr ⟨e, w, .raise e w, h⟩
  | call op k ih =>
    rcases h with _ | _ | ⟨_, _, c, hend⟩
    rcases ih _ hend with ⟨a, hout, hp⟩ | ⟨e, w₁, hp, hhandler⟩
    · exact .inl ⟨a, hout, .call op k c hp⟩
    · exact .inr ⟨e, w₁, .call op k c hp, hhandler⟩

/-- An execution in which nothing fails is one of the faulty machine. -/
theorem Ends.faulty {raises : F.Op → E → Bool} {p : Program F α} {w w' : M.World}
    {out : Except E α} (h : M.Ends p w out w') : (M.faulty raises).Ends p w out w' := by
  induction h with
  | ret a w => exact .ret (M := M.faulty raises) a w
  | raise e w => exact .raise (M := M.faulty raises) e w
  | call op k c _ ih => exact .call (M := M.faulty raises) op k (c, .none) ih

/-- An operation of a faulty machine that replies does what the machine does. -/
theorem Ends.of_faulty_perform {raises : F.Op → E → Bool} {op : F.Op} {r : F.Reply op}
    {w w' : M.World} (h : (M.faulty raises).Ends (Program.perform F op) w (.ok r) w') :
    ∃ c, M.exec op c w = (.ok r, w') := by
  obtain ⟨c, hexec⟩ := h.of_perform
  rcases M.faulty_exec raises op c w with heq | ⟨e, -, herror, -⟩
  · exact ⟨c.1, heq.symm.trans hexec⟩
  · cases herror.symm.trans (congrArg Prod.fst hexec)

/-! ## The worlds on the way -/

/-- The worlds an execution of `p` from `w` passes through. -/
inductive Visits (M : Machine F) : Program F α → M.World → M.World → Prop
  | here (p w) : M.Visits p w w
  | later (op k) (c : M.Choice) {w w' : M.World} :
      M.Visits (k (M.exec op c w).1) (M.exec op c w).2 w' → M.Visits (.call op k) w w'

/-- Every execution of `p` from `w` keeps `I` all the way, and ends as `Q` says. -/
def safe (M : Machine F) (I : M.World → Prop) :
    Program F α → (Except E α → M.World → Prop) → M.World → Prop
  | .ret a, Q, w => I w ∧ Q (.ok a) w
  | .raise e, Q, w => I w ∧ Q (.error e) w
  | .call op k, Q, w => I w ∧ ∀ c, M.safe I (k (M.exec op c w).1) Q (M.exec op c w).2

variable {I : M.World → Prop}

theorem safe_mono {J : M.World → Prop} {p : Program F α} {Q R : Except E α → M.World → Prop}
    {w : M.World} (h : M.safe I p Q w) (hIJ : ∀ w', I w' → J w')
    (hQR : ∀ out w', I w' → Q out w' → R out w') : M.safe J p R w := by
  induction p generalizing w with
  | ret a => exact ⟨hIJ _ h.1, hQR _ _ h.1 h.2⟩
  | raise e => exact ⟨hIJ _ h.1, hQR _ _ h.1 h.2⟩
  | call op k ih => exact ⟨hIJ _ h.1, fun c => ih _ (h.2 c)⟩

theorem safe_bind {p : Program F α} {f : α → Program F β}
    {Q : Except E β → M.World → Prop} {w : M.World}
    (h : M.safe I p (fun out w' =>
      match out with
      | .ok a => M.safe I (f a) Q w'
      | .error e => Q (.error e) w') w) : M.safe I (p >>= f) Q w := by
  induction p generalizing w with
  | ret a => exact h.2
  | raise e => exact h
  | call op k ih => exact ⟨h.1, fun c => ih _ (h.2 c)⟩

theorem safe_tryCatch {p : Program F α} {handler : E → Program F α}
    {Q : Except E α → M.World → Prop} {w : M.World}
    (h : M.safe I p (fun out w' =>
      match out with
      | .ok a => Q (.ok a) w'
      | .error e => M.safe I (handler e) Q w') w) :
    M.safe I (MonadExcept.tryCatch p handler) Q w := by
  induction p generalizing w with
  | ret a => exact h
  | raise e => exact h.2
  | call op k ih => exact ⟨h.1, fun c => ih _ (h.2 c)⟩

theorem safe_start {p : Program F α} {Q : Except E α → M.World → Prop} {w : M.World}
    (h : M.safe I p Q w) : I w := by
  cases p with
  | ret a => exact h.1
  | raise e => exact h.1
  | call op k => exact h.1

/-- An operation of a faulty machine does what the machine does, or raises. -/
theorem safe_faulty {raises : F.Op → E → Bool} {op : F.Op}
    {k : Except E (F.Reply op) → Program F α} {Q : Except E α → M.World → Prop} {w : M.World}
    (hI : I w)
    (hexec : ∀ c, (M.faulty raises).safe I (k (M.exec op c w).1) Q (M.exec op c w).2)
    (hraise : ∀ e c, raises op e = true → (M.faulty raises).safe I (k (.error e)) Q w ∧
      (M.faulty raises).safe I (k (.error e)) Q (M.exec op c w).2) :
    (M.faulty raises).safe I (.call op k) Q w := by
  refine ⟨hI, fun c => ?_⟩
  rcases M.faulty_exec raises op c w with h | ⟨e, he, hreply, hworld⟩
  · rw [h]
    exact hexec c.1
  · rw [hreply]
    rcases hworld with hworld | hworld <;> rw [hworld]
    · exact (hraise e c.1 he).1
    · exact (hraise e c.1 he).2

theorem Ends.of_safe {p : Program F α} {Q : Except E α → M.World → Prop} {w w' : M.World}
    {out : Except E α} (hend : M.Ends p w out w') (h : M.safe I p Q w) : I w' ∧ Q out w' := by
  induction hend with
  | ret a w => exact h
  | raise e w => exact h
  | call op k c _ ih => exact ih (h.2 c)

theorem Visits.of_safe {p : Program F α} {Q : Except E α → M.World → Prop} {w w' : M.World}
    (hvisits : M.Visits p w w') (h : M.safe I p Q w) : I w' := by
  induction hvisits with
  | here p w => exact safe_start h
  | later op k c _ ih => exact ih (h.2 c)

/-! ## Computed executions -/

/-- The execution that makes the choices of a list, then the default one. -/
def execute [Inhabited M.Choice] : List M.Choice → Program F α → M.World →
    Except E α × M.World
  | _, .ret a, w => (.ok a, w)
  | _, .raise e, w => (.error e, w)
  | cs, .call op k, w =>
      let c := cs.headD default
      execute cs.tail (k (M.exec op c w).1) (M.exec op c w).2

theorem execute_call [Inhabited M.Choice] (c : M.Choice) (cs : List M.Choice) (op : F.Op)
    (k : Except E (F.Reply op) → Program F α) (w : M.World) :
    M.execute (c :: cs) (.call op k) w = M.execute cs (k (M.exec op c w).1) (M.exec op c w).2 := rfl

/-- What `execute` computes is an execution. -/
theorem ends_execute [Inhabited M.Choice] (cs : List M.Choice) (p : Program F α)
    (w : M.World) : M.Ends p w (execute cs p w).1 (execute cs p w).2 := by
  induction p generalizing cs w with
  | ret a => exact .ret a w
  | raise e => exact .raise e w
  | call op k ih => exact .call op k _ (ih _ _ _)

end Machine
end Effects
