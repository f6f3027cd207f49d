import AxSentinel.Interleaving

/-! # Operations carried out by programs

A program over one signature becomes a program over another when each of its operations is
carried out by a program there.  An execution of the result is one of the original, on any machine
whose operations do what these programs do (`Ends.of_interpret`). -/
namespace Effects
namespace Program
variable {E : Type} {F G : Signature E} {α β : Type}

/-- The outcome of a program: what it returns, or what it raises. -/
def outcome : Program F α → Program F (Except E α)
  | ret a => ret (.ok a)
  | raise e => ret (.error e)
  | call op k => call op fun r => (k r).outcome

/-- The program whose operations are carried out by `method`. -/
def interpret (method : (op : F.Op) → Program G (F.Reply op)) : Program F α → Program G α
  | ret a => ret a
  | raise e => raise e
  | call op k => (method op).outcome >>= fun r => (k r).interpret method

variable (method : (op : F.Op) → Program G (F.Reply op))

@[simp] theorem interpret_ret (a : α) : (ret a : Program F α).interpret method = ret a := rfl

@[simp] theorem interpret_raise (e : E) :
    (raise e : Program F α).interpret method = raise e := rfl

theorem interpret_bind (p : Program F α) (f : α → Program F β) :
    (p >>= f).interpret method = p.interpret method >>= fun a => (f a).interpret method := by
  induction p with
  | ret a => rfl
  | raise e => rfl
  | call op k ih =>
    show ((method op).outcome >>= fun r => (k r >>= f).interpret method) =
      ((method op).outcome >>= fun r => (k r).interpret method) >>= fun a =>
        (f a).interpret method
    rw [bind_bind]
    exact congrArg _ (funext ih)

/-- An outcome is never raised, so there is nothing for a handler to catch. -/
theorem tryCatch_outcome_bind (p : Program F α) (f : Except E α → Program F β)
    (handler : E → Program F β) :
    MonadExcept.tryCatch (p.outcome >>= f) handler =
      p.outcome >>= fun r => MonadExcept.tryCatch (f r) handler := by
  induction p with
  | ret a => rfl
  | raise e => rfl
  | call op k ih => exact congrArg (call op) (funext ih)

theorem interpret_tryCatch (p : Program F α) (handler : E → Program F α) :
    (MonadExcept.tryCatch p handler).interpret method =
      MonadExcept.tryCatch (p.interpret method) fun e => (handler e).interpret method := by
  induction p with
  | ret a => rfl
  | raise e => rfl
  | call op k ih =>
    refine Eq.trans ?_ (tryCatch_outcome_bind (method op) _ _).symm
    exact congrArg _ (funext ih)

/-- A program is its outcome, raised again. -/
theorem outcome_bind_ofExcept (p : Program F α) : p.outcome >>= ofExcept = p := by
  induction p with
  | ret a => rfl
  | raise e => rfl
  | call op k ih => exact congrArg (call op) (funext ih)

theorem interpret_perform (op : F.Op) : (perform F op).interpret method = method op := by
  refine Eq.trans ?_ (outcome_bind_ofExcept (method op))
  refine congrArg _ (funext fun r => ?_)
  cases r with
  | ok r => rfl
  | error e => rfl

/-- An operation is carried out, and what comes after it is interpreted. -/
theorem bind_eq_interpret (op : F.Op) {f : F.Reply op → Program F α}
    {g : F.Reply op → Program G α} (h : ∀ r, g r = (f r).interpret method) :
    method op >>= g = (perform F op >>= f).interpret method := by
  rw [interpret_bind, interpret_perform]
  exact congrArg _ (funext h)

end Program

namespace Machine
variable {E : Type} {F G : Signature E} {α : Type} {M : Machine F} {N : Machine G}

theorem Ends.of_outcome {p : Program G α} {v v' : N.World} {out : Except E (Except E α)}
    (h : N.Ends p.outcome v out v') : ∃ r, out = .ok r ∧ N.Ends p v r v' := by
  induction p generalizing v with
  | ret a =>
    cases h
    exact ⟨.ok a, rfl, .ret a _⟩
  | raise e =>
    cases h
    exact ⟨.error e, rfl, .raise e _⟩
  | call op k ih =>
    rcases h with _ | _ | ⟨_, _, c, hend⟩
    obtain ⟨r, hout, hend⟩ := ih _ hend
    exact ⟨r, hout, .call op k c hend⟩

theorem Ends.of_ret {a : α} {out : Except E α} {w w' : M.World} (h : M.Ends (.ret a) w out w') :
    out = .ok a ∧ w' = w := by
  cases h
  exact ⟨rfl, rfl⟩

/-- **Simulation.**  Where the operations of a machine do what the programs that carry them out
do, an execution of the interpreted program is one of the program itself. -/
theorem Ends.of_interpret {method : (op : F.Op) → Program G (F.Reply op)}
    {R : M.World → N.World → Prop}
    (hmethod : ∀ op w v r v', R w v → N.Ends (method op) v r v' →
      ∃ c, (M.exec op c w).1 = r ∧ R (M.exec op c w).2 v')
    {p : Program F α} {w : M.World} {v v' : N.World} {out : Except E α} (hR : R w v)
    (h : N.Ends (p.interpret method) v out v') : ∃ w', M.Ends p w out w' ∧ R w' v' := by
  induction p generalizing w v with
  | ret a =>
    cases h
    exact ⟨w, .ret a w, hR⟩
  | raise e =>
    cases h
    exact ⟨w, .raise e w, hR⟩
  | call op k ih =>
    rcases Ends.of_bind h with ⟨r, v₁, hop, hrest⟩ | ⟨e, -, hop⟩
    · obtain ⟨r', hr, hop⟩ := hop.of_outcome
      obtain rfl := Except.ok.inj hr
      obtain ⟨c, rfl, hR'⟩ := hmethod op w v _ v₁ hR hop
      obtain ⟨w', hend, hR''⟩ := ih _ hR' hrest
      exact ⟨w', .call op k c hend, hR''⟩
    · obtain ⟨r, hr, -⟩ := hop.of_outcome
      cases hr

/-- What the operations a program is restricted to leave alone, the program leaves alone. -/
theorem Ends.keeps {X : Type} {f : M.World → X} {S : F.Op → Prop}
    (hop : ∀ op c w, S op → f (M.exec op c w).2 = f w) {p : Program F α} {past : List (Move F)}
    (hp : p.Obeys (fun _ op => S op) (fun _ _ => True) past) {w w' : M.World} {out : Except E α}
    (h : M.Ends p w out w') : f w' = f w := by
  induction h generalizing past with
  | ret a w => rfl
  | raise e w => rfl
  | call op k c _ ih => exact (ih (hp.2 _)).trans (hop op c _ hp.1)

/-- What the programs that carry out a program's operations leave alone, the whole leaves alone. -/
theorem Ends.keeps_interpret {X : Type} {f : N.World → X} {S : F.Op → Prop}
    {method : (op : F.Op) → Program G (F.Reply op)}
    (hmethod : ∀ op v r v', S op → N.Ends (method op) v r v' → f v' = f v) {p : Program F α}
    {past : List (Move F)} (hp : p.Obeys (fun _ op => S op) (fun _ _ => True) past)
    {v v' : N.World} {out : Except E α} (h : N.Ends (p.interpret method) v out v') :
    f v' = f v := by
  induction p generalizing v past with
  | ret a =>
    cases h
    rfl
  | raise e =>
    cases h
    rfl
  | call op k ih =>
    rcases Ends.of_bind h with ⟨r, v₁, hop, hrest⟩ | ⟨e, -, hop⟩
    · obtain ⟨r', -, hop⟩ := hop.of_outcome
      exact (ih _ (hp.2 _) hrest).trans (hmethod op v _ v₁ hp.1 hop)
    · obtain ⟨r, hr, -⟩ := hop.of_outcome
      cases hr

/-- A program over the left of two signatures leaves the machine on the right alone. -/
theorem Ends.of_left {p : Program F α} {w w' : (M.sum N).World} {out : Except E α}
    (h : (M.sum N).Ends p.left w out w') : M.Ends p w.1 out w'.1 ∧ w'.2 = w.2 := by
  induction p generalizing w with
  | ret a =>
    cases h
    exact ⟨.ret a _, rfl⟩
  | raise e =>
    cases h
    exact ⟨.raise e _, rfl⟩
  | call op k ih =>
    rcases h with _ | _ | ⟨_, _, c, hend⟩
    obtain ⟨hend, hright⟩ := ih _ hend
    exact ⟨.call op k c.1 hend, hright⟩

/-- A program over the right of two signatures leaves the machine on the left alone. -/
theorem Ends.of_right {p : Program G α} {w w' : (M.sum N).World} {out : Except E α}
    (h : (M.sum N).Ends p.right w out w') : N.Ends p w.2 out w'.2 ∧ w'.1 = w.1 := by
  induction p generalizing w with
  | ret a =>
    cases h
    exact ⟨.ret a _, rfl⟩
  | raise e =>
    cases h
    exact ⟨.raise e _, rfl⟩
  | call op k ih =>
    rcases h with _ | _ | ⟨_, _, c, hend⟩
    obtain ⟨hend, hleft⟩ := ih _ hend
    exact ⟨.call op k c.2 hend, hleft⟩

end Machine
end Effects
