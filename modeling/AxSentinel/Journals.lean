import AxSentinel.Supplies

/-! # Journals

A journal is a list in the world that a step leaves as it is or appends an entry to, as a broker
keeps what it was sent.  Then every entry was appended by an event of the history, at the position
that was next (`Journal.origin`); nothing is taken out again (`Journal.kept`). -/
namespace Effects

variable {E : Type} {F : Signature E} {A : Type}

/-- A faulty operation that replied did what the machine does. -/
theorem Machine.faulty_exec_of_ok {M : Machine F} {raises : F.Op → E → Bool} {op : F.Op}
    {c : M.Choice × Machine.Fault E} {w : M.World} {r : F.Reply op}
    (h : ((M.faulty raises).exec op c w).1 = .ok r) :
    (M.faulty raises).exec op c w = M.exec op c.1 w := by
  rcases M.faulty_exec raises op c w with hsame | ⟨e, -, herror, -⟩
  · exact hsame
  · cases h.symm.trans herror

/-- A list that only grows; `appends` says which operations may append which entries. -/
structure Journal (M : Machine F) (A : Type) where
  entries : M.World → List A
  appends : F.Op → A → Prop
  step : ∀ op c w, entries (M.exec op c w).2 = entries w ∨
    ∃ a, appends op a ∧ entries (M.exec op c w).2 = entries w ++ [a]

namespace Journal

/-- The journal of a machine whose operations may fail. -/
def faulty {M : Machine F} (J : Journal M A) (raises : F.Op → E → Bool) :
    Journal (M.faulty raises) A where
  entries := J.entries
  appends := J.appends
  step op c w := by
    rcases M.faulty_exec raises op c w with hsame | ⟨e, -, -, hsame | hsame⟩
    · rw [hsame]
      exact J.step op c.1 w
    · rw [hsame]
      exact .inl rfl
    · rw [hsame]
      exact J.step op c.1 w

variable {M : Machine F} (J : Journal M A) {allowed : Nat → List (Move F) → F.Op → Prop}
  {w₀ w : M.World} {h : List (Event M)}

/-- The entry at a position was appended by an event, when it was the next. -/
theorem origin (H : M.History allowed w₀ h w) (hstart : J.entries w₀ = []) {n : Nat} {a : A}
    (hn : (J.entries w)[n]? = some a) :
    ∃ (k : Nat) (e : Event M), h[k]? = some e ∧ J.appends e.move.op a ∧
      (J.entries e.before).length = n := by
  induction H with
  | nil =>
    rw [hstart] at hn
    cases hn
  | @snoc h w i op c H hok ih =>
    rcases J.step op c w with hsame | ⟨b, hb, hsnoc⟩
    · rw [hsame] at hn
      obtain ⟨k, e, hk, hrest⟩ := ih hn
      exact ⟨k, e, getElem?_append_of_some hk _, hrest⟩
    · rw [hsnoc] at hn
      rcases getElem?_snoc.mp hn with hn | ⟨rfl, rfl⟩
      · obtain ⟨k, e, hk, hrest⟩ := ih hn
        exact ⟨k, e, getElem?_append_of_some hk _, hrest⟩
      · exact ⟨h.length, _, List.getElem?_concat_length, hb, rfl⟩

/-- What was in the journal after an event still is. -/
theorem kept (H : M.History allowed w₀ h w) {e : Event M} (he : e ∈ h) :
    J.entries e.after <+: J.entries w := by
  refine H.after_le (fun w w' => J.entries w <+: J.entries w') (fun _ => List.prefix_rfl)
    List.IsPrefix.trans (fun {_ w} _ i op c _ => ?_) he
  rcases J.step op c w with hsame | ⟨a, -, hsnoc⟩
  · exact hsame.symm ▸ List.prefix_rfl
  · rw [hsnoc]
    exact List.prefix_append _ _

/-- An entry whose append replied is in the journal of the world the history ends in. -/
theorem mem_of_replied {raises : F.Op → E → Bool} (J : Journal (M.faulty raises) A)
    {allowed : Nat → List (Move F) → F.Op → Prop} {w₀ w : (M.faulty raises).World}
    {h : List (Event (M.faulty raises))} (H : (M.faulty raises).History allowed w₀ h w) {i : Nat}
    {op : F.Op} {r : F.Reply op} (hm : (⟨op, .ok r⟩ : Move F) ∈ past i h) {P : A → Prop}
    (hop : ∀ c w, (M.exec op c w).1 = .ok r → ∃ a ∈ J.entries (M.exec op c w).2, P a) :
    ∃ a ∈ J.entries w, P a := by
  obtain ⟨n, e, c, hn, hevent, hexec⟩ := H.exec_of_mem_past hm
  have hsame := Machine.faulty_exec_of_ok hexec
  obtain ⟨a, ha, hP⟩ := hop c.1 e.before (hsame ▸ hexec)
  have hafter : e.after = (M.exec op c.1 e.before).2 := by
    rw [hevent]
    exact congrArg Prod.snd hsame
  exact ⟨a, (J.kept H (List.mem_of_getElem? hn)).subset (hafter ▸ ha), hP⟩

end Journal
end Effects
