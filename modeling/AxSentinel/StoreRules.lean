import AxSentinel.Service
import AxSentinel.StoredItems

/-! # Rules for programs over the repository

Whatever a protocol allows, a program obeys it if each of its steps does; a call of the repository
is one step, or the three of a `put`. -/

namespace Effects

/-- A `mapM` that raises does so for an item. -/
theorem exists_of_mapM_error {E α β : Type} {f : α → Except E β} {xs : List α} {e : E}
    (h : xs.mapM f = .error e) : ∃ x ∈ xs, f x = .error e := by
  induction xs with
  | nil => cases h
  | cons x xs ih =>
    rw [List.mapM_cons] at h
    cases hfx : f x with
    | error e' =>
      rw [hfx] at h
      obtain rfl := Except.error.inj (show (.error e' : Except E (List β)) = .error e from h)
      exact ⟨x, List.mem_cons_self, hfx⟩
    | ok y =>
      rw [hfx] at h
      cases hmap : xs.mapM f with
      | error e' =>
        rw [hmap] at h
        obtain rfl := Except.error.inj (show (.error e' : Except E (List β)) = .error e from h)
        obtain ⟨x', hx', hraised⟩ := ih hmap
        exact ⟨x', List.mem_cons_of_mem _ hx', hraised⟩
      | ok ys =>
        rw [hmap] at h
        cases h

namespace Program
variable {E : Type} {F : Signature E} {α β : Type} {P : List (Move F) → F.Op → Prop}
  {Q : List (Move F) → Except E β → Prop} {past : List (Move F)}

/-- What a program leaves behind extends what was behind it. -/
theorem Obeys.extends {Q : List (Move F) → Except E α → Prop} {p : Program F α}
    (h : p.Obeys P Q past) : p.Obeys P (fun past' out => past ⊆ past' ∧ Q past' out) past := by
  induction p generalizing past with
  | ret a => exact ⟨fun _ => id, h⟩
  | raise e => exact ⟨fun _ => id, h⟩
  | call op k ih =>
    refine ⟨h.1, fun r => (ih r (h.2 r)).mono (fun _ _ => id) fun past' out hout => ?_⟩
    exact ⟨fun m hm => hout.1 (List.mem_append_left _ hm), hout.2⟩

theorem obeys_perform_bind {op : F.Op} {f : F.Reply op → Program F β} (hop : P past op)
    (herr : ∀ e, Q (past ++ [⟨op, .error e⟩]) (.error e))
    (hok : ∀ r, (f r).Obeys P Q (past ++ [⟨op, .ok r⟩])) :
    (perform F op >>= f).Obeys P Q past := by
  refine ⟨hop, fun r => ?_⟩
  cases r with
  | ok r => exact hok r
  | error e => exact herr e

theorem obeys_ofExcept_bind {x : Except E α} {f : α → Program F β}
    (herr : ∀ e, x = .error e → Q past (.error e)) (hok : ∀ a, x = .ok a → (f a).Obeys P Q past) :
    (ofExcept x >>= f).Obeys P Q past := by
  cases x with
  | ok a => exact hok a rfl
  | error e => exact herr e rfl

theorem obeys_ofExcept {x : Except E β} (h : Q past x) :
    (ofExcept x : Program F β).Obeys P Q past := by
  cases x with
  | ok a => exact h
  | error e => exact h

end Program
end Effects

namespace AxSentinel
open Effects

/-- An operation raised an HTTP exception. -/
def HttpRaised {F : Signature Exc} (past : List (Move F)) : Prop :=
  ∃ op e, (⟨op, .error e⟩ : Move F) ∈ past ∧ e.isHttp = true

end AxSentinel

namespace AxSentinel.DynamoRepository
open Effects

variable {D : Type} {G : Signature Exc} {β : Type}
  {P : List (Move ((storeOps D).sum G)) → ((storeOps D).sum G).Op → Prop}
  {Q : List (Move ((storeOps D).sum G)) → Except Exc β → Prop}
  {past : List (Move ((storeOps D).sum G))} {t : EntityType} {id : String}

theorem obeys_get {f : Option D → Program ((storeOps D).sum G) β}
    (hop : P past (.inl (.getItem ⟨t, id⟩)))
    (herr : ∀ e, Q (past ++ [⟨.inl (.getItem ⟨t, id⟩), .error e⟩]) (.error e))
    (hok : ∀ item, (f (item.map fun item => item.attributes.data)).Obeys P Q
      (past ++ [⟨.inl (.getItem ⟨t, id⟩), .ok item⟩])) :
    ((get t id).left >>= f).Obeys P Q past := by
  rw [get_left_bind]
  refine ⟨hop, fun r => ?_⟩
  cases r with
  | ok item => exact hok item
  | error e => exact herr e

theorem obeys_list {f : List D → Program ((storeOps D).sum G) β} (hop : P past (.inl (.query t)))
    (herr : ∀ e, Q (past ++ [⟨.inl (.query t), .error e⟩]) (.error e))
    (hok : ∀ items : List (Attributes D), (f (items.map Attributes.data)).Obeys P Q
      (past ++ [⟨.inl (.query t), .ok items⟩])) :
    ((list t).left >>= f).Obeys P Q past := by
  rw [list_left_bind]
  refine ⟨hop, fun r => ?_⟩
  cases r with
  | ok items => exact hok items
  | error e => exact herr e

/-- The moves of a `put` up to its write. -/
def readMoves (G : Signature Exc) (t : EntityType) (id : String) (clock : Nat)
    (current : Option (Item (Attributes D))) : List (Move ((storeOps D).sum G)) :=
  [⟨.inl .now, .ok clock⟩, ⟨.inl (.getItem ⟨t, id⟩), .ok current⟩]

/-- The write of a `put`. -/
abbrev putOp (G : Signature Exc) (t : EntityType) (id : String) (v : D) (clock : Nat)
    (current : Option (Item (Attributes D))) : ((storeOps D).sum G).Op :=
  .inl (.putItem ⟨t, id⟩ (item t id v clock current) (.unchanged current))

/-- The moves of a `put` that succeeds. -/
def putMoves (G : Signature Exc) (t : EntityType) (id : String) (v : D) (clock : Nat)
    (current : Option (Item (Attributes D))) : List (Move ((storeOps D).sum G)) :=
  [⟨.inl .now, .ok clock⟩, ⟨.inl (.getItem ⟨t, id⟩), .ok current⟩,
    ⟨putOp G t id v clock current, .ok ()⟩]

/-- An error of a `put` is that of its last move, or what the `put` makes of it. -/
theorem obeys_put {v : D} {f : Unit → Program ((storeOps D).sum G) β} (hnow : P past (.inl .now))
    (hget : ∀ clock, P (past ++ [⟨.inl .now, .ok clock⟩]) (.inl (.getItem ⟨t, id⟩)))
    (hput : ∀ clock current, P (past ++ readMoves G t id clock current)
      (putOp G t id v clock current))
    (herr : ∀ more op e e', e' = e ∨ e' = putError t id e →
      Q (past ++ more ++ [⟨op, .error e⟩]) (.error e'))
    (hok : ∀ clock current, (f ()).Obeys P Q (past ++ putMoves G t id v clock current)) :
    ((put t id v).left >>= f).Obeys P Q past := by
  rw [put_left_bind]
  refine ⟨hnow, fun r => ?_⟩
  cases r with
  | error e => exact (List.append_nil past).symm ▸ herr [] _ e e (.inl rfl)
  | ok clock =>
    refine ⟨hget clock, fun r => ?_⟩
    cases r with
    | error e => exact herr [_] _ e e (.inl rfl)
    | ok current =>
      have hread : past ++ [⟨.inl .now, .ok clock⟩] ++ [⟨.inl (.getItem ⟨t, id⟩), .ok current⟩] =
        past ++ readMoves G t id clock current := List.append_assoc ..
      refine ⟨hread ▸ hput clock current, fun r => ?_⟩
      cases r with
      | error e => exact hread ▸ herr (readMoves G t id clock current) _ e _ (.inr rfl)
      | ok _ =>
        rw [List.append_assoc, List.append_assoc]
        exact hok clock current

/-- A `put` writes what `W` justifies, before its read. -/
theorem writesOnly_putOp {W : List (Move ((storeOps D).sum G)) → Key → Attributes D → Prop} {v : D}
    (hW : ∀ clock, W (past ++ [⟨.inl .now, .ok clock⟩]) ⟨t, id⟩ ⟨t, id, clock, v⟩) (clock : Nat)
    (current : Option (Item (Attributes D))) :
    WritesOnly W (past ++ readMoves G t id clock current) (putOp G t id v clock current) := by
  rintro key item cond ⟨⟩
  exact ⟨past ++ [⟨.inl .now, .ok clock⟩], current, by simp [readMoves], rfl, rfl, hW clock⟩

/-- The operation writes nothing. -/
def NoPut (op : ((storeOps D).sum G).Op) : Prop :=
  ∀ key item cond, op ≠ .inl (.putItem key item cond)

theorem noPut_get (key : Key) : NoPut (D := D) (G := G) (.inl (.getItem key)) := by
  rintro _ _ _ ⟨⟩

theorem noPut_query (t : EntityType) : NoPut (D := D) (G := G) (.inl (.query t)) := by
  rintro _ _ _ ⟨⟩

theorem noPut_now : NoPut (D := D) (G := G) (.inl .now) := by
  rintro _ _ _ ⟨⟩

theorem noPut_other (op : G.Op) : NoPut (D := D) (G := G) (.inr op) := by
  rintro _ _ _ ⟨⟩

theorem NoPut.writesOnly {W : List (Move ((storeOps D).sum G)) → Key → Attributes D → Prop}
    {op : ((storeOps D).sum G).Op} (hop : NoPut op) : WritesOnly W past op :=
  fun key item cond heq => absurd heq (hop key item cond)

theorem mem_putMoves (past : List (Move ((storeOps D).sum G))) (t : EntityType) (id : String)
    (v : D) (clock : Nat) (current : Option (Item (Attributes D))) :
    (⟨putOp G t id v clock current, .ok ()⟩ : Move ((storeOps D).sum G)) ∈
      past ++ putMoves G t id v clock current := by
  simp [putMoves]

/-- After a `put` that succeeds the program knows of the item. -/
theorem knows_putMoves (past : List (Move ((storeOps D).sum G))) (t : EntityType) (id : String)
    (v : D) (clock : Nat) (current : Option (Item (Attributes D))) :
    Knows (past ++ putMoves G t id v clock current) ⟨t, id⟩ :=
  .put (mem_putMoves past t id v clock current)

end AxSentinel.DynamoRepository
