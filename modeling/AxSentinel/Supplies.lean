import AxSentinel.Interleaving
import Mathlib.Data.List.Nodup

/-! # Values drawn from a supply

A machine may draw values one after another from a supply that has none of them twice, as fresh
ids are drawn.  `Drawing` says what a step has to do with the supply; then in every history the
values drawn are distinct, so a value tells which thread drew it (`Drawing.thread_unique`). -/
namespace Effects

variable {E : Type} {F : Signature E} {A : Type}

/-! ## What a thread remembers -/

/-- What a thread remembered when it performed an event it remembers. -/
theorem mem_past_of_take {M : Machine F} {i n : Nat} {h : List (Event M)} {m : Move F}
    (hm : m ∈ past i (h.take n)) : m ∈ past i h := by
  obtain ⟨e, he, hi, hmove⟩ := mem_past.mp hm
  exact mem_past.mpr ⟨e, List.mem_of_mem_take he, hi, hmove⟩

/-- A thread remembers what it has done. -/
theorem mem_past_of_lt {M : Machine F} {i k n : Nat} {h : List (Event M)} {e : Event M}
    (hk : h[k]? = some e) (hi : e.thread = i) (hkn : k < n) : e.move ∈ past i (h.take n) :=
  mem_past.mpr ⟨e, List.mem_of_getElem? (by rw [List.getElem?_take, if_pos hkn, hk]), hi, rfl⟩

/-- A move a thread remembers was performed by it. -/
theorem Machine.History.exec_of_mem_past {M : Machine F}
    {allowed : Nat → List (Move F) → F.Op → Prop} {w₀ w : M.World} {h : List (Event M)}
    (H : M.History allowed w₀ h w) {i : Nat} {op : F.Op}
    {r : Except E (F.Reply op)} (hm : ⟨op, r⟩ ∈ past i h) :
    ∃ (n : Nat) (e : Event M) (c : M.Choice), h[n]? = some e ∧ e = M.event i op c e.before ∧
      (M.exec op c e.before).1 = r := by
  obtain ⟨e, he, rfl, hmove⟩ := mem_past.mp hm
  obtain ⟨n, hn, -, -, c, hevent⟩ := H.of_mem he
  obtain ⟨thread, ⟨op', reply⟩, before, after⟩ := e
  obtain ⟨rfl, hreply⟩ := Move.mk.inj hmove
  obtain ⟨-, hmove', -, -⟩ := Event.mk.inj hevent
  exact ⟨n, _, c, hn, hevent, (eq_of_heq (Move.mk.inj hmove').2).symm.trans (eq_of_heq hreply)⟩

/-- The last move a thread remembers was performed after the others. -/
theorem Machine.History.exec_of_past_last {M : Machine F}
    {allowed : Nat → List (Move F) → F.Op → Prop} {w₀ w : M.World} {h : List (Event M)}
    (H : M.History allowed w₀ h w) {i : Nat} {op : F.Op} {r : Except E (F.Reply op)}
    {earlier : List (Move F)} (hp : past i h = earlier ++ [⟨op, r⟩]) :
    ∃ (n : Nat) (e : Event M) (c : M.Choice), h[n]? = some e ∧ e = M.event i op c e.before ∧
      (M.exec op c e.before).1 = r ∧ past i (h.take n) = earlier := by
  obtain ⟨n, e, hn, rfl, hmove, hearlier, -⟩ := past_last hp
  obtain ⟨-, -, c, hevent⟩ := H.at_position hn
  obtain ⟨thread, ⟨op', reply⟩, before, after⟩ := e
  obtain ⟨rfl, hreply⟩ := Move.mk.inj hmove
  obtain ⟨-, hmove', -, -⟩ := Event.mk.inj hevent
  exact ⟨n, _, c, hn, hevent, (eq_of_heq (Move.mk.inj hmove').2).symm.trans (eq_of_heq hreply),
    hearlier⟩

/-! ## Draws -/

/-- The values some steps of a machine draw, in the worlds that have the supply: `drawn` is what an
event drew, if it did, and `issued` counts the draws. -/
structure Drawing (M : Machine F) (A : Type) where
  draw : Nat → A
  injective : Function.Injective draw
  drawn : Move F → Option A
  issued : M.World → Nat
  Supplied : M.World → Prop
  supplied : ∀ op c w, Supplied w → Supplied (M.exec op c w).2
  step : ∀ op c w, Supplied w → (drawn ⟨op, (M.exec op c w).1⟩ = some (draw (issued w)) ∧
      issued (M.exec op c w).2 = issued w + 1) ∨
    (drawn ⟨op, (M.exec op c w).1⟩ = none ∧ issued w ≤ issued (M.exec op c w).2)

namespace Drawing
variable {M : Machine F} (D : Drawing M A)
  {allowed : Nat → List (Move F) → F.Op → Prop} {w₀ w : M.World} {h : List (Event M)}

/-- The supply stays. -/
theorem supplied_of_history (H : M.History allowed w₀ h w) (hstart : D.Supplied w₀) :
    D.Supplied w := by
  induction H with
  | nil => exact hstart
  | @snoc h w i op c H hok ih => exact D.supplied op c w ih

/-- What was drawn is one of the values issued. -/
theorem drawn_lt (H : M.History allowed w₀ h w) (hstart : D.Supplied w₀) {e : Event M}
    (he : e ∈ h) {a : A} (ha : D.drawn e.move = some a) : ∃ k < D.issued w, a = D.draw k := by
  induction H with
  | nil => cases he
  | @snoc h w i op c H hok ih =>
    rcases List.mem_append.mp he with he | he
    · obtain ⟨k, hk, hak⟩ := ih he
      rcases D.step op c w (D.supplied_of_history H hstart) with ⟨-, hissued⟩ | ⟨-, hissued⟩
      · exact ⟨k, by omega, hak⟩
      · exact ⟨k, by omega, hak⟩
    · obtain rfl := List.mem_singleton.mp he
      rcases D.step op c w (D.supplied_of_history H hstart) with ⟨hdrawn, hissued⟩ | ⟨hdrawn, -⟩
      · exact ⟨D.issued w, by omega, Option.some.inj (ha.symm.trans hdrawn)⟩
      · cases ha.symm.trans hdrawn

/-- No value is drawn twice. -/
theorem position_unique (H : M.History allowed w₀ h w) (hstart : D.Supplied w₀) {m n : Nat}
    {d e : Event M} (hm : h[m]? = some d) (hn : h[n]? = some e) {a : A}
    (hd : D.drawn d.move = some a) (he : D.drawn e.move = some a) : m = n := by
  induction H with
  | nil => simp at hm
  | @snoc h w i op c H hok ih =>
    -- a value that was drawn before is not the one that is next
    have hold : ∀ {k : Nat} {x : Event M}, h[k]? = some x → D.drawn x.move = some a →
        D.drawn (M.event i op c w).move ≠ some a := by
      intro k x hk hx hnew
      obtain ⟨j, hj, rfl⟩ := D.drawn_lt H hstart (List.mem_of_getElem? hk) hx
      rcases D.step op c w (D.supplied_of_history H hstart) with ⟨hdrawn, -⟩ | ⟨hdrawn, -⟩
      · exact absurd (D.injective (Option.some.inj (hnew.symm.trans hdrawn))) (by omega)
      · cases hnew.symm.trans hdrawn
    rcases getElem?_snoc.mp hm with hm | ⟨rfl, rfl⟩
    · rcases getElem?_snoc.mp hn with hn | ⟨rfl, rfl⟩
      · exact ih hm hn
      · exact absurd he (hold hm hd)
    · rcases getElem?_snoc.mp hn with hn | ⟨rfl, -⟩
      · exact absurd hd (hold hn he)
      · rfl

/-- A value tells which thread drew it. -/
theorem thread_unique (H : M.History allowed w₀ h w) (hstart : D.Supplied w₀) {i j : Nat}
    {m m' : Move F} {a : A} (hi : m ∈ past i h) (hm : D.drawn m = some a) (hj : m' ∈ past j h)
    (hm' : D.drawn m' = some a) : i = j := by
  obtain ⟨d, hd, rfl, rfl⟩ := mem_past.mp hi
  obtain ⟨e, he, rfl, rfl⟩ := mem_past.mp hj
  obtain ⟨k, hk⟩ := List.mem_iff_getElem?.mp hd
  obtain ⟨n, hn⟩ := List.mem_iff_getElem?.mp he
  obtain rfl := D.position_unique H hstart hk hn hm hm'
  obtain rfl := Option.some.inj (hk.symm.trans hn)
  rfl

end Drawing
end Effects
