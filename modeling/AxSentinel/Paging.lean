import Mathlib.Data.List.Sort

/-! # Reading page by page

Entries have positions in a linear order, and are read from the highest position downwards: a
page starts behind an exclusive start position, and says behind which one the next page starts.
While the entries stay the same, the pages and what is left make up the whole
(`page_append_rest`).  A page has exactly what is ahead of its reader before it and no longer
after it (`mem_page`), and this is all there is to say when the entries move between pages. -/
namespace Paging

variable {A P : Type}

/-! ## Cursors -/

/-- How far a reader has come. -/
inductive Cursor (P : Type) where
  | start
  | past (p : P)
  | finished
deriving DecidableEq, Repr

/-- Where a reader is that starts behind a position, if one is given. -/
def Cursor.behind : Option P → Cursor P
  | none => start
  | some p => past p

/-- Where a reader is that may go on behind a position, if one is given. -/
def Cursor.upTo : Option P → Cursor P
  | none => finished
  | some p => past p

@[simp] theorem Cursor.behind_none : (behind none : Cursor P) = start := rfl
@[simp] theorem Cursor.behind_some (p : P) : behind (some p) = past p := rfl
@[simp] theorem Cursor.upTo_none : (upTo none : Cursor P) = finished := rfl
@[simp] theorem Cursor.upTo_some (p : P) : upTo (some p) = past p := rfl

/-- What a reader has not come to yet. -/
def Cursor.Ahead [LT P] : Cursor P → P → Prop
  | start, _ => True
  | past c, p => p < c
  | finished, _ => False

instance [LT P] [DecidableLT P] (c : Cursor P) (p : P) : Decidable (c.Ahead p) :=
  match c with
  | .start => isTrue trivial
  | .past c => inferInstanceAs (Decidable (p < c))
  | .finished => isFalse id

variable [LinearOrder P]

theorem Cursor.Ahead.of_lt {c : Cursor P} {p q : P} (h : c.Ahead p) (hqp : q < p) : c.Ahead q := by
  cases c with
  | start => trivial
  | past c => exact lt_trans hqp h
  | finished => exact h

/-! ## Pages -/

/-- The entries ahead of a reader, in the order they are read in. -/
def rest (pos : A → P) (entries : List A) (c : Cursor P) : List A :=
  (entries.filter fun a => c.Ahead (pos a)).insertionSort fun a b => pos b ≤ pos a

/-- A page of `n` entries, or of those that are left, and the position to go on from.  There is
one if entries are left; and there may be one if none are, for a store need not look. -/
def page (pos : A → P) (entries : List A) (start : Option P) (n : Nat) (more : Bool) :
    List A × Option P :=
  let rest := rest pos entries (.behind start)
  (rest.take n, if n < rest.length ∨ more then (rest.take n).getLast?.map pos else none)

section Rest
variable {pos : A → P} {entries : List A} {c : Cursor P}

theorem mem_rest {a : A} : a ∈ rest pos entries c ↔ a ∈ entries ∧ c.Ahead (pos a) := by
  simp [rest]

theorem rest_finished : rest pos entries .finished = [] :=
  List.eq_nil_iff_forall_not_mem.mpr fun _ ha => (mem_rest.mp ha).2

theorem rest_start_perm : (rest pos entries .start).Perm entries := by
  refine (List.perm_insertionSort _ _).trans (List.Perm.of_eq ?_)
  exact List.filter_eq_self.mpr fun a _ => decide_eq_true trivial

/-- A page has entries only. -/
theorem mem_entries_of_mem_page {start : Option P} {n : Nat} {more : Bool} {a : A}
    (h : a ∈ (page pos entries start n more).1) : a ∈ entries :=
  (mem_rest.mp (List.mem_of_mem_take h)).1

/-- The position to go on from is that of an entry of the page. -/
theorem exists_of_next {start : Option P} {n : Nat} {more : Bool} {q : P}
    (hnext : (page pos entries start n more).2 = some q) :
    ∃ a ∈ (page pos entries start n more).1, pos a = q := by
  simp only [page] at hnext ⊢
  split at hnext
  · obtain ⟨a, ha, haq⟩ := Option.map_eq_some_iff.mp hnext
    exact ⟨a, List.mem_of_getLast? ha, haq⟩
  · cases hnext

variable (hpos : (entries.map pos).Nodup)
include hpos

/-- Entries are read from the highest position downwards. -/
theorem pairwise_rest : (rest pos entries c).Pairwise fun a b => pos b < pos a := by
  have hle : (rest pos entries c).Pairwise fun a b => pos b ≤ pos a :=
    List.pairwise_insertionSort _ _
  have hne : ((rest pos entries c).map pos).Nodup := by
    refine ((List.perm_insertionSort _ _).map pos).nodup_iff.mpr ?_
    exact hpos.sublist (List.filter_sublist.map pos)
  exact (hle.and (List.pairwise_map.mp hne)).imp fun h => lt_of_le_of_ne h.1 (Ne.symm h.2)

theorem nodup_rest : (rest pos entries c).Nodup :=
  (pairwise_rest hpos).imp fun h heq => absurd (heq ▸ h) (lt_irrefl _)

/-- A reader that has come to an entry has ahead what comes after it. -/
theorem rest_past {l r : List A} {a : A} (h : rest pos entries c = l ++ a :: r) :
    rest pos entries (.past (pos a)) = r := by
  have hsorted := h ▸ pairwise_rest (c := c) hpos
  obtain ⟨-, hr, hl⟩ := List.pairwise_append.mp hsorted
  obtain ⟨hlt, hr⟩ := List.pairwise_cons.mp hr
  have hmem : ∀ b, b ∈ rest pos entries c ↔ b ∈ l ∨ b = a ∨ b ∈ r := by
    intro b
    rw [h, List.mem_append, List.mem_cons]
  have ha : c.Ahead (pos a) := (mem_rest.mp ((hmem a).mpr (.inr (.inl rfl)))).2
  have : Std.Irrefl fun a b : A => pos b < pos a := ⟨fun a => lt_irrefl (pos a)⟩
  have : Std.Antisymm fun a b : A => pos b < pos a :=
    ⟨fun a b hab hba => absurd (lt_trans hab hba) (lt_irrefl _)⟩
  refine (pairwise_rest hpos).eq_of_mem_iff hr fun b => ?_
  rw [mem_rest]
  constructor
  · rintro ⟨hb, hba⟩
    rcases (hmem b).mp (mem_rest.mpr ⟨hb, ha.of_lt hba⟩) with hbl | rfl | hbr
    · exact absurd (lt_trans (hl b hbl a (List.mem_cons_self ..)) hba) (lt_irrefl _)
    · exact absurd hba (lt_irrefl _)
    · exact hbr
  · exact fun hb => ⟨(mem_rest.mp ((hmem b).mpr (.inr (.inr hb)))).1, hlt b hb⟩

end Rest

section Page
variable {pos : A → P} {entries : List A} {n : Nat}
variable (hpos : (entries.map pos).Nodup) (hn : 0 < n)
include hpos hn

/-- **One page.**  A page and what is ahead after it are what was ahead before. -/
theorem page_append_rest (start : Option P) (more : Bool) :
    (page pos entries start n more).1 ++
        rest pos entries (.upTo (page pos entries start n more).2) =
      rest pos entries (.behind start) := by
  simp only [page]
  generalize hrest : rest pos entries (.behind start) = left
  have hall : left.length ≤ n → left.take n = left := List.take_of_length_le
  by_cases hgo : n < left.length ∨ more = true
  · rw [if_pos hgo]
    cases hlast : (left.take n).getLast? with
    | none =>
      -- the page is empty, and so is what is left
      have hempty : left = [] := by
        have := List.getLast?_eq_none_iff.mp hlast
        rw [List.take_eq_nil_iff] at this
        exact this.resolve_left (Nat.ne_of_gt hn)
      rw [hempty]
      simp [rest_finished]
    | some a =>
      obtain ⟨l, hl⟩ := List.getLast?_eq_some_iff.mp hlast
      have hsplit : left = l ++ a :: left.drop n := by
        conv_lhs => rw [← List.take_append_drop n left, hl]
        simp
      rw [Option.map_some, Cursor.upTo_some, rest_past hpos (hrest.trans hsplit),
        List.take_append_drop]
  · rw [if_neg hgo, Cursor.upTo_none, rest_finished, List.append_nil]
    exact hall (by omega)

/-- A page to go on from leaves less ahead. -/
theorem length_rest_lt {start : Option P} {more : Bool} {q : P}
    (hnext : (page pos entries start n more).2 = some q) :
    (rest pos entries (.past q)).length < (rest pos entries (.behind start)).length := by
  have hsplit := page_append_rest hpos hn start more
  rw [hnext, Cursor.upTo_some] at hsplit
  obtain ⟨a, ha, -⟩ := exists_of_next hnext
  have hpage := List.length_pos_of_mem ha
  have hlength := congrArg List.length hsplit
  rw [List.length_append] at hlength
  omega

/-- What is ahead after a page was ahead before. -/
theorem ahead_of_page {start : Option P} {more : Bool} {p : P}
    (h : (Cursor.upTo (page pos entries start n more).2).Ahead p) :
    (Cursor.behind start).Ahead p := by
  cases hnext : (page pos entries start n more).2 with
  | none => rw [hnext] at h; exact h.elim
  | some q =>
    rw [hnext] at h
    obtain ⟨a, ha, rfl⟩ := exists_of_next hnext
    have hrest : a ∈ rest pos entries (.behind start) :=
      page_append_rest hpos hn start more ▸ List.mem_append_left _ ha
    exact (mem_rest.mp hrest).2.of_lt h

/-- A page has the entries that are ahead before it and no longer after it. -/
theorem mem_page {start : Option P} {more : Bool} {a : A} :
    a ∈ (page pos entries start n more).1 ↔ a ∈ entries ∧ (Cursor.behind start).Ahead (pos a) ∧
      ¬ (Cursor.upTo (page pos entries start n more).2).Ahead (pos a) := by
  have hsplit := page_append_rest hpos hn start more
  have hnodup := nodup_rest (c := .behind start) hpos
  rw [← hsplit] at hnodup
  rw [← and_assoc, ← mem_rest, ← hsplit, List.mem_append]
  constructor
  · intro ha
    refine ⟨.inl ha, fun hahead => ?_⟩
    exact List.disjoint_of_nodup_append hnodup ha
      (mem_rest.mpr ⟨mem_entries_of_mem_page ha, hahead⟩)
  · rintro ⟨ha | ha, hbehind⟩
    · exact ha
    · exact absurd (mem_rest.mp ha).2 hbehind

theorem nodup_page {start : Option P} {more : Bool} : (page pos entries start n more).1.Nodup := by
  have hnodup := nodup_rest (c := .behind start) hpos
  have hsplit := page_append_rest hpos hn start more
  rw [← hsplit] at hnodup
  exact (List.nodup_append.mp hnodup).1

end Page
end Paging
