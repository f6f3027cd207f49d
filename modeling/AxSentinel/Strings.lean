import Mathlib.Data.List.DropRight
import Mathlib.Data.List.Infix
import Mathlib.Data.List.TakeWhile

/-! # The operations of Python's `str` the services use

Each by its documentation, on the characters of a text. -/
namespace Python

/-- `str.isspace` of one character. -/
def isSpace (c : Char) : Bool :=
  let n := c.toNat
  0x09 ≤ n && n ≤ 0x0D || 0x1C ≤ n && n ≤ 0x20 || n = 0x85 || n = 0xA0 || n = 0x1680 ||
    0x2000 ≤ n && n ≤ 0x200A || n = 0x2028 || n = 0x2029 || n = 0x202F || n = 0x205F || n = 0x3000

/-- `s.strip()`. -/
def strip (s : String) : String :=
  String.ofList ((s.toList.dropWhile isSpace).rdropWhile isSpace)

/-- `s.startswith(start)`. -/
def startsWith (s start : String) : Bool := start.toList.isPrefixOf s.toList

/-- `s.rstrip(c)`. -/
def rstrip (s : String) (c : Char) : String := String.ofList (s.toList.rdropWhile (· = c))

/-- `s.partition(c)`, without the separator. -/
def partition (s : String) (c : Char) : String × String :=
  (String.ofList (s.toList.takeWhile (· ≠ c)), String.ofList ((s.toList.dropWhile (· ≠ c)).drop 1))

/-- `s.split(c)`. -/
def split (s : String) (c : Char) : List String := (s.toList.splitOn c).map String.ofList

/-- `s.split()`. -/
def words (s : String) : List String :=
  ((s.toList.splitOnP isSpace).filter (· ≠ [])).map String.ofList

/-- `s.rsplit(c, 1)[-1]`. -/
def afterLast (s : String) (c : Char) : String := String.ofList (s.toList.rtakeWhile (· ≠ c))

/-- `PurePosixPath(s).name`: the last part that is neither empty nor `.`. -/
def pathName (s : String) : String :=
  (((split s '/').filter fun part => part ≠ "" ∧ part ≠ ".").getLast?).getD ""

/-- `PurePosixPath(s).suffix` of a name: from its last dot on, unless that is its first or last
character. -/
def pathSuffix (name : String) : String :=
  let stem := name.toList.rdropWhile (· ≠ '.')
  if 1 < stem.length ∧ stem.length < name.length then
    String.ofList (name.toList.drop (stem.length - 1))
  else ""

/-- `part in s`. -/
def isIn (part s : String) : Bool := s.toList.tails.any part.toList.isPrefixOf

/-- `xs[:n]`. -/
def sliceTo {α : Type} (xs : List α) (n : Int) : List α :=
  if n < 0 then xs.take (xs.length - n.natAbs) else xs.take n.toNat

/-- `s.lower()` of the ASCII letters. -/
def lower (s : String) : String := String.ofList (s.toList.map Char.toLower)

theorem startsWith_iff {s start : String} :
    startsWith s start = true ↔ start.toList <+: s.toList := List.isPrefixOf_iff_prefix

/-- No piece of a text that is split contains the separator. -/
theorem not_mem_of_mem_split {s piece : String} {c : Char} (h : piece ∈ split s c) :
    c ∉ piece.toList := by
  obtain ⟨chars, hchars, rfl⟩ := List.mem_map.mp h
  rw [String.toList_ofList]
  rw [List.splitOn_eq_splitOnP] at hchars
  clear h
  generalize s.toList = xs at hchars
  induction xs generalizing chars with
  | nil =>
    rw [List.splitOnP_nil] at hchars
    obtain rfl := List.mem_singleton.mp hchars
    exact List.not_mem_nil
  | cons x xs ih =>
    rw [List.splitOnP_cons_eq_if_modifyHead] at hchars
    by_cases hx : (x == c) = true
    · rw [if_pos hx] at hchars
      rcases List.mem_cons.mp hchars with rfl | hrest
      · exact List.not_mem_nil
      · exact ih chars hrest
    · rw [if_neg hx] at hchars
      obtain ⟨first, rest, hsplit⟩ := List.exists_cons_of_ne_nil (List.splitOnP_ne_nil (· == c) xs)
      rw [hsplit, List.modifyHead_cons] at hchars
      rcases List.mem_cons.mp hchars with rfl | hrest
      · intro hc
        rcases List.mem_cons.mp hc with rfl | hc
        · exact hx (beq_self_eq_true _)
        · exact ih first (hsplit ▸ List.mem_cons_self) hc
      · exact ih chars (hsplit ▸ List.mem_cons_of_mem _ hrest)

theorem isIn_iff {part s : String} : isIn part s = true ↔ part.toList <:+: s.toList := by
  unfold isIn
  rw [List.any_eq_true, List.infix_iff_prefix_suffix]
  refine exists_congr fun t => ?_
  rw [List.mem_tails, List.isPrefixOf_iff_prefix, and_comm]

theorem mem_intersperse {α : Type} {sep x : α} {xs : List α} (h : x ∈ xs) :
    x ∈ xs.intersperse sep := by
  induction xs with
  | nil => exact h
  | cons y ys ih =>
    cases ys with
    | nil => exact h
    | cons z zs =>
      rw [List.intersperse_cons_cons]
      rcases List.mem_cons.mp h with rfl | h
      · exact List.mem_cons_self
      · exact List.mem_cons_of_mem _ (List.mem_cons_of_mem _ (ih h))

/-- A piece of a text that is split is part of it. -/
theorem isIn_of_mem_split {s piece : String} {c : Char} (h : piece ∈ split s c) :
    isIn piece s = true := by
  obtain ⟨chars, hchars, rfl⟩ := List.mem_map.mp h
  have hjoin : [c].intercalate (s.toList.splitOn c) = s.toList := List.intercalate_splitOn c
  rw [isIn_iff, String.toList_ofList, ← hjoin]
  exact List.infix_of_mem_flatten (mem_intersperse hchars)

/-- The name of a path has no slash. -/
theorem slash_not_mem_pathName (s : String) : '/' ∉ (pathName s).toList := by
  unfold pathName
  cases h : ((split s '/').filter fun part => part ≠ "" ∧ part ≠ ".").getLast? with
  | none => decide
  | some part => exact not_mem_of_mem_split (List.mem_filter.mp (List.mem_of_getLast? h)).1

/-- What follows the last separator. -/
theorem afterLast_append {a b : String} {c : Char} (h : c ∉ b.toList) :
    afterLast (a ++ String.singleton c ++ b) c = b := by
  unfold afterLast
  have hend : (a.toList ++ [c] ++ b.toList).rtakeWhile (· ≠ c) = b.toList := by
    rw [List.rtakeWhile, List.reverse_append, List.takeWhile_append_of_pos]
    · simp
    · intro d hd
      simpa using fun hdc : d = c => h (hdc ▸ List.mem_reverse.mp hd)
  simpa using congrArg String.ofList hend

/-- A slice has no new items. -/
theorem mem_of_mem_sliceTo {α : Type} {xs : List α} {n : Int} {x : α} (h : x ∈ sliceTo xs n) :
    x ∈ xs := by
  unfold sliceTo at h
  split at h
  · exact List.mem_of_mem_take h
  · exact List.mem_of_mem_take h

end Python
