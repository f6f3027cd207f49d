import AxSentinel.Json
import Mathlib.Data.Rat.Lemmas

/-! # Compact JSON text

A writer of compact JSON text, without spaces and with every character that may stand for itself,
and a reader that takes back what it wrote (`JsonText.loads_dumps`).  What begins with no quotation
mark or bracket is written bare, and read up to the next character that cannot belong to it.  A
float is written as a fraction here. -/
namespace Python

/-- No key twice, and every text has an encoding. -/
inductive Json.Clean : Json → Prop
  | null : Json.Clean .null
  | bool (b) : Json.Clean (.bool b)
  | int (n) : Json.Clean (.int n)
  | float (x) : Json.Clean (.float x)
  | text (s) : Json.Clean (.text s)
  | list {items : List Json} : (∀ item ∈ items, Json.Clean item) → Json.Clean (.list items)
  | dict {fields : List (Str × Json)} : (fields.map Prod.fst).Nodup →
      (∀ field ∈ fields, field.1.text?.isSome = true) →
      (∀ field ∈ fields, Json.Clean field.2) → Json.Clean (.dict fields)

namespace Json

mutual

/-- No dictionary in the value has a key twice, as none of Python's has. -/
def keyed : Json → Bool
  | list items => keyedItems items
  | dict fields => decide (fields.map Prod.fst).Nodup && keyedFields fields
  | _ => true

def keyedItems : List Json → Bool
  | [] => true
  | item :: items => item.keyed && keyedItems items

def keyedFields : List (Str × Json) → Bool
  | [] => true
  | (_, value) :: fields => value.keyed && keyedFields fields

end

mutual

/-- A value without a key twice is clean, if every string in it has an encoding. -/
theorem clean_of : ∀ {value : Json}, value.keyed = true → value.encodable = true → value.Clean
  | .null, _, _ => .null
  | .bool b, _, _ => .bool b
  | .int n, _, _ => .int n
  | .float x, _, _ => .float x
  | .str (.text s), _, _ => .text s
  | .str (.surrogates ..), _, h => nomatch h
  | .list _, hkeyed, hencodable => .list (clean_of_items hkeyed hencodable)
  | .dict _, hkeyed, hencodable =>
      have hfields := (Bool.and_eq_true _ _).mp hkeyed
      .dict (of_decide_eq_true hfields.1)
        (fun field hfield => (clean_of_fields hfields.2 hencodable field hfield).1)
        fun field hfield => (clean_of_fields hfields.2 hencodable field hfield).2

theorem clean_of_items : ∀ {items : List Json}, keyedItems items = true →
    encodableItems items = true → ∀ item ∈ items, Clean item
  | [], _, _ => nofun
  | item :: items, hkeyed, hencodable => by
      obtain ⟨hkeyed, hkeyeds⟩ := (Bool.and_eq_true _ _).mp hkeyed
      obtain ⟨hencodable, hencodables⟩ := (Bool.and_eq_true _ _).mp hencodable
      exact List.forall_mem_cons.mpr
        ⟨clean_of hkeyed hencodable, clean_of_items hkeyeds hencodables⟩

theorem clean_of_fields : ∀ {fields : List (Str × Json)}, keyedFields fields = true →
    encodableFields fields = true →
    ∀ field ∈ fields, field.1.text?.isSome = true ∧ field.2.Clean
  | [], _, _ => nofun
  | (key, value) :: fields, hkeyed, hencodable => by
      obtain ⟨hkeyed, hkeyeds⟩ := (Bool.and_eq_true _ _).mp hkeyed
      obtain ⟨hencodable, hencodables⟩ := (Bool.and_eq_true _ _).mp hencodable
      obtain ⟨hkey, hencodable⟩ := (Bool.and_eq_true _ _).mp hencodable
      exact List.forall_mem_cons.mpr
        ⟨⟨hkey, clean_of hkeyed hencodable⟩, clean_of_fields hkeyeds hencodables⟩

end

end Json

namespace JsonText

/-! ## Strings -/

/-- The quotation mark. -/
abbrev quote : Char := Char.ofNat 0x22

/-- The backslash. -/
abbrev backslash : Char := Char.ofNat 0x5C

/-- The characters with an escape of two characters, and its second one. -/
def shortEscapes : List (Char × Char) :=
  [(quote, quote), (backslash, backslash), ('\n', 'n'), ('\r', 'r'), ('\t', 't'), ('\x08', 'b'),
    ('\x0c', 'f')]

/-- A hexadecimal digit. -/
def hexDigit (n : Nat) : Char := Nat.digitChar n

/-- The value of a hexadecimal digit. -/
def hexValue (c : Char) : Nat := if c.isDigit then c.toNat - 48 else c.toNat - 87

/-- A character of a string. -/
def escape (c : Char) : List Char :=
  match shortEscapes.lookup c with
  | some letter => [backslash, letter]
  | none =>
      if c.toNat < 32 then
        [backslash, 'u', '0', '0', hexDigit (c.toNat / 16), hexDigit (c.toNat % 16)]
      else [c]

/-- A string. -/
def writeString (chars : List Char) : List Char := quote :: chars.flatMap escape ++ [quote]

/-- The character a short escape stands for. -/
def unescape (letter : Char) : Option Char :=
  (shortEscapes.find? fun entry => entry.2 = letter).map Prod.fst

/-- The rest of a string after its first quotation mark, and what follows it. -/
def readString : List Char → Option (List Char × List Char)
  | [] => none
  | c :: rest =>
      if c = quote then some ([], rest)
      else if c = backslash then
        match rest with
        | 'u' :: '0' :: '0' :: high :: low :: rest =>
            (readString rest).map (.map (Char.ofNat (16 * hexValue high + hexValue low) :: ·) id)
        | letter :: rest => do
            let c ← unescape letter
            (readString rest).map (.map (c :: ·) id)
        | [] => none
      else (readString rest).map (.map (c :: ·) id)

/-- What can be said of a character that has a short escape. -/
theorem unescape_of_lookup {c letter : Char} (h : shortEscapes.lookup c = some letter) :
    letter ≠ 'u' ∧ unescape letter = some c := by
  obtain ⟨before, after, hsplit, -⟩ := List.lookup_eq_some_iff.mp h
  have hmem : (c, letter) ∈ shortEscapes := by
    rw [hsplit]
    exact List.mem_append_right _ List.mem_cons_self
  have hall : ∀ entry ∈ shortEscapes, entry.2 ≠ 'u' ∧ unescape entry.2 = some entry.1 := by decide
  exact hall _ hmem

/-- A control character is read back from its digits. -/
theorem ofNat_hexValue {c : Char} (h : c.toNat < 32) :
    Char.ofNat (16 * hexValue (hexDigit (c.toNat / 16)) + hexValue (hexDigit (c.toNat % 16))) =
      c := by
  have hdigits : ∀ n < 32,
      16 * hexValue (hexDigit (n / 16)) + hexValue (hexDigit (n % 16)) = n := by decide
  rw [hdigits _ h, Char.ofNat_toNat]

@[simp] theorem readString_quote (rest : List Char) :
    readString (quote :: rest) = some ([], rest) := by
  rw [readString.eq_def]
  rfl

theorem readString_plain {c : Char} (hquote : c ≠ quote) (hbackslash : c ≠ backslash)
    (rest : List Char) : readString (c :: rest) = (readString rest).map (.map (c :: ·) id) := by
  rw [readString.eq_def]
  dsimp only
  rw [if_neg hquote, if_neg hbackslash]

theorem readString_short {c letter : Char} (hu : letter ≠ 'u') (hc : unescape letter = some c)
    (rest : List Char) :
    readString (backslash :: letter :: rest) = (readString rest).map (.map (c :: ·) id) := by
  rw [readString.eq_def]
  dsimp only
  rw [if_neg (by decide), if_pos rfl]
  split
  · rename_i heq
    exact absurd (List.cons.inj heq).1 hu
  · rename_i letter' rest' _ heq
    obtain ⟨rfl, rfl⟩ := List.cons.inj heq
    rw [hc]
    rfl
  · rename_i heq
    cases heq

theorem readString_control (high low : Char) (rest : List Char) :
    readString (backslash :: 'u' :: '0' :: '0' :: high :: low :: rest) = (readString rest).map
      (.map (Char.ofNat (16 * hexValue high + hexValue low) :: ·) id) := by
  rw [readString.eq_def]
  dsimp only
  rw [if_neg (by decide), if_pos rfl]
  rfl

/-- A character is read as it was written. -/
theorem readString_escape (c : Char) (rest : List Char) :
    readString (escape c ++ rest) = (readString rest).map (.map (c :: ·) id) := by
  unfold escape
  split
  · rename_i letter hletter
    obtain ⟨hu, hc⟩ := unescape_of_lookup hletter
    exact readString_short hu hc rest
  · rename_i hnone
    split
    · rename_i hcontrol
      have hread := readString_control (hexDigit (c.toNat / 16)) (hexDigit (c.toNat % 16)) rest
      rwa [ofNat_hexValue hcontrol] at hread
    · refine readString_plain ?_ ?_ rest
      · rintro rfl
        cases hnone
      · rintro rfl
        cases hnone

/-- A string is read as it was written. -/
theorem readString_writeString (chars rest : List Char) :
    readString (chars.flatMap escape ++ quote :: rest) = some (chars, rest) := by
  induction chars with
  | nil => exact readString_quote rest
  | cons c chars ih =>
    rw [List.flatMap_cons, List.append_assoc, readString_escape, ih]
    rfl

/-! ## Bare text -/

/-- A character of bare text. -/
def isBare (c : Char) : Bool := c.isAlphanum || c = '-' || c = '/'

/-- What is written bare: a number or a constant. -/
def bare : Json → Option String
  | .null => some "null"
  | .bool true => some "true"
  | .bool false => some "false"
  | .int n => some n.repr
  | .float .nan => some "NaN"
  | .float (.infinity false) => some "Infinity"
  | .float (.infinity true) => some "-Infinity"
  | .float (.finite q) => some (q.num.repr ++ "/" ++ q.den.repr)
  | _ => none

/-- The value of a natural number. -/
def readNat (digits : List Char) : Option Nat :=
  if digits ≠ [] ∧ digits.all Char.isDigit then some (Nat.ofDigitChars 10 digits 0) else none

/-- The value of an integer. -/
def readInt : List Char → Option Int
  | '-' :: digits => (readNat digits).map fun (n : Nat) => -(n : Int)
  | digits => (readNat digits).map Int.ofNat

/-- The value of an integer, or of a fraction. -/
def readNumber (text : List Char) : Option Json :=
  match text.dropWhile (· ≠ '/') with
  | [] => (readInt text).map .int
  | _ :: den => do
      let num ← readInt (text.takeWhile (· ≠ '/'))
      let den ← readNat den
      some (.float (.finite (mkRat num den)))

/-- What is written bare and is no number. -/
def constants : List Json :=
  [.null, .bool true, .bool false, .float .nan, .float (.infinity false), .float (.infinity true)]

/-- The value of bare text. -/
def readBare (text : List Char) : Option Json :=
  (constants.find? fun value => bare value = some (String.ofList text)).or (readNumber text)

/-- The characters of a natural number. -/
theorem isDigit_of_mem_repr {n : Nat} {c : Char} (h : c ∈ n.repr.toList) : c.isDigit = true := by
  rw [Nat.toList_repr] at h
  exact Nat.isDigit_of_mem_toDigits (by omega) (by omega) h

theorem readNat_repr (n : Nat) : readNat n.repr.toList = some n := by
  have hdigits : n.repr.toList ≠ [] ∧ n.repr.toList.all Char.isDigit :=
    ⟨by rw [Nat.toList_repr]; exact Nat.toDigits_ne_nil,
      List.all_eq_true.mpr fun c => isDigit_of_mem_repr⟩
  rw [readNat, if_pos hdigits, Nat.toList_repr, Nat.ofDigitChars_ten_toDigits]

theorem readInt_repr (n : Int) : readInt n.repr.toList = some n := by
  have hnat : ∀ n : Nat, readInt n.repr.toList = some (n : Int) := by
    intro n
    have hread := readNat_repr n
    have hall : ∀ c ∈ n.repr.toList, c.isDigit = true := fun c => isDigit_of_mem_repr
    generalize n.repr.toList = digits at *
    unfold readInt
    split
    · cases hall '-' List.mem_cons_self
    · rw [hread]
      rfl
  rw [Int.repr_eq_if]
  split
  · rename_i hn
    rw [hnat, Int.toNat_of_nonneg hn]
  · rename_i hn
    have hminus : ("-" ++ (-n).toNat.repr).toList = '-' :: (-n).toNat.repr.toList := by simp
    rw [hminus, readInt, readNat_repr, Option.map_some, Int.toNat_of_nonneg (by omega), Int.neg_neg]

/-- The characters of an integer. -/
theorem isDigit_or_of_mem_repr {n : Int} {c : Char} (h : c ∈ n.repr.toList) :
    c.isDigit = true ∨ c = '-' := by
  rw [Int.repr_eq_if] at h
  split at h
  · exact .inl (isDigit_of_mem_repr h)
  · rw [String.toList_append] at h
    rcases List.mem_append.mp h with h | h
    · exact .inr (List.mem_singleton.mp h)
    · exact .inl (isDigit_of_mem_repr h)

theorem isBare_of_mem_repr {n : Int} {c : Char} (h : c ∈ n.repr.toList) : isBare c = true := by
  rcases isDigit_or_of_mem_repr h with hdigit | rfl
  · simp [isBare, Char.isAlphanum, hdigit]
  · rfl

theorem ne_slash_of_mem_repr {n : Int} {c : Char} (h : c ∈ n.repr.toList) : c ≠ '/' := by
  rintro rfl
  rcases isDigit_or_of_mem_repr h with hdigit | hminus
  · cases hdigit
  · cases hminus

/-- A number is none of the constants, which have a letter each. -/
theorem repr_ne {n : Int} {text : String} (h : ∃ c ∈ text.toList, c.isDigit = false ∧ c ≠ '-') :
    n.repr ≠ text := by
  rintro rfl
  obtain ⟨c, hmem, hdigit, hminus⟩ := h
  rcases isDigit_or_of_mem_repr hmem with h | h
  · cases h.symm.trans hdigit
  · exact hminus h

/-- Every character of bare text is bare, and there is one. -/
theorem bare_chars {value : Json} {text : String} (h : bare value = some text) :
    text.toList ≠ [] ∧ ∀ c ∈ text.toList, isBare c = true := by
  have hint : ∀ n : Int, n.repr.toList ≠ [] := by
    intro n
    rw [Int.repr_eq_if]
    split
    · rw [Nat.toList_repr]
      exact Nat.toDigits_ne_nil
    · simp
  -- The quantifier would be decided over all characters, `List.all` is over those of the text.
  have hconstant : ∀ text : String, text.toList ≠ [] ∧ text.toList.all isBare = true →
      text.toList ≠ [] ∧ ∀ c ∈ text.toList, isBare c = true :=
    fun _ hbare => hbare.imp_right List.all_eq_true.mp
  cases value with
  | null =>
    obtain rfl := Option.some.inj h
    exact hconstant _ (by decide)
  | bool b =>
    cases b with
    | false =>
      obtain rfl := Option.some.inj h
      exact hconstant _ (by decide)
    | true =>
      obtain rfl := Option.some.inj h
      exact hconstant _ (by decide)
  | int n =>
    obtain rfl := Option.some.inj h
    exact ⟨hint n, fun c => isBare_of_mem_repr⟩
  | float x =>
    cases x with
    | nan =>
      obtain rfl := Option.some.inj h
      exact hconstant _ (by decide)
    | infinity negative =>
      cases negative with
      | false =>
        obtain rfl := Option.some.inj h
        exact hconstant _ (by decide)
      | true =>
        obtain rfl := Option.some.inj h
        exact hconstant _ (by decide)
    | finite q =>
      obtain rfl := Option.some.inj h
      refine ⟨by simp, fun c hc => ?_⟩
      simp only [String.toList_append, List.mem_append] at hc
      rcases hc with (hc | hc) | hc
      · exact isBare_of_mem_repr hc
      · obtain rfl := List.mem_singleton.mp hc
        rfl
      · exact @isBare_of_mem_repr (q.den : Int) c (by simpa [Int.repr_eq_if] using hc)
  | str s => cases h
  | list items => cases h
  | dict fields => cases h

/-- Text that is no constant is a number. -/
theorem readBare_of_ne {text : String} (h : ∀ constant ∈ constants, bare constant ≠ some text) :
    readBare text.toList = readNumber text.toList := by
  have hnone : (constants.find? fun value => bare value = some (String.ofList text.toList)) =
      none := by
    refine List.find?_eq_none.mpr fun constant hmem => ?_
    rw [String.ofList_toList]
    simpa using h constant hmem
  rw [readBare, hnone, Option.none_or]

/-- The constants have a letter each, and no slash. -/
theorem bare_constant {constant : Json} (h : constant ∈ constants) :
    ∃ text, bare constant = some text ∧ (∃ c ∈ text.toList, c.isDigit = false ∧ c ≠ '-') ∧
      '/' ∉ text.toList := by
  simp only [constants, List.mem_cons, List.not_mem_nil, or_false] at h
  rcases h with rfl | rfl | rfl | rfl | rfl | rfl
  · exact ⟨_, rfl, ⟨'n', by decide⟩, by decide⟩
  · exact ⟨_, rfl, ⟨'t', by decide⟩, by decide⟩
  · exact ⟨_, rfl, ⟨'f', by decide⟩, by decide⟩
  · exact ⟨_, rfl, ⟨'N', by decide⟩, by decide⟩
  · exact ⟨_, rfl, ⟨'I', by decide⟩, by decide⟩
  · exact ⟨_, rfl, ⟨'I', by decide⟩, by decide⟩

theorem readNumber_repr (n : Int) : readNumber n.repr.toList = some (.int n) := by
  have hall : ∀ c ∈ n.repr.toList, decide (c ≠ '/') = true := fun c hc =>
    decide_eq_true (ne_slash_of_mem_repr hc)
  have hdrop : n.repr.toList.dropWhile (· ≠ '/') = [] := by
    rw [← List.append_nil n.repr.toList, List.dropWhile_append_of_pos hall, List.dropWhile_nil]
  rw [readNumber, hdrop]
  simp only [readInt_repr, Option.map_some]

theorem readNumber_fraction (q : ℚ) :
    readNumber (q.num.repr ++ "/" ++ q.den.repr).toList = some (.float (.finite q)) := by
  have hnum : ∀ c ∈ q.num.repr.toList, decide (c ≠ '/') = true := fun c hc =>
    decide_eq_true (ne_slash_of_mem_repr hc)
  have hsplit : (q.num.repr ++ "/" ++ q.den.repr).toList =
      q.num.repr.toList ++ '/' :: q.den.repr.toList := by
    simp
  have htake : (q.num.repr.toList ++ '/' :: q.den.repr.toList).takeWhile (· ≠ '/') =
      q.num.repr.toList := by
    rw [List.takeWhile_append_of_pos hnum]
    simp
  have hdrop : (q.num.repr.toList ++ '/' :: q.den.repr.toList).dropWhile (· ≠ '/') =
      '/' :: q.den.repr.toList := by
    rw [List.dropWhile_append_of_pos hnum]
    simp
  rw [hsplit, readNumber, htake, hdrop]
  simp only [readInt_repr, readNat_repr]
  exact congrArg (fun q => some (Json.float (.finite q))) (Rat.mkRat_self q)

/-- Bare text is read as it was written. -/
theorem readBare_bare {value : Json} {text : String} (h : bare value = some text) :
    readBare text.toList = some value := by
  by_cases hconstant : value ∈ constants
  · simp only [constants, List.mem_cons, List.not_mem_nil, or_false] at hconstant
    rcases hconstant with rfl | rfl | rfl | rfl | rfl | rfl
    all_goals
      obtain rfl := Option.some.inj h
      simp [readBare, constants, bare]
  · cases value with
    | null => simp [constants] at hconstant
    | bool b => cases b <;> simp [constants] at hconstant
    | int n =>
      obtain rfl := Option.some.inj h
      rw [readBare_of_ne, readNumber_repr]
      intro constant hmem heq
      obtain ⟨text, htext, hletter, -⟩ := bare_constant hmem
      exact repr_ne hletter (Option.some.inj (heq.symm.trans htext))
    | float x =>
      cases x with
      | nan => simp [constants] at hconstant
      | infinity negative => cases negative <;> simp [constants] at hconstant
      | finite q =>
        obtain rfl := Option.some.inj h
        rw [readBare_of_ne, readNumber_fraction]
        intro constant hmem heq
        obtain ⟨text, htext, -, hslash⟩ := bare_constant hmem
        obtain rfl := Option.some.inj (heq.symm.trans htext)
        exact hslash (by simp)
    | str s => cases h
    | list items => cases h
    | dict fields => cases h

/-! ## Values -/

mutual

/-- A value; a string without an encoding is written as an empty one. -/
def write : Json → List Char
  | .str s => writeString (s.text?.getD "").toList
  | .list [] => ['[', ']']
  | .list (item :: items) => '[' :: write item ++ writeItems items
  | .dict [] => ['\x7b', '\x7d']
  | .dict ((key, value) :: fields) =>
      '\x7b' :: writeString (key.text?.getD "").toList ++ ':' :: write value ++ writeFields fields
  | .null => "null".toList
  | .bool b => ((bare (.bool b)).getD "").toList
  | .int n => n.repr.toList
  | .float x => ((bare (.float x)).getD "").toList

/-- The items after the first. -/
def writeItems : List Json → List Char
  | [] => [']']
  | item :: items => ',' :: write item ++ writeItems items

/-- The fields after the first. -/
def writeFields : List (Str × Json) → List Char
  | [] => ['\x7d']
  | (key, value) :: fields =>
      ',' :: writeString (key.text?.getD "").toList ++ ':' :: write value ++ writeFields fields

end

/-- `json.dumps(value, ensure_ascii=False, separators=(",", ":"))`. -/
def dumps (value : Json) : String := String.ofList (write value)

mutual

/-- A value, and what follows it. -/
def read : Nat → List Char → Option (Json × List Char)
  | 0, _ => none
  | _ + 1, [] => none
  | fuel + 1, c :: rest =>
      if c = quote then
        (readString rest).map (.map (fun chars => .text (String.ofList chars)) id)
      else if c = '[' then
        if rest.head? = some ']' then some (.list [], rest.tail)
        else do
          let (item, rest) ← read fuel rest
          let (items, rest) ← readItems fuel rest
          some (.list (item :: items), rest)
      else if c = '\x7b' then
        if rest.head? = some '\x7d' then some (.dict [], rest.tail)
        else do
          let (field, rest) ← readField fuel rest
          let (fields, rest) ← readFields fuel rest
          some (.dict (field :: fields), rest)
      else do
        let value ← readBare ((c :: rest).takeWhile isBare)
        some (value, (c :: rest).dropWhile isBare)

/-- The items after the first. -/
def readItems : Nat → List Char → Option (List Json × List Char)
  | 0, _ => none
  | _ + 1, [] => none
  | fuel + 1, c :: rest =>
      if c = ']' then some ([], rest)
      else if c = ',' then do
        let (item, rest) ← read fuel rest
        let (items, rest) ← readItems fuel rest
        some (item :: items, rest)
      else none

/-- A field. -/
def readField : Nat → List Char → Option ((Str × Json) × List Char)
  | 0, _ => none
  | fuel + 1, rest => do
      let (key, rest) ← readString rest.tail
      let (value, rest) ← read fuel rest.tail
      some ((.text (String.ofList key), value), rest)

/-- The fields after the first. -/
def readFields : Nat → List Char → Option (List (Str × Json) × List Char)
  | 0, _ => none
  | _ + 1, [] => none
  | fuel + 1, c :: rest =>
      if c = '\x7d' then some ([], rest)
      else if c = ',' then do
        let (field, rest) ← readField fuel rest
        let (fields, rest) ← readFields fuel rest
        some (field :: fields, rest)
      else none

end

/-- `json.loads` of compact text, as far as it takes it. -/
def loads (text : String) : Option Json :=
  match read text.toList.length text.toList with
  | some (value, []) => some value
  | _ => none

/-! ## The round trip -/

/-- No character follows that could belong to bare text. -/
def Ends (rest : List Char) : Prop := ∀ c ∈ rest.head?, isBare c = false

theorem ends_cons {c : Char} {rest : List Char} (h : isBare c = false) : Ends (c :: rest) := by
  rintro _ ⟨⟩
  exact h

theorem read_bare {value : Json} {text : String} (h : bare value = some text) {fuel : Nat}
    {rest : List Char} (hfuel : text.toList.length ≤ fuel) (hrest : Ends rest) :
    read fuel (text.toList ++ rest) = some (value, rest) := by
  obtain ⟨hne, hall⟩ := bare_chars h
  have hread := readBare_bare h
  generalize text.toList = chars at *
  have htake : (chars ++ rest).takeWhile isBare = chars := by
    rw [List.takeWhile_append_of_pos hall]
    cases rest with
    | nil => simp
    | cons c rest => simp [hrest c rfl]
  have hdrop : (chars ++ rest).dropWhile isBare = rest := by
    rw [List.dropWhile_append_of_pos hall]
    cases rest with
    | nil => rfl
    | cons c rest => simp [hrest c rfl]
  cases chars with
  | nil => exact absurd rfl hne
  | cons c chars =>
    have hc : isBare c = true := hall c List.mem_cons_self
    cases fuel with
    | zero => simp at hfuel
    | succ fuel =>
      rw [List.cons_append] at htake hdrop ⊢
      rw [read, if_neg (by rintro rfl; cases hc), if_neg (by rintro rfl; cases hc),
        if_neg (by rintro rfl; cases hc), htake, hdrop, hread]
      rfl

theorem read_string (text : String) {fuel : Nat} (rest : List Char) (hfuel : 0 < fuel) :
    read fuel (writeString text.toList ++ rest) = some (.text text, rest) := by
  obtain ⟨fuel, rfl⟩ := Nat.exists_eq_succ_of_ne_zero (Nat.ne_of_gt hfuel)
  have hstring : writeString text.toList ++ rest =
      quote :: (text.toList.flatMap escape ++ quote :: rest) := by
    simp [writeString]
  rw [hstring, read, if_pos rfl, readString_writeString]
  simp [Prod.map]

/-- A value is read as it was written, whatever follows it. -/
def ReadsBack (value : Json) : Prop :=
  ∀ (fuel : Nat) (rest : List Char), (write value).length ≤ fuel → Ends rest →
    read fuel (write value ++ rest) = some (value, rest)

/-- What is written bare is its bare text. -/
theorem write_bare {value : Json} {text : String} (h : bare value = some text) :
    write value = text.toList := by
  cases value with
  | null =>
    obtain rfl := Option.some.inj h
    rfl
  | bool b => rw [write, h, Option.getD_some]
  | int n =>
    obtain rfl := Option.some.inj h
    rw [write]
  | float x => rw [write, h, Option.getD_some]
  | str s => cases h
  | list items => cases h
  | dict fields => cases h

/-- No value begins with a closing bracket. -/
theorem write_head (value : Json) : ∃ c chars, write value = c :: chars ∧ c ≠ ']' := by
  have hbare : ∀ text, bare value = some text →
      ∃ c chars, write value = c :: chars ∧ c ≠ ']' := by
    intro text h
    obtain ⟨hne, hall⟩ := bare_chars h
    rw [write_bare h]
    generalize text.toList = chars at *
    cases chars with
    | nil => exact absurd rfl hne
    | cons c chars =>
      refine ⟨c, chars, rfl, ?_⟩
      rintro rfl
      cases hall _ List.mem_cons_self
  cases value with
  | null => exact hbare _ rfl
  | bool b => cases b <;> exact hbare _ rfl
  | int n => exact hbare _ rfl
  | float x =>
    cases x with
    | nan => exact hbare _ rfl
    | infinity negative => cases negative <;> exact hbare _ rfl
    | finite q => exact hbare _ rfl
  | str s =>
    rw [write]
    exact ⟨quote, _, rfl, by decide⟩
  | list items =>
    cases items with
    | nil =>
      rw [write]
      exact ⟨'[', _, rfl, by decide⟩
    | cons item items =>
      rw [write]
      exact ⟨'[', _, rfl, by decide⟩
  | dict fields =>
    cases fields with
    | nil =>
      rw [write]
      exact ⟨'\x7b', _, rfl, by decide⟩
    | cons field fields =>
      rw [write]
      exact ⟨'\x7b', _, rfl, by decide⟩

theorem ends_writeItems (items : List Json) (rest : List Char) :
    Ends (writeItems items ++ rest) := by
  cases items with
  | nil => exact ends_cons rfl
  | cons item items => exact ends_cons rfl

theorem ends_writeFields (fields : List (Str × Json)) (rest : List Char) :
    Ends (writeFields fields ++ rest) := by
  cases fields with
  | nil => exact ends_cons rfl
  | cons field fields => exact ends_cons rfl

theorem readItems_writeItems {items : List Json} (h : ∀ item ∈ items, ReadsBack item) (fuel : Nat)
    (rest : List Char) (hfuel : (writeItems items).length ≤ fuel) :
    readItems fuel (writeItems items ++ rest) = some (items, rest) := by
  induction items generalizing fuel with
  | nil =>
    cases fuel with
    | zero => simp [writeItems] at hfuel
    | succ fuel => simp [writeItems, readItems]
  | cons item items ih =>
    obtain ⟨hitem, hitems⟩ := List.forall_mem_cons.mp h
    cases fuel with
    | zero => simp [writeItems] at hfuel
    | succ fuel =>
      simp only [writeItems, List.cons_append, List.length_cons, List.length_append] at hfuel
      rw [writeItems, List.cons_append, List.cons_append, List.append_assoc, readItems,
        if_neg (by decide), if_pos rfl,
        hitem fuel _ (by omega) (ends_writeItems items rest)]
      simp only [Option.bind_eq_bind, Option.bind_some]
      rw [ih hitems fuel (by omega)]
      rfl

/-- A field is read as it was written. -/
theorem readField_writeString {key : Str} {value : Json} (hkey : key.text?.isSome = true)
    (h : ReadsBack value) (fuel : Nat) (rest : List Char)
    (hfuel : (write value).length < fuel) (hrest : Ends rest) :
    readField fuel (writeString (key.text?.getD "").toList ++ ':' :: write value ++ rest) =
      some ((key, value), rest) := by
  obtain ⟨fuel, rfl⟩ := Nat.exists_eq_add_of_lt (Nat.zero_lt_of_lt hfuel)
  cases key with
  | surrogates codePoints lone => cases hkey
  | text key =>
    have hstring : writeString key.toList ++ ':' :: write value ++ rest =
        quote :: (key.toList.flatMap escape ++ quote :: ':' :: (write value ++ rest)) := by
      simp [writeString]
    simp only [Str.text?, Option.getD_some]
    rw [hstring, readField, List.tail_cons, readString_writeString]
    simp only [Option.bind_eq_bind, Option.bind_some, List.tail_cons]
    rw [h _ rest (by omega) hrest]
    simp

theorem readFields_writeFields {fields : List (Str × Json)}
    (hkeys : ∀ field ∈ fields, field.1.text?.isSome = true)
    (h : ∀ field ∈ fields, ReadsBack field.2) (fuel : Nat) (rest : List Char)
    (hfuel : (writeFields fields).length ≤ fuel) :
    readFields fuel (writeFields fields ++ rest) = some (fields, rest) := by
  induction fields generalizing fuel with
  | nil =>
    cases fuel with
    | zero => simp [writeFields] at hfuel
    | succ fuel => simp [writeFields, readFields]
  | cons field fields ih =>
    obtain ⟨key, value⟩ := field
    obtain ⟨hkey, hkeys⟩ := List.forall_mem_cons.mp hkeys
    obtain ⟨hvalue, hvalues⟩ := List.forall_mem_cons.mp h
    have hvalue : ReadsBack value := hvalue
    cases fuel with
    | zero => simp [writeFields] at hfuel
    | succ fuel =>
      have htext : writeFields ((key, value) :: fields) ++ rest = ',' ::
          (writeString (key.text?.getD "").toList ++ ':' :: write value ++
            (writeFields fields ++ rest)) := by
        simp [writeFields]
      simp only [writeFields, writeString, List.cons_append, List.length_cons,
        List.length_append] at hfuel
      rw [htext, readFields, if_neg (by decide), if_pos rfl,
        readField_writeString hkey hvalue fuel _ (by omega) (ends_writeFields fields rest)]
      simp only [Option.bind_eq_bind, Option.bind_some]
      rw [ih hkeys hvalues fuel (by omega)]
      rfl

theorem readsBack_list {items : List Json} (h : ∀ item ∈ items, ReadsBack item) :
    ReadsBack (.list items) := by
  intro fuel rest hfuel hrest
  cases items with
  | nil =>
    rw [write] at hfuel ⊢
    obtain ⟨fuel, rfl⟩ := Nat.exists_eq_add_of_lt hfuel
    rw [List.cons_append, read, if_neg (by decide), if_pos rfl]
    simp
  | cons item items =>
    obtain ⟨hitem, hitems⟩ := List.forall_mem_cons.mp h
    have htext : write (.list (item :: items)) ++ rest =
        '[' :: (write item ++ (writeItems items ++ rest)) := by
      simp [write]
    simp only [write, List.cons_append, List.length_cons, List.length_append] at hfuel
    obtain ⟨fuel, rfl⟩ := Nat.exists_eq_add_of_lt (Nat.zero_lt_of_lt hfuel)
    have hhead : (write item ++ (writeItems items ++ rest)).head? ≠ some ']' := by
      obtain ⟨c, chars, hwrite, hc⟩ := write_head item
      rw [hwrite]
      exact fun heq => hc (Option.some.inj heq)
    rw [htext, read, if_neg (by decide), if_pos rfl, if_neg hhead,
      hitem _ _ (by omega) (ends_writeItems items rest)]
    simp only [Option.bind_eq_bind, Option.bind_some]
    rw [readItems_writeItems hitems _ rest (by omega)]
    rfl

theorem readsBack_dict {fields : List (Str × Json)}
    (hkeys : ∀ field ∈ fields, field.1.text?.isSome = true)
    (h : ∀ field ∈ fields, ReadsBack field.2) : ReadsBack (.dict fields) := by
  intro fuel rest hfuel hrest
  cases fields with
  | nil =>
    rw [write] at hfuel ⊢
    obtain ⟨fuel, rfl⟩ := Nat.exists_eq_add_of_lt hfuel
    rw [List.cons_append, read, if_neg (by decide), if_neg (by decide), if_pos rfl]
    simp
  | cons field fields =>
    obtain ⟨key, value⟩ := field
    obtain ⟨hkey, hkeys⟩ := List.forall_mem_cons.mp hkeys
    obtain ⟨hvalue, hvalues⟩ := List.forall_mem_cons.mp h
    have hvalue : ReadsBack value := hvalue
    have htext : write (.dict ((key, value) :: fields)) ++ rest = '\x7b' ::
        (writeString (key.text?.getD "").toList ++ ':' :: write value ++
          (writeFields fields ++ rest)) := by
      simp [write]
    have hhead : (writeString (key.text?.getD "").toList ++ ':' :: write value ++
        (writeFields fields ++ rest)).head? ≠ some '\x7d' :=
      fun heq => absurd (Option.some.inj heq) (by decide)
    simp only [write, writeString, List.cons_append, List.length_cons, List.length_append] at hfuel
    obtain ⟨fuel, rfl⟩ := Nat.exists_eq_add_of_lt (Nat.zero_lt_of_lt hfuel)
    rw [htext, read, if_neg (by decide), if_neg (by decide), if_pos rfl, if_neg hhead,
      readField_writeString hkey hvalue _ _ (by omega) (ends_writeFields fields rest)]
    simp only [Option.bind_eq_bind, Option.bind_some]
    rw [readFields_writeFields hkeys hvalues _ rest (by omega)]
    rfl

/-- What is written of a value, whatever follows it, is read as the value. -/
theorem readsBack_of_clean {value : Json} (h : value.Clean) : ReadsBack value := by
  have hbare : ∀ {value : Json} {text : String}, bare value = some text → ReadsBack value := by
    intro value text h fuel rest hfuel hrest
    rw [write_bare h] at hfuel ⊢
    exact read_bare h hfuel hrest
  induction h with
  | null => exact hbare rfl
  | bool b => cases b <;> exact hbare rfl
  | int n => exact hbare rfl
  | float x =>
    cases x with
    | nan => exact hbare rfl
    | infinity negative => cases negative <;> exact hbare rfl
    | finite q => exact hbare rfl
  | text s =>
    intro fuel rest hfuel hrest
    have htext : write (.text s) = writeString s.toList := by rw [write]; rfl
    rw [htext] at hfuel ⊢
    exact read_string s rest (by simp [writeString] at hfuel; omega)
  | list _ ih => exact readsBack_list ih
  | dict _ hkeys _ ih => exact readsBack_dict hkeys ih

/-- **The round trip.**  `loads` reads what `dumps` wrote. -/
theorem loads_dumps {value : Json} (h : value.Clean) : loads (dumps value) = some value := by
  have hread := readsBack_of_clean h (write value).length [] (Nat.le_refl _) (by rintro _ ⟨⟩)
  rw [List.append_nil] at hread
  rw [loads, dumps, String.toList_ofList, hread]

end JsonText
end Python
