import Mathlib.Data.Rat.Defs

/-! # The values `json.loads` returns

A JSON string may spell a lone surrogate, which Python keeps and no encoding
accepts; a number is an integer of any size or a float.  `Json` has all of them.
-/
namespace Python

/-- A lone surrogate is a code point of no character. -/
def isSurrogate (codePoint : Nat) : Bool := 0xD800 ≤ codePoint && codePoint ≤ 0xDFFF

/-- A string: a text, or code points with a lone surrogate among them. -/
inductive Str where
  | text (s : String)
  | surrogates (codePoints : List Nat) (lone : codePoints.any isSurrogate = true)
deriving DecidableEq, Repr

theorem any_isSurrogate {n : Nat} (h : isSurrogate n = true) : [n].any isSurrogate = true :=
  List.any_eq_true.mpr ⟨n, List.mem_singleton_self n, h⟩

/-- The text of a string that has an encoding. -/
def Str.text? : Str → Option String
  | text s => some s
  | surrogates .. => none

/-- A float. -/
inductive PyFloat where
  | finite (q : ℚ)
  | infinity (negative : Bool)
  | nan
deriving DecidableEq, Repr

/-- What `json.loads` returns. -/
inductive Json where
  | null
  | bool (b : Bool)
  | int (n : Int)
  | float (x : PyFloat)
  | str (s : Str)
  | list (items : List Json)
  | dict (fields : List (Str × Json))

namespace Json

/-- `str` literals. -/
abbrev text (s : String) : Json := str (.text s)

/-- The fields of a dictionary; any other value has none. -/
def fields : Json → List (Str × Json)
  | dict fields => fields
  | _ => []

/-- `value.get(name)`. -/
def get? (value : Json) (name : String) : Option Json := value.fields.lookup (.text name)

/-- Whether the value counts as true. -/
def truthy : Json → Bool
  | null => false
  | bool b => b
  | int n => n ≠ 0
  | float x => x ≠ .finite 0
  | str s => s ≠ .text ""
  | list items => !items.isEmpty
  | dict fields => !fields.isEmpty

mutual

/-- Every string in the value has an encoding, the keys among them: so has the text that
`json.dumps` writes of it with `ensure_ascii=False`. -/
def encodable : Json → Bool
  | str s => s.text?.isSome
  | list items => encodableItems items
  | dict fields => encodableFields fields
  | _ => true

def encodableItems : List Json → Bool
  | [] => true
  | item :: items => item.encodable && encodableItems items

def encodableFields : List (Str × Json) → Bool
  | [] => true
  | (key, value) :: fields => key.text?.isSome && value.encodable && encodableFields fields

end

end Json

/-! ## Decoding bytes -/

/-- The bytes of the ill-formed sequence at `i` that one replacement character stands
for: the longest part of it that a well-formed sequence begins with. -/
def illFormed (bytes : ByteArray) (i : Nat) : Nat :=
  let byte := fun k => bytes.toList.getD (i + k) 0
  let continues := fun k lo hi => lo ≤ byte k ∧ byte k ≤ hi
  let (lo, hi) := if byte 0 = 0xE0 then (0xA0, 0xBF) else if byte 0 = 0xED then (0x80, 0x9F)
    else if byte 0 = 0xF0 then (0x90, 0xBF) else if byte 0 = 0xF4 then (0x80, 0x8F)
    else (0x80, 0xBF)
  if 0xE0 ≤ byte 0 ∧ byte 0 ≤ 0xEF ∧ continues 1 lo hi then 2
  else if 0xF0 ≤ byte 0 ∧ byte 0 ≤ 0xF4 ∧ continues 1 lo hi then
    if continues 2 0x80 0xBF then 3 else 2
  else 1

/-- `bytes.decode("utf-8", errors="replace")`. -/
def decodeReplace (bytes : ByteArray) : String := String.ofList (go bytes.size 0)
where
  /-- The characters from position `i` on; each step consumes a byte at least. -/
  go : Nat → Nat → List Char
    | 0, _ => []
    | fuel + 1, i =>
      if i < bytes.size then
        match bytes.utf8DecodeChar? i with
        | some c => c :: go fuel (i + c.utf8Size)
        | none => '\uFFFD' :: go fuel (i + illFormed bytes i)
      else []

example : decodeReplace "réseau".toUTF8 = "réseau" := by decide +kernel
example : decodeReplace ⟨#[0x41, 0xF0, 0x9F, 0x98, 0x41, 0xFF]⟩ = "A\uFFFDA\uFFFD" := by
  decide +kernel

end Python
