import AxSentinel.Json
import AxSentinel.Strings
import AxSentinel.Models

/-! # The Ollama analysis engine

`OllamaAnalysisEngine.analyze` of `services/ai_analysis/app/engine.py`, from the response of the
model on: the actions it recommends are told apart by their instructions, stripped and case folded,
and numbered again. -/
/-! ## Dictionaries and strings -/

namespace Python

/-- `type(value).__name__`. -/
def Json.typeName : Json → String
  | null => "NoneType"
  | bool _ => "bool"
  | int _ => "int"
  | float _ => "float"
  | str _ => "str"
  | list _ => "list"
  | dict _ => "dict"

/-- The code points of a string. -/
def Str.codePoints : Str → List Nat
  | text s => s.toList.map Char.toNat
  | surrogates codePoints _ => codePoints

/-- `str.strip`, on code points; a surrogate is no space. -/
def stripped (codePoints : List Nat) : List Nat :=
  (codePoints.dropWhile fun n => isSpace (Char.ofNat n)).rdropWhile
    fun n => isSpace (Char.ofNat n)

/-- `fields[name] = value`, and `fields | {name: value}`. -/
def setField (name : Str) (value : Json) : List (Str × Json) → List (Str × Json)
  | [] => [(name, value)]
  | field :: fields =>
      if field.1 = name then (name, value) :: fields else field :: setField name value fields

theorem lookup_setField (name : Str) (value : Json) (fields : List (Str × Json)) :
    (setField name value fields).lookup name = some value := by
  induction fields with
  | nil => simp [setField]
  | cons field fields ih =>
    unfold setField
    by_cases hname : field.1 = name
    · rw [if_pos hname, List.lookup_cons_self]
    · rw [if_neg hname, List.lookup_cons, beq_false_of_ne (Ne.symm hname)]
      exact ih

theorem lookup_setField_of_ne {name name' : Str} (h : name' ≠ name) (value : Json)
    (fields : List (Str × Json)) :
    (setField name value fields).lookup name' = fields.lookup name' := by
  induction fields with
  | nil => simp [setField, List.lookup_cons, beq_false_of_ne h]
  | cons field fields ih =>
    unfold setField
    by_cases hname : field.1 = name
    · rw [if_pos hname, List.lookup_cons, List.lookup_cons, hname, beq_false_of_ne h]
    · rw [if_neg hname, List.lookup_cons, List.lookup_cons, ih]

/-- A field that is set to the value it has stays as it is. -/
theorem setField_of_lookup {name : Str} {value : Json} {fields : List (Str × Json)}
    (h : fields.lookup name = some value) : setField name value fields = fields := by
  induction fields with
  | nil => cases h
  | cons field fields ih =>
    unfold setField
    by_cases hname : field.1 = name
    · subst hname
      rw [List.lookup_cons_self] at h
      rw [if_pos rfl, ← Option.some.inj h]
    · rw [List.lookup_cons, beq_false_of_ne (Ne.symm hname)] at h
      rw [if_neg hname, ih h]

end Python

namespace AxSentinel
open Python (Json Str setField stripped)

/-- `value.get(name, default)`. -/
def getOr (value : Json) (name : String) (default : Json) : Except Exc Json :=
  match value with
  | .dict fields => .ok ((fields.lookup (.text name)).getD default)
  | value => .error (.other "AttributeError"
      ("'" ++ value.typeName ++ "' object has no attribute 'get'"))

/-- `for item in value`. -/
def iterate : Json → Except Exc (List Json)
  | .list items => .ok items
  | .dict fields => .ok (fields.map fun field => .str field.1)
  | .str (.text s) => .ok (s.toList.map fun c => .text (String.singleton c))
  | .str (.surrogates codePoints _) => .ok (codePoints.map fun n =>
      if h : Python.isSurrogate n = true then .str (.surrogates [n] (Python.any_isSurrogate h))
      else .text (String.singleton (Char.ofNat n)))
  | value => .error (.other "TypeError" ("'" ++ value.typeName ++ "' object is not iterable"))

/-- `value[name]`. -/
def subscript (value : Json) (name : String) : Except Exc Json :=
  match value with
  | .dict fields =>
      match fields.lookup (.text name) with
      | some value => .ok value
      | none => .error (.other "KeyError" ("'" ++ name ++ "'"))
  | .list _ => .error (.other "TypeError" "list indices must be integers or slices, not str")
  | .str _ => .error (.other "TypeError" "string indices must be integers, not 'str'")
  | value => .error (.other "TypeError" ("'" ++ value.typeName ++ "' object is not subscriptable"))

/-- `value[name] = item`. -/
def setItem (value : Json) (name : String) (item : Json) : Except Exc Json :=
  match value with
  | .dict fields => .ok (.dict (setField (.text name) item fields))
  | .list _ => .error (.other "TypeError" "list indices must be integers or slices, not str")
  | value => .error (.other "TypeError" ("'" ++ value.typeName ++
      "' object does not support item assignment"))

/-- `value == text`. -/
def isText (value : Json) (text : String) : Bool :=
  match value with
  | .str s => s = .text text
  | _ => false

section Dictionaries
variable {value item output : Json} {name : String} {default : Json}

theorem getOr_ok (h : getOr value name default = .ok item) :
    item = (value.get? name).getD default := by
  cases value with
  | dict fields => exact (Except.ok.inj h).symm
  | _ => cases h

theorem get?_of_setItem (h : setItem value name item = .ok output) :
    output.get? name = some item := by
  cases value with
  | dict fields =>
    obtain rfl := Except.ok.inj h
    exact Python.lookup_setField ..
  | _ => cases h

end Dictionaries

/-! ## The engine -/

/-- The engine, with what it takes from the language: `json.loads` of a string, `repr` of a value
that is none, and the full case folding of a code point. -/
structure OllamaAnalysisEngine where
  model : String
  promptHash : String
  loads : Str → Except Exc Json
  repr : Json → String
  caseFold : Nat → List Nat
  caseFold_ne_nil : ∀ n, caseFold n ≠ []

/-- An action as the model recommends it. -/
abbrev RecommendedAction := List (Str × Json)

/-- `PROMPT_VERSION`. -/
def promptVersion : String := "ax-sentinel-diagnosis-v3"

namespace OllamaAnalysisEngine
variable (engine : OllamaAnalysisEngine)

/-- `str(action.get("instruction", "")).strip()`. -/
def instruction (action : RecommendedAction) : List Nat :=
  let value := (action.lookup (.text "instruction")).getD (.text "")
  stripped (match value with
    | .str s => s.codePoints
    | value => (Str.text (engine.repr value)).codePoints)

/-- `instruction.casefold()`. -/
def normalized (action : RecommendedAction) : List Nat :=
  (engine.instruction action).flatMap engine.caseFold

/-- The loop over the recommended actions, from the `unique_actions` and `seen_instructions` so
far on. -/
def uniqueActions : List Json → List RecommendedAction → List (List Nat) →
    Except Exc (List RecommendedAction)
  | [], unique, _ => .ok unique
  | .dict action :: actions, unique, seen =>
      let normalized := engine.normalized action
      if normalized = [] ∨ normalized ∈ seen then uniqueActions actions unique seen
      else
        uniqueActions actions
          (unique ++ [setField (.text "sequence") (.int (unique.length + 1)) action])
          (normalized :: seen)
  | value :: _, _, _ => .error (.other "AttributeError"
      ("'" ++ value.typeName ++ "' object has no attribute 'get'"))

/-- `json.loads(content)`. -/
def loadContent : Json → Except Exc Json
  | .str s => engine.loads s
  | value => .error (.other "TypeError"
      ("the JSON object must be str, bytes or bytearray, not " ++ value.typeName))

/-- The `_audit` of a response. -/
def audit (payload : Json) : Json :=
  .dict [(.text "ai_provider", .text "ollama"),
    (.text "model_id", (payload.get? "model").getD (.text engine.model)),
    (.text "prompt_version", .text promptVersion), (.text "prompt_hash", .text engine.promptHash),
    (.text "guardrail_action", .text "not_configured"), (.text "request_id", .null),
    (.text "input_tokens", (payload.get? "prompt_eval_count").getD (.int 0)),
    (.text "output_tokens", (payload.get? "eval_count").getD (.int 0))]

/-- `analyze`, from `response.json()` on. -/
def analyze (response : Except Exc Json) : Except Exc Json := do
  let payload ← response
  let message ← getOr payload "message" (.dict [])
  let content ← getOr message "content" .null
  if content.truthy = false then
    throw (.other "ValueError" "Ollama response did not contain analysis content")
  let output ← engine.loadContent content
  let actions ← getOr output "recommended_actions" (.list [])
  let actions ← iterate actions
  let unique ← engine.uniqueActions actions [] []
  if unique = [] then
    throw (.other "ValueError" "Ollama response did not contain a usable action plan")
  pure (.dict (setField (.text "_audit") (engine.audit payload)
    (setField (.text "recommended_actions") (.list (unique.map .dict)) output.fields)))

end OllamaAnalysisEngine
end AxSentinel
