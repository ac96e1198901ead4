/-
Purpose: Decoded JSON values with the Python operations that the phase runtime
  applies to them, and the Python text operations beside them.
Trusted boundary: reading of Python's documented behaviour of `dict.get`, subscription, `==`,
  truth values and `str.split`
-/
import WeaveCodex.Library.Dict

namespace WeaveCodex.ControlPlane

open Library

/-- A Python float; the sign of a zero is kept, since `str` shows it. -/
inductive PyFloat where
  | finite (negative : Bool) (magnitude : Rat)
  | infinite (negative : Bool)
  | nan
deriving DecidableEq

/-- The values `json.loads` returns. -/
inductive Json where
  | null
  | bool (value : Bool)
  | int (value : Int)
  | float (value : PyFloat)
  | text (value : String)
  | list (items : List Json)
  | dict (fields : List (String × Json))

/-- The entries of a Python dictionary with text keys. -/
abbrev Fields : Type :=
  List (String × Json)

/-- `fields.get(key)`. -/
def Fields.get (fields : Fields) (key : String) : Option Json :=
  Dict.ofEntries fields key

namespace Json

/-- `isinstance(value, dict)`. -/
def asDict : Json → Option Fields
  | .dict fields => some fields
  | _ => none

/-- `isinstance(value, list)`. -/
def asList : Json → Option (List Json)
  | .list items => some items
  | _ => none

/-- `isinstance(value, str)`. -/
def asText : Json → Option String
  | .text value => some value
  | _ => none

/-- `isinstance(value, int)`, which holds of the booleans too. -/
def asInt : Json → Option Int
  | .int value => some value
  | .bool value => some (if value then 1 else 0)
  | _ => none

/-- `value == number` for an integer. -/
def equalsInt (value : Json) (number : Int) : Bool :=
  match value with
  | .int value => value == number
  | .bool value => (if value then 1 else 0) == number
  | .float (.finite negative magnitude) =>
    (if negative then -magnitude else magnitude) == (number : Rat)
  | _ => false

/-- `value == other` for a text. -/
def equalsText (value : Json) (other : String) : Bool :=
  match value with
  | .text value => value == other
  | _ => false

/-- `bool(value)`. -/
def truthy : Json → Bool
  | .null => false
  | .bool value => value
  | .int value => value != 0
  | .float (.finite _ magnitude) => magnitude != 0
  | .float _ => true
  | .text value => value != ""
  | .list items => !items.isEmpty
  | .dict fields => !fields.isEmpty

/-- `value[key]` for a text key; only dictionaries have text keys. -/
def subscript (value : Json) (key : String) : Except String Json :=
  match value with
  | .dict fields =>
    match Fields.get fields key with
    | some entry => .ok entry
    | none => .error ("KeyError: " ++ key)
  | _ => .error "TypeError: value has no text keys"

/-- `hash(value)` is defined. -/
def Hashable : Json → Prop
  | .list _ | .dict _ => False
  | _ => True

instance : (value : Json) → Decidable value.Hashable
  | .list _ | .dict _ => isFalse id
  | .null | .bool _ | .int _ | .float _ | .text _ => isTrue trivial

end Json

/-- The Python functions between texts and values: `json.loads`, `str`, and the
length of `json.dumps` of a dictionary.  A text is its own `str`. -/
structure PythonText where
  loads : String → Except String Json
  str : Json → String
  str_text : ∀ text, str (.text text) = text
  encodedLength : Fields → Nat

/-- The characters on which `str.split()` splits. -/
def isSpace (char : Char) : Bool :=
  let code := char.toNat
  (9 ≤ code && code ≤ 13) || (28 ≤ code && code ≤ 32) || code == 0x85 || code == 0xA0 ||
    code == 0x1680 || (0x2000 ≤ code && code ≤ 0x200A) || code == 0x2028 || code == 0x2029 ||
    code == 0x202F || code == 0x205F || code == 0x3000

/-- The words of a text: its maximal runs of other characters.  `word` holds the
characters of the current run. -/
def splitWordsFrom (word : List Char) : List Char → List (List Char)
  | [] => if word = [] then [] else [word]
  | char :: chars =>
    if isSpace char then
      (if word = [] then [] else [word]) ++ splitWordsFrom [] chars
    else
      splitWordsFrom (word ++ [char]) chars

/-- `text.split()`. -/
def splitWords (text : String) : List String :=
  (splitWordsFrom [] text.toList).map String.ofList

end WeaveCodex.ControlPlane
