import ScriptBoundary.Number.Decimal

/-!
# JSON trees

The values of JSON text. A number written without point and exponent is an integer as long as it
fits sixty-four bits, and is kept apart from the floating-point numbers: the two are written
differently. Objects keep the order of their fields. The text of a tree has no blank in it, and
escapes the quote, the backslash and the control characters.
-/

namespace ScriptBoundary

/-- A number of a JSON text. -/
inductive JsonNumber where
  | integer (n : Int)
  | real (x : Binary .f64)
deriving DecidableEq

/-- A JSON value. -/
inductive Json where
  | null
  | bool (b : Bool)
  | number (n : JsonNumber)
  | string (text : String)
  | array (items : List Json)
  | object (fields : List (String × Json))

instance : Inhabited Json := ⟨.null⟩

namespace Json

/-- One character of a JSON string. -/
def escaped (c : Char) : List Char :=
  match c with
  | '"' => ['\\', '"']
  | '\\' => ['\\', '\\']
  | '\x08' => ['\\', 'b']
  | '\x0c' => ['\\', 'f']
  | '\n' => ['\\', 'n']
  | '\r' => ['\\', 'r']
  | '\t' => ['\\', 't']
  | c =>
    if c.toNat < 0x20 then
      ['\\', 'u', '0', '0'] ++ (if c.toNat < 0x10 then ['0'] else []) ++ Nat.toDigits 16 c.toNat
    else [c]

/-- A JSON string with its quotes. -/
def writeString (text : String) : List Char := '"' :: text.toList.flatMap escaped ++ ['"']

/-- An integer is written plainly; a floating-point number always shows that it is one. -/
def writeNumber : JsonNumber → List Char
  | .integer n => (toString n).toList
  | .real x => (Layout.json.render x).toList

mutual

/-- The text of a tree. -/
def write : Json → List Char
  | .null => ['n', 'u', 'l', 'l']
  | .bool b => if b then ['t', 'r', 'u', 'e'] else ['f', 'a', 'l', 's', 'e']
  | .number n => writeNumber n
  | .string text => writeString text
  | .array items => '[' :: writeItems items ++ [']']
  | .object fields => '\x7b' :: writeFields fields ++ ['\x7d']

/-- The items of an array between commas. -/
def writeItems : List Json → List Char
  | [] => []
  | [item] => write item
  | item :: rest => write item ++ ',' :: writeItems rest

/-- The fields of an object between commas. -/
def writeFields : List (String × Json) → List Char
  | [] => []
  | [(key, value)] => writeString key ++ ':' :: write value
  | (key, value) :: rest => writeString key ++ ':' :: write value ++ ',' :: writeFields rest

end

/-- JSON text of a tree. -/
def render (tree : Json) : String := String.ofList tree.write

end Json

end ScriptBoundary
