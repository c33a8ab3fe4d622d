import ScriptBoundary.Json.Numeral
import ScriptBoundary.Keyed

/-!
# Reading JSON text

The text is read one character at a time. A scanner gathers characters into tokens, and each token
moves a second machine, which holds the arrays and objects still open. Containers nest at most 127
deep, a key that comes again replaces the earlier value in its place, and nothing may follow the
value. A text that cannot be read is reported with the place where reading stopped.
-/

namespace ScriptBoundary.Json

/-- A piece of JSON text. -/
inductive Token where
  | openArray | closeArray | openObject | closeObject | colon | comma
  | text (value : String)
  | word (letters : List Char)

/-- What the scanner is in the middle of. Letters gathered so far are held last first. -/
inductive Scanner where
  | between
  | word (letters : List Char)
  | text (letters : List Char)
  /-- Behind a backslash. -/
  | escape (letters : List Char)
  /-- Inside a character number: the first half of a pair if one is pending, the digits read so far
  and their value. -/
  | code (letters : List Char) (lead : Option Nat) (count value : Nat)
  /-- Behind the first half of a pair, where the second must follow. -/
  | lead (letters : List Char) (value : Nat)
  /-- Behind the backslash of the second half. -/
  | leadEscape (letters : List Char) (value : Nat)

/-- The character a short escape stands for. -/
def shortEscape? : Char → Option Char
  | '"' => some '"'
  | '\\' => some '\\'
  | '/' => some '/'
  | 'b' => some '\x08'
  | 'f' => some '\x0c'
  | 'n' => some '\n'
  | 'r' => some '\r'
  | 't' => some '\t'
  | _ => none

/-- The scanner after a whole character number: a first half waits for its second. -/
def afterCode (letters : List Char) (lead : Option Nat) (value : Nat) : Option Scanner :=
  match lead with
  | none =>
    if 0xD800 ≤ value ∧ value < 0xDC00 then some (.lead letters value)
    else if 0xDC00 ≤ value ∧ value < 0xE000 then none
    else some (.text (Char.ofNat value :: letters))
  | some first =>
    if 0xDC00 ≤ value ∧ value < 0xE000 then
      some (.text (Char.ofNat (0x10000 + (first - 0xD800) * 0x400 + (value - 0xDC00)) :: letters))
    else none

/-- A character between tokens. -/
def scanBetween : Char → Option (Scanner × List Token)
  | ' ' | '\t' | '\n' | '\r' => some (.between, [])
  | '[' => some (.between, [.openArray])
  | ']' => some (.between, [.closeArray])
  | '\x7b' => some (.between, [.openObject])
  | '\x7d' => some (.between, [.closeObject])
  | ':' => some (.between, [.colon])
  | ',' => some (.between, [.comma])
  | '"' => some (.text [], [])
  | c => if c.isAlphanum || c == '-' then some (.word [c], []) else none

/-- The letters of a number or a name. -/
def isWordLetter (c : Char) : Bool := c.isAlphanum || c == '-' || c == '+' || c == '.'

/-- The scanner after one more character, and the tokens that it ended. -/
def scan : Scanner → Char → Option (Scanner × List Token)
  | .between, c => scanBetween c
  | .word letters, c =>
    if isWordLetter c then some (.word (c :: letters), [])
    else (scanBetween c).map fun (next, tokens) => (next, .word letters.reverse :: tokens)
  | .text letters, c =>
    if c = '"' then some (.between, [.text (String.ofList letters.reverse)])
    else if c = '\\' then some (.escape letters, [])
    else if c.toNat < 0x20 then none
    else some (.text (c :: letters), [])
  | .escape letters, c =>
    if c = 'u' then some (.code letters none 0 0, [])
    else (shortEscape? c).map fun c => (.text (c :: letters), [])
  | .code letters lead count value, c => do
    let digit ← Digit.hex? c
    if count < 3 then some (.code letters lead (count + 1) (16 * value + digit), [])
    else (afterCode letters lead (16 * value + digit)).map (·, [])
  | .lead letters value, c => if c = '\\' then some (.leadEscape letters value, []) else none
  | .leadEscape letters value, c =>
    if c = 'u' then some (.code letters (some value) 0 0, []) else none

/-- A container that is still open. -/
inductive Frame where
  /-- The items so far, last first. -/
  | array (items : List Json)
  /-- The fields so far and the key of the value under way. -/
  | object (fields : List (String × Json)) (key : String)

/-- What may come next, with the open containers, innermost first. -/
inductive Reading where
  | value (stack : List Frame)
  /-- An item, or the end of an array that has none. -/
  | firstItem (stack : List Frame)
  /-- A key; the object may also end if it has no field yet. -/
  | key (fields : List (String × Json)) (stack : List Frame)
  | colon (fields : List (String × Json)) (key : String) (stack : List Frame)
  /-- A comma or the end of the innermost container. -/
  | separator (stack : List Frame)
  | finished (tree : Json)

/-- The value of a name or a numeral. -/
def ofWord? (letters : List Char) : Option Json :=
  match String.ofList letters with
  | "null" => some .null
  | "true" => some (.bool true)
  | "false" => some (.bool false)
  | _ => (numeral? letters).map .number

/-- What comes after a value. -/
def afterValue (value : Json) : List Frame → Reading
  | [] => .finished value
  | .array items :: rest => .separator (.array (value :: items) :: rest)
  | .object fields key :: rest => .separator (.object (Keyed.put key value fields) key :: rest)

/-- How deep containers may nest. -/
def maxDepth : Nat := 127

/-- The start of a value. -/
def readValue (stack : List Frame) : Token → Option Reading
  | .openArray => if stack.length < maxDepth then some (.firstItem (.array [] :: stack)) else none
  | .openObject => if stack.length < maxDepth then some (.key [] stack) else none
  | .text value => some (afterValue (.string value) stack)
  | .word letters => (ofWord? letters).map (afterValue · stack)
  | _ => none

/-- What may come after one more token. -/
def read : Reading → Token → Option Reading
  | .value stack, token => readValue stack token
  | .firstItem (_ :: rest), .closeArray => some (afterValue (.array []) rest)
  | .firstItem stack, token => readValue stack token
  | .key [] stack, .closeObject => some (afterValue (.object []) stack)
  | .key fields stack, .text key => some (.colon fields key stack)
  | .colon fields key stack, .colon => some (.value (.object fields key :: stack))
  | .separator (.array items :: rest), .comma => some (.value (.array items :: rest))
  | .separator (.array items :: rest), .closeArray => some (afterValue (.array items.reverse) rest)
  | .separator (.object fields _ :: rest), .comma => some (.key fields rest)
  | .separator (.object fields _ :: rest), .closeObject => some (afterValue (.object fields) rest)
  | _, _ => none

/-- A place in a text, lines counted from one. -/
structure Place where
  line : Nat
  column : Nat
deriving DecidableEq, Repr

/-- The place behind one more character. -/
def Place.after (place : Place) (c : Char) : Place :=
  if c = '\n' then ⟨place.line + 1, 0⟩ else ⟨place.line, place.column + 1⟩

/-- Reads the rest of a text. A word at the very end is a token of its own. -/
def readFrom (scanner : Scanner) (reading : Reading) (place : Place) :
    List Char → Except Place Json
  | [] =>
    let last := match scanner with
      | .between => some reading
      | .word letters => read reading (.word letters.reverse)
      | _ => none
    match last with
    | some (.finished tree) => .ok tree
    | _ => .error place
  | c :: rest =>
    let place := place.after c
    match scan scanner c with
    | none => .error place
    | some (next, tokens) =>
      match tokens.foldlM read reading with
      | none => .error place
      | some reading => readFrom next reading place rest

/-- The tree of a JSON text, or the place where reading stopped. -/
def parse (text : String) : Except Place Json := readFrom .between (.value []) ⟨1, 0⟩ text.toList

end ScriptBoundary.Json
