import ScriptBoundary.Toml.Numeral
import ScriptBoundary.Toml.Text

/-!
# TOML documents

A document is read line by line into a tree whose leaves are scalars.
-/

namespace ScriptBoundary.Toml

/-!
## Scalars

A scalar is a text or a row of words: a truth value, a number, a date or a time. A word ends where a
blank, a line end or one of the marks of the format stands. Words that only blanks part belong
together, since a date and a time may be parted so; a row that is no scalar is refused as a whole.
-/

/-- A character of a word. -/
def isWordChar (c : Char) : Bool := !" \t\r\n=,[]#\x7b\x7d".toList.contains c

/-- A character that a word behind a blank may start with. A quote there starts a text. -/
def startsWord (c : Char) : Bool := isWordChar c && !"'\".".toList.contains c

/-- The words in front and what stands behind them, given the blanks that were seen last. Blanks
that no word follows are left. -/
def takeWords (blanks : List Char) : List Char → List Char × List Char
  | [] => ([], blanks)
  | c :: rest =>
    if c = ' ' ∨ c = '\t' then takeWords (blanks ++ [c]) rest
    else if startsWord c || blanks.isEmpty && isWordChar c then
      let (words, behind) := takeWords [] rest
      (blanks ++ c :: words, behind)
    else ([], blanks ++ c :: rest)

/-- Nothing is lost between the words and what stands behind them. -/
theorem takeWords_append (blanks cs : List Char) :
    (takeWords blanks cs).1 ++ (takeWords blanks cs).2 = blanks ++ cs := by
  fun_induction takeWords blanks cs with
  | case1 blanks => simp
  | case2 blanks c rest _ ih => simpa using ih
  | case3 blanks c rest _ _ words behind h ih => simpa [h] using ih
  | case4 blanks c rest => simp

/-- The value of a row of words. -/
def ofWords? (words : List Char) : Option Toml :=
  if words = ['t', 'r', 'u', 'e'] then some (.flag true)
  else if words = ['f', 'a', 'l', 's', 'e'] then some (.flag false)
  else ofNumeral? words

/-- A scalar. -/
def readScalar (cs : List Char) : Option (Toml × List Char) :=
  match cs with
  | '"' :: _ | '\'' :: _ => (readText cs).map fun (value, rest) => (.text value, rest)
  | _ =>
    let (words, rest) := takeWords [] cs
    (ofWords? words).map (·, rest)

/-!
## Lines

A document is a list of lines: headers, assignments, blanks and comments. Arrays and inline tables
may run over several lines; there a line may end everywhere but inside a key. A document that breaks
a rule anywhere is refused as a whole.
-/

/-- A character of a key without quotes. -/
def isKeyChar (c : Char) : Bool := c.isAlphanum || c == '_' || c == '-'

/-- One part of a key. -/
def readKeyPart (cs : List Char) : Option (String × List Char) :=
  match cs with
  | '"' :: rest => readBasic (rest.length + 1) [] rest
  | '\'' :: rest => readLiteral rest
  | _ =>
    let part := cs.takeWhile isKeyChar
    if part.isEmpty then none else some (String.ofList part, cs.dropWhile isKeyChar)

/-- The most parts that a key may have. -/
def maxParts : Nat := 80

/-- A dotted key of at most so many parts: the parts before the last, the last, and what stands
behind it and its blanks. -/
def readKey : Nat → List Char → Option (List String × String × List Char)
  | 0, _ => none
  | n + 1, cs => do
    let (part, rest) ← readKeyPart (skipBlanks cs)
    match skipBlanks rest with
    | '.' :: rest =>
      let (path, key, rest) ← readKey n rest
      return (part :: path, key, rest)
    | rest => return ([], part, rest)

/-- Without a comment in front, if there is one. -/
def skipComment : List Char → Option (List Char)
  | '#' :: rest =>
    let behind := rest.dropWhile isPlainChar
    if behind.isEmpty || (skipLineEnd? behind).isSome then some behind else none
  | rest => some rest

/-- Without blanks, comments and line ends in front. -/
def skipLines : Nat → List Char → Option (List Char)
  | 0, _ => none
  | n + 1, cs => do
    let cs ← skipComment (skipBlanks cs)
    match skipLineEnd? cs with
    | some rest => skipLines n rest
    | none => return cs

/-- How deep arrays and inline tables may nest. -/
def maxDepth : Nat := 80

mutual

/-- A value. The first number bounds the steps, the second the depth. -/
def readValue (steps depth : Nat) (cs : List Char) : Option (Toml × List Char) :=
  match steps, depth, cs with
  | 0, _, _ => none
  | _, 0, '[' :: _ | _, 0, '\x7b' :: _ => none
  | n + 1, d + 1, '[' :: rest => readItems n d [] rest
  | n + 1, d + 1, '\x7b' :: rest => readFields n d (.table .header []) rest
  | _, _, cs => readScalar cs

/-- The items of an array, the last first, and its end. -/
def readItems (steps depth : Nat) (items : List Toml) (cs : List Char) :
    Option (Toml × List Char) :=
  match steps with
  | 0 => none
  | n + 1 => do
    match ← skipLines (cs.length + 1) cs with
    | ']' :: rest => return (.array items.reverse, rest)
    | cs =>
      let (item, cs) ← readValue n depth cs
      match ← skipLines (cs.length + 1) cs with
      | ']' :: rest => return (.array (item :: items).reverse, rest)
      | ',' :: rest => readItems n depth (item :: items) rest
      | _ => none

/-- The fields of an inline table and its end. -/
def readFields (steps depth : Nat) (table : Toml) (cs : List Char) :
    Option (Toml × List Char) :=
  match steps with
  | 0 => none
  | n + 1 => do
    match ← skipLines (cs.length + 1) cs with
    | '\x7d' :: rest => return (closed table, rest)
    | cs =>
      let (path, key, cs) ← readKey maxParts cs
      let '=' :: cs ← skipLines (cs.length + 1) cs | none
      let (value, cs) ← readValue n depth (← skipLines (cs.length + 1) cs)
      let table ← assign path key value table
      match ← skipLines (cs.length + 1) cs with
      | '\x7d' :: rest => return (closed table, rest)
      | ',' :: rest => readFields n depth table rest
      | _ => none

/-- An inline table that is complete. -/
def closed : Toml → Toml
  | .table _ entries => .table .inline entries
  | other => other

end

/-- A document under way: the tree so far and the path to the table that assignments go to. -/
structure Draft where
  tree : Toml
  current : List String

/-- The document after a header, behind its opening bracket. -/
def readHeader (draft : Draft) (cs : List Char) : Option (Draft × List Char) :=
  match cs with
  | '[' :: rest => do
    let (path, key, rest) ← readKey maxParts rest
    let ']' :: ']' :: rest := rest | none
    return (⟨← openItem path key draft.tree, path ++ [key]⟩, rest)
  | rest => do
    let (path, key, rest) ← readKey maxParts rest
    let ']' :: rest := rest | none
    return (⟨← openTable path key draft.tree, path ++ [key]⟩, rest)

/-- The document after an assignment. -/
def readAssignment (draft : Draft) (cs : List Char) : Option (Draft × List Char) := do
  let (path, key, rest) ← readKey maxParts cs
  let '=' :: rest := rest | none
  let (value, rest) ← readValue (rest.length + 1) maxDepth (skipBlanks rest)
  let tree ← descend false (assign path key value) draft.current draft.tree
  return ({ draft with tree }, rest)

/-- The lines of a document. -/
def readLinesOf : Nat → Draft → List Char → Option Toml
  | 0, _, _ => none
  | n + 1, draft, cs => do
    match ← skipLines (cs.length + 1) cs with
    | [] => return draft.tree
    | cs =>
      let (draft, rest) ← match cs with
        | '[' :: rest => readHeader draft rest
        | _ => readAssignment draft cs
      let rest ← skipComment (skipBlanks rest)
      if rest.isEmpty then return draft.tree
      readLinesOf n draft (← skipLineEnd? rest)

/-- The tree of a document. A byte-order mark in front is passed over. -/
def parse? (text : String) : Option Toml :=
  let cs := match text.toList with
    | '\ufeff' :: rest => rest
    | cs => cs
  readLinesOf (cs.length + 1) ⟨.table .header [], []⟩ cs

end ScriptBoundary.Toml
