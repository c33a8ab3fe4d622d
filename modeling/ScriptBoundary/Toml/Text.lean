import ScriptBoundary.Number.Decimal

/-!
# TOML texts

Texts in their four notations: in double quotes, where escapes count, or in single quotes, where
nothing does, on one line or over several. A reader takes the characters that are left and gives a
text and the characters behind it.
-/

namespace ScriptBoundary.Toml

/-- A character that may stand for itself in a text or a comment. -/
def isPlainChar (c : Char) : Bool := c == '\t' || (0x20 ≤ c.toNat && c.toNat != 0x7F)

/-- A character written by a number of so many digits in base sixteen. -/
def readCode : Nat → Nat → List Char → Option (Char × List Char)
  | 0, value, rest =>
    if value < 0xD800 ∨ (0xE000 ≤ value ∧ value < 0x110000) then some (Char.ofNat value, rest)
    else none
  | n + 1, value, c :: rest => do readCode n (16 * value + (← Digit.hex? c)) rest
  | _ + 1, _, [] => none

/-- The character of an escape, behind the backslash. -/
def readEscape : List Char → Option (Char × List Char)
  | '"' :: rest => some ('"', rest)
  | '\\' :: rest => some ('\\', rest)
  | 'b' :: rest => some ('\x08', rest)
  | 'e' :: rest => some ('\x1b', rest)
  | 'f' :: rest => some ('\x0c', rest)
  | 'n' :: rest => some ('\n', rest)
  | 'r' :: rest => some ('\r', rest)
  | 't' :: rest => some ('\t', rest)
  | 'x' :: rest => readCode 2 0 rest
  | 'u' :: rest => readCode 4 0 rest
  | 'U' :: rest => readCode 8 0 rest
  | _ => none

/-- Without blanks and tabs in front. -/
def skipBlanks (cs : List Char) : List Char := cs.dropWhile fun c => c == ' ' || c == '\t'

/-- Without the end of a line in front, if there is one. -/
def skipLineEnd? : List Char → Option (List Char)
  | '\n' :: rest => some rest
  | '\r' :: '\n' :: rest => some rest
  | _ => none

/-- Without blanks, tabs and line ends in front. -/
def skipSpace : Nat → List Char → List Char
  | 0, cs => cs
  | n + 1, cs =>
    let cs := skipBlanks cs
    match skipLineEnd? cs with
    | some rest => skipSpace n rest
    | none => cs

/-- A text in double quotes on one line, behind the opening quote. The letters so far are held last
first. -/
def readBasic : Nat → List Char → List Char → Option (String × List Char)
  | 0, _, _ => none
  | _, _, [] => none
  | n + 1, letters, c :: rest =>
    if c = '"' then some (String.ofList letters.reverse, rest)
    else if c = '\\' then do
      let (c, rest) ← readEscape rest
      readBasic n (c :: letters) rest
    else if isPlainChar c then readBasic n (c :: letters) rest
    else none

/-- A text in single quotes on one line, behind the opening quote. -/
def readLiteral (cs : List Char) : Option (String × List Char) :=
  let letters := cs.takeWhile (· != '\'')
  match cs.dropWhile (· != '\'') with
  | _ :: rest => if letters.all isPlainChar then some (String.ofList letters, rest) else none
  | [] => none

/-- Up to two quotes that belong to a text although three closing ones have been seen. -/
def lateQuotes (quote : Char) (cs : List Char) : List Char × List Char :=
  let extra := (cs.takeWhile (· == quote)).take 2
  (extra, cs.drop extra.length)

/-- A text over several lines, behind the opening quotes: in double quotes escapes count, and a
backslash at the end of a line joins it to the next letter that is not white space. -/
def readLines (quote : Char) : Nat → List Char → List Char → Option (String × List Char)
  | 0, _, _ => none
  | n + 1, letters, cs =>
    match cs with
    | [] => none
    | '\\' :: rest =>
      if quote = '"' then
        match skipLineEnd? (skipBlanks rest) with
        | some rest => readLines quote n letters (skipSpace rest.length rest)
        | none => do
          let (c, rest) ← readEscape rest
          readLines quote n (c :: letters) rest
      else readLines quote n ('\\' :: letters) rest
    | '\r' :: '\n' :: rest => readLines quote n ('\n' :: '\r' :: letters) rest
    | c :: rest =>
      if c = quote && rest.take 2 == [quote, quote] then
        let (extra, rest) := lateQuotes quote (rest.drop 2)
        some (String.ofList (letters.reverse ++ extra), rest)
      else if c = '\n' || isPlainChar c then readLines quote n (c :: letters) rest
      else none

/-- A text of several lines starts behind a line end that follows the opening quotes at once. -/
def readMultiline (quote : Char) (cs : List Char) : Option (String × List Char) :=
  let cs := (skipLineEnd? cs).getD cs
  readLines quote (cs.length + 1) [] cs

/-- A text in any notation. -/
def readText : List Char → Option (String × List Char)
  | '"' :: '"' :: '"' :: rest => readMultiline '"' rest
  | '\'' :: '\'' :: '\'' :: rest => readMultiline '\'' rest
  | '"' :: rest => readBasic (rest.length + 1) [] rest
  | '\'' :: rest => readLiteral rest
  | _ => none

end ScriptBoundary.Toml
