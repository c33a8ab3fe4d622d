import ScriptBoundary.Number.Decimal
import ScriptBoundary.Toml.Tree

/-!
# TOML numbers, dates and times

The words of a document that start like a number.
-/

namespace ScriptBoundary.Toml

/-!
## Dates and times

A date, a time of day, or both with a distance from UTC. Their values are of no use here, so it is
only decided whether a word is one: every field has its own number of digits and its own range, and
a day exists in its month.
-/

/-- A number of exactly so many digits that lies in a range. -/
def fixed? (count low high : Nat) (cs : List Char) : Option (Nat × List Char) :=
  let ds := cs.take count
  let n := Decimal.ofDigits ds
  if ds.length = count ∧ ds.all Char.isDigit ∧ low ≤ n ∧ n ≤ high then some (n, cs.drop count)
  else none

/-- How many days a month has. -/
def daysOf (year month : Nat) : Nat :=
  if month = 2 then
    if year % 4 = 0 ∧ (year % 100 ≠ 0 ∨ year % 400 = 0) then 29 else 28
  else if month = 4 ∨ month = 6 ∨ month = 9 ∨ month = 11 then 30
  else 31

/-- What stands behind a date. -/
def afterDate? (cs : List Char) : Option (List Char) := do
  let (year, cs) ← fixed? 4 0 9999 cs
  let '-' :: cs := cs | none
  let (month, cs) ← fixed? 2 1 12 cs
  let '-' :: cs := cs | none
  let (_, cs) ← fixed? 2 1 (daysOf year month) cs
  return cs

/-- What stands behind a time of day; seconds and their fraction may be missing. -/
def afterTime? (cs : List Char) : Option (List Char) := do
  let (_, cs) ← fixed? 2 0 23 cs
  let ':' :: cs := cs | none
  let (_, cs) ← fixed? 2 0 59 cs
  let ':' :: cs := cs | return cs
  let (_, cs) ← fixed? 2 0 60 cs
  let '.' :: cs := cs | return cs
  if (cs.takeWhile Char.isDigit).isEmpty then none else return cs.dropWhile Char.isDigit

/-- The distance from UTC, or nothing. -/
def isZone (cs : List Char) : Bool :=
  match cs with
  | [] | ['Z'] | ['z'] => true
  | c :: rest =>
    (c == '+' || c == '-') &&
      match fixed? 2 0 23 rest with
      | some (_, ':' :: rest) => (fixed? 2 0 59 rest).any (·.2.isEmpty)
      | _ => false

/-- A date, a time, or both. -/
def isMoment (cs : List Char) : Bool :=
  match afterDate? cs with
  | none => (afterTime? cs).any List.isEmpty
  | some [] => true
  | some (c :: rest) =>
    (c == 'T' || c == 't' || c == ' ') && (afterTime? rest).any isZone

/-!
## Numbers

A word that starts like a number is sorted by a glance at its characters: a colon or a hyphen right
behind the first digits makes it a date or a time, a point or an exponent mark anywhere a
floating-point number, and all else is an integer. Where underscores stand, zeros in front and the
outline of a floating-point number are checked at once. Whether an integer has digits only is left
for later, like its range: a word that fails there is a number that does not fit. Only a date and a
time are parted by a blank, but a tab that stands in a number is among the letters that fail later.
-/

/-- Without underscores. -/
def joined (word : List Char) : List Char := word.filter (· != '_')

/-- The stretches of a word between its underscores. -/
def stretches : List Char → List (List Char)
  | [] => [[]]
  | c :: rest => if c = '_' then [] :: stretches rest else (stretches rest).modifyHead (c :: ·)

/-- There is one more stretch than there are underscores. -/
theorem length_stretches (word : List Char) : (stretches word).length = word.count '_' + 1 := by
  induction word with
  | nil => rfl
  | cons c rest ih => by_cases h : c = '_' <;> simp [stretches, h, ih]

/-- The stretches hold all of a word but its underscores, in order. -/
theorem flatten_stretches (word : List Char) : (stretches word).flatten = joined word := by
  induction word with
  | nil => rfl
  | cons c rest ih =>
    by_cases h : c = '_'
    · simpa [stretches, joined, h] using ih
    · have hne : stretches rest ≠ [] := List.ne_nil_of_length_pos (by simp [length_stretches])
      obtain ⟨part, parts, hp⟩ := List.exists_cons_of_ne_nil hne
      simp only [hp, List.flatten_cons] at ih
      simp [stretches, joined, h, hp, ih]

/-- Underscores stand between digits: what follows an underscore starts with a digit, and what
precedes one ends with a digit. -/
def separatesDigits (isDigit : Char → Bool) (word : List Char) : Bool :=
  let parts := stretches word
  parts.tail.all (·.head?.any isDigit) && parts.dropLast.all (·.getLast?.any isDigit)

/-- An integer in another base, behind the mark of the base. -/
def based? (base : Nat) (digits : List Char) : Option Toml :=
  if (joined digits).all (Digit.isIn base) && separatesDigits (Digit.isIn base) digits then
    some (.number (!digits.isEmpty && Digit.value base (joined digits) < 2 ^ 128))
  else none

/-- A word is an integer in base ten that is within the reach of the widest type of its sign. -/
def isInteger (word : List Char) : Bool :=
  let (negative, digits) := Decimal.signed (joined word)
  let limit := if negative then 2 ^ 127 + 1 else 2 ^ 128
  !digits.isEmpty && digits.all Char.isDigit && Decimal.ofDigits digits < limit

/-- A character of a row of digits: a digit or an underscore. -/
def isRowChar (c : Char) : Bool := c.isDigit || c == '_'

/-- What stands behind a row of digits, which must hold one. -/
def afterRow? (cs : List Char) : Option (List Char) :=
  if (cs.takeWhile isRowChar).any Char.isDigit then some (cs.dropWhile isRowChar) else none

/-- The outline of a floating-point number without its sign: a row of digits with no superfluous
zero in front, then a point with a row of digits, an exponent, or both. -/
def hasFloatOutline (body : List Char) : Bool :=
  let whole := joined (body.takeWhile isRowChar)
  let rest? := do
    let rest ← afterRow? body
    let rest ← match rest with
      | '.' :: rest => afterRow? rest
      | rest => some rest
    match rest with
    | [] => some []
    | c :: rest => if c = 'e' ∨ c = 'E' then afterRow? (Decimal.signed rest).2 else none
  (body.head? != some '0' || whole.length == 1) && rest?.any List.isEmpty

/-- A floating-point number, given without its sign and with it. Infinity is out of reach. -/
def float? (body word : List Char) : Option Toml :=
  if hasFloatOutline body && separatesDigits Char.isDigit word then
    some (.number ((Binary.ofNumeral? .f64 (joined word)).any (·.isFinite)))
  else none

/-- A word that starts with a digit behind its sign, given without the sign and with it. -/
def numeral? (body word : List Char) : Option Toml :=
  let rest := body.dropWhile Char.isDigit
  if rest.head? = some '-' ∨ rest.head? = some ':' then
    if isMoment word then some .datetime else none
  else if rest.contains ' ' then none
  else if rest.any fun c => c == '.' || c == 'e' || c == 'E' then float? body word
  else if (rest.isEmpty || rest.head? == some '_') && (body == ['0'] || body.head? != some '0')
      && separatesDigits (Digit.isIn 16) word then
    some (.number (isInteger word))
  else none

/-- A number, a date or a time. -/
def ofNumeral? (word : List Char) : Option Toml :=
  match word with
  | '0' :: 'x' :: digits => based? 16 digits
  | '0' :: 'o' :: digits => based? 8 digits
  | '0' :: 'b' :: digits => based? 2 digits
  | word =>
    let body := (Decimal.signed word).2
    if body = ['i', 'n', 'f'] ∨ body = ['n', 'a', 'n'] then some (.number true)
    else if body.head?.any Char.isDigit then numeral? body word
    else none

end ScriptBoundary.Toml
