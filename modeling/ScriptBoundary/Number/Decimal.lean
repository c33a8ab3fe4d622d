import ScriptBoundary.Number.Binary

/-!
# Decimals

How binary numbers are written in decimal digits and read from them.
-/

namespace ScriptBoundary

/-!
## The shortest decimal that reads back

A binary number stands for all the real numbers that round to it: from half way to the neighbour
below up to half way to the neighbour above, the ends included when its significand is even. Among
the decimals in that interval the shortest has the fewest digits, and of those the one nearest to
the number; where two are equally near, the caller's rule decides. The search runs over the grids of
one digit, two digits and so on, and on each grid looks at the two neighbours of the number.
-/

/-- The number `digits * 10 ^ exponent`. -/
structure Decimal where
  digits : Nat
  exponent : Int
deriving DecidableEq, Repr

namespace Decimal

/-- Which of two equally near decimals is taken. -/
inductive Tie where
  | up | even
deriving DecidableEq

/-- The sign of `d - h / 2`, with `h` halves of a unit of the width. -/
def compareHalves (k : FloatKind) (d : Decimal) (h : Nat) : Ordering :=
  compare (d.digits * 10 ^ d.exponent.toNat * (2 * k.one)) (h * 10 ^ (-d.exponent).toNat)

/-- The decimal lies among the numbers that round to the magnitude. -/
def readsBack (k : FloatKind) (units : Nat) (d : Decimal) : Bool :=
  let closed := units / k.step units % 2 == 0
  let low := compareHalves k d (2 * units - k.step (units - 1))
  let high := compareHalves k d (2 * units + k.step units)
  (low == .gt || (closed && low == .eq)) && (high == .lt || (closed && high == .eq))

/-- Ten to the power `e` is at most the magnitude. -/
def reaches (k : FloatKind) (units : Nat) (e : Int) : Bool :=
  10 ^ e.toNat * k.one ≤ units * 10 ^ (-e).toNat

/-- The least power of ten above the magnitude, looked for upward from `e` in a few steps. -/
def climb (k : FloatKind) (units : Nat) : Nat → Int → Int
  | 0, e => e
  | n + 1, e => if reaches k units e then climb k units n (e + 1) else e

/-- The least exponent of ten above the magnitude, which must not be zero. -/
def scale (k : FloatKind) (units : Nat) : Int :=
  climb k units 5 (((units.log2 : Int) - k.unitExponent) * 30103 / 100000 - 1)

/-- The greatest decimal with the given exponent that is not above the magnitude. -/
def below (k : FloatKind) (units : Nat) (e : Int) : Decimal :=
  ⟨units * 10 ^ (-e).toNat / (k.one * 10 ^ e.toNat), e⟩

/-- The decimal of one grid to write for the magnitude, if one reads back. -/
def onGrid (k : FloatKind) (tie : Tie) (units : Nat) (e : Int) : Option Decimal :=
  let down := below k units e
  let up : Decimal := ⟨down.digits + 1, e⟩
  match readsBack k units down, readsBack k units up with
  | false, false => none
  | true, false => some down
  | false, true => some up
  | true, true =>
    let middle : Decimal := ⟨2 * down.digits + 1, e⟩
    match compareHalves k middle (4 * units) with
    | .gt => some down
    | .lt => some up
    | .eq => some (if tie = .even ∧ down.digits % 2 = 0 then down else up)

/-- Moves trailing zeros of the digits into the exponent, at most as many as given. -/
def dropZeros : Nat → Decimal → Decimal
  | 0, d => d
  | n + 1, d =>
    if d.digits % 10 = 0 ∧ d.digits ≠ 0 then dropZeros n ⟨d.digits / 10, d.exponent + 1⟩ else d

/-- The decimal written for a magnitude that is not zero. Seventeen digits suffice for both widths;
the exact value of the magnitude stands behind them. -/
def shortest (k : FloatKind) (tie : Tie) (units : Nat) : Decimal :=
  let top := scale k units
  let found := (List.range 17).findSome? fun n => onGrid k tie units (top - (n + 1 : Nat))
  let exact : Decimal := ⟨units * 5 ^ k.unitExponent, -k.unitExponent⟩
  let chosen := found.getD exact
  dropZeros (chosen.digits.log2 + 1) chosen

end Decimal

/-!
## Layouts

A number is written with the digits of its shortest decimal. A `Layout` says the rest: when the
number is written in exponent form, whether a whole number keeps a decimal point, whether a positive
exponent has a sign, and which of two equally near decimals is taken.
-/

/-- The decisions of a number format. -/
structure Layout where
  /-- Exponent form is used for this exponent of the leading digit. -/
  scientific : Int → Bool
  /-- A whole number in positional form ends in a point and a zero. -/
  pointZero : Bool
  /-- A positive exponent is written with a plus. -/
  plus : Bool
  tie : Decimal.Tie

namespace Layout

/-- Messages and texts: always positional, whole numbers without a point. -/
def plain : Layout := ⟨fun _ => false, false, false, .up⟩

/-- Diagnostic views: exponent form from ten to the sixteen and below ten to the minus four. -/
def diagnostic : Layout := ⟨fun e => e < -4 || 16 ≤ e, true, false, .up⟩

/-- JSON text: exponent form from ten to the sixteen and below ten to the minus five, the exponent
always with its sign. -/
def json : Layout := ⟨fun e => e < -5 || 16 ≤ e, true, true, .even⟩

/-- The digits with a decimal point in its place, or zeros up to it. -/
def positional (layout : Layout) (digits : List Char) (exponent : Int) : List Char :=
  let leading := exponent + digits.length - 1
  if 0 ≤ exponent then
    digits ++ List.replicate exponent.toNat '0' ++ (if layout.pointZero then ['.', '0'] else [])
  else if 0 ≤ leading then
    digits.take (leading.toNat + 1) ++ '.' :: digits.drop (leading.toNat + 1)
  else
    '0' :: '.' :: List.replicate (-leading - 1).toNat '0' ++ digits

/-- One digit before the point, the others behind it, and the exponent of the first. -/
def exponential (layout : Layout) (digits : List Char) (exponent : Int) : List Char :=
  let leading := exponent + digits.length - 1
  let sign := if leading < 0 then ['-'] else if layout.plus then ['+'] else []
  let fraction := if digits.length ≤ 1 then [] else '.' :: digits.drop 1
  digits.take 1 ++ fraction ++ 'e' :: sign ++ Nat.toDigits 10 leading.natAbs

/-- The text of a magnitude. -/
def magnitude (layout : Layout) (k : FloatKind) (units : Nat) : List Char :=
  if units = 0 then positional layout ['0'] 0
  else
    let d := Decimal.shortest k layout.tie units
    let digits := Nat.toDigits 10 d.digits
    if layout.scientific (d.exponent + digits.length - 1) then exponential layout digits d.exponent
    else positional layout digits d.exponent

/-- The text of a number; the sign of a zero is kept. -/
def render (layout : Layout) {k : FloatKind} : Binary k → String
  | .nan => "NaN"
  | .infinite negative => if negative then "-inf" else "inf"
  | .finite negative units _ =>
    String.ofList ((if negative then ['-'] else []) ++ layout.magnitude k units)

end Layout

/-!
## Numerals

A numeral has an optional sign, digits with an optional point among them, at least one digit in all,
and an optional exponent; or it names an infinity or not-a-number, in any case of letters. It stands
for the binary number nearest to its exact value. Digits of other bases, up to sixteen, are read
with letters in either case.
-/

namespace Decimal

/-- The number a row of decimal digits denotes. -/
def ofDigits (digits : List Char) : Nat :=
  digits.foldl (fun n c => 10 * n + (c.toNat - '0'.toNat)) 0

/-- The binary number nearest to a decimal. Exponents far outside the width's reach are settled
before any power of ten is taken. -/
def toBinary (k : FloatKind) (negative : Bool) (d : Decimal) : Binary k :=
  let leading := d.exponent + (Nat.toDigits 10 d.digits).length
  if d.digits = 0 ∨ leading < -400 then .zero negative
  else if 400 < leading then .infinite negative
  else .ofRatio k negative (d.digits * 10 ^ d.exponent.toNat) (10 ^ (-d.exponent).toNat)

/-- A sign in front of a text, if there is one, and what follows it. -/
def signed : List Char → Bool × List Char
  | '-' :: rest => (true, rest)
  | '+' :: rest => (false, rest)
  | text => (false, text)

/-- The exponent part: nothing, or the letter e with an optionally signed number behind it. -/
def exponent? : List Char → Option Int
  | [] => some 0
  | c :: rest =>
    let (negative, digits) := signed rest
    if (c = 'e' ∨ c = 'E') ∧ digits ≠ [] ∧ digits.all Char.isDigit then
      some (if negative then -(ofDigits digits : Int) else ofDigits digits)
    else none

/-- The decimal a numeral without its sign denotes. -/
def ofNumeral? (text : List Char) : Option Decimal :=
  let whole := text.takeWhile Char.isDigit
  let rest := text.dropWhile Char.isDigit
  let (fraction, rest) := match rest with
    | '.' :: rest => (rest.takeWhile Char.isDigit, rest.dropWhile Char.isDigit)
    | rest => ([], rest)
  if whole ++ fraction = [] then none
  else (exponent? rest).map fun e => ⟨ofDigits (whole ++ fraction), e - fraction.length⟩

end Decimal

/-- The binary number a numeral stands for. -/
def Binary.ofNumeral? (k : FloatKind) (text : List Char) : Option (Binary k) :=
  let (negative, body) := Decimal.signed text
  match String.ofList (body.map Char.toLower) with
  | "inf" | "infinity" => some (.infinite negative)
  | "nan" => some .nan
  | _ => (Decimal.ofNumeral? body).map (Decimal.toBinary k negative)

namespace Digit

/-- The value of a digit in base sixteen. -/
def hex? (c : Char) : Option Nat :=
  if c.isDigit then some (c.toNat - '0'.toNat)
  else if 'a' ≤ c ∧ c ≤ 'f' then some (c.toNat - 'a'.toNat + 10)
  else if 'A' ≤ c ∧ c ≤ 'F' then some (c.toNat - 'A'.toNat + 10)
  else none

/-- A digit counts less than sixteen. -/
theorem lt_of_hex? {c : Char} {n : Nat} (h : hex? c = some n) : n < 16 := by
  have h0 : ('0' : Char).toNat = 48 := rfl
  have h9 : ('9' : Char).toNat = 57 := rfl
  have ha : ('a' : Char).toNat = 97 := rfl
  have hf : ('f' : Char).toNat = 102 := rfl
  have hA : ('A' : Char).toNat = 65 := rfl
  have hF : ('F' : Char).toNat = 70 := rfl
  simp only [hex?, Char.isDigit, Bool.and_eq_true, decide_eq_true_eq, ge_iff_le, Char.le_def,
    UInt32.le_iff_toNat_le, Char.toNat_val] at h
  grind

/-- A character is a digit in a base. -/
def isIn (base : Nat) (c : Char) : Bool := (hex? c).any (· < base)

/-- The number that a row of digits in a base stands for. -/
def value (base : Nat) (digits : List Char) : Nat :=
  digits.foldl (fun n c => base * n + (hex? c).getD 0) 0

end Digit

end ScriptBoundary
