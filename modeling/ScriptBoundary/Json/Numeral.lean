import ScriptBoundary.Json.Tree
import ScriptBoundary.Number.Decimal

/-!
# Numerals of JSON text

A numeral without point and exponent denotes an integer when sixty-four bits hold it. Any other one
denotes a floating-point number that is computed in at most a few rounded steps: the leading digits
that fit an unsigned word of sixty-four bits, times or over a power of ten. The result can differ in
the last place from the nearest number. A numeral beyond the greatest number is refused.
-/

namespace ScriptBoundary.Json

/-- Digits taken into a word of sixty-four bits until the next would not fit: the word, and how many
digits were left out. -/
def takeDigits : Nat → List Char → Nat × Nat
  | n, [] => (n, 0)
  | n, c :: rest =>
    let next := 10 * n + (c.toNat - '0'.toNat)
    if next < 2 ^ 64 then takeDigits next rest else (n, rest.length + 1)

/-- The power of ten nearest to `10 ^ e`. -/
def powerOfTen (e : Nat) : Binary .f64 := .ofRatio .f64 false (10 ^ e) 1

/-- Divides by the greatest table power of ten the given number of times, then by a last power; a
zero stays as it is. -/
def divideDown (x : Binary .f64) (last : Nat) : Nat → Binary .f64
  | 0 => x.div (powerOfTen last)
  | n + 1 => if x.numEq (.zero false) then x else divideDown (x.div (powerOfTen 308)) last n

/-- A word scaled by a power of ten, unless the result is past the greatest number. -/
def scaled? (word : Nat) (e : Int) : Option (Binary .f64) :=
  let x := Binary.ofInt .f64 word
  if e < 0 then
    some (divideDown x ((e.natAbs - 1) % 308 + 1) ((e.natAbs - 1) / 308))
  else if e ≤ 308 then
    let product := x.mul (powerOfTen e.toNat)
    if product.isFinite then some product else none
  else if word = 0 then some x
  else none

/-- The floating-point number of a numeral with the given parts. An exponent beyond thirty-two bits
gives zero when it is negative or the digits are, and is refused otherwise. -/
def real? (negative : Bool) (whole fraction : List Char) (exponent : Int) :
    Option (Binary .f64) :=
  let (word, dropped) := takeDigits 0 whole
  let (word, left) := takeDigits word fraction
  let e := exponent + dropped - (fraction.length - left : Nat)
  let magnitude :=
    if 2 ^ 31 ≤ exponent.natAbs then
      if 0 < exponent ∧ word ≠ 0 then none else some (.zero false)
    else scaled? word e
  magnitude.map fun x => if negative then x.neg else x

/-- The number of a numeral. Its whole part has no leading zero, and a point or an exponent mark has
digits behind it. -/
def numeral? (text : List Char) : Option JsonNumber :=
  let (negative, body) := match text with
    | '-' :: rest => (true, rest)
    | rest => (false, rest)
  let whole := body.takeWhile Char.isDigit
  let rest := body.dropWhile Char.isDigit
  if whole = [] ∨ (whole.head? = some '0' ∧ 1 < whole.length) then none
  else
    match rest with
    | [] =>
      let n := Decimal.ofDigits whole
      if negative then
        if n = 0 ∨ 2 ^ 63 < n then (real? true whole [] 0).map .real
        else some (.integer (-(n : Int)))
      else if n < 2 ^ 64 then some (.integer n)
      else (real? false whole [] 0).map .real
    | '.' :: rest =>
      let fraction := rest.takeWhile Char.isDigit
      if fraction = [] then none
      else do
        let e ← Decimal.exponent? (rest.dropWhile Char.isDigit)
        (real? negative whole fraction e).map .real
    | rest => do
      let e ← Decimal.exponent? rest
      (real? negative whole [] e).map .real

end ScriptBoundary.Json
