import ScriptBoundary.Number.Word

/-!
# Binary floating-point numbers, exactly

A finite number of either width is a whole multiple of the least positive number of that width, its
unit. `Binary k` stores the sign and that multiple, with the proof that the width holds it, so that
comparing, widening and testing for an integer are arithmetic on natural numbers. The one operation
that loses anything is `round`, which takes an exact quotient to the nearest number of a width, ties
to the even neighbour, and to an infinity past the greatest number. One not-a-number stands for all
of them.

Sum, product and quotient of finite numbers are the exact ones followed by one rounding. Read as a
natural number, the interchange encoding without its sign bit counts the magnitudes of the width in
order from zero, the infinity last; a magnitude of `n` steps therefore encodes as its significand
plus one full run of significands for each doubling of the step.
-/

namespace ScriptBoundary

/-- The floating-point widths of the native side. -/
inductive FloatKind where
  | f32 | f64
deriving DecidableEq, Repr

namespace FloatKind

/-- The bits of a significand. -/
def precision : FloatKind → Nat
  | f32 => 24
  | f64 => 53

/-- The unit is two to the minus this. -/
def unitExponent : FloatKind → Nat
  | f32 => 149
  | f64 => 1074

/-- Every finite number is below two to this many units. -/
def span : FloatKind → Nat
  | f32 => 277
  | f64 => 2098

/-- How many units make one. -/
def one (k : FloatKind) : Nat := 2 ^ k.unitExponent

/-- The name of the width in messages. -/
def name : FloatKind → String
  | f32 => "f32"
  | f64 => "f64"

/-- The distance, in units, from a magnitude to the next greater one of the width. -/
def step (k : FloatKind) (units : Nat) : Nat := 2 ^ (units.log2 + 1 - k.precision)

/-- A magnitude is held when it is in reach and its significand has no more bits than the width. -/
def Holds (k : FloatKind) (units : Nat) : Prop := units < 2 ^ k.span ∧ units % k.step units = 0

instance (k : FloatKind) (units : Nat) : Decidable (k.Holds units) :=
  inferInstanceAs (Decidable (_ ∧ _))

theorem holds_zero (k : FloatKind) : k.Holds 0 := ⟨Nat.two_pow_pos _, Nat.zero_mod _⟩

end FloatKind

/-- A binary floating-point number of one width. -/
inductive Binary (k : FloatKind) where
  | nan
  | infinite (negative : Bool)
  | finite (negative : Bool) (units : Nat) (held : k.Holds units)
deriving DecidableEq

namespace Binary

variable {k : FloatKind}

/-- Zero of either sign. -/
def zero (negative : Bool) : Binary k := .finite negative 0 k.holds_zero

instance : Inhabited (Binary k) := ⟨zero false⟩

/-- A magnitude with a sign: infinite when the width does not hold it. -/
def ofUnits (negative : Bool) (units : Nat) : Binary k :=
  if held : k.Holds units then .finite negative units held else .infinite negative

/-- The number of the width nearest to `num / den` units; a tie goes to the neighbour with the even
significand. -/
def round (k : FloatKind) (negative : Bool) (num den : Nat) : Binary k :=
  let gap := k.step (num / den)
  let below := num / (den * gap)
  let rest := num % (den * gap)
  let up := den * gap < 2 * rest ∨ (den * gap = 2 * rest ∧ below % 2 = 1)
  ofUnits negative ((if up then below + 1 else below) * gap)

/-- The nearest number to an integer. -/
def ofInt (k : FloatKind) (n : Int) : Binary k := round k (n < 0) (n.natAbs * k.one) 1

/-- The nearest number to a ratio of natural numbers. -/
def ofRatio (k : FloatKind) (negative : Bool) (num den : Nat) : Binary k :=
  round k negative (num * k.one) den

/-- The nearest number of another width. -/
def convert {j : FloatKind} (k : FloatKind) : Binary j → Binary k
  | .nan => .nan
  | .infinite negative => .infinite negative
  | .finite negative units _ => round k negative (units * k.one) j.one

/-- Neither infinite nor not-a-number. -/
def isFinite : Binary k → Bool
  | .finite .. => true
  | _ => false

def isNaN : Binary k → Bool
  | .nan => true
  | _ => false

/-- The sign is minus; a negative zero counts. -/
def isNegative : Binary k → Bool
  | .nan => false
  | .infinite negative | .finite negative _ _ => negative

def neg : Binary k → Binary k
  | .nan => .nan
  | .infinite negative => .infinite (!negative)
  | .finite negative units held => .finite (!negative) units held

/-- The units with their sign; zero for what is not finite. -/
def signedUnits : Binary k → Int
  | .finite negative units _ => if negative then -(units : Int) else units
  | _ => 0

/-- The integer a finite number denotes, if it denotes one. -/
def toInt? : Binary k → Option Int
  | .finite negative units _ =>
    if units % k.one = 0 then
      some (if negative then -((units / k.one : Nat) : Int) else (units / k.one : Nat))
    else none
  | _ => none

/-- The integer part, toward zero; none for what is not finite. -/
def truncate? : Binary k → Option Int
  | .finite negative units _ =>
    some (if negative then -((units / k.one : Nat) : Int) else (units / k.one : Nat))
  | _ => none

/-- The word nearest to the integer part: infinities stop at the bounds, not-a-number gives zero. -/
def toWord (w : IntKind) : Binary k → Word w
  | .nan => Word.zero
  | .infinite negative => Word.clamp w (if negative then w.min else w.max)
  | .finite negative units _ =>
    Word.clamp w (if negative then -((units / k.one : Nat) : Int) else (units / k.one : Nat))

/-- Numerical equality: the two zeros are equal, not-a-number equals nothing. -/
def numEq : Binary k → Binary k → Bool
  | .infinite a, .infinite b => a == b
  | .finite a m _, .finite b n _ => m == n && (a == b || m == 0)
  | _, _ => false

/-! ## Sum, product, quotient -/

/-- The sum. One that cancels is a positive zero unless both terms are negative. -/
def add : Binary k → Binary k → Binary k
  | .nan, _ | _, .nan => .nan
  | .infinite a, .infinite b => if a = b then .infinite a else .nan
  | .infinite a, .finite .. => .infinite a
  | .finite .., .infinite b => .infinite b
  | x@(.finite a _ _), y@(.finite b _ _) =>
    let sum := x.signedUnits + y.signedUnits
    if sum = 0 then zero (a && b) else round k (sum < 0) sum.natAbs 1

def mul : Binary k → Binary k → Binary k
  | .nan, _ | _, .nan => .nan
  | .infinite a, .infinite b => .infinite (a != b)
  | .infinite a, .finite b n _ => if n = 0 then .nan else .infinite (a != b)
  | .finite a m _, .infinite b => if m = 0 then .nan else .infinite (a != b)
  | .finite a m _, .finite b n _ => round k (a != b) (m * n) k.one

def div : Binary k → Binary k → Binary k
  | .nan, _ | _, .nan => .nan
  | .infinite _, .infinite _ => .nan
  | .infinite a, .finite b _ _ => .infinite (a != b)
  | .finite a _ _, .infinite b => zero (a != b)
  | .finite a m _, .finite b n _ =>
    if n = 0 then (if m = 0 then .nan else .infinite (a != b)) else round k (a != b) (m * k.one) n

end Binary

/-! ## Encoding -/

namespace FloatKind

/-- The bits of the encoding. -/
def width : FloatKind → Nat
  | f32 => 32
  | f64 => 64

/-- The place of a magnitude among the magnitudes of the width. -/
def rank (k : FloatKind) (units : Nat) : Nat :=
  let doublings := units.log2 + 1 - k.precision
  doublings * 2 ^ (k.precision - 1) + units / 2 ^ doublings

/-- The magnitude at a place. -/
def atRank (k : FloatKind) (rank : Nat) : Nat :=
  let row := 2 ^ (k.precision - 1)
  if rank < row then rank else (row + rank % row) * 2 ^ (rank / row - 1)

end FloatKind

namespace Binary

variable {k : FloatKind}

/-- The encoding of a number; not-a-number takes its usual quiet form. -/
def toBits : Binary k → Nat
  | .nan => k.rank (2 ^ k.span) + 2 ^ (k.precision - 2)
  | .infinite negative => k.rank (2 ^ k.span) + sign negative
  | .finite negative units _ => k.rank units + sign negative
where
  sign (negative : Bool) : Nat := if negative then 2 ^ (k.width - 1) else 0

/-- The number an encoding stands for. -/
def ofBits (k : FloatKind) (bits : Nat) : Binary k :=
  let place := bits % 2 ^ (k.width - 1)
  if k.rank (2 ^ k.span) < place then .nan
  else ofUnits (2 ^ (k.width - 1) ≤ bits) (k.atRank place)

end Binary

end ScriptBoundary
