import ScriptBoundary.Conversion.Declared
import ScriptBoundary.Proofs.Exactness

/-!
# What numbers denote

Numbers of different widths and of both sides are compared by what they denote: a rational number,
an infinity, or no number at all. A finite floating-point number denotes its units over the units in
one, so that two of them denote the same number where a product of integers is the same
(`Rat.mkRat_eq_iff`), and an integer where its units are a multiple of one
(`Binary.quantity_eq_ofInt_iff`). Widening keeps what is denoted (`Binary.quantity_convert_double`),
and so does narrowing wherever the narrow width has a number that denotes it
(`Binary.quantity_convert_of_eq`).
-/

namespace ScriptBoundary

/-- What a number denotes. The two zeros denote the same. -/
inductive Quantity where
  | undefined
  | infinite (negative : Bool)
  | rational (q : Rat)
deriving DecidableEq

namespace Quantity

/-- The quantity of an integer. -/
def ofInt (n : Int) : Quantity := .rational n

@[simp] theorem ofInt_inj {m n : Int} : ofInt m = ofInt n ↔ m = n := by
  rw [ofInt, ofInt, rational.injEq, Rat.intCast_inj]

end Quantity

namespace Binary

variable {k j : FloatKind}

/-- What a floating-point number denotes. -/
def quantity : Binary k → Quantity
  | .nan => .undefined
  | .infinite negative => .infinite negative
  | .finite negative units held =>
    .rational (mkRat (Binary.finite negative units held : Binary k).signedUnits k.one)

/-- Finite numbers denote the same where their units, in a common measure, are the same. -/
theorem quantity_finite_eq_iff {a b : Bool} {m n : Nat} {hm : k.Holds m} {hn : j.Holds n} :
    (finite a m hm).quantity = (finite b n hn).quantity ↔
      (finite a m hm).signedUnits * j.one = (finite b n hn).signedUnits * k.one := by
  rw [quantity, quantity, Quantity.rational.injEq,
    Rat.mkRat_eq_iff (Nat.ne_of_gt k.one_pos) (Nat.ne_of_gt j.one_pos)]

/-- A number of one width denotes what another does where it equals it, or neither is a number. -/
theorem quantity_eq_iff {x y : Binary k} :
    x.quantity = y.quantity ↔ x.isNaN = true ∧ y.isNaN = true ∨ x.numEq y = true := by
  cases x <;> cases y
  case finite.finite a m hm b n hn =>
    have hone : (k.one : Int) ≠ 0 := Int.natCast_ne_zero.2 (Nat.ne_of_gt k.one_pos)
    rw [quantity_finite_eq_iff, Int.mul_eq_mul_right_iff hone]
    cases a <;> cases b <;> simp [signedUnits, isNaN, numEq] <;> omega
  all_goals simp [quantity, isNaN, numEq]

theorem natAbs_signedUnits (negative : Bool) {units : Nat} (held : k.Holds units) :
    (finite negative units held).signedUnits.natAbs = units := by
  cases negative <;> simp [signedUnits]

theorem signedUnits_mul (negative : Bool) {units factor : Nat} (held : k.Holds units)
    (hmul : j.Holds (units * factor)) :
    (finite negative (units * factor) hmul).signedUnits =
      (finite negative units held).signedUnits * factor := by
  cases negative
  · exact Int.natCast_mul units factor
  · exact (congrArg Neg.neg (Int.natCast_mul units factor)).trans (Int.neg_mul _ _).symm

/-- A number denotes an integer where it is that integer. -/
theorem quantity_eq_ofInt_iff {x : Binary k} {n : Int} :
    x.quantity = .ofInt n ↔ x.toInt? = some n := by
  cases x with
  | nan | infinite negative => constructor <;> intro h <;> cases h
  | finite negative units held =>
    have hone : (k.one : Int) ≠ 0 := Int.natCast_ne_zero.2 (Nat.ne_of_gt k.one_pos)
    rw [quantity, Quantity.ofInt, Quantity.rational.injEq, ← Rat.mkRat_one,
      Rat.mkRat_eq_iff (Nat.ne_of_gt k.one_pos) Nat.one_ne_zero, toInt?]
    by_cases hwhole : units % k.one = 0
    · obtain ⟨q, rfl⟩ := Nat.dvd_of_mod_eq_zero hwhole
      rw [if_pos hwhole, Nat.mul_div_cancel_left _ k.one_pos, Option.some.injEq]
      have hcomm : ((k.one * q : Nat) : Int) = q * k.one := by rw [Nat.mul_comm, Int.natCast_mul]
      have hsigned : (finite negative (k.one * q) held).signedUnits =
          (if negative then -(q : Int) else q) * k.one := by
        cases negative
        · exact hcomm
        · exact (congrArg Neg.neg hcomm).trans (Int.neg_mul _ _).symm
      rw [hsigned, Int.natCast_one, Int.mul_one, Int.mul_eq_mul_right_iff hone]
    · rw [if_neg hwhole]
      refine iff_of_false (fun h => hwhole ?_) (Option.some_ne_none n).symm
      -- The units would be a multiple of one.
      have habs : units = n.natAbs * k.one := by
        rw [Int.natCast_one, Int.mul_one] at h
        rw [← natAbs_signedUnits negative held, h, Int.natAbs_mul, Int.natAbs_natCast]
      rw [habs, Nat.mul_mod_left]

/-- The double of a number denotes what the number does. -/
theorem quantity_convert_double (x : Binary k) : (x.convert .f64).quantity = x.quantity := by
  cases k with
  | f64 => rw [convert_self]
  | f32 =>
    cases x with
    | nan => rfl
    | infinite negative => rfl
    | finite negative units held =>
      rw [convert_double, quantity_finite_eq_iff, one_double,
        signedUnits_mul negative held (holds_double held), Int.natCast_mul, Int.mul_assoc]

/-- A double in a width that has a number for what it denotes denotes it there. -/
theorem quantity_convert_of_eq {x : Binary .f64} {y : Binary k} (h : y.quantity = x.quantity) :
    (x.convert k).quantity = x.quantity := by
  cases k with
  | f64 => rw [convert_self]
  | f32 =>
    cases x with
    | nan => rfl
    | infinite negative => rfl
    | finite a m hm =>
      cases y with
      | nan => cases h
      | infinite negative => cases h
      | finite b n hn =>
        -- The signs differ for zeros only, and a zero keeps its sign.
        have hunits : n * 2 ^ widening = m := by
          rw [← quantity_convert_double, convert_double, quantity_eq_iff] at h
          simp only [isNaN, numEq, Bool.false_eq_true, false_and, false_or, Bool.and_eq_true,
            beq_iff_eq] at h
          exact h.1
        subst hunits
        rw [convert_single a hn, ← quantity_convert_double, convert_double]

end Binary

/-- What a native value denotes, if it is a number. -/
def NativeValue.quantity? : NativeValue → Option Quantity
  | .int _ n => some (.ofInt n.val)
  | .float _ x => some x.quantity
  | _ => none

/-- What a script value denotes, if it is a number. -/
def ScriptValue.quantity? : ScriptValue → Option Quantity
  | .int n | .uint n => some (.ofInt n.val)
  | .number x => some x.quantity
  | _ => none

namespace Numeric

/-- What a number of any width denotes. -/
def quantity : Numeric → Quantity
  | integer n => .ofInt n
  | real x => x.quantity

/-- A value is a number where it denotes one, the same that it denotes. -/
theorem quantity?_eq (v : NativeValue) : v.quantity? = (of? v).map quantity := by
  cases v with
  | float kind x => exact congrArg some x.quantity_convert_double.symm
  | _ => rfl

variable {a : Numeric}

theorem quantity?_of_number {v : NativeValue} (h : of? v = some a) :
    v.quantity? = some a.quantity := by
  rw [quantity?_eq, h, Option.map_some]

/-- A number is an integer where it denotes that integer. -/
theorem toInt?_eq_some_iff {n : Int} : a.toInt? = some n ↔ a.quantity = .ofInt n := by
  cases a with
  | integer m => rw [toInt?, quantity, Quantity.ofInt_inj, Option.some.injEq]
  | real x => exact Binary.quantity_eq_ofInt_iff.symm

/-- A number is a word where it denotes that word. -/
theorem toWord?_eq_some_iff {kind : IntKind} {n : Word kind} :
    a.toWord? kind = some n ↔ a.quantity = .ofInt n.val := by
  rw [← toInt?_eq_some_iff, toWord?, Option.bind_eq_some_iff]
  constructor
  · rintro ⟨m, hm, hn⟩
    rw [hm, Word.ofInt?_eq_some_iff.1 hn]
  · intro h
    exact ⟨n.val, h, n.ofInt?_val⟩

/-- The double of a number denotes it. -/
theorem quantity_of_toDouble? {x : Binary .f64} (h : a.toDouble? = some x) :
    x.quantity = a.quantity := by
  cases a with
  | integer n =>
    simp only [toDouble?, Option.ite_none_right_eq_some, Option.some.injEq] at h
    obtain ⟨hint, rfl⟩ := h
    exact Binary.quantity_eq_ofInt_iff.2 hint
  | real y =>
    cases h
    rfl

/-- A number that a width has a number for is a double. -/
theorem exists_toDouble? {kind : FloatKind} {y : Binary kind} (h : y.quantity = a.quantity) :
    ∃ x, a.toDouble? = some x := by
  cases a with
  | integer n =>
    rw [← y.quantity_convert_double] at h
    have hheld := Binary.holds_of_toInt? (Binary.quantity_eq_ofInt_iff.1 h)
    refine ⟨.ofInt .f64 n, ?_⟩
    rw [toDouble?, if_pos (Binary.toInt?_of_holds hheld)]
  | real x => exact ⟨x, rfl⟩

/-- The narrow number of a double passes for it where it denotes the same. -/
theorem narrow_passes_iff {x : Binary .f64} :
    (x.isNaN || ((x.convert .f32).convert .f64).numEq x) = true ↔
      (x.convert .f32).quantity = x.quantity := by
  rw [← (x.convert .f32).quantity_convert_double, Binary.quantity_eq_iff, Bool.or_eq_true]
  refine or_congr_left ⟨fun h => ⟨?_, h⟩, fun h => h.2⟩
  cases x with
  | nan => rfl
  | _ => cases h

/-- A number in another width denotes the same. -/
theorem quantity_of_toBinary? {kind : FloatKind} {x : Binary kind}
    (h : a.toBinary? kind = some x) : x.quantity = a.quantity := by
  cases kind with
  | f64 => exact quantity_of_toDouble? h
  | f32 =>
    rw [toBinary?, Option.bind_eq_some_iff] at h
    obtain ⟨wide, hwide, h⟩ := h
    obtain ⟨hpasses, hx⟩ := Option.ite_none_right_eq_some.1 h
    cases hx
    rw [narrow_passes_iff.1 hpasses, quantity_of_toDouble? hwide]

/-- A number that a width has a number for is expressed in the width. -/
theorem exists_toBinary? {kind : FloatKind} {y : Binary kind} (h : y.quantity = a.quantity) :
    ∃ x, a.toBinary? kind = some x := by
  obtain ⟨wide, hwide⟩ := exists_toDouble? h
  cases kind with
  | f64 => exact ⟨wide, hwide⟩
  | f32 =>
    have hpasses := Binary.quantity_convert_of_eq (h.trans (quantity_of_toDouble? hwide).symm)
    refine ⟨wide.convert .f32, ?_⟩
    rw [toBinary?, hwide, Option.bind_some]
    exact if_pos (narrow_passes_iff.2 hpasses)

end Numeric

end ScriptBoundary
