import ScriptBoundary.Conversion.Scalars

/-!
# Numbers that cross without loss

A width holds every magnitude whose significand has no more bits than the width
(`holds_of_significand`), and rounding leaves what the width holds (`round_exact`). So a number of
either width becomes a double and comes back as it was (`ofDouble?_convert`), and so does an integer
of at most `2^53` in magnitude, both as a word (`Word.ofDouble?_ofInt`) and as the number of
milliseconds of a date (`Instant.ofDate?_ofInt_millis`).

Powers of two stay powers in the proofs: the greatest double has more than two thousand bits.
-/

namespace ScriptBoundary

theorem FloatKind.one_pos (k : FloatKind) : 0 < k.one := Nat.two_pow_pos _

/-- Doubling adds to the logarithm. -/
theorem log2_mul_two_pow {m : Nat} (hm : m ≠ 0) (e : Nat) : (m * 2 ^ e).log2 = m.log2 + e := by
  have hpos := Nat.two_pow_pos e
  rw [Nat.log2_eq_iff (Nat.mul_ne_zero hm (Nat.ne_of_gt hpos))]
  constructor
  · rw [Nat.pow_add]
    exact Nat.mul_le_mul_right _ (Nat.log2_self_le hm)
  · rw [Nat.add_right_comm, Nat.pow_add]
    exact Nat.mul_lt_mul_of_pos_right Nat.lt_log2_self hpos

/-- Doubling a number as often as the width has room leaves it in the width. -/
theorem mul_two_pow_lt {a s t u : Nat} (ha : a < 2 ^ s) (hu : s + t ≤ u) : a * 2 ^ t < 2 ^ u := by
  calc a * 2 ^ t < 2 ^ s * 2 ^ t := Nat.mul_lt_mul_of_pos_right ha (Nat.two_pow_pos t)
    _ = 2 ^ (s + t) := (Nat.pow_add 2 s t).symm
    _ ≤ 2 ^ u := Nat.pow_le_pow_right Nat.two_pos hu

namespace FloatKind

variable {k : FloatKind}

/-- A magnitude in reach is held when its significand has no more bits than the width. -/
theorem holds_of_significand {m e : Nat} (hm : m < 2 ^ k.precision)
    (hspan : m * 2 ^ e < 2 ^ k.span) : k.Holds (m * 2 ^ e) := by
  refine ⟨hspan, ?_⟩
  rcases Nat.eq_zero_or_pos m with rfl | hpos
  · rw [Nat.zero_mul, Nat.zero_mod]
  · have hlog := (Nat.log2_lt (Nat.ne_of_gt hpos)).2 hm
    have hdvd : 2 ^ (m.log2 + e + 1 - k.precision) ∣ m * 2 ^ e :=
      Nat.dvd_mul_left_of_dvd (Nat.pow_dvd_pow 2 (by omega)) m
    rw [step, log2_mul_two_pow (Nat.ne_of_gt hpos)]
    exact Nat.mod_eq_zero_of_dvd hdvd

/-- A magnitude that is held has a significand of no more bits than the width. -/
theorem Holds.exists_significand {units : Nat} (h : k.Holds units) :
    ∃ m e, m < 2 ^ k.precision ∧ units = m * 2 ^ e := by
  refine ⟨units / k.step units, units.log2 + 1 - k.precision, ?_, ?_⟩
  · refine Nat.div_lt_of_lt_mul (Nat.lt_of_lt_of_le Nat.lt_log2_self ?_)
    rw [step, ← Nat.pow_add]
    exact Nat.pow_le_pow_right Nat.two_pos (by omega)
  · exact (Nat.div_mul_cancel (Nat.dvd_of_mod_eq_zero h.2)).symm

/-- What is held is at most the greatest number of the width. -/
theorem Holds.le_greatest {units : Nat} (h : k.Holds units) (hp : 1 ≤ k.precision)
    (hk : k.precision ≤ k.span) : units ≤ 2 ^ k.span - 2 ^ (k.span - k.precision) := by
  by_cases hsmall : units < 2 ^ (k.span - 1)
  · have hle : 2 ^ (k.span - k.precision) ≤ 2 ^ (k.span - 1) :=
      Nat.pow_le_pow_right Nat.two_pos (by omega)
    have hdouble : 2 ^ k.span = 2 * 2 ^ (k.span - 1) := by
      rw [← Nat.pow_add_one', Nat.sub_add_cancel (by omega)]
    omega
  · have hne : units ≠ 0 := fun h0 => hsmall (h0 ▸ Nat.two_pow_pos _)
    have hlog : units.log2 = k.span - 1 := by
      refine (Nat.log2_eq_iff hne).2 ⟨Nat.le_of_not_lt hsmall, ?_⟩
      rw [Nat.sub_add_cancel (by omega)]
      exact h.1
    have hstep : k.step units = 2 ^ (k.span - k.precision) := by
      rw [step, hlog]
      congr 1
      omega
    -- Both ends are multiples of the step, so they are at least one step apart.
    have hdvd : 2 ^ (k.span - k.precision) ∣ 2 ^ k.span - units := by
      refine Nat.dvd_sub (Nat.pow_dvd_pow 2 (Nat.sub_le _ _)) ?_
      rw [← hstep]
      exact Nat.dvd_of_mod_eq_zero h.2
    have hgap := Nat.le_of_dvd (Nat.sub_pos_of_lt h.1) hdvd
    have hlt := h.1
    omega

end FloatKind

namespace Binary

variable {k : FloatKind}

/-- Rounding leaves what the width holds. -/
theorem round_exact (negative : Bool) {units den : Nat} (held : k.Holds units) (hden : 0 < den) :
    round k negative (units * den) den = .finite negative units held := by
  have hdvd : k.step units ∣ units := Nat.dvd_of_mod_eq_zero held.2
  have hpos : 0 < den * k.step units := Nat.mul_pos hden (Nat.two_pow_pos _)
  have hbelow : units * den / (den * k.step units) = units / k.step units := by
    rw [Nat.mul_comm units, Nat.mul_div_mul_left _ _ hden]
  have hrest : units * den % (den * k.step units) = 0 := by
    rw [Nat.mul_comm units, Nat.mul_mod_mul_left, held.2, Nat.mul_zero]
  unfold round
  simp only [Nat.mul_div_cancel _ hden, hbelow, hrest, Nat.mul_zero, Nat.not_lt_zero, false_or]
  rw [if_neg (fun h => absurd h.1 (Nat.ne_of_gt hpos)), Nat.div_mul_cancel hdvd]
  exact dif_pos held

/-- A number of a width is its own nearest. -/
theorem convert_self (x : Binary k) : x.convert k = x := by
  cases x with
  | nan => rfl
  | infinite negative => rfl
  | finite negative units held => exact round_exact negative held (Nat.two_pow_pos _)

/-- A unit of the singles is two to this many units of the doubles. -/
def widening : Nat := FloatKind.f64.unitExponent - FloatKind.f32.unitExponent

theorem one_double : FloatKind.f64.one = 2 ^ widening * FloatKind.f32.one := by
  rw [FloatKind.one, FloatKind.one, ← Nat.pow_add]
  exact congrArg (2 ^ ·) (by decide)

/-- A single is held as a double. -/
theorem holds_double {units : Nat} (held : FloatKind.f32.Holds units) :
    FloatKind.f64.Holds (units * 2 ^ widening) := by
  obtain ⟨m, e, hm, rfl⟩ := held.exists_significand
  rw [Nat.mul_assoc, ← Nat.pow_add]
  refine FloatKind.holds_of_significand (Nat.lt_trans hm ?_) ?_
  · exact Nat.pow_lt_pow_right Nat.one_lt_two (by decide)
  · rw [Nat.pow_add, ← Nat.mul_assoc]
    exact mul_two_pow_lt held.1 (by decide)

/-- A single as a double denotes the same number, in smaller units. -/
theorem convert_double (negative : Bool) {units : Nat} (held : FloatKind.f32.Holds units) :
    (Binary.finite negative units held).convert .f64 =
      .finite negative (units * 2 ^ widening) (holds_double held) := by
  rw [convert, one_double, ← Nat.mul_assoc]
  exact round_exact negative (holds_double held) (Nat.two_pow_pos _)

/-- The double of a single converts back to it. -/
theorem convert_single (negative : Bool) {units : Nat} (held : FloatKind.f32.Holds units) :
    (Binary.finite negative (units * 2 ^ widening) (holds_double held)).convert .f32 =
      .finite negative units held := by
  rw [convert, Nat.mul_assoc, ← one_double]
  exact round_exact negative held (Nat.two_pow_pos _)

/-- The double of a single is within the reach of singles. -/
theorem le_reach {units : Nat} (held : FloatKind.f32.Holds units) :
    units * 2 ^ widening ≤ (2 ^ 24 - 1) * 2 ^ 104 * FloatKind.f64.one := by
  have hle : units ≤ (2 ^ 24 - 1) * 2 ^ 104 * FloatKind.f32.one := by
    refine Nat.le_trans (held.le_greatest (by decide) (by decide)) ?_
    decide +kernel
  rw [one_double, Nat.mul_left_comm, Nat.mul_comm]
  exact Nat.mul_le_mul_left _ hle

/-- A number of either width comes back from its double. -/
theorem ofDouble?_convert (x : Binary k) : ofDouble? k (x.convert .f64) = some x := by
  cases k with
  | f64 => rw [convert_self, ofDouble?]
  | f32 =>
    cases x with
    | nan => rfl
    | infinite negative => rfl
    | finite negative units held =>
      rw [convert_double, ofDouble?, if_neg (Nat.not_lt.2 (le_reach held)), convert_single]

/-- A magnitude of at most `2^53` has a significand that doubles hold. -/
theorem exists_significand_of_le {a : Nat} (ha : a ≤ 2 ^ 53) :
    ∃ m e, m < 2 ^ FloatKind.f64.precision ∧ a = m * 2 ^ e := by
  rcases Nat.lt_or_eq_of_le ha with hlt | rfl
  · exact ⟨a, 0, hlt, (Nat.mul_one a).symm⟩
  · -- The bound has one bit more, but is a power of two.
    exact ⟨1, 53, by decide, (Nat.one_mul _).symm⟩

/-- An integer of at most `2^53` in magnitude is held by a double. -/
theorem holds_natAbs {n : Int} (hn : n.natAbs ≤ 2 ^ 53) :
    FloatKind.f64.Holds (n.natAbs * FloatKind.f64.one) := by
  have hspan : n.natAbs * FloatKind.f64.one < 2 ^ FloatKind.f64.span := by
    calc n.natAbs * FloatKind.f64.one ≤ 2 ^ 53 * FloatKind.f64.one := Nat.mul_le_mul_right _ hn
      _ = 2 ^ (53 + FloatKind.f64.unitExponent) := by rw [FloatKind.one, ← Nat.pow_add]
      _ < 2 ^ FloatKind.f64.span := Nat.pow_lt_pow_right Nat.one_lt_two (by decide)
  obtain ⟨m, e, hm, he⟩ := exists_significand_of_le hn
  rw [he, FloatKind.one, Nat.mul_assoc, ← Nat.pow_add] at hspan ⊢
  exact FloatKind.holds_of_significand hm hspan

/-- An integer that a double holds is its own nearest double. -/
theorem ofInt_eq {n : Int} (held : FloatKind.f64.Holds (n.natAbs * FloatKind.f64.one)) :
    ofInt .f64 n = .finite (n < 0) (n.natAbs * FloatKind.f64.one) held := by
  have hround := round_exact (n < 0) held Nat.one_pos
  rwa [Nat.mul_one] at hround

/-- The double of an integer that is held denotes it. -/
theorem toInt?_of_holds {n : Int} (held : FloatKind.f64.Holds (n.natAbs * FloatKind.f64.one)) :
    (ofInt .f64 n).toInt? = some n := by
  rw [ofInt_eq held]
  simp only [toInt?, Nat.mul_mod_left, if_true, Nat.mul_div_cancel _ FloatKind.f64.one_pos,
    decide_eq_true_eq]
  congr 1
  split <;> omega

/-- The double of an integer of at most `2^53` in magnitude denotes it. -/
theorem toInt?_ofInt {n : Int} (hn : n.natAbs ≤ 2 ^ 53) : (ofInt .f64 n).toInt? = some n :=
  toInt?_of_holds (holds_natAbs hn)

/-- An integer that a double denotes is held. -/
theorem holds_of_toInt? {x : Binary .f64} {n : Int} (h : x.toInt? = some n) :
    FloatKind.f64.Holds (n.natAbs * FloatKind.f64.one) := by
  cases x with
  | nan => cases h
  | infinite negative => cases h
  | finite negative units held =>
    rw [toInt?] at h
    split at h
    · next hwhole =>
      have habs : n.natAbs = units / FloatKind.f64.one := by
        cases negative <;> cases h
        · exact Int.natAbs_natCast _
        · exact (Int.natAbs_neg _).trans (Int.natAbs_natCast _)
      rw [habs, Nat.div_mul_cancel (Nat.dvd_of_mod_eq_zero hwhole)]
      exact held
    · cases h

/-- The double of such an integer is finite. -/
theorem isFinite_ofInt {n : Int} (hn : n.natAbs ≤ 2 ^ 53) : (ofInt .f64 n).isFinite = true := by
  rw [ofInt_eq (holds_natAbs hn)]
  rfl

/-- The double of such an integer has it for its integer part. -/
theorem truncate?_ofInt {n : Int} (hn : n.natAbs ≤ 2 ^ 53) :
    (ofInt .f64 n).truncate? = some n := by
  rw [ofInt_eq (holds_natAbs hn)]
  simp only [truncate?, Nat.mul_div_cancel _ FloatKind.f64.one_pos, decide_eq_true_eq]
  congr 1
  split <;> omega

end Binary

/-- The reach of a kind ends no earlier than at its greatest word or at `2^53`. -/
theorem IntKind.le_reach (kind : IntKind) {n : Int} (hn : n ≤ kind.max) (habs : n.natAbs ≤ 2 ^ 53) :
    n ≤ ((Binary.ofInt .f64 kind.max).toInt?).getD kind.max := by
  by_cases hsmall : kind.max.natAbs ≤ 2 ^ 53
  · rw [Binary.toInt?_ofInt hsmall]
    exact hn
  · have hwide : (2 ^ 53 : Int) ≤ ((Binary.ofInt .f64 kind.max).toInt?).getD kind.max := by
      cases kind <;> first | exact absurd (by decide) hsmall | decide +kernel
    omega

namespace Word

/-- A word of at most `2^53` in magnitude comes back from its double. -/
theorem ofDouble?_ofInt {kind : IntKind} (n : Word kind) (hn : n.val.natAbs ≤ 2 ^ 53) :
    ofDouble? kind (.ofInt .f64 n.val) = some n := by
  rw [ofDouble?, Binary.toInt?_ofInt hn, Option.bind_some,
    if_pos ⟨n.min_le, kind.le_reach n.le_max hn⟩, clamp_val]

end Word

namespace Instant

/-- An instant of whole milliseconds outside a leap second. -/
structure IsWhole (t : Instant) : Prop where
  millis : t.nanos % 1000000 = 0
  not_leap : t.nanos < 1000000000

/-- The calendar is within the reach of exact doubles. -/
theorem natAbs_millis_le (t : Instant) : t.millis.natAbs ≤ 2 ^ 53 := by
  have h1 := t.first_le
  have h2 := t.le_last
  have h3 := t.nanos_lt
  unfold millis
  omega

/-- Whole milliseconds tell an instant. -/
theorem ofMillis?_millis {t : Instant} (h : t.IsWhole) : ofMillis? t.millis = some t := by
  have hwhole := h.millis
  have hleap := h.not_leap
  have hseconds : t.millis / 1000 = t.seconds := by
    unfold millis
    omega
  have hnanos : (t.millis % 1000).toNat * 1000000 = t.nanos := by
    unfold millis
    omega
  rw [ofMillis?, hseconds, hnanos, ofParts?_eq]

/-- An instant made from milliseconds is one of whole milliseconds, outside a leap second. -/
theorem isWhole_of_ofMillis? {m : Int} {t : Instant} (h : ofMillis? m = some t) : t.IsWhole := by
  rw [ofMillis?, ofParts?] at h
  split at h
  · cases h
    have hlt := Int.emod_lt_of_pos m (b := 1000) (by decide)
    exact ⟨Nat.mul_mod_left _ _, by simp only; omega⟩
  · cases h

/-- An instant of whole milliseconds comes back from its date. -/
theorem ofDate?_ofInt_millis {t : Instant} (h : t.IsWhole) :
    ofDate? (.ofInt .f64 t.millis) = some t := by
  rw [ofDate?, Binary.truncate?_ofInt t.natAbs_millis_le, Option.bind_some, ofMillis?_millis h]

end Instant

end ScriptBoundary
