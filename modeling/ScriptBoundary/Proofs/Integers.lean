import ScriptBoundary.Proofs.Quantities
import ScriptBoundary.Proofs.RoundTrip

/-!
# Script numbers where an integer is asked for

A number of a script is taken for an integer only if it is one and lies in the range of the kind.
The doubles have no number for the greatest words of sixty-four bits, which cross to scripts as the
number after them, and that number is taken for the greatest word again. `IntKind.Takes` says just
that; a double is turned into a word where it takes one (`Word.ofDouble?_eq_some_iff`), and an
integer type and an enumeration of flags give the integer that is taken or are out of range
(`integers_read_strictly`).
-/

namespace ScriptBoundary

namespace IntKind

/-- A number is taken for an integer of the kind: for itself in the range, and past the range of
sixty-four bits the next number for the greatest of the range. -/
def Takes (kind : IntKind) (q : Quantity) (n : Int) : Prop :=
  q = .ofInt n ∧ kind.min ≤ n ∧ n ≤ kind.max ∨
    kind = .i64 ∧ q = .ofInt (2 ^ 63) ∧ n = kind.max ∨
    kind = .u64 ∧ q = .ofInt (2 ^ 64) ∧ n = kind.max

variable {kind : IntKind} {q : Quantity} {n : Int}

/-- What a number is taken for is in the range. -/
theorem Takes.in_range (h : kind.Takes q n) : kind.min ≤ n ∧ n ≤ kind.max := by
  have := kind.min_le_max
  rcases h with ⟨-, hrange⟩ | ⟨-, -, rfl⟩ | ⟨-, -, rfl⟩
  · exact hrange
  · exact ⟨this, Int.le_refl _⟩
  · exact ⟨this, Int.le_refl _⟩

/-- What is taken for an integer denotes one. -/
theorem Takes.exists_int (h : kind.Takes q n) : ∃ m, q = .ofInt m := by
  rcases h with ⟨h, -⟩ | ⟨-, h, -⟩ | ⟨-, h, -⟩ <;> exact ⟨_, h⟩

/-- The double nearest to the greatest word of a kind is that word, or the number after it. -/
theorem reach_eq (kind : IntKind) :
    ((Binary.ofInt .f64 kind.max).toInt?).getD kind.max =
      if kind = .i64 ∨ kind = .u64 then kind.max + 1 else kind.max := by
  cases kind <;> decide +kernel

/-- An integer up to the reach of a kind is taken for the nearest word. -/
theorem takes_ofInt_iff {m : Int} {n : Word kind} :
    kind.Takes (.ofInt m) n.val ↔
      (kind.min ≤ m ∧ m ≤ ((Binary.ofInt .f64 kind.max).toInt?).getD kind.max) ∧
        Word.clamp kind m = n := by
  have hmin := n.min_le
  have hmax := n.le_max
  rw [reach_eq, Word.ext_iff]
  simp only [Takes, Quantity.ofInt_inj, Word.clamp]
  cases kind <;> simp only [min, max, reduceCtorEq, false_and, or_false, false_or, true_and,
    or_self, or_true, if_true, if_false] at * <;> omega

end IntKind

/-- A double is turned into the word that it is taken for. -/
theorem Word.ofDouble?_eq_some_iff {kind : IntKind} {x : Binary .f64} {n : Word kind} :
    ofDouble? kind x = some n ↔ kind.Takes x.quantity n.val := by
  rw [ofDouble?, Option.bind_eq_some_iff]
  constructor
  · rintro ⟨m, hm, h⟩
    rw [Option.ite_none_right_eq_some, Option.some.injEq] at h
    rw [Binary.quantity_eq_ofInt_iff.2 hm]
    exact IntKind.takes_ofInt_iff.2 h
  · intro h
    obtain ⟨m, hm⟩ := h.exists_int
    rw [hm] at h
    refine ⟨m, Binary.quantity_eq_ofInt_iff.1 hm, ?_⟩
    rw [Option.ite_none_right_eq_some, Option.some.injEq]
    exact IntKind.takes_ofInt_iff.1 h

/-- The double of a script number denotes what the number does. -/
theorem ScriptValue.exists_toDouble {s : ScriptValue} {q : Quantity} (h : s.quantity? = some q) :
    ∃ x, s.toDouble = .ok x ∧ x.quantity = q := by
  cases s with
  | int n =>
    cases h
    exact ⟨_, rfl, Binary.quantity_eq_ofInt_iff.2 (Binary.toInt?_ofInt (n.natAbs_le nofun))⟩
  | uint n =>
    cases h
    exact ⟨_, rfl, Binary.quantity_eq_ofInt_iff.2 (Binary.toInt?_ofInt (n.natAbs_le nofun))⟩
  | number x =>
    cases h
    exact ⟨x, rfl, rfl⟩
  | _ => cases h

/-- A script number is neither undefined nor null. -/
theorem ScriptValue.isNullish_of_quantity? {s : ScriptValue} {q : Quantity}
    (h : s.quantity? = some q) : s.isNullish = false := by
  cases s with
  | undefined | null => cases h
  | _ => rfl

/-- A number is taken for the integer of an enumeration as for one of sixty-four bits that lies in
the range of the representation. -/
theorem EnumRepr.takes_iff {repr : EnumRepr} {q : Quantity} {n : Int} :
    repr.kind.Takes q n ↔ IntKind.i64.Takes q n ∧ repr.kind.min ≤ n ∧ n ≤ repr.kind.max := by
  refine ⟨fun h => ⟨?_, h.in_range⟩, fun ⟨h, hrange⟩ => ?_⟩
  · have hrange := h.in_range
    rcases h with ⟨h, -⟩ | ⟨hkind, h⟩ | ⟨hkind, -⟩
    · refine .inl ⟨h, ?_⟩
      cases repr <;> simp only [kind, IntKind.min, IntKind.max] at * <;> omega
    · exact .inr (.inl ⟨rfl, hkind ▸ h⟩)
    · cases repr <;> cases hkind
  · rcases h with ⟨h, -⟩ | ⟨-, h, hn⟩ | ⟨hkind, -⟩
    · exact .inl ⟨h, hrange⟩
    · -- The greatest word of sixty-four bits is in the range of no other representation.
      cases repr with
      | i64 => exact .inr (.inl ⟨rfl, h, hn⟩)
      | _ => simp only [kind, IntKind.max] at hrange hn; omega
    · cases hkind

namespace Catalog

/-- The computation gives, made into a native value, the integer of the kind that the number is
taken for; where the number is taken for none it fails, out of range. -/
structure Reads (kind : IntKind) (q : Quantity) {width : IntKind} (make : Word width → NativeValue)
    (x : Run Error NativeValue) : Prop where
  taken {n : Int} : kind.Takes q n →
    ∃ word : Word width, word.val = n ∧ ∀ w, x w = some (.ok (make word), w)
  refused : (∀ n, ¬ kind.Takes q n) →
    ∃ target text, ∀ w, x w = some (.error (.conversion (.outOfRange target text)), w)

section Number

variable (catalog : Catalog) {s : ScriptValue} {q : Quantity} (hs : s.quantity? = some q)

include hs

/-- A script number becomes the word that it is taken for. -/
theorem wordOf_of_takes (type : NativeType) {kind : IntKind} {n : Word kind}
    (h : kind.Takes q n.val) : catalog.wordOf type kind s = .ok n := by
  obtain ⟨x, hx, rfl⟩ := ScriptValue.exists_toDouble hs
  exact catalog.wordOf_of_double hx (Word.ofDouble?_eq_some_iff.2 h)

/-- A script number that is taken for no word is out of range. -/
theorem wordOf_of_not_takes (type : NativeType) {kind : IntKind} (h : ∀ n, ¬ kind.Takes q n) :
    ∃ text, catalog.wordOf type kind s = .error (catalog.outOfRange type text) := by
  obtain ⟨x, hx, rfl⟩ := ScriptValue.exists_toDouble hs
  have hnone : Word.ofDouble? kind x = none :=
    Option.eq_none_iff_forall_ne_some.2 fun n hn => h n.val (Word.ofDouble?_eq_some_iff.1 hn)
  refine ⟨Layout.plain.render x, ?_⟩
  unfold wordOf doubleFor
  rw [hx, ok_bind, hnone]
  rfl

/-- An integer type reads a script number. -/
theorem reads_int (r : Reentry) (kind : IntKind) :
    Reads kind q (.int kind) (catalog.toNative r (.int kind) s) := by
  rw [toNative_int catalog r kind (ScriptValue.isNullish_of_quantity? hs)]
  refine ⟨fun {n} h => ?_, fun h => ?_⟩
  · let word : Word kind := ⟨n, h.in_range.1, h.in_range.2⟩
    refine ⟨word, rfl, fun w => ?_⟩
    rw [catalog.wordOf_of_takes hs (n := word) _ h]
    rfl
  · obtain ⟨text, htext⟩ := catalog.wordOf_of_not_takes hs (.int kind) h
    refine ⟨catalog.typeText (.int kind), text, fun w => ?_⟩
    rw [htext]
    rfl

/-- An enumeration of flags reads a script number as an integer of its representation. -/
theorem reads_enumeration (r : Reentry) {d : Enumeration} (hflags : d.flags = true) :
    Reads d.repr.kind q (.enumeration d) (catalog.toNative r (.enumeration d) s) := by
  rw [toNative_enumeration catalog r d (ScriptValue.isNullish_of_quantity? hs)]
  unfold enumerationOf
  rw [if_pos hflags]
  refine ⟨fun {n} h => ?_, fun h => ?_⟩
  · obtain ⟨hwide, hrange⟩ := EnumRepr.takes_iff.1 h
    let raw : Word .i64 := ⟨n, hwide.in_range.1, hwide.in_range.2⟩
    let narrow : Word d.repr.kind := ⟨n, hrange.1, hrange.2⟩
    have hnarrow : d.word raw = .ok narrow := by
      rw [Enumeration.word, Word.ofInt?_eq_some_iff.2 (show narrow.val = raw.val from rfl)]
    refine ⟨raw, rfl, fun w => ?_⟩
    rw [catalog.wordOf_of_takes hs (n := raw) _ hwide, ok_bind, hnarrow]
    rfl
  · by_cases hwide : ∃ n, IntKind.i64.Takes q n
    · -- The number is an integer of sixty-four bits that the representation does not hold.
      obtain ⟨n, hwide⟩ := hwide
      let raw : Word .i64 := ⟨n, hwide.in_range.1, hwide.in_range.2⟩
      have hnone : Word.ofInt? d.repr.kind raw.val = none :=
        dif_neg fun hrange => h n (EnumRepr.takes_iff.2 ⟨hwide, hrange⟩)
      refine ⟨d.repr.kind.name, toString raw.val, fun w => ?_⟩
      rw [catalog.wordOf_of_takes hs (n := raw) _ hwide, ok_bind, Enumeration.word, hnone]
      rfl
    · obtain ⟨text, htext⟩ := catalog.wordOf_of_not_takes hs (.enumeration d) (not_exists.1 hwide)
      refine ⟨catalog.typeText (.enumeration d), text, fun w => ?_⟩
      rw [htext]
      rfl

end Number

/-- Script numbers become integers strictly. An integer type gives the integer that a script number
is taken for, the number itself in the range and the greatest of sixty-four bits for the number
after it, and refuses any other number as out of range; an enumeration of flags gives the value with
the integer that its representation takes the number for. -/
theorem integers_read_strictly (catalog : Catalog) (r : Reentry) {s : ScriptValue} {q : Quantity}
    (hs : s.quantity? = some q) :
    (∀ kind : IntKind, Reads kind q (.int kind) (catalog.toNative r (.int kind) s)) ∧
    ∀ d : Enumeration, d.flags = true →
      Reads d.repr.kind q (.enumeration d) (catalog.toNative r (.enumeration d) s) :=
  ⟨catalog.reads_int hs r, fun _ hflags => catalog.reads_enumeration hs r hflags⟩

/-- Flags in eight bits. -/
def access : Enumeration :=
  ⟨"Access", true, .u8, [("Read", .clamp .i64 1), ("Write", .clamp .i64 2)]⟩

/-- The number after the greatest word of sixty-four bits is taken for that word, and is out of
range for the flags. -/
theorem wide_number_read_strictly :
    let s : ScriptValue := .number (.ofInt .f64 (2 ^ 63))
    (∃ word : Word .i64, word.val = 2 ^ 63 - 1 ∧ ∀ w,
      empty.toNative (empty.reentry 0) (.int .i64) s w = some (.ok (.int .i64 word), w)) ∧
    ∃ target text, ∀ w, empty.toNative (empty.reentry 0) (.enumeration access) s w =
      some (.error (.conversion (.outOfRange target text)), w) := by
  intro s
  have hs : s.quantity? = some (.ofInt (2 ^ 63)) :=
    congrArg some (Binary.quantity_eq_ofInt_iff.2 (by decide +kernel))
  obtain ⟨hint, hflags⟩ := integers_read_strictly empty (empty.reentry 0) hs
  refine ⟨(hint .i64).taken (.inr (.inl ⟨rfl, rfl, rfl⟩)), (hflags access rfl).refused ?_⟩
  intro n h
  have hrange : n ≤ 2 ^ 8 - 1 := h.in_range.2
  rcases h with ⟨h, -⟩ | ⟨hkind, -⟩ | ⟨hkind, -⟩
  · rw [Quantity.ofInt_inj] at h
    omega
  · cases hkind
  · cases hkind

end Catalog

end ScriptBoundary
