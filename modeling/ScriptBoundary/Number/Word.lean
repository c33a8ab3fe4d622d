/-!
# Integers of a fixed width

The eight integer kinds of the native side and the numbers that fit each of them. A `Word k` is an
integer with the proof that it lies in the range of `k`, so that no operation on words can leave the
range unnoticed: an integer enters by `ofInt?`, which refuses, by `clamp`, which stops at the nearer
bound, or by `wrap`, which goes round.
-/

namespace ScriptBoundary

-- Powers are the built-in ones, whatever else a module imports.
attribute [instance(2000), default_instance 20000] instPowNat

/-- The integer widths of the native side. -/
inductive IntKind where
  | i8 | u8 | i16 | u16 | i32 | u32 | i64 | u64
deriving DecidableEq, Repr

namespace IntKind

/-- The least number of the kind. -/
def min : IntKind → Int
  | i8 => -2 ^ 7
  | i16 => -2 ^ 15
  | i32 => -2 ^ 31
  | i64 => -2 ^ 63
  | u8 | u16 | u32 | u64 => 0

/-- The greatest number of the kind. -/
def max : IntKind → Int
  | i8 => 2 ^ 7 - 1
  | u8 => 2 ^ 8 - 1
  | i16 => 2 ^ 15 - 1
  | u16 => 2 ^ 16 - 1
  | i32 => 2 ^ 31 - 1
  | u32 => 2 ^ 32 - 1
  | i64 => 2 ^ 63 - 1
  | u64 => 2 ^ 64 - 1

/-- The name of the kind in messages. -/
def name : IntKind → String
  | i8 => "i8"
  | u8 => "u8"
  | i16 => "i16"
  | u16 => "u16"
  | i32 => "i32"
  | u32 => "u32"
  | i64 => "i64"
  | u64 => "u64"

theorem min_le_zero (k : IntKind) : k.min ≤ 0 := by cases k <;> decide

theorem zero_le_max (k : IntKind) : 0 ≤ k.max := by cases k <;> decide

theorem min_le_max (k : IntKind) : k.min ≤ k.max := by cases k <;> decide

end IntKind

/-- An integer in the range of its kind. -/
structure Word (k : IntKind) where
  val : Int
  min_le : k.min ≤ val
  le_max : val ≤ k.max
deriving DecidableEq

namespace Word

variable {k : IntKind}

@[ext] theorem ext {a b : Word k} (h : a.val = b.val) : a = b := by
  cases a; cases b; cases h; rfl

/-- The number zero, which every kind holds. -/
def zero : Word k := ⟨0, k.min_le_zero, k.zero_le_max⟩

instance : Inhabited (Word k) := ⟨zero⟩

/-- The word of a number, when the number is in range. -/
def ofInt? (k : IntKind) (n : Int) : Option (Word k) :=
  if h : k.min ≤ n ∧ n ≤ k.max then some ⟨n, h.1, h.2⟩ else none

/-- The word nearest to a number: the number itself when it is in range, else the bound it passed.
-/
def clamp (k : IntKind) (n : Int) : Word k where
  val := if n < k.min then k.min else if k.max < n then k.max else n
  min_le := by have := k.min_le_max; split <;> (try split) <;> omega
  le_max := by have := k.min_le_max; split <;> (try split) <;> omega

/-- The word that agrees with a number modulo the size of the range. -/
def wrap (k : IntKind) (n : Int) : Word k where
  val := k.min + (n - k.min) % (k.max - k.min + 1)
  min_le := by
    have := k.min_le_max
    have := Int.emod_nonneg (n - k.min) (b := k.max - k.min + 1) (by omega)
    omega
  le_max := by
    have := k.min_le_max
    have := Int.emod_lt_of_pos (n - k.min) (b := k.max - k.min + 1) (by omega)
    omega

theorem ofInt?_eq_some_iff {n : Int} {w : Word k} : ofInt? k n = some w ↔ w.val = n := by
  unfold ofInt?
  constructor
  · intro h
    split at h
    · cases h; rfl
    · cases h
  · rintro rfl
    simp [w.min_le, w.le_max]

@[simp] theorem ofInt?_val (w : Word k) : ofInt? k w.val = some w := ofInt?_eq_some_iff.2 rfl

@[simp] theorem clamp_val (w : Word k) : clamp k w.val = w := by
  have h1 := w.min_le
  have h2 := w.le_max
  ext
  simp only [clamp]
  split <;> (try split) <;> omega

/-- Going round leaves a number that is in range. -/
@[simp] theorem wrap_val (w : Word k) : wrap k w.val = w := by
  have h1 := w.min_le
  have h2 := w.le_max
  ext
  simp only [wrap]
  rw [Int.emod_eq_of_lt (by omega) (by omega)]
  omega

/-- Going round changes a number by a multiple of the size of the range. -/
theorem wrap_emod (k : IntKind) (n : Int) :
    (wrap k n).val % (k.max - k.min + 1) = n % (k.max - k.min + 1) := by
  simp only [wrap]
  rw [Int.add_emod_emod]
  congr 1
  omega

end Word

end ScriptBoundary
