import ScriptBoundary.Conversion.Policy
import ScriptBoundary.Proofs.Ending
import ScriptBoundary.Proofs.Exactness

/-!
# Values without a declared type

Where no type is asked for, a script value becomes what is closest to it. The policy also has a
table of the types that script kinds land in, and a conversion to the type of the table is one step
that goes on without a type in the parts of a collection. The two agree on every value but three
sorts: an integer keeps its width where the table has a double, and a proxy gives the instance
behind it where the table has a dictionary (`Catalog.undeclared_agrees_iff`). Among the parts of a
collection these come out alike on both sides, for there neither declares a type.

Going without a type follows values as deep as it is allowed to. The table's type takes one level of
its own, so its outcome with an allowance is the untyped outcome with one level more, and an outcome
that was reached stays with a greater allowance (`Catalog.anyToNative_le_succ`).
-/

namespace ScriptBoundary

open Run

namespace Run

variable {ε α β : Type}

/-- Wherever the first computation comes to an outcome, the second comes to the same. -/
def Le (x y : Run ε α) : Prop := ∀ ⦃w : World⦄ ⦃o : Except ε α × World⦄, x w = some o → y w = some o

namespace Le

theorem refl (x : Run ε α) : Le x x := fun _ _ => id

theorem exhausted (x : Run ε α) : Le Run.exhausted x := by
  intro w o h
  cases h

theorem bind {x y : Run ε α} {f g : α → Run ε β} (h : Le x y) (hfg : ∀ a, Le (f a) (g a)) :
    Le (x >>= f) (y >>= g) := by
  rintro w ⟨r, w'⟩ hrun
  rcases bind_cases hrun with ⟨e, hx, rfl⟩ | ⟨a, w₁, hx, hrest⟩
  · exact bind_error (h hx) g
  · rw [bind_ok (h hx)]
    exact hfg a hrest

theorem mapM {x y : α → Run ε β} {l : List α} (h : ∀ a ∈ l, Le (x a) (y a)) :
    Le (l.mapM x) (l.mapM y) := by
  induction l with
  | nil => exact refl _
  | cons a l ih =>
    rw [List.mapM_cons, List.mapM_cons]
    refine bind (h a List.mem_cons_self) fun b => bind ?_ fun bs => refl _
    exact ih fun c hc => h c (List.mem_cons_of_mem _ hc)

end Le

end Run

/-- The value is neither an integer nor a proxy. -/
def World.Tabled (w : World) : ScriptValue → Prop
  | .int _ | .uint _ => False
  | .object o => (w.heap.object o).target = none
  | _ => True

namespace Catalog

variable (catalog : Catalog) (r : Reentry)

/-- The entries of a plain object, each converted without a type. -/
def untypedEntries (n : Nat) (o : ObjectId) : Run Error NativeValue := do
  let entries ← r.entries o
  return .dictionary (← entries.mapM fun entry => do
    return (entry.1, ← catalog.anyToNative r n entry.2))

theorem anyToNative_of_plain (n : Nat) {o : ObjectId} {w : World}
    (ho : (w.heap.object o).target = none) :
    catalog.anyToNative r (n + 1) (.object o) w = catalog.untypedEntries r n o w := by
  refine (bind_ok (ofHeap_apply (·.object o) w) _).trans ?_
  rw [ho]
  rfl

theorem anyToNative_of_proxy (n : Nat) {o : ObjectId} {target : Instance} {w : World}
    (ho : (w.heap.object o).target = some target) :
    catalog.anyToNative r (n + 1) (.object o) w = some (.ok (.object target), w) := by
  refine (bind_ok (ofHeap_apply (·.object o) w) _).trans ?_
  rw [ho]
  rfl

/-! ## Allowances -/

/-- An outcome that was reached stays with one level more. -/
theorem anyToNative_le_succ (n : Nat) (s : ScriptValue) :
    Run.Le (catalog.anyToNative r n s) (catalog.anyToNative r (n + 1) s) := by
  induction n generalizing s with
  | zero => exact .exhausted _
  | succ n ih =>
    cases s with
    | array a => exact .bind (.refl _) fun items => .bind (.mapM fun s _ => ih s) fun _ => .refl _
    | object o =>
      intro w outcome h
      cases htarget : (w.heap.object o).target with
      | some target =>
        rw [anyToNative_of_proxy _ _ _ htarget] at h ⊢
        exact h
      | none =>
        rw [anyToNative_of_plain _ _ _ htarget] at h ⊢
        refine Run.Le.bind (.refl _) (fun entries => .bind (.mapM fun entry _ => ?_) ?_) h
        · exact .bind (ih entry.2) fun _ => .refl _
        · exact fun _ => .refl _
    | _ => exact .refl _

/-- How deep values are followed is told by the number alone. -/
theorem anyToNative_depth (d n : Nat) (s : ScriptValue) :
    catalog.anyToNative { r with depth := d } n s = catalog.anyToNative r n s := by
  induction n generalizing s with
  | zero => rfl
  | succ n ih =>
    have hnext : catalog.anyToNative { r with depth := d } n = catalog.anyToNative r n := funext ih
    unfold anyToNative
    rw [hnext]
    rfl

/-- A conversion without a type, whether the value is left out or not. -/
theorem toNative_any_succ (n : Nat) (s : ScriptValue) :
    catalog.toNative { r with depth := n + 1 } .any s = catalog.anyToNative r (n + 1) s := by
  cases hs : s.isNullish with
  | false => rw [toNative_any _ _ hs, anyToNative_depth]
  | true =>
    rw [toNative_of_nullish _ _ _ hs]
    cases s with
    | undefined | null => rfl
    | _ => cases hs

/-! ## The table -/

/-- A number in a double is converted to the table's type as the number it is. -/
theorem toNative_table_of_number {s : ScriptValue} {x : Binary .f64} {w : World}
    (hnullish : s.isNullish = false) (hx : s.toDouble = .ok x) :
    catalog.toNative r (.float .f64) s w = some (.ok (.float .f64 x), w) := by
  rw [toNative_float _ _ _ hnullish, catalog.binaryOf_of_double hx rfl]
  rfl

/-- Converting to the table's type is converting without a type, with one level of its own. -/
theorem toNative_table {s : ScriptValue} {w : World} (hs : w.Tabled s) (n : Nat) :
    catalog.toNative { r with depth := n + 1 } (.ofKind s.kind) s w =
      catalog.toNative { r with depth := n + 2 } .any s w := by
  have hparts : catalog.toNative { r with depth := n + 1 } .any = catalog.anyToNative r (n + 1) :=
    funext (catalog.toNative_any_succ r n)
  rw [toNative_any_succ]
  cases s with
  | int | uint => exact hs.elim
  | number x => exact catalog.toNative_table_of_number _ rfl rfl
  | array a =>
    show catalog.toNative { r with depth := n + 1 } (.array .any) (.array a) w = _
    rw [toNative_array, hparts]
    rfl
  | object o =>
    show catalog.toNative { r with depth := n + 1 } (.dictionary .any) (.object o) w = _
    rw [toNative_dictionary, hparts, anyToNative_of_plain _ _ _ hs]
    rfl
  | _ => rfl

/-- What the table's type makes of a proxy is no instance. -/
theorem gives_table_dictionary (o : ObjectId) :
    Run.Gives (fun v => ∃ entries, v = .dictionary entries)
      (catalog.toNative r (.dictionary .any) (.object o)) := by
  rw [toNative_dictionary]
  exact .bind_any fun _ => .bind_any fun entries => .pure ⟨entries, rfl⟩

/-- An outcome without a type is the outcome with the table's type, at one and the same allowance.
-/
theorem toNative_table_of_any {s : ScriptValue} {w : World} (hs : w.Tabled s)
    {o : Except Error NativeValue × World} (h : catalog.toNative r .any s w = some o) :
    catalog.toNative r (.ofKind s.kind) s w = some o := by
  cases hdepth : r.depth with
  | zero =>
    -- Without any allowance only what is left out comes to an outcome.
    cases hnullish : s.isNullish with
    | false =>
      rw [toNative_any _ _ hnullish, hdepth] at h
      cases h
    | true =>
      rw [toNative_of_nullish _ _ _ hnullish] at h ⊢
      cases s with
      | undefined | null => exact h
      | _ => cases hnullish
  | succ n =>
    have hr : r = { r with depth := n + 1 } := by rw [← hdepth]
    rw [hr, toNative_any_succ] at h
    rw [hr, catalog.toNative_table r hs, toNative_any_succ]
    exact catalog.anyToNative_le_succ r (n + 1) s h

/-- A value for which the two conversions come to the same with any allowance is no integer and no
proxy. -/
theorem tabled_of_agrees {s : ScriptValue} {w : World}
    (h : catalog.toNative { r with depth := 1 } (.ofKind s.kind) s w =
      catalog.toNative { r with depth := 2 } .any s w) : w.Tabled s := by
  rw [toNative_any_succ] at h
  cases s with
  | int i =>
    rw [show NativeType.ofKind (ScriptValue.int i).kind = .float .f64 from rfl,
      catalog.toNative_table_of_number _ rfl rfl] at h
    cases h
  | uint u =>
    rw [show NativeType.ofKind (ScriptValue.uint u).kind = .float .f64 from rfl,
      catalog.toNative_table_of_number _ rfl rfl] at h
    cases h
  | object o =>
    show (w.heap.object o).target = none
    cases htarget : (w.heap.object o).target with
    | none => rfl
    | some target =>
      rw [anyToNative_of_proxy _ _ _ htarget] at h
      obtain ⟨entries, hdictionary⟩ := catalog.gives_table_dictionary _ o h
      cases hdictionary
  | _ => trivial

/-- Which values cross alike without a declared type and with the type that the policy's table has
for their kind. For a value that is neither an integer nor a proxy the two conversions come to the
same outcome, be it a value or an error, and to the same state: the untyped one has one level more,
and whatever it comes to the other comes to with the same allowance as well. For no other value is
that so. An integer keeps its width without a type and is a double of the same number with the
table's; a proxy gives the instance behind it without a type and at best a dictionary with the
table's. -/
theorem undeclared_agrees_iff (s : ScriptValue) (w : World) :
    ((∀ n, catalog.toNative { r with depth := n + 1 } (.ofKind s.kind) s w =
        catalog.toNative { r with depth := n + 2 } .any s w) ↔ w.Tabled s) ∧
    (w.Tabled s → ∀ o, catalog.toNative r .any s w = some o →
      catalog.toNative r (.ofKind s.kind) s w = some o) ∧
    (∀ i, s = .int i → ∃ x : Binary .f64, x.toInt? = some i.val ∧ ∀ n,
      catalog.toNative { r with depth := n + 1 } .any s w = some (.ok (.int .i32 i), w) ∧
      catalog.toNative r (.ofKind s.kind) s w = some (.ok (.float .f64 x), w)) ∧
    (∀ u, s = .uint u → ∃ x : Binary .f64, x.toInt? = some u.val ∧ ∀ n,
      catalog.toNative { r with depth := n + 1 } .any s w = some (.ok (.int .u32 u), w) ∧
      catalog.toNative r (.ofKind s.kind) s w = some (.ok (.float .f64 x), w)) ∧
    (∀ o target, s = .object o → (w.heap.object o).target = some target →
      (∀ n, catalog.toNative { r with depth := n + 1 } .any s w =
        some (.ok (.object target), w)) ∧
      ∀ v w', catalog.toNative r (.ofKind s.kind) s w = some (.ok v, w') →
        ∃ entries, v = .dictionary entries) := by
  refine ⟨⟨fun hagrees => catalog.tabled_of_agrees r (hagrees 0), catalog.toNative_table r⟩,
    fun hs o => catalog.toNative_table_of_any r hs, ?_, ?_, ?_⟩
  · rintro i rfl
    refine ⟨.ofInt .f64 i.val, Binary.toInt?_ofInt ?_, fun n => ⟨?_, ?_⟩⟩
    · have hmin : -2 ^ 31 ≤ i.val := i.min_le
      have hmax : i.val ≤ 2 ^ 31 - 1 := i.le_max
      omega
    · rw [toNative_any_succ]
      rfl
    · exact catalog.toNative_table_of_number r rfl rfl
  · rintro u rfl
    refine ⟨.ofInt .f64 u.val, Binary.toInt?_ofInt ?_, fun n => ⟨?_, ?_⟩⟩
    · have hmin : 0 ≤ u.val := u.min_le
      have hmax : u.val ≤ 2 ^ 32 - 1 := u.le_max
      omega
    · rw [toNative_any_succ]
      rfl
    · exact catalog.toNative_table_of_number r rfl rfl
  · rintro o target rfl htarget
    refine ⟨fun n => ?_, fun v w' h => catalog.gives_table_dictionary r o h⟩
    rw [toNative_any_succ, anyToNative_of_proxy _ _ _ htarget]

/-- A state with a proxy, and a plain object that holds an array with an integer and the proxy. -/
def gauged : World where
  heap := {
    arrays := #[[.int (.clamp .i32 7), .object ⟨0⟩]]
    objects := #[⟨"Gauge", [], some ⟨1, ⟨0⟩⟩, []⟩, ⟨"Object", [], none, [("pair", .data (.array ⟨0⟩))]⟩] }

/-- Held by a plain object, the integer and the proxy cross alike with and without the table's
type. -/
theorem gauged_agrees :
    gauged.Tabled (.object ⟨1⟩) ∧
    empty.toNative (empty.reentry 5) (.dictionary .any) (.object ⟨1⟩) gauged =
      some (.ok (.dictionary [("pair",
        .array [.int .i32 (.clamp .i32 7), .object ⟨1, ⟨0⟩⟩])]), gauged) :=
  ⟨rfl, (empty.undeclared_agrees_iff (empty.reentry 5) (.object ⟨1⟩) gauged).2.1 rfl _ rfl⟩

/-- What the value becomes without a type it becomes with the table's type as well. -/
def CrossesAlike (s : ScriptValue) (w : World) : Prop :=
  ∀ v, (∃ n w', catalog.toNative (catalog.reentry n) .any s w = some (.ok v, w')) →
    ∃ n w', catalog.toNative (catalog.reentry n) (.ofKind s.kind) s w = some (.ok v, w')

/-- On their own the integer and the proxy do not. -/
theorem gauged_differs :
    ¬ empty.CrossesAlike (.int (.clamp .i32 7)) gauged ∧
      ¬ empty.CrossesAlike (.object ⟨0⟩) gauged := by
  refine ⟨fun halike => ?_, fun halike => ?_⟩
  · obtain ⟨n, w', hw'⟩ := halike (.int .i32 (.clamp .i32 7)) ⟨1, gauged, rfl⟩
    have htable := empty.toNative_table_of_number (empty.reentry n) (w := gauged)
      (s := .int (.clamp .i32 7)) rfl rfl
    cases htable.symm.trans hw'
  · obtain ⟨n, w', hw'⟩ := halike (.object ⟨1, ⟨0⟩⟩) ⟨1, gauged, rfl⟩
    obtain ⟨entries, hentries⟩ := empty.gives_table_dictionary _ ⟨0⟩ hw'
    cases hentries

end Catalog

end ScriptBoundary
