import ScriptBoundary.Conversion.ToNative
import ScriptBoundary.Proofs.Making

/-!
# Conversions, kind by kind

What `Catalog.toNative` does with a script value for each native type, and how `Catalog.toScript`
goes through the parts of a collection. Other files reason from these equations.
-/

namespace ScriptBoundary

open Run

namespace Catalog

variable (catalog : Catalog) (r : Reentry)

/-! ## To native -/

theorem toNative_of_nullish (type : NativeType) {s : ScriptValue} (h : s.isNullish = true) :
    catalog.toNative r type s = pure type.default := by
  unfold toNative
  rw [if_pos h]

theorem toNative_int (kind : IntKind) {s : ScriptValue} (h : s.isNullish = false) :
    catalog.toNative r (.int kind) s =
      (NativeValue.int kind <$> .ofConversion (catalog.wordOf (.int kind) kind s)) :=
  if_neg (ne_true_of_eq_false h)

theorem toNative_float (kind : FloatKind) {s : ScriptValue} (h : s.isNullish = false) :
    catalog.toNative r (.float kind) s =
      (NativeValue.float kind <$> .ofConversion (catalog.binaryOf kind s)) :=
  if_neg (ne_true_of_eq_false h)

theorem toNative_enumeration (d : Enumeration) {s : ScriptValue} (h : s.isNullish = false) :
    catalog.toNative r (.enumeration d) s =
      (NativeValue.enumeration d <$> .ofConversion (catalog.enumerationOf d s)) :=
  if_neg (ne_true_of_eq_false h)

theorem toNative_void {s : ScriptValue} (h : s.isNullish = false) :
    catalog.toNative r .void s = pure .null :=
  if_neg (ne_true_of_eq_false h)

theorem toNative_sequence (element : NativeType) {s : ScriptValue} (h : s.isNullish = false) :
    catalog.toNative r (.sequence element) s =
      throw (.conversion (.oneWay (catalog.typeText (.sequence element)))) :=
  if_neg (ne_true_of_eq_false h)

theorem toNative_json {s : ScriptValue} (h : s.isNullish = false) :
    catalog.toNative r .json s = (NativeValue.json <$> r.jsonText s) :=
  if_neg (ne_true_of_eq_false h)

theorem toNative_any {s : ScriptValue} (h : s.isNullish = false) :
    catalog.toNative r .any s = catalog.anyToNative r r.depth s :=
  if_neg (ne_true_of_eq_false h)

theorem toNative_char (text : String) :
    catalog.toNative r .char (.string text) = pure (.char (text.toList.headD '\x00')) := rfl

theorem toNative_datetime (millis : Binary .f64) :
    catalog.toNative r .datetime (.date millis) =
      (NativeValue.datetime <$> .ofConversion (Instant.ofDate millis)) := rfl

theorem toNative_array (element : NativeType) (a : ArrayId) :
    catalog.toNative r (.array element) (.array a) =
      (do return .array (← (← Run.ofHeap (·.items a)).mapM (catalog.toNative r element))) := rfl

theorem toNative_dictionary (element : NativeType) (o : ObjectId) :
    catalog.toNative r (.dictionary element) (.object o) =
      (do return .dictionary (← (← r.entries o).mapM fun entry => do
        return (entry.1, ← catalog.toNative r element entry.2))) := rfl

theorem toNative_multimap (o : ObjectId) :
    catalog.toNative r .multimap (.object o) = (NativeValue.multimap <$> r.textEntries o) := rfl

theorem toNative_callable (shape : Shape) (f : FunctionId) :
    catalog.toNative r (.callable shape) (.function f) =
      (NativeValue.callable <$> catalog.callableFor f shape) := rfl

theorem toNative_object (c : ClassRef) (o : ObjectId) :
    catalog.toNative r (.object c) (.object o) = catalog.objectToNative r o c := rfl

/-- The face of a callable of the shape stands for the callable. -/
theorem callableFor_of_face {ε : Type} {f : FunctionId} {shape : Shape} {c : Callable} {w : World}
    (hface : (w.heap.function f).callable? = some c)
    (hshape : c.shape.same catalog.identity shape = true) :
    (catalog.callableFor f shape : Run ε Callable) w = some (.ok c, w) := by
  rw [callableFor, bind_ok (ofHeap_apply _ w), hface]
  simp only [hshape, if_true, pure_apply]

/-- A proxy gives the instance behind it, when that is one of the class. -/
theorem objectToNative_of_target {o : ObjectId} {c : ClassRef} {target : Instance} {w : World}
    (htarget : (w.heap.object o).target = some target)
    (hc : catalog.isAssignable target.runtimeClass c = true) :
    catalog.objectToNative r o c w = some (.ok (.object target), w) := by
  rw [objectToNative, bind_ok (ofHeap_apply _ w), htarget]
  simp only [hc, if_true, pure_apply]

/-- A text or a number is a word where a word stands for it. -/
theorem wordOf_of_double {type : NativeType} {kind : IntKind} {s : ScriptValue} {x : Binary .f64}
    {n : Word kind} (hx : s.toDouble = .ok x) (hn : Word.ofDouble? kind x = some n) :
    catalog.wordOf type kind s = .ok n := by
  unfold wordOf doubleFor
  rw [hx, ok_bind, hn]
  rfl

/-- A text or a number is a number of a width where the width has it. -/
theorem binaryOf_of_double {kind : FloatKind} {s : ScriptValue} {x : Binary .f64} {y : Binary kind}
    (hx : s.toDouble = .ok x) (hy : Binary.ofDouble? kind x = some y) :
    catalog.binaryOf kind s = .ok y := by
  unfold binaryOf doubleFor
  rw [hx, ok_bind, hy]
  rfl

/-! ## To scripts -/

theorem allToScript_eq (items : List NativeValue) :
    catalog.allToScript items = items.mapM catalog.toScript := by
  induction items with
  | nil => rfl
  | cons item rest ih =>
    rw [List.mapM_cons, allToScript, ih]

theorem entriesToScript_eq (o : ObjectId) (entries : List (String × NativeValue)) :
    catalog.entriesToScript o entries = entries.forM (Makes.putField catalog.toScript o) := by
  induction entries with
  | nil => rfl
  | cons entry rest ih =>
    show _ = Makes.putField catalog.toScript o entry >>= fun _ => rest.forM _
    rw [entriesToScript, ih, Makes.putField, bind_assoc]

theorem toScript_array (items : List NativeValue) :
    catalog.toScript (.array items) =
      (do return .array (← Run.onHeap (·.newArray (← items.mapM catalog.toScript)))) := by
  rw [toScript, allToScript_eq]

theorem toScript_dictionary (entries : List (String × NativeValue)) :
    catalog.toScript (.dictionary entries) =
      (do
        let o ← Run.onHeap (·.newObject .plain)
        entries.forM (Makes.putField catalog.toScript o)
        return .object o) := by
  rw [toScript]
  simp only [entriesToScript_eq]

theorem toScript_multimap (entries : List (String × List (Option String))) :
    catalog.toScript (.multimap entries) =
      (do
        let o ← Run.onHeap (·.newObject .plain)
        entries.forM (Makes.putField textsToScript o)
        return .object o) := by
  rw [toScript]
  rfl

end Catalog

end ScriptBoundary
