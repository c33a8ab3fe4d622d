import ScriptBoundary.Classes.Catalog
import ScriptBoundary.Number.Decimal

/-!
# Results against their declared type

Host code may hand back any value; before it crosses to a script it must fit the type its member
declares. A number is re-expressed in the declared width when nothing is lost by it, an integer
becomes a value of a declared enumeration, an array may stand for a sequence, and all else has to be
of the declared type already.
-/

namespace ScriptBoundary

/-- A number of any width, as a number. -/
inductive Numeric where
  | integer (n : Int)
  | real (x : Binary .f64)

namespace Numeric

/-- The number that a native value is. -/
def of? : NativeValue → Option Numeric
  | .int _ n => some (.integer n.val)
  | .float _ x => some (.real (x.convert .f64))
  | _ => none

/-- The integer that a number denotes. -/
def toInt? : Numeric → Option Int
  | integer n => some n
  | real x => x.toInt?

/-- The double that denotes the same number. -/
def toDouble? : Numeric → Option (Binary .f64)
  | integer n =>
    let x := Binary.ofInt .f64 n
    if x.toInt? = some n then some x else none
  | real x => some x

def text : Numeric → String
  | integer n => toString n
  | real x => Layout.plain.render x

/-- The same number in another integer width. -/
def toWord? (kind : IntKind) (n : Numeric) : Option (Word kind) := n.toInt?.bind (Word.ofInt? kind)

/-- The same number in another floating-point width. -/
def toBinary? : (kind : FloatKind) → Numeric → Option (Binary kind)
  | .f64, n => n.toDouble?
  | .f32, n => n.toDouble?.bind fun wide =>
    let narrow := wide.convert .f32
    if wide.isNaN || (narrow.convert .f64).numEq wide then some narrow else none

end Numeric

namespace Catalog

variable (catalog : Catalog)

/-- Re-expresses the number of a value, by a function that answers when the type holds it. -/
def conformNumber (type : NativeType) (value : NativeValue)
    (express : Numeric → Option NativeValue) : Except ConversionError NativeValue :=
  match Numeric.of? value with
  | none => .error (catalog.mismatch type (catalog.kindName value))
  | some n =>
    match express n with
    | none => .error (catalog.outOfRange type n.text)
    | some v => .ok v

/-- A native value as a value of a declared type. -/
def conform (type : NativeType) (value : NativeValue) : Except ConversionError NativeValue :=
  if value.isNull && type.default.isNull then .ok .null
  else
    match type, value with
    | .void, _ | .any, _ => .ok value
    | .bool, .bool _ | .char, .char _ | .datetime, .datetime _ | .string, .string _
    | .multimap, .multimap _ | .json, .json _ | .callable _, .callable _ => .ok value
    | .int kind, _ =>
      catalog.conformNumber (.int kind) value fun n => (n.toWord? kind).map (.int kind)
    | .float kind, _ =>
      catalog.conformNumber (.float kind) value fun n => (n.toBinary? kind).map (.float kind)
    | .enumeration d, .enumeration actual raw =>
      if actual.name = d.name then .ok (.enumeration d raw)
      else .error (catalog.mismatch (.enumeration d) (catalog.kindName value))
    | .enumeration d, _ =>
      catalog.conformNumber (.enumeration d) value fun n =>
        (n.toWord? .i64).map (.enumeration d)
    | .array element, .array items => (items.mapM (conform element)).map .array
    | .sequence element, .sequence items | .sequence element, .array items =>
      (items.mapM (conform element)).map .sequence
    | .dictionary element, .dictionary entries =>
      (entries.mapM fun entry => (conform element entry.2).map (entry.1, ·)).map .dictionary
    | .object c, .object target =>
      if catalog.isAssignable target.runtimeClass c then .ok value
      else .error (catalog.mismatch (.object c) (catalog.kindName value))
    | type, value => .error (catalog.mismatch type (catalog.kindName value))

end Catalog

end ScriptBoundary
