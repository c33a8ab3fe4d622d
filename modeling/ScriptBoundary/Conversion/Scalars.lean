import ScriptBoundary.Classes.Catalog
import ScriptBoundary.Calendar
import ScriptBoundary.Number.Decimal
import ScriptBoundary.Text

/-!
# Script scalars to native

Numbers, dates and texts of scripts as native values. An integer type takes only integers, and only
those in its range; a text is read as a number where one is asked for.
-/

namespace ScriptBoundary

namespace ScriptValue

/-- The number of a script value: that of a number, or the one a text spells between white space.
The error says what was found instead. -/
def toDouble (value : ScriptValue) : Except String (Binary .f64) :=
  match value with
  | string text =>
    match Binary.ofNumeral? .f64 (Text.trim text.toList) with
    | some x => .ok x
    | none => .error ("string " ++ Text.quoted text)
  | other =>
    match other.asNumber with
    | some x => .ok x
    | none => .error other.typeName

end ScriptValue

/-- A double as a word: an integer in range. The range ends at the double nearest to the greatest
word, and what lies past that word then stands for it. -/
def Word.ofDouble? (kind : IntKind) (x : Binary .f64) : Option (Word kind) :=
  x.toInt?.bind fun n =>
    if kind.min ≤ n ∧ n ≤ ((Binary.ofInt .f64 kind.max).toInt?).getD kind.max then
      some (.clamp kind n)
    else none

/-- A double in a floating-point width: a finite number past the greatest of the width is refused,
any other is rounded. -/
def Binary.ofDouble? : (kind : FloatKind) → Binary .f64 → Option (Binary kind)
  | .f64, x => some x
  | .f32, x =>
    match x with
    | .finite _ units _ =>
      if (2 ^ 24 - 1) * 2 ^ 104 * FloatKind.f64.one < units then none else some (x.convert .f32)
    | _ => some (x.convert .f32)

/-- The instant of a script date: whole milliseconds, none where the calendar has no such date. -/
def Instant.ofDate? (millis : Binary .f64) : Option Instant := millis.truncate?.bind ofMillis?

/-- The instant that a date stands for in a text. A date without a number counts as zero, and one
past the reach of sixty-four bits as the nearest there. -/
def Instant.ofDateSaturating? (millis : Binary .f64) : Option Instant :=
  ofMillis? (millis.toWord .i64).val

namespace ScriptValue

/-- The text of a scalar among the texts of a multimap: nothing for an undefined or null value, no
entry at all for what is not a scalar or an impossible date. -/
def scalarText? : ScriptValue → Option (Option String)
  | undefined | null => some none
  | bool b => some (some (if b then "true" else "false"))
  | int n => some (some (toString n.val))
  | uint n => some (some (toString n.val))
  | number x => some (some (Layout.plain.render x))
  | string text => some (some text)
  | date millis => (Instant.ofDateSaturating? millis).map fun t => some (t.text .millis "Z")
  | array _ | object _ | function _ => none

end ScriptValue

namespace Catalog

variable (catalog : Catalog)

/-- The number of a script value where a type asks for one. -/
def doubleFor (type : NativeType) (value : ScriptValue) :
    Except ConversionError (Binary .f64) :=
  match value.toDouble with
  | .ok x => .ok x
  | .error got => .error (catalog.mismatch type got)

/-- A script value as a word. -/
def wordOf (type : NativeType) (kind : IntKind) (value : ScriptValue) :
    Except ConversionError (Word kind) := do
  let x ← catalog.doubleFor type value
  match Word.ofDouble? kind x with
  | some n => return n
  | none => throw (catalog.outOfRange type (Layout.plain.render x))

/-- A script value as a floating-point number. -/
def binaryOf (kind : FloatKind) (value : ScriptValue) :
    Except ConversionError (Binary kind) := do
  let x ← catalog.doubleFor (.float kind) value
  match Binary.ofDouble? kind x with
  | some y => return y
  | none => throw (catalog.outOfRange (.float kind) (Layout.plain.render x))

end Catalog

/-- A script date as an instant. -/
def Instant.ofDate (millis : Binary .f64) : Except ConversionError Instant :=
  match ofDate? millis with
  | some t => .ok t
  | none => .error (.outOfRange "datetime" (Layout.plain.render millis))

/-- The word of an enumeration's integer, if its width holds it. -/
def Enumeration.word (d : Enumeration) (raw : Word .i64) :
    Except ConversionError (Word d.repr.kind) :=
  match Word.ofInt? d.repr.kind raw.val with
  | some n => .ok n
  | none => .error (.outOfRange d.repr.kind.name (toString raw.val))

/-- A script value as a value of an enumeration: of one used as flags its integer, of any other the
name of a value. -/
def Catalog.enumerationOf (catalog : Catalog) (d : Enumeration) (value : ScriptValue) :
    Except ConversionError (Word .i64) :=
  if d.flags then do
    let raw ← catalog.wordOf (.enumeration d) .i64 value
    let _ ← d.word raw
    return raw
  else
    match value with
    | .string name =>
      match d.valueOf name with
      | some raw => .ok raw
      | none => .error (.invalidEnumName d.name name)
    | other => .error (.typeMismatch ("enum " ++ d.name) other.typeName)

end ScriptBoundary
