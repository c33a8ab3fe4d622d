import ScriptBoundary.Adapter.Build
import ScriptBoundary.Conversion.Declared
import ScriptBoundary.Conversion.Scalars
import ScriptBoundary.Json.Reader

/-!
# Native values to scripts

What a native value becomes on the script side is decided by the value alone. Collections become
fresh arrays and plain objects, an instance becomes a proxy of its own class, a callable a function.
No host code runs on the way.
-/

namespace ScriptBoundary

/-- A word as a script number: what thirty-two bits hold stays an integer. -/
def Word.toScript {kind : IntKind} (n : Word kind) : ScriptValue :=
  match kind.scriptKind with
  | .integer => .int (.clamp .i32 n.val)
  | .unsigned => .uint (.clamp .u32 n.val)
  | _ => .number (.ofInt .f64 n.val)

/-- An instant as a script date; the start of the calendar is no date. -/
def Instant.toScript (t : Instant) : ScriptValue :=
  if t = earliest then .undefined else .date (.ofInt .f64 t.millis)

/-- A value of an enumeration: of one used as flags its integer, of any other its name. -/
def Enumeration.toScript (d : Enumeration) (raw : Word .i64) : Except ConversionError ScriptValue :=
  if d.flags then (d.word raw).map Word.toScript
  else
    match d.nameOf raw with
    | some name => .ok (.string name)
    | none => .error (.invalidEnumValue d.name raw.val)

/-- A JSON number: an integer where thirty-two bits hold it. -/
def JsonNumber.toScript : JsonNumber → ScriptValue
  | integer n =>
    match Word.ofInt? .i32 n with
    | some n => .int n
    | none => .number (.ofInt .f64 n)
  | real x => .number x

mutual

/-- A JSON tree as a script value made of fresh arrays and plain objects. -/
def Json.toScript : Json → Run Error ScriptValue
  | .null => return .null
  | .bool b => return .bool b
  | .number n => return n.toScript
  | .string text => return .string text
  | .array items => do return .array (← Run.onHeap (·.newArray (← itemsToScript items)))
  | .object fields => do
    let o ← Run.onHeap (·.newObject .plain)
    fieldsToScript o fields
    return .object o

/-- The items of a JSON array. -/
def itemsToScript : List Json → Run Error (List ScriptValue)
  | [] => return []
  | item :: rest => do return (← item.toScript) :: (← itemsToScript rest)

/-- Puts the fields of a JSON object on a script object. -/
def fieldsToScript (o : ObjectId) : List (String × Json) → Run Error Unit
  | [] => return ()
  | (key, value) :: rest => do
    let value ← value.toScript
    Run.onHeap fun h => (h.insert o key value, ())
    fieldsToScript o rest

end

/-- JSON text as a script value. -/
def jsonTextToScript (text : String) : Run Error ScriptValue :=
  match Json.parse text with
  | .ok tree => tree.toScript
  | .error place =>
    throw (.conversion (.json ("malformed text at line " ++ toString place.line ++ " column " ++
      toString place.column)))

/-- The texts under one key of a multimap: a single one stands alone, others in an array. -/
def textsToScript (texts : List (Option String)) : Run Error ScriptValue :=
  let one : Option String → ScriptValue := fun text => (text.map ScriptValue.string).getD .null
  match texts with
  | [text] => return one text
  | texts => do return .array (← Run.onHeap (·.newArray (texts.map one)))

/-- A callable as a new script function. -/
def faceOf {ε : Type} (c : Callable) : Run ε FunctionId :=
  Run.onHeap (·.newFunction ⟨c.shape.name, .face c⟩)

namespace Catalog

variable (catalog : Catalog)

mutual

/-- A native value as a script value. -/
def toScript : NativeValue → Run Error ScriptValue
  | .null => return .undefined
  | .bool b => return .bool b
  | .int _ n => return n.toScript
  | .float _ x => return .number (x.convert .f64)
  | .char c => return .string (String.singleton c)
  | .datetime t => return t.toScript
  | .string text => return .string text
  | .enumeration d raw => .ofConversion (d.toScript raw)
  | .array items | .sequence items => do
    return .array (← Run.onHeap (·.newArray (← allToScript items)))
  | .dictionary entries => do
    let o ← Run.onHeap (·.newObject .plain)
    entriesToScript o entries
    return .object o
  | .multimap entries => do
    let o ← Run.onHeap (·.newObject .plain)
    entries.forM fun (key, texts) => do
      let value ← textsToScript texts
      Run.onHeap fun h => (h.insert o key value, ())
    return .object o
  | .callable c => return .function (← faceOf c)
  | .json text => jsonTextToScript text
  | .object target => catalog.wrapInstance target
  | .script value => return value

/-- The items of a native collection. -/
def allToScript : List NativeValue → Run Error (List ScriptValue)
  | [] => return []
  | item :: rest => do return (← toScript item) :: (← allToScript rest)

/-- Puts the entries of a dictionary on a script object. -/
def entriesToScript (o : ObjectId) : List (String × NativeValue) → Run Error Unit
  | [] => return ()
  | (key, value) :: rest => do
    let value ← toScript value
    Run.onHeap fun h => (h.insert o key value, ())
    entriesToScript o rest

end

/-- A native result as a script value, checked against its declared type. -/
def toScriptAs (type : NativeType) (value : NativeValue) : Run Error ScriptValue := do
  catalog.toScript (← .ofConversion (catalog.conform type value))

end Catalog

end ScriptBoundary
