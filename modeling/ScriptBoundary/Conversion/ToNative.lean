import ScriptBoundary.Calls.Host
import ScriptBoundary.Conversion.JsonText
import ScriptBoundary.Conversion.ToScript

/-!
# Script values to native

What a script value becomes on the native side is decided by the type that native code asks for. A
value left out takes the default of the type. A plain object becomes an instance of a class by its
constructor without arguments and its exposed setters; where nothing is asked for, each value
becomes what is closest to it.

A script function becomes a native callable. Each pair of a shape and a function has one such
wrapper, made when the pair first comes up, so that native code can recognise a callback that it was
given before. A function that is itself the face of a callable of the same shape stands for that
callable.
-/

namespace ScriptBoundary

namespace Reentry

variable (r : Reentry)

/-- The texts under the keys of an object. An array gives one text for each of its scalars, and a
key with neither a scalar nor an array is left out. -/
def textEntries (o : ObjectId) : Run Error (List (String × List (Option String))) := do
  let entries ← r.entries o
  let texts ← entries.mapM fun (key, value) => do
    match value with
    | .array a =>
      let items ← Run.ofHeap (·.items a)
      return some (key, items.filterMap ScriptValue.scalarText?)
    | other => return other.scalarText?.map fun text => (key, [text])
  return texts.filterMap id

/-- What a plain object has for a property: the value under the exposed name, else the one under the
member's own name. -/
def plainValue (o : ObjectId) (p : FillableProperty) : Run Error ScriptValue := do
  let value ← r.get o p.name
  if value = .undefined && p.name != p.member then r.get o p.member else return value

end Reentry

namespace Catalog

section Callbacks

variable (catalog : Catalog) {ε : Type}

/-- The wrapper that a script function has for a shape, or a new one. -/
def bind (f : FunctionId) (shape : Shape) : Run ε Callable := do
  let bindings ← Run.read (·.exposer.bindings)
  match bindings.find? fun b => b.shape.same catalog.identity shape && b.function == f with
  | some b => return b.wrapper
  | none =>
    let (delegates, number) ← Run.read fun w => w.exposer.delegates.add f
    let wrapper ← Run.newCallable shape (.delegate number)
    Run.onExposer fun e => { e with delegates, bindings := e.bindings ++ [⟨shape, f, wrapper⟩] }
    return wrapper

/-- The native callable that a script function is for a shape. -/
def callableFor (f : FunctionId) (shape : Shape) : Run ε Callable := do
  match (← Run.ofHeap (·.function f)).callable? with
  | some c => if c.shape.same catalog.identity shape then return c else catalog.bind f shape
  | none => catalog.bind f shape

end Callbacks

variable (catalog : Catalog) (r : Reentry)

/-- A script value where no type is asked for. The number bounds the depth. -/
def anyToNative : Nat → ScriptValue → Run Error NativeValue
  | 0, _ => .exhausted
  | n + 1, value => do
    match value with
    | .undefined | .null => return .null
    | .bool b => return .bool b
    | .int i => return .int .i32 i
    | .uint u => return .int .u32 u
    | .number x => return .float .f64 x
    | .string text => return .string text
    | .date millis => return .datetime (← .ofConversion (Instant.ofDate millis))
    | .array a => return .array (← (← Run.ofHeap (·.items a)).mapM (anyToNative n))
    | .object o =>
      match (← Run.ofHeap (·.object o)).target with
      | some target => return .object target
      | none =>
        let entries ← r.entries o
        return .dictionary (← entries.mapM fun (key, item) => do
          return (key, ← anyToNative n item))
    | .function f => return .callable (← catalog.callableFor f .undeclared)

/-- Fills a property of a new instance from a plain object: with what the object has, else with the
declared default, else not at all. -/
def fill (o : ObjectId) (target : Instance) (p : FillableProperty) : Run Error Unit := do
  let given ← r.plainValue o p
  let value ←
    if given = .undefined then pure p.default else some <$> r.toNative p.type given
  match value with
  | none => return ()
  | some value =>
    let _ ← (catalog.runImplementation r p.setter target [value]).mapError (Error.ofHost p.member)

/-- A new instance of a class from a plain object. -/
def constructFromPlain (o : ObjectId) (c : ClassRef) : Run Error NativeValue := do
  if catalog.isInterface c then
    throw (.conversion (.typeMismatch (catalog.name c) "plain object"))
  match catalog.constructorFor c 0 with
  | none => throw (.construction (.noDefaultConstructor (catalog.name c)))
  | some k =>
    let target ← (r.runConstructor c (catalog.made c) k.code []).mapError fun e =>
      .construction (.failed (catalog.name c) e)
    let members ← catalog.resolve target.runtimeClass
    (catalog.fillables target.runtimeClass members).forM (catalog.fill r o target)
    return .object target

/-- A script object as an instance of a class: a proxy gives the instance behind it, if that is one
of the class. -/
def objectToNative (o : ObjectId) (c : ClassRef) : Run Error NativeValue := do
  match (← Run.ofHeap (·.object o)).target with
  | some target =>
    if catalog.isAssignable target.runtimeClass c then return .object target
    else throw (.conversion (.typeMismatch (catalog.name c) (catalog.name target.runtimeClass)))
  | none => catalog.constructFromPlain r o c

/-- A script value as a value of a native type. -/
def toNative (type : NativeType) (value : ScriptValue) : Run Error NativeValue :=
  if value.isNullish then return type.default
  else
    match type, value with
    | .void, _ => return .null
    | .bool, .bool b => return .bool b
    | .int kind, _ => do
      return .int kind (← .ofConversion (catalog.wordOf (.int kind) kind value))
    | .float kind, _ => do return .float kind (← .ofConversion (catalog.binaryOf kind value))
    | .char, .string text => return .char (text.toList.headD '\x00')
    | .datetime, .date millis => do
      return .datetime (← .ofConversion (Instant.ofDate millis))
    | .string, .string text => return .string text
    | .enumeration d, _ => do
      return .enumeration d (← .ofConversion (catalog.enumerationOf d value))
    | .array element, .array a => do
      return .array (← (← Run.ofHeap (·.items a)).mapM (toNative element))
    | .sequence element, _ =>
      throw (.conversion (.oneWay (catalog.typeText (.sequence element))))
    | .dictionary element, .object o => do
      let entries ← r.entries o
      return .dictionary (← entries.mapM fun entry => do
        return (entry.1, ← toNative element entry.2))
    | .multimap, .object o => do return .multimap (← r.textEntries o)
    | .callable shape, .function f => do return .callable (← catalog.callableFor f shape)
    | .json, _ => do return .json (← r.jsonText value)
    | .object c, .object o => catalog.objectToNative r o c
    | .any, _ => catalog.anyToNative r r.depth value
    | type, value => throw (.conversion (catalog.mismatch type value.typeName))

end Catalog

end ScriptBoundary
