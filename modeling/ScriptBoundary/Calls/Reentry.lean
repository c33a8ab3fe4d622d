import ScriptBoundary.Store.World

/-!
# Calls within calls

Calls nest: a script function calls a member whose code calls a script function, and so on. What is
said of one level of calls takes the next level as a record of functions, `Reentry`, and the levels
are tied together at one place. Reading and writing properties is said here, over such a record,
since an accessor is a call.
-/

namespace ScriptBoundary

/-- What one level of calls may ask of the next. -/
structure Reentry where
  /-- Calls a script function. -/
  callFunction : FunctionId → ScriptValue → List ScriptValue → Run Error ScriptValue
  /-- Calls a native callable. -/
  invoke : Callable → List NativeValue → Run HostError NativeValue
  /-- Converts a script value to a native type. -/
  toNative : NativeType → ScriptValue → Run Error NativeValue
  /-- How deep script values are followed where no type bounds the depth. -/
  depth : Nat

namespace Reentry

variable (r : Reentry)

/-- Reads a property, running its getter if it is an accessor. -/
def get (o : ObjectId) (key : String) : Run Error ScriptValue := do
  match ← Run.ofHeap (·.lookup? o key) with
  | some (.data value) => return value
  | some (.accessor (some getter) _) => r.callFunction getter (.object o) []
  | some (.accessor none _) | none => return .undefined

/-- Writes a property: an accessor runs its setter, if it has one; any other property is written on
the object itself. -/
def set (o : ObjectId) (key : String) (value : ScriptValue) : Run Error Unit := do
  match ← Run.ofHeap (·.lookup? o key) with
  | some (.accessor _ (some setter)) =>
    let _ ← r.callFunction setter (.object o) [value]
  | some (.accessor _ none) =>
    let className ← Run.ofHeap fun h => (h.object o).className
    throw (.script ("property '" ++ key ++ "' of " ++ className ++ " is read-only"))
  | some (.data _) | none => Run.onHeap fun h => (h.insert o key value, ())

/-- The own properties of an object in order, accessors read. -/
def entries (o : ObjectId) : Run Error (List (String × ScriptValue)) := do
  let keys ← Run.ofHeap (·.ownKeys o)
  keys.mapM fun key => do return (key, ← r.get o key)

/-- Calls the function that an object has under a name, with the object as the receiver. -/
def callMethod (o : ObjectId) (key : String) (args : List ScriptValue) : Run Error ScriptValue := do
  match ← r.get o key with
  | .function f => r.callFunction f (.object o) args
  | other =>
    let className ← Run.ofHeap fun h => (h.object o).className
    throw (.script (className ++ "." ++ key ++ " is not a function (got " ++ other.typeName ++ ")"))

/-- The value of a property of the global object, if the object has it and it can be read. -/
def global? {ε : Type} (name : String) : Run ε (Option ScriptValue) := do
  let globals ← Run.read (·.globals)
  match ← Run.ofHeap (·.own? globals name) with
  | none => return none
  | some _ =>
    match ← (r.get globals name).attempt with
    | .ok value => return some value
    | .error _ => return none

end Reentry

end ScriptBoundary
