import ScriptBoundary.Calls.Crossing

/-!
# Calls from native code to scripts

A native callable runs code of its own or calls the script function that it wraps. In the second
case each argument with a declared type is converted by its value; the values collected for a last
parameter that takes all that remain must be script values, and are spread out again.
-/

namespace ScriptBoundary

namespace Catalog

variable (catalog : Catalog) (r : Reentry)

/-- The script values that a collected argument holds. -/
def spread : Option NativeValue → Except ConversionError (List ScriptValue)
  | none | some .null => .ok []
  | some (.array items) => items.mapM fun
    | .script value => .ok value
    | other => .error (.typeMismatch "script value" (catalog.kindName other))
  | some other => .error (.typeMismatch "array" (catalog.kindName other))

/-- The script arguments of a callback. Arguments beyond the parameters are dropped. -/
def callbackArguments : List Param → List NativeValue → Run Error (List ScriptValue)
  | [], _ => return []
  | .fixed _ _ :: params, args => do
    let value ← match args.head? with
      | some value => catalog.toScript value
      | none => pure .undefined
    return value :: (← callbackArguments params args.tail)
  | .rest _ :: params, args => do
    let values ← .ofConversion (catalog.spread args.head?)
    return values ++ (← callbackArguments params args.tail)

/-- Calls the script function registered under a number. -/
def callDelegate (shape : Shape) (number : Nat) (args : List NativeValue) :
    Run Error NativeValue := do
  Run.requireAlive
  match ← Run.read fun w => w.exposer.delegates.get? number with
  | none => throw (.script ("delegate " ++ toString number ++ " is not registered"))
  | some f =>
    let values ← catalog.callbackArguments shape.params args
    let result ← r.callFunction f .undefined values
    if shape.result.isVoid then return .null else catalog.toNative r shape.result result

/-- Calls a native callable. -/
def invoke (c : Callable) (args : List NativeValue) : Run HostError NativeValue := do
  match ← Run.read fun w => w.callables.getD c.number default with
  | .hosted code =>
    Run.record (.callable c.shape.name args)
    (code args).run r
  | .delegate number => (catalog.callDelegate r c.shape number args).mapError .boundary

/-- The levels of calls tied together: each level may nest so many more. -/
def reentry : Nat → Reentry
  | 0 => ⟨fun _ _ _ => .exhausted, fun _ _ => .exhausted, fun _ _ => .exhausted, 0⟩
  | n + 1 =>
    { callFunction := fun f this args => catalog.callFunction (reentry n) f this args
      invoke := fun c args => catalog.invoke (reentry n) c args
      toNative := fun type value => catalog.toNative (reentry n) type value
      depth := n + 1 }

end Catalog

end ScriptBoundary
