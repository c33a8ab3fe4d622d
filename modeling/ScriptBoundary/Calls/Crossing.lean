import ScriptBoundary.Conversion.ToNative

/-!
# Calls from scripts to native code

A script call runs the operations of an adapter: all arguments are converted, then the native code
runs, then its result is checked and converted. Code that fails, fails the call; arguments that do
not convert leave the code alone.
-/

namespace ScriptBoundary

/-- How far the operations of a call have come. -/
structure Progress where
  /-- The native arguments gathered so far. -/
  natives : List NativeValue := []
  result : NativeValue := .null
  out : ScriptValue := .undefined
  /-- The native code has been called. -/
  invoked : Bool := false

namespace Catalog

variable (catalog : Catalog) (r : Reentry)

/-- One operation of a call with these script arguments, to this native code. -/
def runOp (args : List ScriptValue) (native : List NativeValue → Run Error NativeValue)
    (s : Progress) : Op → Run Error Progress
  | .unmarshal place type => do
    let value ← catalog.toNative r type (args.getD place .undefined)
    return { s with natives := s.natives ++ [value] }
  | .collectRest place =>
    return { s with natives := s.natives ++ [.array ((args.drop place).map .script)] }
  | .invoke =>
    if s.invoked then throw (.script "member adapter invokes more than once")
    else do return { s with natives := [], result := ← native s.natives, invoked := true }
  | .marshal type => do return { s with out := ← catalog.toScriptAs type s.result }
  | .discard => return { s with out := .undefined }

/-- Runs the operations of a call in order. -/
def runOps (ops : List Op) (args : List ScriptValue)
    (native : List NativeValue → Run Error NativeValue) : Run Error ScriptValue := do
  return (← ops.foldlM (catalog.runOp r args native) {}).out

/-- The code that a plan reaches on an instance: the bound code, else the most derived code of the
instance's own class. -/
def codeFor (plan : MemberPlan) (target : Instance) : Except Error Implementation :=
  match plan.bound <|> catalog.implementation? target.runtimeClass plan.role plan.member with
  | some i => .ok i
  | none => .error (.resolution
      (.unknownMember (catalog.name target.runtimeClass) plan.member plan.role.category))

/-- The handler argument of an event: nothing, or a callable. -/
def handlerArgument : List NativeValue → Except Error NativeValue
  | [] | .null :: _ => .ok .null
  | .callable c :: _ => .ok (.callable c)
  | other :: _ => .error (.conversion (.typeMismatch "callable" (catalog.kindName other)))

/-- Runs the member of a plan on an instance. Setters and events give nothing back. -/
def runMember (plan : MemberPlan) (target : Instance) (natives : List NativeValue) :
    Run Error NativeValue := do
  let i ← .ofExcept (catalog.codeFor plan target)
  let code (args : List NativeValue) : Run Error NativeValue :=
    (catalog.runImplementation r i target args).mapError (Error.ofHost plan.member)
  match plan.role with
  | .method => code natives
  | .getter => code []
  | .setter => do
    let _ ← code [natives.headD .null]
    return .null
  | .subscribe | .unsubscribe => do
    let _ ← code [← .ofExcept (catalog.handlerArgument natives)]
    return .null

/-- The instance behind the receiver of a member's function. -/
def receiver (plan : MemberPlan) (this : ScriptValue) : Run Error Instance := do
  let target ← match this with
    | .object o => Run.ofHeap fun h => (h.object o).target
    | _ => pure none
  match target with
  | some target => return target
  | none => throw (.script
      (plan.name ++ " called on an incompatible receiver (" ++ this.typeName ++ ")"))

/-- Calls a member's function. -/
def callMember (plan : MemberPlan) (this : ScriptValue) (args : List ScriptValue) :
    Run Error ScriptValue := do
  let target ← receiver plan this
  catalog.runOps r plan.adapter.ops args (catalog.runMember r plan target)

/-- A conversion error on the way of a construction concerns an argument of the constructor. -/
def constructionError (className : String) : Error → Error
  | .conversion cause => .construction (.argument className cause)
  | other => other

/-- Makes an instance by the first constructor that takes so many arguments. -/
def construct (d : Definition) (args : List ScriptValue) : Run Error ScriptValue := do
  let className := catalog.name d.declaration
  match d.constructor? args.length with
  | none => throw (.construction (.noMatchingConstructor className args.length))
  | some plan =>
    (catalog.runOps r plan.adapter.ops args fun natives =>
      ((r.runConstructor d.declaration (catalog.made d.declaration) plan.code natives).mapError
        fun e => .construction (.failed className e)).map .object).mapError
          (constructionError className)

/-- Calls the face of a native callable. -/
def callFace (c : Callable) (args : List ScriptValue) : Run Error ScriptValue :=
  catalog.runOps r (Adapter.ofShape c.shape).ops args fun natives =>
    (r.invoke c natives).mapError (Error.ofHost c.shape.name)

/-- Calls a script function. Generated functions work only as long as the exposer lives. -/
def callFunction (f : FunctionId) (this : ScriptValue) (args : List ScriptValue) :
    Run Error ScriptValue := do
  let function ← Run.ofHeap (·.function f)
  match function.body with
  | .hosted code =>
    Run.record (.function function.name this args)
    (code this args).run r
  | .member plan =>
    Run.requireAlive
    catalog.callMember r plan this args
  | .construct d =>
    Run.requireAlive
    catalog.construct r d args
  | .face c =>
    Run.requireAlive
    catalog.callFace r c args

end Catalog

end ScriptBoundary
