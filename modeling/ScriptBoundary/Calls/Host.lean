import ScriptBoundary.Calls.Reentry

/-!
# Running host code

Answers the requests of host code one after the other. Calls of members, constructors, callables and
functions are recorded when they begin, before their code runs.
-/

namespace ScriptBoundary

/-- The value of a variable on the script side. -/
def Variable.asScript : Variable → ScriptValue
  | script value => value
  | native _ | factory _ => .undefined

/-- The value of a variable on the native side. -/
def Variable.asNative : Variable → NativeValue
  | native value => value
  | script _ | factory _ => .null

namespace Run

variable {ε : Type}

def scriptVariable (name : String) : Run ε ScriptValue :=
  read fun w => ((Keyed.get? name w.named).map Variable.asScript).getD .undefined

def nativeVariable (name : String) : Run ε NativeValue :=
  read fun w => ((Keyed.get? name w.named).map Variable.asNative).getD .null

end Run

/-- Runs script code. -/
def ScriptCode.run (r : Reentry) : ScriptCode → Run Error ScriptValue
  | done result => .ofExcept result
  | newArray items next => do (next (← Run.onHeap (·.newArray items))).run r
  | newObject next => do (next (← Run.onHeap (·.newObject .plain))).run r
  | newFunction name body next => do
    (next (← Run.onHeap (·.newFunction ⟨name, .hosted body⟩))).run r
  | readVariable name next => do (next (← Run.scriptVariable name)).run r
  | readGlobal name next => do (next ((← r.global? name).getD .undefined)).run r
  | define object key property next => do
    Run.onHeap fun h => (h.define object key property, ())
    next.run r
  | get object key next => do (next (← (r.get object key).attempt)).run r
  | set object key value next => do (next (← (r.set object key value).attempt)).run r
  | callMethod object key args next => do
    (next (← (r.callMethod object key args).attempt)).run r
  | call function this args next => do
    (next (← (r.callFunction function this args).attempt)).run r

/-- Runs native code. -/
def NativeCode.run (r : Reentry) : NativeCode → Run HostError NativeValue
  | done result => .ofExcept result
  | script code next => do (next (← (code.run r).attempt)).run r
  | readVariable name next => do (next (← Run.nativeVariable name)).run r
  | newCallable shape body next => do (next (← Run.newCallable shape (.hosted body))).run r
  | newInstance runtimeClass next => do (next (← Run.newInstance runtimeClass)).run r
  | field target name next => do
    (next (← Run.read fun w => Keyed.get? name (w.instanceState target).fields)).run r
  | setField target name value next => do
    Run.change (·.updateInstance target fun s => { s with fields := Keyed.put name value s.fields })
    next.run r
  | handlers target next => do
    (next (← Run.read fun w => (w.instanceState target).handlers)).run r
  | setHandlers target kept next => do
    Run.change (·.updateInstance target fun s => { s with handlers := kept })
    next.run r
  | invoke callable args next => do (next (← (r.invoke callable args).attempt)).run r

namespace Reentry

variable (r : Reentry)

/-- Makes an instance of the class that is made, by a constructor of a class. The instance counts as
made only when the constructor's code succeeds. -/
def runConstructor (c made : ClassRef) (code : MemberCode) (args : List NativeValue) :
    Run HostError Instance := do
  Run.record (.constructor c args)
  let target ← Run.newInstance made
  let _ ← (code target args).run r
  return target

end Reentry

namespace Catalog

variable (catalog : Catalog) (r : Reentry)

/-- Runs the code of a member on an instance. Code does not accept instances that are neither of its
class nor project to it. -/
def runImplementation (i : Implementation) (target : Instance) (args : List NativeValue) :
    Run HostError NativeValue := do
  if catalog.receives i.owner target.runtimeClass then
    Run.record (.member i.owner i.member i.role target args)
    (i.code target args).run r
  else
    throw (.foreign ("receiver is not an instance of " ++ catalog.name i.owner))

end Catalog

end ScriptBoundary
