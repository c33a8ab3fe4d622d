import ScriptBoundary.Exposing
import ScriptBoundary.Session.Step
import ScriptBoundary.Views.Diagnostic

/-!
# Sessions

A session is a sequence of steps of a host: it evaluates code, converts values, exposes instances
and types, and works with script objects, all against one exposer. Each step starts from the state
that the step before it left, whether that succeeded or not, and answers with a value, a view or an
error. What host code a step runs is given as code, so a session is any program of the boundary.
-/

namespace ScriptBoundary

namespace Run

/-- A computation whose error counts as one that host code passed on. -/
def lift {α : Type} (x : Run Error α) : Run HostError α := x.mapError .boundary

end Run

namespace Step

variable (catalog : Catalog) (r : Reentry)

/-- The value of script code. -/
def evalScript (v : ScriptCode) : Run HostError ScriptValue := (v.run r).lift

/-- The place of the object that script code gives. -/
def evalObject (v : ScriptCode) : Run HostError ObjectId := do
  match ← evalScript r v with
  | .object o => return o
  | other => throw (.boundary (.script ("not an object: " ++ other.typeName)))

/-- The place of the function that script code gives. -/
def evalFunction (v : ScriptCode) : Run HostError FunctionId := do
  match ← evalScript r v with
  | .function f => return f
  | other => throw (.boundary (.script ("not a function: " ++ other.typeName)))

/-- The place of the array that script code gives. -/
def evalArray (v : ScriptCode) : Run HostError ArrayId := do
  match ← evalScript r v with
  | .array a => return a
  | other => throw (.boundary (.script ("not an array: " ++ other.typeName)))

/-- The place of the function that script code gives, if there is code. -/
def evalAccessor : Option ScriptCode → Run HostError (Option FunctionId)
  | none => return none
  | some v => some <$> evalFunction r v

/-- The instance that native code gives. -/
def evalInstance (v : NativeCode) : Run HostError Instance := do
  match ← v.run r with
  | .object target => return target
  | other => throw (.foreign ("not an instance: " ++ catalog.kindName other))

/-- The callable that native code gives. -/
def evalCallable (v : NativeCode) : Run HostError Callable := do
  match ← v.run r with
  | .callable c => return c
  | other => throw (.foreign ("not callable: " ++ catalog.kindName other))

/-- The factory that a variable holds. -/
def findFactory (name : String) : Run HostError Factory := do
  match ← Run.read fun w => Keyed.get? name w.named with
  | some (.factory f) => return f
  | _ => throw (.foreign "not a factory")

/-- Runs a step that uses the exposer, which must be alive. -/
def withExposer (x : Run HostError Answer) : Run HostError Answer := do
  Run.requireAlive.lift
  x

/-- The exposer's counts. -/
def countsOf (e : Exposer) : Answer :=
  .counts e.definitions.length e.builds e.bindings.length e.delegates.size

/-- A value that is computed with bounded depth. -/
def orExhausted {α : Type} : Option α → Run HostError α
  | some a => return a
  | none => .exhausted

/-- Performs a step. -/
def perform : Step → Run HostError Answer
  | script v => .script <$> evalScript r v
  | native v => .native <$> v.run r
  | evaluate args v => do
    let args ← args.mapM (·.run r)
    return .native (← (v args).run r)
  | toScript v => withExposer do
    let v ← v.run r
    return .script (← (catalog.toScript v).lift)
  | toNative type v | unwrap type v => withExposer do
    let v ← evalScript r v
    return .native (← (catalog.toNative r type v).lift)
  | wrap type v => withExposer do
    let v ← v.run r
    return .script (← (catalog.wrap type v).lift)
  | roundTrip type v => withExposer do
    let v ← v.run r
    let crossed ← (catalog.toScript v).lift
    return .native (← (catalog.toNative r type crossed).lift)
  | scriptView v => do
    let v ← evalScript r v
    return .scriptView v (← orExhausted ((← Run.ofHeap (·.describe r.depth v))))
  | nativeView v => do
    let v ← v.run r
    return .nativeView v (← orExhausted (← Run.ofHeap fun h => catalog.describe h r.depth v))
  | sameScript a b => do return .flag ((← evalScript r a).same (← evalScript r b))
  | sameNative a b => do return .flag ((← a.run r).same (← b.run r))
  | instanceState v => do
    let target ← evalInstance catalog r v
    return .instanceState target (← Run.read (·.instanceState target))
  | register c descriptors => withExposer do
    return .flag (← catalog.registerDescriptors c descriptors)
  | members c => withExposer do return .members (← (catalog.resolve c).lift)
  | definition c find => withExposer do
    let d ← (catalog.definitionOf c).lift
    return .definition d (find.bind d.member?)
  | cached c => withExposer do return .flag (← catalog.kept? c).isSome
  | counts => withExposer do return countsOf (← Run.read (·.exposer))
  | settings => withExposer do return .settings (← Run.read (·.exposer.settings))
  | create v => withExposer do
    let target ← evalInstance catalog r v
    return .script (← (catalog.wrapInstance target).lift)
  | instantiate c v => withExposer do
    let target ← evalInstance catalog r v
    let d ← (catalog.definitionOf c).lift
    return .script (← Catalog.instantiate d target)
  | exposeInstance name v => withExposer do
    let target ← evalInstance catalog r v
    (catalog.exposeInstance name target).lift
    return .nothing
  | exposeType name c => withExposer do
    (catalog.exposeType name c).lift
    return .nothing
  | exposeFunction name v => withExposer do
    let c ← evalCallable catalog r v
    (catalog.exposeFunction name c).lift
    return .nothing
  | exposeInterface c => withExposer do return .factory (← (catalog.exposeInterface c).lift)
  | createThrough factory v => do
    let factory ← findFactory factory
    let target ← evalInstance catalog r v
    return .script (← (catalog.createThrough factory target).lift)
  | dispose => do
    Run.onExposer fun e => { e with alive := false }
    return .nothing
  | globals => do return .globals (← Run.read (·.globals))
  | global name => .optional <$> r.global? name
  | setGlobal name v => do
    Run.publish name (← evalScript r v)
    return .nothing
  | newHeir parent className => do
    let parent ← evalObject r parent
    return .script (.object (← Run.onHeap (·.newHeir parent className)))
  | prototype o => do
    let o ← evalObject r o
    return .optional (← Run.ofHeap fun h => (h.object o).prototypes.head?.map .object)
  | get o key => do
    let o ← evalObject r o
    return .script (← (r.get o key).lift)
  | set o key v => do
    let o ← evalObject r o
    let v ← evalScript r v
    (r.set o key v).lift
    return .nothing
  | insert o key v => do
    let o ← evalObject r o
    let v ← evalScript r v
    Run.onHeap fun h => (h.insert o key v, ())
    return .nothing
  | define getter setter o key => do
    let getter ← evalAccessor r getter
    let setter ← evalAccessor r setter
    let o ← evalObject r o
    Run.onHeap fun h => (h.define o key (.accessor getter setter), ())
    return .nothing
  | has o key => do
    let o ← evalObject r o
    return .flag (← Run.ofHeap (·.lookup? o key)).isSome
  | own o key => do
    let o ← evalObject r o
    return .property (← Run.ofHeap (·.own? o key))
  | lookup o key => do
    let o ← evalObject r o
    return .property (← Run.ofHeap (·.lookup? o key))
  | keys o => do
    let o ← evalObject r o
    return .keys (← Run.ofHeap (·.ownKeys o))
  | entries o => do
    let o ← evalObject r o
    return .entries (← (r.entries o).lift)
  | callMethod o key args => do
    let o ← evalObject r o
    let args ← args.mapM (evalScript r)
    return .script (← (r.callMethod o key args).lift)
  | call this f args => do
    let this ← evalScript r this
    let f ← evalFunction r f
    let args ← args.mapM (evalScript r)
    return .script (← (r.callFunction f this args).lift)
  | push a v => do
    let a ← evalArray r a
    let v ← evalScript r v
    Run.onHeap fun h => (h.push a v, ())
    return .nothing
  | item a place => do
    let a ← evalArray r a
    return .optional (← Run.ofHeap fun h => (h.items a)[place]?)
  | bind f shape => withExposer do
    let f ← evalFunction r f
    return .native (.callable (← catalog.bind f shape))
  | invoke f args => do
    let c ← evalCallable catalog r f
    let args ← args.mapM (·.run r)
    return .native (← r.invoke c args)
  | keepFunction f => do
    let f ← evalFunction r f
    let (kept, number) ← Run.read (·.register.add f)
    Run.change fun w => { w with register := kept }
    return .number number
  | keptFunction number => .optional <$> Run.read fun w =>
    (w.register.get? number).map ScriptValue.function
  | keptCount => do return .number (← Run.read (·.register.size))

end Step

/-- The state of a program that has done nothing yet: there is one object, the global one. -/
def World.start (settings : Settings) : World :=
  { heap := { objects := #[.plain] }, exposer := { settings } }

namespace Session

variable (catalog : Catalog) (allowance : Nat)

/-- Performs a step and binds its answer to a variable, if one is named. A step that fails binds
nothing. -/
def perform (variableName : Option String) (step : Step) : Run HostError Answer := do
  let answer ← step.perform catalog (catalog.reentry allowance)
  match variableName with
  | none => return answer
  | some name =>
    Run.change fun w => { w with named := Keyed.put name answer.toVariable w.named }
    return answer

/-- What came of one step: its outcome, the calls that reached host code, and the state after it. -/
structure Report where
  outcome : Except HostError Answer
  calls : List JournalEntry
  world : World

/-- Performs a step on a state, with an empty journal. -/
def report (variableName : Option String) (step : Step) (w : World) : Option Report := do
  let (outcome, w) ← perform catalog allowance variableName step { w with journal := [] }
  return ⟨outcome, w.journal, w⟩

end Session

end ScriptBoundary
