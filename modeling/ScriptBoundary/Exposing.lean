import ScriptBoundary.Calls.Delegate

/-!
# Exposing

What a host does with an exposer: it opens members of classes, publishes instances, types and
functions under global names, wraps instances through an interface, and converts values both ways.
-/

namespace ScriptBoundary

namespace Exposer

/-- Opens members of a type from outside its declaration. Only the first registration for a type
counts; the answer says whether this was it. -/
def register (e : Exposer) (type : TypeId) (descriptors : List Descriptor) : Exposer × Bool :=
  if (Keyed.get? type e.registrations).isSome then (e, false)
  else ({ e with registrations := e.registrations ++ [(type, descriptors)] }, true)

end Exposer

/-- Publishes a value under a global name. -/
def Run.publish {ε : Type} (name : String) (value : ScriptValue) : Run ε Unit :=
  Run.change fun w => { w with heap := w.heap.insert w.globals name value }

namespace Catalog

variable (catalog : Catalog)

/-- Opens members of a class from outside its declaration. -/
def registerDescriptors {ε : Type} (c : ClassRef) (descriptors : List Descriptor) : Run ε Bool :=
  fun w =>
    let (exposer, isFirst) := w.exposer.register (catalog.identity c) descriptors
    some (.ok isFirst, { w with exposer })

/-- Publishes a proxy of an instance. -/
def exposeInstance (name : String) (target : Instance) : Run Error Unit := do
  Run.publish name (← catalog.wrapInstance target)

/-- Publishes a function that makes instances of a class. -/
def exposeType (name : String) (c : ClassRef) : Run Error Unit := do
  if catalog.isInterface c then throw (.resolution (.notAClass (catalog.name c)))
  let d ← catalog.definitionOf c
  let f ← Run.onHeap (·.newFunction ⟨catalog.name c, .construct d⟩)
  Run.publish name (.function f)

/-- A factory that wraps instances through the members of an interface only. -/
def exposeInterface (c : ClassRef) : Run Error Factory := do
  if !catalog.isInterface c then throw (.resolution (.notAnInterface (catalog.name c)))
  return ⟨c, ← catalog.definitionOf c⟩

/-- Publishes a native callable as a function. -/
def exposeFunction (name : String) (c : Callable) : Run Error Unit := do
  .ofConversion (catalog.shapeSupported c.shape)
  Run.publish name (.function (← faceOf c))

/-- A proxy of an instance by a definition that is at hand. -/
def instantiate {ε : Type} (d : Definition) (target : Instance) : Run ε ScriptValue := do
  return .object (← Run.onHeap (·.newProxy d target))

/-- A proxy of an instance through the interface of a factory. -/
def createThrough (factory : Factory) (target : Instance) : Run Error ScriptValue := do
  Run.requireAlive
  if catalog.isAssignable target.runtimeClass factory.interface then
    instantiate factory.definition target
  else
    throw (.conversion
      (.typeMismatch (catalog.name factory.interface) (catalog.name target.runtimeClass)))

/-- Converts a value for scripts as a value of a type, which must have a script kind. -/
def wrap (type : NativeType) (value : NativeValue) : Run Error ScriptValue := do
  let _ ← .ofConversion (catalog.scriptKind type)
  catalog.toScriptAs type value

end Catalog

end ScriptBoundary
