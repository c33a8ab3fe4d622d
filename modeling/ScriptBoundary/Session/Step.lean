import ScriptBoundary.Store.World

/-!
# Steps and answers

What a host can ask for in one step of a session, and what it gets for an answer. The host code that
a step runs is part of the step.
-/

namespace ScriptBoundary

/-- One step of a session. -/
inductive Step where
  -- evaluation and conversion
  | script (v : ScriptCode)
  | native (v : NativeCode)
  /-- Evaluates code with the values of arguments. -/
  | evaluate (args : List NativeCode) (v : List NativeValue → NativeCode)
  | toScript (v : NativeCode)
  | toNative (type : NativeType) (v : ScriptCode)
  | wrap (type : NativeType) (v : NativeCode)
  | unwrap (type : NativeType) (v : ScriptCode)
  /-- Converts a value to script and back to a type. -/
  | roundTrip (type : NativeType) (v : NativeCode)
  | scriptView (v : ScriptCode)
  | nativeView (v : NativeCode)
  | sameScript (a b : ScriptCode)
  | sameNative (a b : NativeCode)
  | instanceState (v : NativeCode)
  -- resolution and proxies
  | register (c : ClassRef) (descriptors : List Descriptor)
  | members (c : ClassRef)
  | definition (c : ClassRef) (find : Option String)
  | cached (c : ClassRef)
  | counts
  | settings
  | create (v : NativeCode)
  | instantiate (c : ClassRef) (v : NativeCode)
  | exposeInstance (name : String) (v : NativeCode)
  | exposeType (name : String) (c : ClassRef)
  | exposeFunction (name : String) (v : NativeCode)
  | exposeInterface (c : ClassRef)
  | createThrough (factory : String) (v : NativeCode)
  | dispose
  -- script objects, arrays and functions
  | globals
  | global (name : String)
  | setGlobal (name : String) (v : ScriptCode)
  | newHeir (prototype : ScriptCode) (className : String)
  | prototype (o : ScriptCode)
  | get (o : ScriptCode) (key : String)
  | set (o : ScriptCode) (key : String) (v : ScriptCode)
  | insert (o : ScriptCode) (key : String) (v : ScriptCode)
  | define (get set : Option ScriptCode) (o : ScriptCode) (key : String)
  | has (o : ScriptCode) (key : String)
  | own (o : ScriptCode) (key : String)
  | lookup (o : ScriptCode) (key : String)
  | keys (o : ScriptCode)
  | entries (o : ScriptCode)
  | callMethod (o : ScriptCode) (key : String) (args : List ScriptCode)
  | call (this f : ScriptCode) (args : List ScriptCode)
  | push (a v : ScriptCode)
  | item (a : ScriptCode) (place : Nat)
  -- callbacks
  | bind (f : ScriptCode) (shape : Shape)
  | invoke (f : NativeCode) (args : List NativeCode)
  | keepFunction (f : ScriptCode)
  | keptFunction (number : Nat)
  | keptCount

/-- What a step answers. -/
inductive Answer where
  | nothing
  | script (v : ScriptValue)
  | native (v : NativeValue)
  /-- The global object, which is shown but not kept in a variable. -/
  | globals (object : ObjectId)
  | flag (b : Bool)
  | number (n : Nat)
  | property (p : Option Property)
  | keys (keys : List String)
  | entries (entries : List (String × ScriptValue))
  /-- A script value and its diagnostic view. -/
  | scriptView (v : ScriptValue) (text : String)
  /-- A native value and its diagnostic view. -/
  | nativeView (v : NativeValue) (text : String)
  | instanceState (target : Instance) (state : InstanceState)
  | members (members : List ExposedMember)
  /-- A definition and the member asked for. -/
  | definition (d : Definition) (found : Option MemberPlan)
  | counts (definitions builds bindings delegates : Nat)
  | settings (s : Settings)
  | factory (f : Factory)

namespace Answer

/-- The answer as the content of a variable; what is neither a value nor a factory is undefined. -/
def toVariable : Answer → Variable
  | script v => .script v
  | native v => .native v
  | factory f => .factory f
  | _ => .script .undefined

/-- A value that may be missing. -/
def optional : Option ScriptValue → Answer
  | some v => script v
  | none => nothing

end Answer

end ScriptBoundary
