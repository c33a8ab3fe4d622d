import ScriptBoundary.Error
import ScriptBoundary.Values.Native

/-!
# Host code

What a script function or a native member does is up to whoever wrote it. Here such code is a tree
of requests: every node asks for one thing (make an object, read a property, call a function) and
says how to go on for each answer, until the code is done. A request that can fail hands its failure
to the code, which may pass it on or not. So a statement about all trees is a statement about all
host code, and code can reach the rest of the program only through these requests.
-/

namespace ScriptBoundary

/-- What script code does. -/
inductive ScriptCode where
  | done (result : Except Error ScriptValue)
  /-- Makes an array. -/
  | newArray (items : List ScriptValue) (next : ArrayId → ScriptCode)
  /-- Makes a plain object without properties. -/
  | newObject (next : ObjectId → ScriptCode)
  /-- Makes a function from its name and from what it does with a receiver and arguments. -/
  | newFunction (name : String) (body : ScriptValue → List ScriptValue → ScriptCode)
      (next : FunctionId → ScriptCode)
  /-- Reads a variable of the session. -/
  | readVariable (name : String) (next : ScriptValue → ScriptCode)
  /-- Reads a property of the global object; undefined when it cannot be read. -/
  | readGlobal (name : String) (next : ScriptValue → ScriptCode)
  /-- Defines or replaces an own property of an object. -/
  | define (object : ObjectId) (key : String) (property : Property) (next : ScriptCode)
  /-- Reads a property of an object. -/
  | get (object : ObjectId) (key : String) (next : Except Error ScriptValue → ScriptCode)
  /-- Writes a property of an object. -/
  | set (object : ObjectId) (key : String) (value : ScriptValue)
      (next : Except Error Unit → ScriptCode)
  /-- Calls the function that an object has under a name. -/
  | callMethod (object : ObjectId) (key : String) (args : List ScriptValue)
      (next : Except Error ScriptValue → ScriptCode)
  /-- Calls a function. -/
  | call (function : FunctionId) (this : ScriptValue) (args : List ScriptValue)
      (next : Except Error ScriptValue → ScriptCode)

/-- What native code does. -/
inductive NativeCode where
  | done (result : Except HostError NativeValue)
  /-- Runs script code. -/
  | script (code : ScriptCode) (next : Except Error ScriptValue → NativeCode)
  /-- Reads a variable of the session. -/
  | readVariable (name : String) (next : NativeValue → NativeCode)
  /-- Makes a callable from its shape and from what it does with its arguments. -/
  | newCallable (shape : Shape) (body : List NativeValue → NativeCode)
      (next : Callable → NativeCode)
  /-- Makes an instance without fields or handlers, running no constructor. -/
  | newInstance (runtimeClass : ClassRef) (next : Instance → NativeCode)
  /-- Reads a field of an instance. -/
  | field (target : Instance) (name : String) (next : Option NativeValue → NativeCode)
  /-- Writes a field of an instance. -/
  | setField (target : Instance) (name : String) (value : NativeValue) (next : NativeCode)
  /-- The handlers that an instance keeps. -/
  | handlers (target : Instance) (next : List Callable → NativeCode)
  /-- Replaces the handlers that an instance keeps. -/
  | setHandlers (target : Instance) (handlers : List Callable) (next : NativeCode)
  /-- Calls a callable. -/
  | invoke (callable : Callable) (args : List NativeValue)
      (next : Except HostError NativeValue → NativeCode)

instance : Inhabited ScriptCode := ⟨.done (.ok .undefined)⟩

instance : Inhabited NativeCode := ⟨.done (.ok .null)⟩

/-- What a native member does with the instance it is called on and its arguments. -/
abbrev MemberCode := Instance → List NativeValue → NativeCode

end ScriptBoundary
