import ScriptBoundary.Conversion.Policy
import ScriptBoundary.Store.Heap

/-!
# The state of a program

Everything that a later step can observe: the script heap, the callables and instances of the native
side, the exposer with its registrations, cached definitions and callback bindings, the variables of
the session, and a journal of the calls that reached host code.
-/

namespace ScriptBoundary

/-- What a native callable does when it is called. -/
inductive CallableBody where
  /-- Runs native code. -/
  | hosted (code : List NativeValue → NativeCode)
  /-- Calls the script function registered under a number. -/
  | delegate (number : Nat)

instance : Inhabited CallableBody := ⟨.hosted fun _ => default⟩

/-- What an instance of a native class holds. -/
structure InstanceState where
  fields : List (String × NativeValue) := []
  handlers : List Callable := []
deriving Inhabited

/-- Script functions kept under numbers that count up from one. -/
structure Delegates where
  functions : List FunctionId := []
deriving Inhabited

namespace Delegates

/-- Keeps a function and gives its number. -/
def add (d : Delegates) (f : FunctionId) : Delegates × Nat :=
  (⟨d.functions ++ [f]⟩, d.functions.length + 1)

/-- The function under a number. -/
def get? (d : Delegates) : Nat → Option FunctionId
  | 0 => none
  | n + 1 => d.functions[n]?

def size (d : Delegates) : Nat := d.functions.length

/-- A function that was kept is found under its number. -/
@[simp] theorem get?_add (d : Delegates) (f : FunctionId) :
    (d.add f).1.get? (d.add f).2 = some f := by
  simp [add, get?]

/-- Keeping a function leaves the earlier numbers. -/
theorem get?_add_of_le {d : Delegates} {n : Nat} (h : n ≤ d.size) (f : FunctionId) :
    (d.add f).1.get? n = d.get? n := by
  cases n with
  | zero => rfl
  | succ n => exact List.getElem?_append_left h

@[simp] theorem size_add (d : Delegates) (f : FunctionId) : (d.add f).1.size = d.size + 1 := by
  simp [add, size]

end Delegates

/-- The native callable that stands for a script function where a shape is asked for. -/
structure Binding where
  shape : Shape
  function : FunctionId
  wrapper : Callable

/-- What an exposer keeps. -/
structure Exposer where
  settings : Settings := {}
  registrations : Registrations := []
  /-- The definitions built so far, each under the identity of its type. -/
  definitions : List (TypeId × Definition) := []
  /-- How many definitions were built. -/
  builds : Nat := 0
  bindings : List Binding := []
  /-- The script functions behind the wrappers. -/
  delegates : Delegates := {}
  /-- Generated functions work only as long as the exposer lives. -/
  alive : Bool := true
deriving Inhabited

/-- Wraps instances through the members of one interface. -/
structure Factory where
  interface : ClassRef
  definition : Definition

/-- What a variable of the session holds. -/
inductive Variable where
  | script (value : ScriptValue)
  | native (value : NativeValue)
  | factory (factory : Factory)

/-- A call that reached host code. -/
inductive CallRecord where
  /-- Code of a member, of the class that declares it, on an instance. -/
  | member (owner : ClassRef) (name : String) (role : MemberRole) (target : Instance)
      (args : List NativeValue)
  | constructor (c : ClassRef) (args : List NativeValue)
  | callable (name : String) (args : List NativeValue)
  | function (name : String) (this : ScriptValue) (args : List ScriptValue)

/-- A recorded call and the heap as it was when the call began. -/
structure JournalEntry where
  call : CallRecord
  heap : Heap

/-- The state of a program. -/
structure World where
  heap : Heap := {}
  callables : Array CallableBody := #[]
  /-- The instance with serial number `n + 1` is at place `n`. -/
  instances : Array InstanceState := #[]
  exposer : Exposer := {}
  /-- The global object of scripts. -/
  globals : ObjectId := ⟨0⟩
  /-- The variables of the session. -/
  named : List (String × Variable) := []
  journal : List JournalEntry := []
  /-- The session's own register of functions, apart from the exposer's. -/
  register : Delegates := {}
deriving Inhabited

/-- A computation on the state of a program: it may fail, and it may run out of the allowance of
nested calls, which leaves it without any answer. -/
abbrev Run (ε α : Type) : Type := ExceptT ε (StateT World Option) α

namespace Run

variable {ε ε' α : Type}

/-- The allowance is used up. -/
def exhausted : Run ε α := fun _ => none

/-- Hands the outcome of a computation over as a value. -/
def attempt (x : Run ε α) : Run ε' (Except ε α) := fun w => do
  let (r, w) ← x w
  some (.ok r, w)

/-- The computation with another form of its error. -/
def mapError (f : ε → ε') (x : Run ε α) : Run ε' α := fun w => do
  let (r, w) ← x w
  some (r.mapError f, w)

/-- The result of a pure function. -/
def ofExcept (r : Except ε α) : Run ε α := fun w => some (r, w)

/-- The result of a pure function whose error is a conversion error. -/
def ofConversion (r : Except ConversionError α) : Run Error α :=
  ofExcept (r.mapError Error.conversion)

/-- Reads something off the state. -/
def read (f : World → α) : Run ε α := fun w => some (.ok (f w), w)

/-- Changes the state. -/
def change (f : World → World) : Run ε Unit := fun w => some (.ok (), f w)

/-- Changes the heap and gives what the change gives. -/
def onHeap (f : Heap → Heap × α) : Run ε α := fun w =>
  let (heap, a) := f w.heap
  some (.ok a, { w with heap })

/-- Reads something off the heap. -/
def ofHeap (f : Heap → α) : Run ε α := read fun w => f w.heap

/-- Changes the exposer. -/
def onExposer (f : Exposer → Exposer) : Run ε Unit :=
  change fun w => { w with exposer := f w.exposer }

/-- Notes a call that is about to reach host code. -/
def record (call : CallRecord) : Run ε Unit :=
  change fun w => { w with journal := w.journal ++ [⟨call, w.heap⟩] }

/-- Fails when the exposer is gone. -/
def requireAlive : Run Error Unit := do
  if ← read (·.exposer.alive) then return () else throw .disposed

end Run

namespace World

/-- What an instance holds. -/
def instanceState (w : World) (target : Instance) : InstanceState :=
  w.instances.getD (target.serial - 1) {}

/-- Changes what an instance holds. -/
def updateInstance (w : World) (target : Instance) (f : InstanceState → InstanceState) : World :=
  { w with instances := w.instances.modify (target.serial - 1) f }

end World

namespace Run

variable {ε : Type}

/-- Makes an instance with the next serial number. -/
def newInstance (runtimeClass : ClassRef) : Run ε Instance := fun w =>
  some (.ok ⟨w.instances.size + 1, runtimeClass⟩, { w with instances := w.instances.push {} })

/-- Makes a callable. -/
def newCallable (shape : Shape) (body : CallableBody) : Run ε Callable := fun w =>
  some (.ok ⟨w.callables.size, shape⟩, { w with callables := w.callables.push body })

end Run

end ScriptBoundary
