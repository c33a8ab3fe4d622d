import ScriptBoundary.Calendar
import ScriptBoundary.Types.Native
import ScriptBoundary.Values.Script

/-!
# Native values

A native value is a datum, a collection, a callable, an instance of a class, or a script value that
native code carries unopened. Callables and instances are known by number: two of them are equal
when they have the same number, whatever they can do.
-/

namespace ScriptBoundary

/-- A native callable: its number and the shape it was made with. -/
structure Callable where
  number : Nat
  shape : Shape

/-- An instance of a native class: its serial number and the class it was made from. -/
structure Instance where
  serial : Nat
  runtimeClass : ClassRef
deriving DecidableEq

/-- A value of the native side. -/
inductive NativeValue where
  | null
  | bool (b : Bool)
  | int (kind : IntKind) (n : Word kind)
  | float (kind : FloatKind) (x : Binary kind)
  | char (c : Char)
  | datetime (t : Instant)
  | string (text : String)
  | enumeration (definition : Enumeration) (raw : Word .i64)
  | array (items : List NativeValue)
  | sequence (items : List NativeValue)
  | dictionary (entries : List (String × NativeValue))
  | multimap (entries : List (String × List (Option String)))
  | callable (c : Callable)
  | json (text : String)
  | object (target : Instance)
  | script (value : ScriptValue)

instance : Inhabited NativeValue := ⟨.null⟩

namespace NativeValue

def isNull : NativeValue → Bool
  | null => true
  | _ => false

/-- The sort of a value in messages, given the names of classes. -/
def kindName (className : ClassRef → String) : NativeValue → String
  | null => "null"
  | bool _ => "bool"
  | int kind _ => kind.name
  | float kind _ => kind.name
  | char _ => "char"
  | datetime _ => "datetime"
  | string _ => "string"
  | enumeration d _ => "enum " ++ d.name
  | array _ => "array"
  | sequence _ => "sequence"
  | dictionary _ => "dictionary"
  | multimap _ => "multimap"
  | callable c => "callable " ++ c.shape.name
  | json _ => "json"
  | object target => className target.runtimeClass
  | script value => "script " ++ value.typeName

/-- The value under a key of a dictionary. -/
def entry (key : String) : NativeValue → Option NativeValue
  | dictionary entries => (entries.find? (·.1 = key)).map (·.2)
  | _ => none

mutual

/-- Equality of native values: numbers by number, callables and instances by identity, collections
element by element in order. -/
def same : NativeValue → NativeValue → Bool
  | null, null => true
  | bool a, bool b => a == b
  | int k a, int l b => k == l && a.val == b.val
  | float .f32 a, float .f32 b => a.numEq b
  | float .f64 a, float .f64 b => a.numEq b
  | char a, char b => a == b
  | datetime a, datetime b => a == b
  | string a, string b | json a, json b => a == b
  | enumeration d a, enumeration e b => d == e && a == b
  | array a, array b | sequence a, sequence b => sameItems a b
  | dictionary a, dictionary b => sameEntries a b
  | multimap a, multimap b => a == b
  | callable a, callable b => a.number == b.number
  | object a, object b => a.serial == b.serial
  | script a, script b => a.same b
  | _, _ => false

/-- Equality of lists of values. -/
def sameItems : List NativeValue → List NativeValue → Bool
  | [], [] => true
  | a :: as, b :: bs => a.same b && sameItems as bs
  | _, _ => false

/-- Equality of lists of entries. -/
def sameEntries : List (String × NativeValue) → List (String × NativeValue) → Bool
  | [], [] => true
  | (k, a) :: as, (l, b) :: bs => k == l && a.same b && sameEntries as bs
  | _, _ => false

end

end NativeValue

/-- The value a target of a type takes when a script passes undefined, null or nothing. -/
def NativeType.default : NativeType → NativeValue
  | bool => .bool false
  | int kind => .int kind .zero
  | float kind => .float kind (.zero false)
  | char => .char '\x00'
  | datetime => .datetime .earliest
  | enumeration d => .enumeration d .zero
  | _ => .null

end ScriptBoundary
