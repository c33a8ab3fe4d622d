import ScriptBoundary.Number.Binary

/-!
# Script values

A script value is a plain datum or a reference to an array, an object or a function in the store.
Two references are equal when they are the same place. The kinds of values are told apart as far as
the boundary does.
-/

namespace ScriptBoundary

/-- How a native type shows on the script side. -/
inductive ScriptKind where
  | void | boolean | integer | unsigned | number | string | date | array | object | function
  /-- Decided value by value. -/
  | any
deriving DecidableEq, Repr

namespace ScriptKind

def text : ScriptKind → String
  | void => "undefined"
  | boolean => "boolean"
  | integer => "integer"
  | unsigned => "unsigned integer"
  | number => "number"
  | string => "string"
  | date => "date"
  | array => "array"
  | object => "object"
  | function => "function"
  | any => "any"

/-- Every kind. -/
def all : List ScriptKind :=
  [void, boolean, integer, unsigned, number, string, date, array, object, function, any]

/-- The kind with a text. -/
def ofText? (text : String) : Option ScriptKind := all.find? (·.text = text)

end ScriptKind

/-- The place of a script array in the store. -/
structure ArrayId where
  index : Nat
deriving DecidableEq, Repr

/-- The place of a script object in the store. -/
structure ObjectId where
  index : Nat
deriving DecidableEq, Repr

/-- The place of a script function in the store. -/
structure FunctionId where
  index : Nat
deriving DecidableEq, Repr

/-- A value of the script side. -/
inductive ScriptValue where
  | undefined
  | null
  | bool (b : Bool)
  | int (n : Word .i32)
  | uint (n : Word .u32)
  | number (x : Binary .f64)
  | string (text : String)
  /-- Milliseconds since the start of 1970 in UTC. -/
  | date (millis : Binary .f64)
  | array (place : ArrayId)
  | object (place : ObjectId)
  | function (place : FunctionId)
deriving DecidableEq

instance : Inhabited ScriptValue := ⟨.undefined⟩

/-- What a script object holds under a name. -/
inductive Property where
  | data (value : ScriptValue)
  /-- Functions that run when the property is read and when it is written. -/
  | accessor (get set : Option FunctionId)
deriving DecidableEq

namespace ScriptValue

/-- Undefined or null. -/
def isNullish : ScriptValue → Bool
  | undefined | null => true
  | _ => false

/-- The name scripts give to the sort of a value. -/
def typeName : ScriptValue → String
  | undefined => "undefined"
  | null => "null"
  | bool _ => "boolean"
  | int _ | uint _ | number _ => "number"
  | string _ => "string"
  | date _ => "date"
  | array _ => "array"
  | object _ => "object"
  | function _ => "function"

/-- The number of any of the three number forms. -/
def asNumber : ScriptValue → Option (Binary .f64)
  | int n => some (.ofInt .f64 n.val)
  | uint n => some (.ofInt .f64 n.val)
  | number x => some x
  | _ => none

def asText : ScriptValue → Option String
  | string text => some text
  | _ => none

/-- The kind of an actual value. -/
def kind : ScriptValue → ScriptKind
  | undefined | null => .void
  | bool _ => .boolean
  | int _ => .integer
  | uint _ => .unsigned
  | number _ => .number
  | string _ => .string
  | date _ => .date
  | array _ => .array
  | object _ => .object
  | function _ => .function

/-- Equality as scripts see it: numbers and dates by number, references by place. -/
def same : ScriptValue → ScriptValue → Bool
  | number x, number y | date x, date y => x.numEq y
  | a, b => a == b

end ScriptValue

end ScriptBoundary
