import ScriptBoundary.Number.Binary

/-!
# Native types

The closed set of types a native value can be declared with. A class is referred to by its place in
the catalogue of declarations; which declarations describe one and the same type is decided there,
by the identity each of them carries, so the questions below take names and identities of classes
as arguments.

An enumeration names some of the integers of its underlying kind. One that is used as a set of flags
crosses to scripts as its integer, any other as the name of the value; several names may share a
value and then the first of them is written.
-/

namespace ScriptBoundary

/-- The integer kinds an enumeration can be stored in. -/
inductive EnumRepr where
  | i8 | u8 | i16 | u16 | i32 | u32 | i64
deriving DecidableEq, Repr

/-- The integer kind of a representation. -/
def EnumRepr.kind : EnumRepr → IntKind
  | i8 => .i8
  | u8 => .u8
  | i16 => .i16
  | u16 => .u16
  | i32 => .i32
  | u32 => .u32
  | i64 => .i64

/-- The definition of an enumeration. -/
structure Enumeration where
  name : String
  flags : Bool
  repr : EnumRepr
  variants : List (String × Word .i64)
deriving DecidableEq

namespace Enumeration

/-- The first name of a value. -/
def nameOf (d : Enumeration) (value : Word .i64) : Option String :=
  (d.variants.find? (·.2 = value)).map (·.1)

/-- The value of the first variant with a name. -/
def valueOf (d : Enumeration) (name : String) : Option (Word .i64) :=
  (d.variants.find? (·.1 = name)).map (·.2)

end Enumeration

/-- The identity of a described type. Two declarations with one identity describe the same type. -/
structure TypeId where
  number : Nat
deriving DecidableEq, Repr

/-- The place of a class declaration in the catalogue. -/
structure ClassRef where
  index : Nat
deriving DecidableEq, Repr

mutual

/-- A native type. -/
inductive NativeType where
  | void
  | bool
  | int (kind : IntKind)
  | float (kind : FloatKind)
  | char
  | datetime
  | string
  | enumeration (definition : Enumeration)
  /-- Converts both ways, element by element. -/
  | array (element : NativeType)
  /-- Converts to scripts only. -/
  | sequence (element : NativeType)
  /-- Values under text keys. -/
  | dictionary (value : NativeType)
  /-- Text keys with any number of texts each. -/
  | multimap
  | callable (shape : Shape)
  /-- JSON text. -/
  | json
  | object (declaration : ClassRef)
  /-- Whatever the value turns out to be. -/
  | any

/-- The parameters and the result of a native callable. -/
structure Shape where
  name : String
  params : List Param
  result : NativeType

/-- A parameter of a native member or callable. -/
inductive Param where
  | fixed (name : String) (type : NativeType)
  /-- Takes all remaining arguments as they are. -/
  | rest (name : String)

end

instance : Inhabited NativeType := ⟨.void⟩

namespace Param

def name : Param → String
  | fixed name _ => name
  | rest name => name

/-- Remaining arguments arrive as an array of anything. -/
def type : Param → NativeType
  | fixed _ type => type
  | rest _ => .array .any

def isRest : Param → Bool
  | fixed .. => false
  | rest _ => true

end Param

/-- The shape of a function about which nothing is declared. -/
def Shape.undeclared : Shape := ⟨"Function", [.rest "args"], .any⟩

instance : Inhabited Shape := ⟨.undeclared⟩

namespace NativeType

def isVoid : NativeType → Bool
  | void => true
  | _ => false

/-- The text of a type, given the names of classes. -/
def text (className : ClassRef → String) : NativeType → String
  | void => "void"
  | bool => "bool"
  | int kind => kind.name
  | float kind => kind.name
  | char => "char"
  | datetime => "datetime"
  | string => "string"
  | enumeration d => "enum " ++ d.name
  | array element => "array<" ++ element.text className ++ ">"
  | sequence element => "sequence<" ++ element.text className ++ ">"
  | dictionary value => "dictionary<" ++ value.text className ++ ">"
  | multimap => "multimap"
  | callable shape => "callable " ++ shape.name
  | json => "json"
  | object c => className c
  | any => "any"

/-- The class that values of the type hold, looking through collections. -/
def referenced : NativeType → Option ClassRef
  | object c => some c
  | array inner | sequence inner | dictionary inner => inner.referenced
  | _ => none

end NativeType

section Same

variable (identity : ClassRef → TypeId)

mutual

/-- Equality of types, classes compared by identity. -/
def NativeType.same : NativeType → NativeType → Bool
  | .void, .void | .bool, .bool | .char, .char | .datetime, .datetime | .string, .string
  | .multimap, .multimap | .json, .json | .any, .any => true
  | .int a, .int b => a == b
  | .float a, .float b => a == b
  | .enumeration a, .enumeration b => a == b
  | .array a, .array b | .sequence a, .sequence b | .dictionary a, .dictionary b => a.same b
  | .callable a, .callable b => a.same b
  | .object a, .object b => identity a == identity b
  | _, _ => false

/-- Equality of shapes: name, parameters in order, result. -/
def Shape.same : Shape → Shape → Bool
  | ⟨name, params, result⟩, ⟨name', params', result'⟩ =>
    name == name' && sameParams params params' && result.same result'

/-- Equality of parameters. -/
def Param.same : Param → Param → Bool
  | .fixed a t, .fixed b u => a == b && t.same u
  | .rest a, .rest b => a == b
  | _, _ => false

/-- Equality of parameter lists. -/
def sameParams : List Param → List Param → Bool
  | [], [] => true
  | p :: ps, q :: qs => p.same q && sameParams ps qs
  | _, _ => false

end

end Same

end ScriptBoundary
