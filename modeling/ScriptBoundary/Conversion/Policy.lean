import ScriptBoundary.Classes.Catalog

/-!
# The conversion policy

Which script kind each native type takes on the script side, and which native type a script kind
lands in when none is declared. A class that declares no member at all, nor inherits one, has
nothing to show and is refused, wherever in a type it stands.
-/

namespace ScriptBoundary

/-- The script kind of an integer kind. -/
def IntKind.scriptKind : IntKind → ScriptKind
  | .i8 | .u8 | .i16 | .u16 | .i32 => .integer
  | .u32 => .unsigned
  | .i64 | .u64 => .number

namespace Catalog

variable (catalog : Catalog)

mutual

/-- The script kind of a native type. -/
def scriptKind : NativeType → Except ConversionError ScriptKind
  | .void => .ok .void
  | .bool => .ok .boolean
  | .int kind => .ok kind.scriptKind
  | .float _ => .ok .number
  | .char | .string => .ok .string
  | .datetime => .ok .date
  | .enumeration d => .ok (if d.flags then d.repr.kind.scriptKind else .string)
  | .array element | .sequence element => (scriptKind element).map fun _ => .array
  | .dictionary value => (scriptKind value).map fun _ => .object
  | .multimap | .json => .ok .object
  | .callable shape => (shapeSupported shape).map fun _ => .function
  | .object c =>
    if catalog.declaresNoMembers c then .error (.unsupported (catalog.name c)) else .ok .object
  | .any => .ok .any

/-- All types of a shape have a script kind: the parameters in order, then the result. -/
def shapeSupported : Shape → Except ConversionError Unit
  | ⟨_, params, result⟩ => do
    paramsSupported params
    let _ ← scriptKind result

/-- All types of a list of parameters have a script kind. -/
def paramsSupported : List Param → Except ConversionError Unit
  | [] => .ok ()
  | .fixed _ type :: rest => do
    let _ ← scriptKind type
    paramsSupported rest
  | .rest _ :: rest => paramsSupported rest

end

end Catalog

/-- The native type that values of a script kind land in when none is declared. -/
def NativeType.ofKind : ScriptKind → NativeType
  | .void => .void
  | .boolean => .bool
  | .integer | .unsigned | .number => .float .f64
  | .string => .string
  | .date => .datetime
  | .array => .array .any
  | .object => .dictionary .any
  | .function => .callable .undeclared
  | .any => .any

end ScriptBoundary
