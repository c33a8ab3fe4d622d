/-!
# What can go wrong

Each error states its cause. Host code may fail with anything: with a message of its own, with an
error of the boundary that it passed on, or with a bare error of one of the parts of the boundary. A
crossing looks for two of these, an error of the boundary and a bare conversion error, and lets them
keep their identity; all else is wrapped, and only once, since a wrapped error is an error of the
boundary to the crossings further out.
-/

namespace ScriptBoundary

/-- The three sorts of members a class can have. -/
inductive MemberCategory where
  | method | property | event
deriving DecidableEq, Repr

def MemberCategory.text : MemberCategory → String
  | method => "method"
  | property => "property"
  | event => "event"

/-- Why a value cannot cross. -/
inductive ConversionError where
  | unsupported (typeName : String)
  | typeMismatch (expected got : String)
  | outOfRange (target value : String)
  | invalidEnumName (enumName name : String)
  | invalidEnumValue (enumName : String) (value : Int)
  /-- The type converts to scripts only. -/
  | oneWay (typeName : String)
  | missingArgument (index : Nat)
  | json (reason : String)
deriving DecidableEq, Repr

/-- Why the exposed members of a type cannot be determined. -/
inductive ResolutionError where
  | notAnInterface (typeName : String)
  | notAClass (typeName : String)
  | unknownMember (typeName member : String) (category : MemberCategory)
deriving DecidableEq, Repr

/-- Why settings cannot be loaded. -/
inductive SettingsError where
  | unreadable (path reason : String)
  | malformed (reason : String)
deriving DecidableEq, Repr

mutual

/-- An error of the boundary. -/
inductive Error where
  | conversion (cause : ConversionError)
  | resolution (cause : ResolutionError)
  | construction (cause : ConstructionError)
  | settings (cause : SettingsError)
  /-- A native member failed with something in which no error of the boundary was found. -/
  | native (member : String) (source : HostError)
  | script (message : String)
  /-- The exposer behind a generated function is gone. -/
  | disposed

/-- Why a script cannot make an instance. -/
inductive ConstructionError where
  | noMatchingConstructor (typeName : String) (arity : Nat)
  | noDefaultConstructor (typeName : String)
  | argument (typeName : String) (cause : ConversionError)
  | failed (typeName : String) (cause : HostError)

/-- A failure of host code, of whatever type the code chose to fail with. -/
inductive HostError where
  /-- A message without anything that tells it from other messages. -/
  | foreign (message : String)
  /-- An error of the boundary, passed on. -/
  | boundary (cause : Error)
  -- Errors of the parts of the boundary, bare.
  | conversion (cause : ConversionError)
  | resolution (cause : ResolutionError)
  | construction (cause : ConstructionError)
  | settings (cause : SettingsError)

end

def ConversionError.message : ConversionError → String
  | unsupported type => "No conversion rule for type " ++ type
  | typeMismatch expected got => "Type mismatch: expected " ++ expected ++ ", got " ++ got
  | outOfRange target value => "Value " ++ value ++ " is out of range for " ++ target
  | invalidEnumName enumName name => "'" ++ name ++ "' is not a member of enumeration " ++ enumName
  | invalidEnumValue enumName value =>
    "Value " ++ toString value ++ " has no name in enumeration " ++ enumName
  | oneWay type => "Values of type " ++ type ++ " only convert from native to script"
  | missingArgument index => "Missing argument at position " ++ toString index
  | json reason => "Invalid JSON: " ++ reason

def ResolutionError.message : ResolutionError → String
  | notAnInterface type => "Type " ++ type ++ " should be an interface"
  | notAClass type => "Type " ++ type ++ " is an interface and cannot be constructed"
  | unknownMember type member category =>
    "Type " ++ type ++ " has no " ++ category.text ++ " named '" ++ member ++ "'"

def SettingsError.message : SettingsError → String
  | unreadable path reason => "Failed to read config file '" ++ path ++ "': " ++ reason
  | malformed reason => "Failed to parse config: " ++ reason

mutual

def Error.message : Error → String
  | .conversion cause => cause.message
  | .resolution cause => cause.message
  | .construction cause => cause.message
  | .settings cause => cause.message
  | .native member source => "Native member '" ++ member ++ "' failed: " ++ source.message
  | .script message => "Script error: " ++ message
  | .disposed => "Exposer has been disposed"

def ConstructionError.message : ConstructionError → String
  | .noMatchingConstructor type arity =>
    type ++ " has no constructor taking " ++ toString arity ++ " argument(s)"
  | .noDefaultConstructor type => type ++ " has no zero-argument constructor"
  | .argument type cause => "Invalid argument for " ++ type ++ " constructor: " ++ cause.message
  | .failed type cause => type ++ " constructor failed: " ++ cause.message

def HostError.message : HostError → String
  | .foreign message => message
  | .boundary cause => cause.message
  | .conversion cause => cause.message
  | .resolution cause => cause.message
  | .construction cause => cause.message
  | .settings cause => cause.message

end

/-- The error a crossing reports when the native member behind it failed: an error of the boundary
stays what it is, a bare conversion error becomes one, and anything else is attached to the
member. -/
def Error.ofHost (member : String) : HostError → Error
  | .boundary cause => cause
  | .conversion cause => .conversion cause
  | source => .native member source

instance : Coe ConversionError Error := ⟨.conversion⟩
instance : Coe ResolutionError Error := ⟨.resolution⟩
instance : Coe ConstructionError Error := ⟨.construction⟩
instance : Coe Error HostError := ⟨.boundary⟩
instance : Coe ConversionError HostError := ⟨.conversion⟩

end ScriptBoundary
