import ScriptBoundary.Expr.Script

/-!
# Native expressions

A small language for the code of native members, constructors and callables. An expression makes
values, instances and callables, reads its arguments and the fields of its receiver, keeps and calls
handlers; the first failure ends it. Outside a member there is no receiver, and reading from it
gives null. Messages name classes, so the names of classes are an argument throughout.
-/

namespace ScriptBoundary

/-- The types as which an argument can be fetched. -/
inductive ArgumentType where
  | bool
  | int (kind : IntKind)
  | float (kind : FloatKind)
  | char
  | datetime
  | string
deriving DecidableEq, Repr

namespace ArgumentType

def name : ArgumentType → String
  | bool => "bool"
  | int kind => kind.name
  | float kind => kind.name
  | char => "char"
  | datetime => "datetime"
  | string => "string"

/-- A value is of the type. -/
def holds : ArgumentType → NativeValue → Bool
  | bool, .bool _ | char, .char _ | datetime, .datetime _ | string, .string _ => true
  | int kind, .int actual _ => kind == actual
  | float kind, .float actual _ => kind == actual
  | _, _ => false

end ArgumentType

/-- A native expression. -/
inductive NativeExpr where
  | value (v : NativeValue)
  | array (items : List NativeExpr)
  | sequence (items : List NativeExpr)
  | dictionary (entries : List (String × NativeExpr))
  | script (e : ScriptExpr)
  | readVariable (name : String)
  | callable (shape : Shape) (body : NativeExpr)
  /-- An instance, which is made before the values of its fields. -/
  | newInstance (runtimeClass : ClassRef) (fields : List (String × NativeExpr))
  /-- A value in that many arrays of one item, each in the next. -/
  | nest (depth : Nat) (inner : NativeExpr)
  | arg (place : Nat)
  | args
  | typedArg (type : ArgumentType) (place : Nat)
  /-- As a typed argument, but null for one that is null or missing. -/
  | optionalArg (type : ArgumentType) (place : Nat)
  | field (name : String)
  | setField (name : String) (value : NativeExpr)
  /-- All in order; the value is that of the last. -/
  | steps (steps : List NativeExpr)
  | fail (message : String)
  | failUnsupported (typeName : String)
  | failScript (message : String)
  | invoke (callable : NativeExpr) (args : List NativeExpr)
  | addHandler (handler : NativeExpr)
  | removeHandler (handler : NativeExpr)
  /-- Calls the handlers as they stand and gives their number. -/
  | fire (args : List NativeExpr)
  | entry (dictionary : NativeExpr) (key : String)
  | kind (inner : NativeExpr)
  /-- Adds two thirty-two bit integers, going round at the ends. -/
  | add (left right : NativeExpr)

instance : Inhabited NativeExpr := ⟨.value .null⟩

/-- What a native expression can see of the call it stands in. -/
structure Frame where
  receiver : Option Instance
  args : List NativeValue

namespace NativeCode

/-- Goes on with the value of an answer; a failure ends the code. -/
def orFail {ε α : Type} [Coe ε HostError] (next : α → NativeCode) : Except ε α → NativeCode
  | .ok a => next a
  | .error e => .done (.error (e : HostError))

/-- Calls handlers one after the other; the first failure ends the code. -/
def callEach (args : List NativeValue) (next : NativeCode) : List Callable → NativeCode
  | [] => next
  | c :: rest => .invoke c args fun
    | .ok _ => callEach args next rest
    | .error e => .done (.error e)

end NativeCode

namespace NativeExpr

/-- A value in so many arrays of one item. -/
def nested : Nat → NativeValue → NativeValue
  | 0, v => v
  | n + 1, v => nested n (.array [v])

variable (className : ClassRef → String)

/-- A value as one of an argument type. -/
def asType (type : ArgumentType) (v : NativeValue) : Except ConversionError NativeValue :=
  if type.holds v then .ok v else .error (.typeMismatch type.name (v.kindName className))

/-- An argument as one of a type. -/
def typedArgument (type : ArgumentType) (args : List NativeValue) (place : Nat) :
    Except ConversionError NativeValue :=
  match args[place]? with
  | none => .error (.missingArgument place)
  | some v => asType className type v

/-- An argument as one of a type; null stands for one that is null or missing. -/
def optionalArgument (type : ArgumentType) (args : List NativeValue) (place : Nat) :
    Except ConversionError NativeValue :=
  match args[place]? with
  | none | some .null => .ok .null
  | some v => asType className type v

/-- A value as a thirty-two bit integer. -/
def asInt (v : NativeValue) : Except ConversionError (Word .i32) :=
  match v with
  | .int .i32 n => .ok n
  | other => .error (.typeMismatch "i32" (other.kindName className))

/-- Goes on with a callable. -/
def withCallable (v : NativeValue) (next : Callable → NativeCode) : NativeCode :=
  match v with
  | .callable c => next c
  | other => .done (.error (.foreign ("not callable: " ++ other.kindName className)))

/-- Changes the handlers of the receiver by a callable; any other value changes nothing. -/
def changeHandlers (frame : Frame) (v : NativeValue)
    (change : Callable → List Callable → List Callable) (next : NativeCode) : NativeCode :=
  match frame.receiver, v with
  | some target, .callable c =>
    .handlers target fun kept => .setHandlers target (change c kept) next
  | _, _ => next

mutual

/-- What an expression asks of the program when it stands in a call, and then what is done with its
value. -/
def code (frame : Frame) : NativeExpr → (NativeValue → NativeCode) → NativeCode
  | .value v, next => next v
  | .array items, next => codeAll frame items (next <| .array ·)
  | .sequence items, next => codeAll frame items (next <| .sequence ·)
  | .dictionary entries, next => codeFields frame entries (next <| .dictionary ·)
  | .script e, next => .script e.toCode (NativeCode.orFail (next <| .script ·))
  | .readVariable name, next => .readVariable name next
  | .callable shape body, next =>
    .newCallable shape (fun args => body.code ⟨none, args⟩ (.done <| .ok ·)) (next <| .callable ·)
  | .newInstance runtimeClass fields, next =>
    .newInstance runtimeClass fun target => codeFields frame fields fun fields =>
      fields.foldr (fun (name, v) rest => .setField target name v rest) (next (.object target))
  | .nest depth inner, next => inner.code frame fun v => next (nested depth v)
  | .arg place, next =>
    match frame.args[place]? with
    | some v => next v
    | none => .done (.error (.conversion (.missingArgument place)))
  | .args, next => next (.array frame.args)
  | .typedArg type place, next =>
    NativeCode.orFail next (typedArgument className type frame.args place)
  | .optionalArg type place, next =>
    NativeCode.orFail next (optionalArgument className type frame.args place)
  | .field name, next =>
    match frame.receiver with
    | some target => .field target name fun v => next (v.getD .null)
    | none => next .null
  | .setField name e, next =>
    e.code frame fun v =>
      match frame.receiver with
      | some target => .setField target name v (next .null)
      | none => next .null
  | .steps list, next => codeSteps frame .null list next
  | .fail message, _ => .done (.error (.foreign message))
  | .failUnsupported typeName, _ => .done (.error (.conversion (.unsupported typeName)))
  | .failScript message, _ => .done (.error (.boundary (.script message)))
  | .invoke callee actuals, next =>
    callee.code frame fun v => withCallable className v fun c =>
      codeAll frame actuals fun actuals => .invoke c actuals fun
        | .ok v => next v
        | .error e => .done (.error e)
  | .addHandler e, next =>
    e.code frame fun v => changeHandlers frame v (fun c kept => kept ++ [c]) (next .null)
  | .removeHandler e, next =>
    e.code frame fun v =>
      changeHandlers frame v (fun c kept => kept.filter (·.number != c.number)) (next .null)
  | .fire actuals, next =>
    codeAll frame actuals fun actuals =>
      match frame.receiver with
      | some target => .handlers target fun kept =>
        NativeCode.callEach actuals (next (.int .i32 (.wrap .i32 kept.length))) kept
      | none => next (.int .i32 .zero)
  | .entry e key, next => e.code frame fun v => next ((v.entry key).getD .null)
  | .kind e, next => e.code frame fun v => next (.string (v.kindName className))
  | .add left right, next =>
    left.code frame fun a => (NativeCode.orFail · (asInt className a)) fun a =>
      right.code frame fun b => (NativeCode.orFail · (asInt className b)) fun b =>
        next (.int .i32 (.wrap .i32 (a.val + b.val)))

/-- The values of a list of expressions in order. -/
def codeAll (frame : Frame) : List NativeExpr → (List NativeValue → NativeCode) → NativeCode
  | [], next => next []
  | e :: rest, next => e.code frame fun v => codeAll frame rest fun values => next (v :: values)

/-- The values of a list of named expressions in order. -/
def codeFields (frame : Frame) :
    List (String × NativeExpr) → (List (String × NativeValue) → NativeCode) → NativeCode
  | [], next => next []
  | (name, e) :: rest, next =>
    e.code frame fun v => codeFields frame rest fun values => next ((name, v) :: values)

/-- Runs expressions in order and goes on with the value of the last. -/
def codeSteps (frame : Frame) (last : NativeValue) :
    List NativeExpr → (NativeValue → NativeCode) → NativeCode
  | [], next => next last
  | e :: rest, next => e.code frame fun v => codeSteps frame v rest next

end

/-- The code of an expression that stands alone or sees arguments only. -/
def toCode (e : NativeExpr) (args : List NativeValue) : NativeCode :=
  e.code className ⟨none, args⟩ (.done <| .ok ·)

/-- The code of a member. -/
def toMemberCode (e : NativeExpr) : MemberCode := fun target args =>
  e.code className ⟨some target, args⟩ (.done <| .ok ·)

end NativeExpr

end ScriptBoundary
