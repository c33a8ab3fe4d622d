import ScriptBoundary.Code
import ScriptBoundary.Number.Binary

/-!
# Script expressions

A small language for script code. An expression makes fresh arrays, objects and functions, reads
variables, and uses objects and functions as scripts do; the first failure ends it. `code` gives
what an expression asks of the program, followed by what is done with its value.
-/

namespace ScriptBoundary

/-- A script expression. -/
inductive ScriptExpr where
  | value (v : ScriptValue)
  | array (items : List ScriptExpr)
  | object (fields : List (String × ScriptExpr))
  | function (name : String) (body : ScriptExpr)
  | readVariable (name : String)
  | readGlobal (name : String)
  /-- A value in that many arrays of one item, each in the next. -/
  | nest (depth : Nat) (inner : ScriptExpr)
  /-- A value in that many objects of one property, each in the next. -/
  | nestObject (depth : Nat) (key : String) (inner : ScriptExpr)
  | this
  | arg (place : Nat)
  | args
  | argCount
  /-- The sum of the arguments that are numbers. -/
  | sum
  /-- A number times a constant. -/
  | scale (inner : ScriptExpr) (factor : Binary .f64)
  /-- All in order; the value is that of the last. -/
  | sequence (steps : List ScriptExpr)
  | throwMessage (message : String)
  | throwUnsupported (typeName : String)
  | get (object : ScriptExpr) (key : String)
  | set (object : ScriptExpr) (key : String) (value : ScriptExpr)
  | callMethod (object : ScriptExpr) (key : String) (args : List ScriptExpr)
  | call (function this : ScriptExpr) (args : List ScriptExpr)

instance : Inhabited ScriptExpr := ⟨.value .undefined⟩

namespace ScriptCode

/-- Goes on with the value of an answer; a failure ends the code. -/
def orFail {α : Type} (next : α → ScriptCode) : Except Error α → ScriptCode
  | .ok a => next a
  | .error e => .done (.error e)

/-- Goes on with the place of an object. -/
def withObject (v : ScriptValue) (next : ObjectId → ScriptCode) : ScriptCode :=
  match v with
  | .object o => next o
  | other => .done (.error (.script ("not an object: " ++ other.typeName)))

/-- Goes on with the place of a function. -/
def withFunction (v : ScriptValue) (next : FunctionId → ScriptCode) : ScriptCode :=
  match v with
  | .function f => next f
  | other => .done (.error (.script ("not a function: " ++ other.typeName)))

/-- Goes on with a value in so many arrays of one item. -/
def nested : Nat → ScriptValue → (ScriptValue → ScriptCode) → ScriptCode
  | 0, v, next => next v
  | n + 1, v, next => .newArray [v] fun a => nested n (.array a) next

/-- Goes on with a value in so many objects of one property. -/
def nestedObjects (key : String) : Nat → ScriptValue → (ScriptValue → ScriptCode) → ScriptCode
  | 0, v, next => next v
  | n + 1, v, next => .newObject fun o =>
    .define o key (.data v) (nestedObjects key n (.object o) next)

end ScriptCode

namespace ScriptExpr

/-- The sum of the values that are numbers, from the left. -/
def sumOf (values : List ScriptValue) : Binary .f64 :=
  values.foldl (fun sum v => ((v.asNumber).map sum.add).getD sum) (.zero false)

mutual

/-- What an expression asks of the program when it stands in a function with a receiver and
arguments, and then what is done with its value. -/
def code (this : ScriptValue) (args : List ScriptValue) :
    ScriptExpr → (ScriptValue → ScriptCode) → ScriptCode
  | .value v, next => next v
  | .array items, next => codeAll this args items fun items => .newArray items (next <| .array ·)
  | .object fields, next => .newObject fun o => codeFields this args o fields (next (.object o))
  | .function name body, next =>
    .newFunction name (fun this args => body.code this args (.done <| .ok ·)) (next <| .function ·)
  | .readVariable name, next => .readVariable name next
  | .readGlobal name, next => .readGlobal name next
  | .nest depth inner, next => inner.code this args (ScriptCode.nested depth · next)
  | .nestObject depth key inner, next =>
    inner.code this args (ScriptCode.nestedObjects key depth · next)
  | .this, next => next this
  | .arg place, next => next (args.getD place .undefined)
  | .args, next => .newArray args (next <| .array ·)
  | .argCount, next => next (.int (.wrap .i32 args.length))
  | .sum, next => next (.number (sumOf args))
  | .scale inner factor, next =>
    inner.code this args fun v => next (.number ((v.asNumber.getD .nan).mul factor))
  | .sequence steps, next => codeSteps this args .undefined steps next
  | .throwMessage message, _ => .done (.error (.script message))
  | .throwUnsupported typeName, _ => .done (.error (.conversion (.unsupported typeName)))
  | .get target key, next =>
    target.code this args fun v => ScriptCode.withObject v fun o =>
      .get o key (ScriptCode.orFail next)
  | .set target key e, next =>
    target.code this args fun v => ScriptCode.withObject v fun o =>
      e.code this args fun v => .set o key v (ScriptCode.orFail fun _ => next .undefined)
  | .callMethod target key actuals, next =>
    target.code this args fun v => ScriptCode.withObject v fun o =>
      codeAll this args actuals fun actuals =>
        .callMethod o key actuals (ScriptCode.orFail next)
  | .call callee receiver actuals, next =>
    callee.code this args fun v => ScriptCode.withFunction v fun f =>
      receiver.code this args fun receiver =>
        codeAll this args actuals fun actuals =>
          .call f receiver actuals (ScriptCode.orFail next)

/-- The values of a list of expressions in order. -/
def codeAll (this : ScriptValue) (args : List ScriptValue) :
    List ScriptExpr → (List ScriptValue → ScriptCode) → ScriptCode
  | [], next => next []
  | e :: rest, next =>
    e.code this args fun v => codeAll this args rest fun values => next (v :: values)

/-- Puts fields on an object, each as soon as its value is there. -/
def codeFields (this : ScriptValue) (args : List ScriptValue) (o : ObjectId) :
    List (String × ScriptExpr) → ScriptCode → ScriptCode
  | [], next => next
  | (key, e) :: rest, next =>
    e.code this args fun v => .define o key (.data v) (codeFields this args o rest next)

/-- Runs expressions in order and goes on with the value of the last. -/
def codeSteps (this : ScriptValue) (args : List ScriptValue) (last : ScriptValue) :
    List ScriptExpr → (ScriptValue → ScriptCode) → ScriptCode
  | [], next => next last
  | e :: rest, next => e.code this args fun v => codeSteps this args v rest next

end

/-- The code of an expression that stands alone. -/
def toCode (e : ScriptExpr) : ScriptCode := e.code .undefined [] (.done <| .ok ·)

end ScriptExpr

end ScriptBoundary
