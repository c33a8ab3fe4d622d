import ScriptBoundary.Calls.Reentry
import ScriptBoundary.Conversion.Scalars
import ScriptBoundary.Json.Tree

/-!
# Script values as JSON text

Undefined values and functions have no JSON form: in an object they are left out, in an array they
are null, and alone they are refused. Getters run when an object is read.
-/

namespace ScriptBoundary

/-- A script number in JSON, which has neither infinities nor not-a-number. -/
def Binary.toJson (x : Binary .f64) : Json := if x.isFinite then .number (.real x) else .null

/-- A script date in JSON. -/
def Instant.dateToJson (millis : Binary .f64) : Json :=
  match ofDateSaturating? millis with
  | some t => .string (t.text .needed "+00:00")
  | none => .null

namespace Reentry

variable (r : Reentry)

/-- A script value as a JSON tree, if it has a JSON form. The number bounds the depth. -/
def toJson : Nat → ScriptValue → Run Error (Option Json)
  | 0, _ => .exhausted
  | n + 1, value => do
    match value with
    | .undefined | .function _ => return none
    | .null => return some .null
    | .bool b => return some (.bool b)
    | .int i => return some (.number (.integer i.val))
    | .uint u => return some (.number (.integer u.val))
    | .number x => return some x.toJson
    | .string text => return some (.string text)
    | .date millis => return some (Instant.dateToJson millis)
    | .array a =>
      let items ← (← Run.ofHeap (·.items a)).mapM (toJson n)
      return some (.array (items.map (·.getD .null)))
    | .object o =>
      let entries ← (r.entries o).mapError fun e => .conversion (.json e.message)
      let fields ← entries.mapM fun (key, value) => do
        return (← toJson n value).map (key, ·)
      return some (.object (fields.filterMap id))

/-- A script value as JSON text. -/
def jsonText (value : ScriptValue) : Run Error String := do
  match ← r.toJson r.depth value with
  | some tree => return tree.render
  | none => throw (.conversion (.unsupported value.typeName))

end Reentry

end ScriptBoundary
