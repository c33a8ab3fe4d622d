import ScriptBoundary.Calls.Crossing
import ScriptBoundary.Proofs.Computation

/-!
# What the operations of an adapter come to

A call runs a list of operations that take the script arguments by their places and keep what was
gathered in a state. The operations that adapters are written out to come in one order only, so that
the state can be done without: the arguments are taken one after the other, the native code runs
once, and its result is given (`Catalog.cross`). What is proved of calls is proved of that form.
-/

namespace ScriptBoundary

namespace Catalog

variable (catalog : Catalog) (r : Reentry)

/-- The native arguments of a call, each taken from the script arguments from its place on. -/
def takeArguments : List Intake → List ScriptValue → Run Error (List NativeValue)
  | [], _ => return []
  | .converted type :: intakes, args => do
    let value ← catalog.toNative r type (args.headD .undefined)
    return value :: (← takeArguments intakes args.tail)
  | .rest :: intakes, args => do
    return .array (args.map .script) :: (← takeArguments intakes args.tail)

/-- The script result of a call. -/
def giveResult : Outcome → NativeValue → Run Error ScriptValue
  | .discarded, _ => return .undefined
  | .checked type, value => catalog.toScriptAs type value

/-- One call through an adapter: arguments, native code, result. -/
def cross (a : Adapter) (args : List ScriptValue)
    (native : List NativeValue → Run Error NativeValue) : Run Error ScriptValue := do
  let natives ← catalog.takeArguments r a.intakes args
  catalog.giveResult a.outcome (← native natives)

/-- The first argument from a place on is the argument at that place. -/
theorem headD_drop (args : List ScriptValue) (place : Nat) :
    (args.drop place).headD .undefined = args.getD place .undefined := by
  rw [List.headD_eq_head?_getD, List.head?_drop, List.getD_eq_getElem?_getD]

/-- The operations of intakes, from a place on, gather what is taken from there on. -/
theorem runOps_intakes (intakes : List Intake) (place : Nat) (args : List ScriptValue)
    (native : List NativeValue → Run Error NativeValue) (s : Progress) :
    ((intakes.zipIdx place).map fun (intake, place) => intake.op place).foldlM
        (catalog.runOp r args native) s = (do
      let natives ← catalog.takeArguments r intakes (args.drop place)
      return { s with natives := s.natives ++ natives }) := by
  induction intakes generalizing place s with
  | nil => simp [takeArguments]
  | cons intake intakes ih =>
    simp only [List.zipIdx_cons, List.map_cons, List.foldlM_cons]
    cases intake with
    | converted type =>
      rw [Intake.op, runOp, takeArguments, headD_drop]
      simp only [List.tail_drop, ih, bind_assoc, pure_bind, List.append_assoc,
        List.singleton_append]
    | rest =>
      rw [Intake.op, runOp, takeArguments]
      simp only [List.tail_drop, ih, bind_assoc, pure_bind, List.append_assoc,
        List.singleton_append]

/-- Running the operations of an adapter is one call through it. -/
theorem runOps_eq_cross (a : Adapter) (args : List ScriptValue)
    (native : List NativeValue → Run Error NativeValue) :
    catalog.runOps r a.ops args native = catalog.cross r a args native := by
  obtain ⟨intakes, outcome⟩ := a
  rw [runOps, Adapter.ops, List.foldlM_append, runOps_intakes, cross]
  cases outcome <;>
    simp [runOp, Outcome.op, giveResult]

/-- A call of a member's function is one crossing to the member, on the instance behind the
receiver. -/
theorem callMember_eq (plan : MemberPlan) (this : ScriptValue) (args : List ScriptValue) :
    catalog.callMember r plan this args = (do
      let target ← receiver plan this
      catalog.cross r plan.adapter args (catalog.runMember r plan target)) := by
  simp only [callMember, runOps_eq_cross]

/-- A construction is one crossing to the first constructor that takes so many arguments. -/
theorem construct_eq (d : Definition) (args : List ScriptValue) :
    catalog.construct r d args =
      match d.constructor? args.length with
      | none => throw (.construction
          (.noMatchingConstructor (catalog.name d.declaration) args.length))
      | some plan =>
        (catalog.cross r plan.adapter args fun natives =>
          ((r.runConstructor d.declaration (catalog.made d.declaration) plan.code natives).mapError
            fun e => .construction (.failed (catalog.name d.declaration) e)).map .object).mapError
              (constructionError (catalog.name d.declaration)) := by
  unfold construct
  cases d.constructor? args.length with
  | none => rfl
  | some plan => exact congrArg (Run.mapError _) (catalog.runOps_eq_cross r _ _ _)

/-- A call of a face is one crossing to its callable. -/
theorem callFace_eq (c : Callable) (args : List ScriptValue) :
    catalog.callFace r c args = catalog.cross r (Adapter.ofShape c.shape) args fun natives =>
      (r.invoke c natives).mapError (Error.ofHost c.shape.name) :=
  catalog.runOps_eq_cross r _ _ _

end Catalog

end ScriptBoundary
