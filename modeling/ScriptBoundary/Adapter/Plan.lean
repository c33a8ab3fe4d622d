import ScriptBoundary.Classes.Exposure

/-!
# Adapters and plans

An adapter says how one call crosses: where each native argument comes from among the script
arguments, and what becomes of the native result. It is written out as a list of operations, which
is what a call runs. A plan joins an adapter to the member it calls. The definition of a proxy is
the list of the plans of a type, its constructors, and the prototype object that all its proxies
share.
-/

namespace ScriptBoundary

/-- Where a native argument comes from. -/
inductive Intake where
  /-- The script argument at the same place, converted; undefined when there is none. -/
  | converted (type : NativeType)
  /-- All script arguments from the same place on, as they are. -/
  | rest

/-- What becomes of the native result. -/
inductive Outcome where
  /-- The call gives undefined. -/
  | discarded
  /-- The result is checked against a type and converted. -/
  | checked (type : NativeType)

/-- How one call crosses from scripts to native code and back. -/
structure Adapter where
  intakes : List Intake
  outcome : Outcome

/-- One step of a call. -/
inductive Op where
  /-- Converts the script argument at a place to a native type, undefined where there is none. -/
  | unmarshal (place : Nat) (type : NativeType)
  /-- Passes on all script arguments from a place on, as they are. -/
  | collectRest (place : Nat)
  /-- Calls the native code with the arguments gathered so far. -/
  | invoke
  /-- Checks the native result against a type and converts it. -/
  | marshal (type : NativeType)
  /-- Drops the native result: the call gives undefined. -/
  | discard

/-- The operation that takes in the argument at a place. -/
def Intake.op (place : Nat) : Intake → Op
  | converted type => .unmarshal place type
  | rest => .collectRest place

/-- The operation that gives the result. -/
def Outcome.op : Outcome → Op
  | discarded => .discard
  | checked type => .marshal type

/-- The intake of a parameter. -/
def Param.intake : Param → Intake
  | .fixed _ type => .converted type
  | .rest _ => .rest

namespace Adapter

/-- The adapter of a list of parameters and a result type. -/
def ofSignature (params : List Param) (result : NativeType) : Adapter :=
  ⟨params.map Param.intake, if result.isVoid then .discarded else .checked result⟩

/-- The adapter of a callable's shape. -/
def ofShape (shape : Shape) : Adapter := ofSignature shape.params shape.result

/-- The operations of a call: the arguments in order, the native code, the result. -/
def ops (a : Adapter) : List Op :=
  a.intakes.zipIdx.map (fun (intake, place) => intake.op place) ++ [.invoke, a.outcome.op]

end Adapter

/-- One exposed function: how calls of it cross, and the code they reach. Code that is not bound is
looked up on the class of the instance when the call comes. -/
structure MemberPlan where
  /-- The name scripts use. -/
  name : String
  member : String
  role : MemberRole
  adapter : Adapter
  bound : Option Implementation

/-- A constructor that scripts can call. -/
structure ConstructorPlan where
  params : List Param
  adapter : Adapter
  code : MemberCode

/-- Script construction takes this constructor for a number of arguments. -/
def ConstructorPlan.accepts (plan : ConstructorPlan) (arity : Nat) : Bool :=
  if plan.params.getLast?.any Param.isRest then plan.params.length ≤ arity + 1
  else arity == plan.params.length

/-- How the members of a proxy find their code. -/
inductive ProxyMode where
  /-- A proxy of a class: code is bound when the definition is built. -/
  | bound
  /-- A proxy of an interface: code is looked up on each instance by name. -/
  | byName
deriving DecidableEq, Repr

/-- All that is needed to wrap instances of one type. -/
structure Definition where
  declaration : ClassRef
  mode : ProxyMode
  /-- The class name that proxies report. -/
  name : String
  members : List MemberPlan
  constructors : List ConstructorPlan
  prototype : ObjectId

/-- The first constructor that script construction takes for a number of arguments. -/
def Definition.constructor? (d : Definition) (arity : Nat) : Option ConstructorPlan :=
  d.constructors.find? (·.accepts arity)

/-- The first plan that scripts see under a name. -/
def Definition.member? (d : Definition) (name : String) : Option MemberPlan :=
  d.members.find? (·.name = name)

end ScriptBoundary
