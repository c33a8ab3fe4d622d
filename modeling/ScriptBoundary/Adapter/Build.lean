import ScriptBoundary.Store.World

/-!
# Building definitions

The definition of a type is built on first use, from the members that the type exposes, and kept
under the identity of the type, so that no type is built twice. With the definition of a type those
of the classes that its exposed members mention are built first, if the settings say so; a type
whose definition is under way is passed over, which lets classes mention each other.
-/

namespace ScriptBoundary

namespace Catalog

variable (catalog : Catalog)

/-- The adapter of an exposed member, by its signature on the declaring class, with the types in
that signature. -/
def memberSignature (m : ExposedMember) : Except ResolutionError (Adapter × List NativeType) :=
  let found := match m.role with
    | .method => (catalog.method? m.declaring m.member).map fun d =>
        (Adapter.ofSignature d.params d.result, d.params.map Param.type ++ [d.result])
    | .getter => (catalog.property? m.declaring m.member).map fun d =>
        (⟨[], .checked d.type⟩, [d.type])
    | .setter => (catalog.property? m.declaring m.member).map fun d =>
        (⟨[.converted d.type], .discarded⟩, [d.type])
    | .subscribe | .unsubscribe => (catalog.event? m.declaring m.member).map fun d =>
        (⟨[.converted (.callable d.handler)], .discarded⟩, [.callable d.handler])
  match found with
  | some signature => .ok signature
  | none => .error (.unknownMember (catalog.name m.declaring) m.member m.role.category)

/-- The plan of an exposed member of a class, and the other classes that its signature mentions. The
code is bound unless the proxy finds code by name. -/
def planMember (c : ClassRef) (mode : ProxyMode) (m : ExposedMember) :
    Except Error (MemberPlan × List ClassRef) := do
  let (adapter, types) ← (catalog.memberSignature m).mapError Error.resolution
  types.forM fun type => (catalog.scriptKind type).mapError Error.conversion |>.map fun _ => ()
  let mentioned := (types.filterMap NativeType.referenced).filter fun d => !catalog.sameType d c
  let bound := match mode with
    | .bound => catalog.implementation? c m.role m.member
    | .byName => none
  return (⟨m.name, m.member, m.role, adapter, bound⟩, mentioned)

/-- The plan of a constructor of a class. -/
def planConstructor (c : ClassRef) (k : ConstructorDecl) : Except Error ConstructorPlan := do
  (catalog.paramsSupported k.params).mapError Error.conversion
  return ⟨k.params, .ofSignature k.params (.object c), k.code⟩

/-- The mode of the definition of a class or interface. -/
def mode (c : ClassRef) : ProxyMode := if catalog.isInterface c then .byName else .bound

/-- The plans of a definition: of its members, of its constructors, and the classes mentioned. -/
def plans (c : ClassRef) (members : List ExposedMember) :
    Except Error (List MemberPlan × List ConstructorPlan × List ClassRef) := do
  let planned ← members.mapM (catalog.planMember c (catalog.mode c))
  let constructors ← match catalog.mode c with
    | .bound => (catalog.decl c).constructors.mapM (catalog.planConstructor c)
    | .byName => .ok []
  return (planned.map (·.1), constructors, planned.flatMap (·.2))

end Catalog

namespace Heap

/-- Puts the function of a plan on a prototype: an accessor for a property, which joins the other
half if that is there already, else the function itself. -/
def addMember (prototype : ObjectId) (h : Heap) (plan : MemberPlan) : Heap :=
  let (h, f) := h.newFunction ⟨plan.name, .member plan⟩
  match plan.role with
  | .method | .subscribe | .unsubscribe => h.insert prototype plan.name (.function f)
  | .getter =>
    match h.own? prototype plan.name with
    | some (.accessor _ set) => h.define prototype plan.name (.accessor (some f) set)
    | _ => h.define prototype plan.name (.accessor (some f) none)
  | .setter =>
    match h.own? prototype plan.name with
    | some (.accessor get _) => h.define prototype plan.name (.accessor get (some f))
    | _ => h.define prototype plan.name (.accessor none (some f))

/-- The prototype that carries the functions of a list of plans. -/
def newPrototype (h : Heap) (plans : List MemberPlan) : Heap × ObjectId :=
  let (h, prototype) := h.newObject .plain
  (plans.foldl (addMember prototype) h, prototype)

end Heap

namespace Exposer

/-- The definition kept for a type. -/
def definition? (e : Exposer) (type : TypeId) : Option Definition := Keyed.get? type e.definitions

/-- Keeps a new definition under the identity of its type, unless the type has one. -/
def keep (e : Exposer) (type : TypeId) (d : Definition) : Exposer :=
  { e with
    builds := e.builds + 1
    definitions :=
      if (e.definition? type).isSome then e.definitions else e.definitions ++ [(type, d)] }

end Exposer

namespace Catalog

variable (catalog : Catalog)

/-- The members of a class that scripts see, by the registrations and settings in force. -/
def resolve (c : ClassRef) : Run Error (List ExposedMember) := do
  let e ← Run.read (·.exposer)
  .ofExcept ((catalog.exposed e.settings.events e.registrations c).mapError Error.resolution)

/-- The definition kept for the type of a class. -/
def kept? {ε : Type} (c : ClassRef) : Run ε (Option Definition) :=
  Run.read fun w => w.exposer.definition? (catalog.identity c)

/-- The definition of a class, built if the type has none. The types under way are those whose
building led here; the number bounds how many more there can be. -/
def build : Nat → List TypeId → ClassRef → Run Error Definition
  | 0, _, _ => .exhausted
  | n + 1, underWay, c => do
    match ← catalog.kept? c with
    | some d => return d
    | none =>
      let (members, constructors, mentioned) ←
        .ofExcept (catalog.plans c (← catalog.resolve c))
      let settings ← Run.read (·.exposer.settings)
      if settings.prebuildNested then
        let underWay := catalog.identity c :: underWay
        mentioned.forM fun other => do
          if catalog.isInterface other || underWay.contains (catalog.identity other) then
            return ()
          if (← catalog.kept? other).isNone then
            let _ ← build n underWay other
      let prototype ← Run.onHeap (·.newPrototype members)
      let d : Definition :=
        ⟨c, catalog.mode c, settings.namePrefix ++ catalog.name c, members, constructors, prototype⟩
      Run.onExposer (·.keep (catalog.identity c) d)
      return (← catalog.kept? c).getD d

/-- The definition of a class, built on first use. -/
def definitionOf (c : ClassRef) : Run Error Definition := catalog.build (catalog.size + 1) [] c

/-- A proxy of an instance by the definition of its class. -/
def wrapInstance (target : Instance) : Run Error ScriptValue := do
  let d ← catalog.definitionOf target.runtimeClass
  return .object (← Run.onHeap (·.newProxy d target))

end Catalog

end ScriptBoundary
