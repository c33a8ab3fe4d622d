import ScriptBoundary.Classes.Lookup
import ScriptBoundary.Keyed
import ScriptBoundary.Settings

/-!
# Exposed members

Which members of a class scripts see, and under which names. Claims on members come in a fixed
order: for the class and then each of its bases its own annotations and the descriptors registered
for that very type, then the same for every interface. A claim is taken up as a whole unless its
member or one of its names is taken already, so the first claim wins.

A plain script object can stand for an instance of a class. It fills those properties of the
instance whose setters scripts see and whose code is there.
-/

namespace ScriptBoundary

/-- An annotation given from outside a declaration. -/
structure Descriptor where
  member : String
  expose : Expose
deriving DecidableEq, Repr

/-- One function that scripts see. -/
structure ExposedMember where
  /-- The name scripts use. -/
  name : String
  member : String
  role : MemberRole
  /-- The class whose annotation or descriptor opened the member. -/
  declaring : ClassRef
deriving DecidableEq, Repr

/-- A property of a class that a plain object can fill. -/
structure FillableProperty where
  /-- The name scripts use. -/
  name : String
  member : String
  type : NativeType
  default : Option NativeValue
  setter : Implementation

/-- The descriptors registered for each type. -/
abbrev Registrations := List (TypeId × List Descriptor)

/-- The claim of a class on one of its members. -/
structure Claim where
  declaring : ClassRef
  member : String
  expose : Expose

namespace Registrations

/-- The descriptors registered for a type. -/
def of (registrations : Registrations) (type : TypeId) : List Descriptor :=
  (Keyed.get? type registrations).getD []

end Registrations

namespace Catalog

variable (catalog : Catalog) (prefixes : EventPrefixes)

/-- The functions that a claim asks for: one for a method, two for an event, and for a property one
or two, as it can be written and shows its setter. -/
def expand (claim : Claim) : List ExposedMember :=
  let name := claim.expose.name.getD claim.member
  let function (name : String) (role : MemberRole) : ExposedMember :=
    ⟨name, claim.member, role, claim.declaring⟩
  match claim.expose with
  | .function _ => [function name .method]
  | .property _ readOnly =>
    let writable := (catalog.property? claim.declaring claim.member).any (·.access.isWritable)
    function name .getter :: if writable && !readOnly then [function name .setter] else []
  | .event _ add remove =>
    [function (add.getD prefixes.add ++ name) .subscribe,
      function (remove.getD prefixes.remove ++ name) .unsubscribe]

/-- Takes up a claim, unless its member or one of its names is taken. -/
def takeUp (taken : List ExposedMember) (claim : Claim) : List ExposedMember :=
  let asked := catalog.expand prefixes claim
  if taken.any (·.member == claim.member) then taken
  else if asked.any (fun a => taken.any (·.name == a.name)) then taken
  else taken ++ asked

/-- The claims of a class by its own annotations. -/
def annotatedClaims (c : ClassRef) : List Claim :=
  (catalog.decl c).annotations.map fun (member, expose) => ⟨c, member, expose⟩

/-- The claims of a class by registered descriptors. -/
def registeredClaims (registrations : Registrations) (c : ClassRef) : List Claim :=
  (registrations.of (catalog.identity c)).map fun d => ⟨c, d.member, d.expose⟩

/-- The member that a claim names exists. -/
def claimsMember (claim : Claim) : Bool :=
  catalog.hasMember claim.declaring claim.expose.category claim.member

/-- All claims on members of a class, in order. Descriptors registered for an interface count only
where the interface has their member. -/
def claims (registrations : Registrations) (c : ClassRef) : List Claim :=
  ((catalog.ancestors c).flatMap fun a =>
      catalog.annotatedClaims a ++ catalog.registeredClaims registrations a) ++
    (catalog.allInterfaces c).flatMap fun i =>
      catalog.annotatedClaims i ++
        (catalog.registeredClaims registrations i).filter catalog.claimsMember

/-- The first descriptor registered for a class or one of its bases that names no member. -/
def strayClaim? (registrations : Registrations) (c : ClassRef) : Option Claim :=
  ((catalog.ancestors c).flatMap (catalog.registeredClaims registrations)).find?
    (!catalog.claimsMember ·)

/-- The members of a class that scripts see, in order. A descriptor that names no member of the type
it is registered for is an error. -/
def exposed (registrations : Registrations) (c : ClassRef) :
    Except ResolutionError (List ExposedMember) :=
  match catalog.strayClaim? registrations c with
  | some claim =>
    .error (.unknownMember (catalog.name claim.declaring) claim.member claim.expose.category)
  | none => .ok ((catalog.claims registrations c).foldl (catalog.takeUp prefixes) [])

/-- The property behind an exposed member of a class, if the member is a setter that has code. -/
def fillable? (c : ClassRef) (m : ExposedMember) : Option FillableProperty :=
  match m.role, catalog.property? c m.member, catalog.implementation? c .setter m.member with
  | .setter, some d, some setter => some ⟨m.name, m.member, d.type, d.default, setter⟩
  | _, _, _ => none

/-- The properties that a plain object fills, given the exposed members of a class. -/
def fillables (c : ClassRef) (members : List ExposedMember) : List FillableProperty :=
  members.filterMap (catalog.fillable? c)

end Catalog

end ScriptBoundary
