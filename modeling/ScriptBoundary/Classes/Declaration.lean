import ScriptBoundary.Code

/-!
# Class declarations

What a host states about one of its classes or interfaces: the members, their types and code, and
the annotations that open members to scripts. A member without an annotation stays closed.
-/

namespace ScriptBoundary

/-- An annotation that opens a member to scripts. A name in it stands in for the member's own. -/
inductive Expose where
  | function (name : Option String)
  /-- A property; a read-only one hides its setter. -/
  | property (name : Option String) (readOnly : Bool)
  /-- An event, with prefixes in place of the configured ones. -/
  | event (name addPrefix removePrefix : Option String)
deriving DecidableEq, Repr

namespace Expose

/-- The name that stands in for the member's own. -/
def name : Expose → Option String
  | function name | property name _ | event name _ _ => name

/-- The sort of member an annotation is for. -/
def category : Expose → MemberCategory
  | function _ => .method
  | property .. => .property
  | event .. => .event

/-- Hides the setter of a property; says nothing about other members. -/
def hidingSetter : Expose → Expose
  | property name _ => property name true
  | other => other

/-- Sets both prefixes of an event; says nothing about other members. -/
def withPrefixes (add remove : String) : Expose → Expose
  | event name _ _ => event name (some add) (some remove)
  | other => other

end Expose

/-- The part that a script-visible function plays for a member. -/
inductive MemberRole where
  | method | getter | setter | subscribe | unsubscribe
deriving DecidableEq, Repr

namespace MemberRole

/-- The sort of member a role belongs to. -/
def category : MemberRole → MemberCategory
  | method => .method
  | getter | setter => .property
  | subscribe | unsubscribe => .event

def text : MemberRole → String
  | method => "method"
  | getter => "getter"
  | setter => "setter"
  | subscribe => "event subscribe"
  | unsubscribe => "event unsubscribe"

end MemberRole

/-- A declared method. One without code is abstract. -/
structure MethodDecl where
  name : String
  params : List Param
  result : NativeType
  expose : Option Expose
  code : Option MemberCode

/-- How a property is read and written. -/
inductive PropertyAccess where
  | readWrite (get set : MemberCode)
  | readOnly (get : MemberCode)
  /-- Declared without code. -/
  | abstract (writable : Bool)

namespace PropertyAccess

/-- A value may be assigned. Every property may be read. -/
def isWritable : PropertyAccess → Bool
  | readWrite .. => true
  | readOnly _ => false
  | abstract writable => writable

def getter : PropertyAccess → Option MemberCode
  | readWrite get _ | readOnly get => some get
  | abstract _ => none

def setter : PropertyAccess → Option MemberCode
  | readWrite _ set => some set
  | readOnly _ | abstract _ => none

end PropertyAccess

/-- A declared property. The default is assigned when an instance is made from a plain script object
that does not mention the property. -/
structure PropertyDecl where
  name : String
  type : NativeType
  expose : Option Expose
  default : Option NativeValue
  access : PropertyAccess

/-- The code of an event: what subscribing and unsubscribing a handler do. -/
structure EventAccessors where
  add : MemberCode
  remove : MemberCode

/-- A declared event. One without code is abstract. -/
structure EventDecl where
  name : String
  handler : Shape
  expose : Option Expose
  accessors : Option EventAccessors

/-- A constructor: its parameters, and what it does with the new instance and the arguments. -/
structure ConstructorDecl where
  params : List Param
  code : MemberCode

/-- The declaration of a class or an interface. -/
structure ClassDecl where
  identity : TypeId
  name : String
  isInterface : Bool
  base : Option ClassRef
  /-- The interfaces named by this declaration itself. -/
  interfaces : List ClassRef
  methods : List MethodDecl
  properties : List PropertyDecl
  events : List EventDecl
  constructors : List ConstructorDecl
  /-- Code of a base class accepts instances of this class. -/
  projects : Bool
  /-- The class of the instances that constructors make, if it is not this one but one that can
  stand for it. -/
  made : Option ClassRef := none

namespace ClassDecl

instance : Inhabited ClassDecl := ⟨⟨⟨0⟩, "", false, none, [], [], [], [], [], true, none⟩⟩

/-- A member of a sort and name stands in this declaration. -/
def declares (d : ClassDecl) (category : MemberCategory) (name : String) : Bool :=
  match category with
  | .method => d.methods.any (·.name == name)
  | .property => d.properties.any (·.name == name)
  | .event => d.events.any (·.name == name)

/-- No member stands in this declaration. -/
def isBare (d : ClassDecl) : Bool := d.methods.isEmpty && d.properties.isEmpty && d.events.isEmpty

/-- The code for a member in a role, if this declaration has it: the first member of that name that
comes with code. -/
def code (d : ClassDecl) (role : MemberRole) (name : String) : Option MemberCode :=
  match role with
  | .method => d.methods.findSome? fun m => if m.name = name then m.code else none
  | .getter => d.properties.findSome? fun p => if p.name = name then p.access.getter else none
  | .setter => d.properties.findSome? fun p => if p.name = name then p.access.setter else none
  | .subscribe => d.events.findSome? fun e =>
      if e.name = name then e.accessors.map EventAccessors.add else none
  | .unsubscribe => d.events.findSome? fun e =>
      if e.name = name then e.accessors.map EventAccessors.remove else none

/-- The annotated members, each with its annotation: methods, then properties, then events. -/
def annotations (d : ClassDecl) : List (String × Expose) :=
  d.methods.filterMap (fun m => m.expose.map (m.name, ·)) ++
    d.properties.filterMap (fun p => p.expose.map (p.name, ·)) ++
    d.events.filterMap (fun e => e.expose.map (e.name, ·))

end ClassDecl

end ScriptBoundary
