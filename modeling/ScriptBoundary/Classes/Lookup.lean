import ScriptBoundary.Classes.Catalog

/-!
# Finding members

A member has a signature and, maybe elsewhere, code. The signature is the first declaration of the
name along the bases, else along the bases of the interfaces. The code is the most derived one along
the bases of the class that an instance really has; abstract declarations on the way are passed
over.
-/

namespace ScriptBoundary

/-- Code for a member and the class whose declaration holds it. -/
structure Implementation where
  owner : ClassRef
  member : String
  role : MemberRole
  code : MemberCode

namespace Catalog

variable (catalog : Catalog)

/-- The first answer along a class and its bases, else along its interfaces and their bases. -/
def findSignature {α : Type} (c : ClassRef) (find : ClassDecl → Option α) : Option α :=
  let along (c : ClassRef) := (catalog.ancestors c).findSome? fun a => find (catalog.decl a)
  along c <|> (catalog.allInterfaces c).findSome? along

/-- The signature of a method as a class sees it. -/
def method? (c : ClassRef) (name : String) : Option MethodDecl :=
  catalog.findSignature c fun d => d.methods.find? (·.name = name)

/-- The signature of a property as a class sees it. -/
def property? (c : ClassRef) (name : String) : Option PropertyDecl :=
  catalog.findSignature c fun d => d.properties.find? (·.name = name)

/-- The signature of an event as a class sees it: bases of interfaces are not searched. -/
def event? (c : ClassRef) (name : String) : Option EventDecl :=
  let find (c : ClassRef) := (catalog.decl c).events.find? (·.name = name)
  (catalog.ancestors c).findSome? find <|> (catalog.allInterfaces c).findSome? find

/-- The most derived code for a member in a role. -/
def implementation? (c : ClassRef) (role : MemberRole) (name : String) : Option Implementation :=
  (catalog.ancestors c).findSome? fun a =>
    ((catalog.decl a).code role name).map (⟨a, name, role, ·⟩)

/-- Code of one class accepts an instance of another: they are the same type, or the instance
projects to its bases and the owner is among them. -/
def receives (owner runtimeClass : ClassRef) : Bool :=
  catalog.sameType owner runtimeClass ||
    ((catalog.decl runtimeClass).projects &&
      (catalog.ancestors runtimeClass).any (catalog.sameType owner))

/-- The constructor for a number of arguments: one with exactly that many parameters, else one whose
last parameter takes all that remain. -/
def constructorFor (c : ClassRef) (arity : Nat) : Option ConstructorDecl :=
  let ctors := (catalog.decl c).constructors
  ctors.find? (fun k => k.params.length == arity && !k.params.any Param.isRest) <|>
    ctors.find? fun k =>
      (k.params.getLast?.any Param.isRest) && k.params.length ≤ arity + 1

/-- The name of the code of a member, after the class that declares it. -/
def label (owner : ClassRef) (member : String) (role : MemberRole) : String :=
  catalog.name owner ++ "." ++ member ++
    match role with
    | .method => ""
    | .getter => ".get"
    | .setter => ".set"
    | .subscribe => ".add"
    | .unsubscribe => ".remove"

end Catalog

end ScriptBoundary
