import ScriptBoundary.Classes.Declaration

/-!
# The catalogue of classes

All declarations of a program in the order in which they were made. A declaration can name as its
base and its interfaces only earlier ones, so walks along bases and interfaces come to an end: the
place of a declaration bounds the length of every walk from it. Several declarations may describe
one and the same type, which their common identity tells; questions about types compare identities.
-/

namespace ScriptBoundary

/-- A declaration names only earlier declarations as base and interfaces. -/
def ClassDecl.RestsOn (d : ClassDecl) (place : Nat) : Prop :=
  (∀ b ∈ d.base, b.index < place) ∧ ∀ i ∈ d.interfaces, i.index < place

instance (d : ClassDecl) (place : Nat) : Decidable (d.RestsOn place) :=
  inferInstanceAs (Decidable (_ ∧ _))

/-- The declarations of a program. -/
structure Catalog where
  decls : List ClassDecl
  restsOn : ∀ (place : Nat) (h : place < decls.length), decls[place].RestsOn place

namespace Catalog

/-- No declarations. -/
def empty : Catalog := ⟨[], fun _ h => absurd h (Nat.not_lt_zero _)⟩

instance : Inhabited Catalog := ⟨empty⟩

/-- How many declarations there are. -/
def size (catalog : Catalog) : Nat := catalog.decls.length

/-- The catalogue with one more declaration, if that names earlier ones only, and its place. -/
def declare? (catalog : Catalog) (d : ClassDecl) : Option (Catalog × ClassRef) :=
  if h : d.RestsOn catalog.size then
    some (⟨catalog.decls ++ [d], by
      intro place hp
      by_cases hlt : place < catalog.decls.length
      · simpa [List.getElem_append_left hlt] using catalog.restsOn place hlt
      · have : place = catalog.decls.length := by simp at hp; omega
        subst this
        simpa [size] using h⟩, ⟨catalog.size⟩)
  else none

variable (catalog : Catalog)

/-- The declaration at a place. -/
def decl (c : ClassRef) : ClassDecl := catalog.decls.getD c.index default

/-- The name of a class. -/
def name (c : ClassRef) : String := (catalog.decl c).name

/-- The identity of the type that a declaration describes. -/
def identity (c : ClassRef) : TypeId := (catalog.decl c).identity

/-- The declaration describes an interface. -/
def isInterface (c : ClassRef) : Bool := (catalog.decl c).isInterface

/-- Two declarations describe the same type. -/
def sameType (c d : ClassRef) : Bool := catalog.identity c == catalog.identity d

/-- The text of a type. -/
def typeText (type : NativeType) : String := type.text catalog.name

/-- The sort of a value in messages. -/
def kindName (value : NativeValue) : String := value.kindName catalog.name

/-- The error for a value that is not of a type. -/
def mismatch (type : NativeType) (got : String) : ConversionError :=
  .typeMismatch (catalog.typeText type) got

/-- The error for a number that a type does not hold. -/
def outOfRange (type : NativeType) (number : String) : ConversionError :=
  .outOfRange (catalog.typeText type) number

/-- Past the end of a catalogue every place stands for an empty declaration. -/
theorem decl_of_size_le {c : ClassRef} (h : catalog.size ≤ c.index) : catalog.decl c = default := by
  rw [decl, List.getD_eq_getElem?_getD, List.getElem?_eq_none h]
  rfl

theorem restsOn_decl (c : ClassRef) : (catalog.decl c).RestsOn c.index := by
  by_cases h : c.index < catalog.decls.length
  · simpa [decl, List.getD, List.getElem?_eq_getElem h] using catalog.restsOn c.index h
  · rw [catalog.decl_of_size_le (Nat.not_lt.1 h)]
    constructor <;> intro x hx <;> cases hx

/-- A walk along bases of at most so many steps. -/
def chain : Nat → ClassRef → List ClassRef
  | 0, _ => []
  | n + 1, c => c :: ((catalog.decl c).base.map (chain n)).getD []

/-- A class followed by its bases, most derived first. -/
def ancestors (c : ClassRef) : List ClassRef := catalog.chain (c.index + 1) c

theorem chain_of_lt {n : Nat} {c : ClassRef} (h : c.index < n) :
    catalog.chain n c = catalog.ancestors c := by
  suffices ∀ m n (c : ClassRef), c.index < n → c.index < m →
      catalog.chain n c = catalog.chain m c from this _ _ c h (Nat.lt_succ_self _)
  intro m
  induction m with
  | zero => intro n c _ hm; omega
  | succ m ih =>
    intro n c hn hm
    cases n with
    | zero => omega
    | succ n =>
      simp only [chain]
      cases hb : (catalog.decl c).base with
      | none => rfl
      | some b =>
        have := (catalog.restsOn_decl c).1 b (by simp [hb])
        simp only [Option.map_some, Option.getD_some]
        rw [ih n b (by omega) (by omega)]

theorem ancestors_eq (c : ClassRef) :
    catalog.ancestors c = c :: ((catalog.decl c).base.map catalog.ancestors).getD [] := by
  rw [ancestors, chain]
  cases hb : (catalog.decl c).base with
  | none => rfl
  | some b =>
    have := (catalog.restsOn_decl c).1 b (by simp [hb])
    simp only [Option.map_some, Option.getD_some]
    rw [catalog.chain_of_lt this]

/-- Adds an interface to those found, unless its type is among them, and then the interfaces that it
names, each in the same way. The number bounds the depth. -/
def visitInterface : Nat → List ClassRef → ClassRef → List ClassRef
  | 0, found, _ => found
  | n + 1, found, i =>
    if found.any (catalog.sameType i) then found
    else (catalog.decl i).interfaces.foldl (visitInterface n) (found ++ [i])

/-- Every interface of a class and of its bases, each followed by the interfaces it names, no type
twice. -/
def allInterfaces (c : ClassRef) : List ClassRef :=
  ((catalog.ancestors c).flatMap fun a => (catalog.decl a).interfaces).foldl
    (fun found i => catalog.visitInterface (i.index + 1) found i) []

/-- An instance of one class can stand where another type is asked for. -/
def isAssignable (c target : ClassRef) : Bool :=
  (catalog.ancestors c).any (catalog.sameType target) ||
    (catalog.allInterfaces c).any (catalog.sameType target)

/-- The class of the instances that the constructors of a class make. A constructor gives a value of
the very type that its class describes, and an instance reports its own class or one derived from
it, so no heed is paid to a declaration that names a class which cannot stand for it. -/
def made (c : ClassRef) : ClassRef :=
  match (catalog.decl c).made with
  | some m => if catalog.isAssignable m c then m else c
  | none => c

/-- A member is declared by a class, its bases or its interfaces. -/
def hasMember (c : ClassRef) (category : MemberCategory) (name : String) : Bool :=
  (catalog.ancestors c).any (fun a => (catalog.decl a).declares category name) ||
    (catalog.allInterfaces c).any (fun i => (catalog.decl i).declares category name)

/-- Neither a class nor its bases nor its interfaces declare a single member. -/
def declaresNoMembers (c : ClassRef) : Bool :=
  (catalog.ancestors c).all (fun a => (catalog.decl a).isBare) &&
    (catalog.allInterfaces c).all (fun i => (catalog.decl i).isBare)

end Catalog

end ScriptBoundary
