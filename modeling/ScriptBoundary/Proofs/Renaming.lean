import ScriptBoundary.Adapter.Plan

/-!
# Renaming classes

Types, declarations and plans name classes by their places, and several places may hold declarations
of one type. Renaming replaces the places and leaves everything else. Where each class is named by
its identity, two types are the same exactly when they are equal (`NativeType.same_iff`), so that
being the same is an equivalence.
-/

namespace ScriptBoundary

/-! ## Types -/

section Rename

variable (f : ClassRef → ClassRef)

mutual

/-- The type with its classes renamed. -/
def NativeType.rename : NativeType → NativeType
  | .array element => .array element.rename
  | .sequence element => .sequence element.rename
  | .dictionary value => .dictionary value.rename
  | .callable shape => .callable shape.rename
  | .object c => .object (f c)
  | .void => .void
  | .bool => .bool
  | .int kind => .int kind
  | .float kind => .float kind
  | .char => .char
  | .datetime => .datetime
  | .string => .string
  | .enumeration d => .enumeration d
  | .multimap => .multimap
  | .json => .json
  | .any => .any

/-- The shape with its classes renamed. -/
def Shape.rename : Shape → Shape
  | ⟨name, params, result⟩ => ⟨name, renameParams params, result.rename⟩

/-- The parameter with its classes renamed. -/
def Param.rename : Param → Param
  | .fixed name type => .fixed name type.rename
  | .rest name => .rest name

/-- The parameters with their classes renamed. -/
def renameParams : List Param → List Param
  | [] => []
  | p :: ps => p.rename :: renameParams ps

end

theorem renameParams_eq_map (ps : List Param) : renameParams f ps = ps.map (Param.rename f) := by
  induction ps with
  | nil => rfl
  | cons p ps ih => rw [renameParams, ih, List.map_cons]

@[simp] theorem Param.type_rename (p : Param) : (p.rename f).type = p.type.rename f := by
  cases p <;> rfl

@[simp] theorem NativeType.isVoid_rename (type : NativeType) :
    (type.rename f).isVoid = type.isVoid := by
  cases type <;> rfl

/-- The class that a renamed type holds is that of the type, renamed. -/
theorem NativeType.referenced_rename (type : NativeType) :
    (type.rename f).referenced = type.referenced.map f := by
  induction type using NativeType.referenced.induct with
  | case1 c => rfl
  | case2 inner ih => exact ih
  | case3 inner ih => exact ih
  | case4 inner ih => exact ih
  | case5 type => cases type <;> first | rfl | simp_all

end Rename

/-- The names that classes are given tell their identities, and nothing else. -/
def NamesIdentity (identity : ClassRef → TypeId) (f : ClassRef → ClassRef) : Prop :=
  ∀ c d, f c = f d ↔ identity c = identity d

/-- Naming a class by the number of its identity. -/
theorem namesIdentity_number (identity : ClassRef → TypeId) :
    NamesIdentity identity fun c => ⟨(identity c).number⟩ := by
  intro c d
  show (⟨_⟩ : ClassRef) = ⟨_⟩ ↔ (⟨(identity c).number⟩ : TypeId) = ⟨(identity d).number⟩
  rw [ClassRef.mk.injEq, TypeId.mk.injEq]

section Same

variable {identity : ClassRef → TypeId} {f : ClassRef → ClassRef}

mutual

/-- Types are the same exactly when they are equal with their classes named by identity. -/
theorem NativeType.same_iff (hf : NamesIdentity identity f) : (a b : NativeType) →
    (a.same identity b = true ↔ a.rename f = b.rename f)
  | .array a, b => by
    cases b <;> simp [NativeType.same, NativeType.rename, NativeType.same_iff hf a]
  | .sequence a, b => by
    cases b <;> simp [NativeType.same, NativeType.rename, NativeType.same_iff hf a]
  | .dictionary a, b => by
    cases b <;> simp [NativeType.same, NativeType.rename, NativeType.same_iff hf a]
  | .callable a, b => by
    cases b <;> simp [NativeType.same, NativeType.rename, Shape.same_iff hf a]
  | .object c, b => by cases b <;> simp [NativeType.same, NativeType.rename, hf c]
  | .void, b | .bool, b | .int _, b | .float _, b | .char, b | .datetime, b | .string, b
  | .enumeration _, b | .multimap, b | .json, b | .any, b => by
    cases b <;> simp [NativeType.same, NativeType.rename]

theorem Shape.same_iff (hf : NamesIdentity identity f) : (a b : Shape) →
    (a.same identity b = true ↔ a.rename f = b.rename f)
  | ⟨name, params, result⟩, ⟨name', params', result'⟩ => by
    simp [Shape.same, Shape.rename, sameParams_iff hf params, NativeType.same_iff hf result,
      and_assoc]

theorem Param.same_iff (hf : NamesIdentity identity f) : (a b : Param) →
    (a.same identity b = true ↔ a.rename f = b.rename f)
  | .fixed name type, b => by
    cases b <;> simp [Param.same, Param.rename, NativeType.same_iff hf type]
  | .rest name, b => by cases b <;> simp [Param.same, Param.rename]

theorem sameParams_iff (hf : NamesIdentity identity f) : (ps qs : List Param) →
    (sameParams identity ps qs = true ↔ renameParams f ps = renameParams f qs)
  | [], qs => by cases qs <;> simp [sameParams, renameParams]
  | p :: ps, qs => by
    cases qs <;> simp [sameParams, renameParams, Param.same_iff hf p, sameParams_iff hf ps]

end

end Same

/-- Being the same is an equivalence of shapes. -/
theorem Shape.equivalence_same (identity : ClassRef → TypeId) :
    Equivalence fun a b : Shape => a.same identity b = true := by
  have hsame := Shape.same_iff (namesIdentity_number identity)
  refine ⟨fun a => (hsame a a).2 rfl, fun {a b} h => ?_, fun {a b c} h₁ h₂ => ?_⟩
  · exact (hsame b a).2 ((hsame a b).1 h).symm
  · exact (hsame a c).2 (((hsame a b).1 h₁).trans ((hsame b c).1 h₂))

/-! ## Declarations and plans -/

section Rename

variable (f : ClassRef → ClassRef)

def MethodDecl.rename (m : MethodDecl) : MethodDecl :=
  { m with params := renameParams f m.params, result := m.result.rename f }

def PropertyDecl.rename (p : PropertyDecl) : PropertyDecl := { p with type := p.type.rename f }

def EventDecl.rename (e : EventDecl) : EventDecl := { e with handler := e.handler.rename f }

def ConstructorDecl.rename (k : ConstructorDecl) : ConstructorDecl :=
  { k with params := renameParams f k.params }

/-- The declaration with the classes that it names renamed. -/
def ClassDecl.rename (d : ClassDecl) : ClassDecl :=
  { d with
    base := d.base.map f
    interfaces := d.interfaces.map f
    methods := d.methods.map (MethodDecl.rename f)
    properties := d.properties.map (PropertyDecl.rename f)
    events := d.events.map (EventDecl.rename f)
    constructors := d.constructors.map (ConstructorDecl.rename f)
    made := d.made.map f }

theorem ClassDecl.declares_rename (d : ClassDecl) (category : MemberCategory) (name : String) :
    (d.rename f).declares category name = d.declares category name := by
  cases category <;> exact List.any_map

theorem ClassDecl.isBare_rename (d : ClassDecl) : (d.rename f).isBare = d.isBare := by
  simp only [isBare, rename, List.isEmpty_map]

theorem ClassDecl.annotations_rename (d : ClassDecl) :
    (d.rename f).annotations = d.annotations := by
  simp only [annotations, rename, List.filterMap_map]
  rfl

theorem ClassDecl.code_rename (d : ClassDecl) (role : MemberRole) (name : String) :
    (d.rename f).code role name = d.code role name := by
  cases role <;> exact List.findSome?_map

def Claim.rename (claim : Claim) : Claim := { claim with declaring := f claim.declaring }

def ExposedMember.rename (m : ExposedMember) : ExposedMember :=
  { m with declaring := f m.declaring }

def Implementation.rename (i : Implementation) : Implementation := { i with owner := f i.owner }

def Intake.rename : Intake → Intake
  | .converted type => .converted (type.rename f)
  | .rest => .rest

def Outcome.rename : Outcome → Outcome
  | .discarded => .discarded
  | .checked type => .checked (type.rename f)

def Adapter.rename (a : Adapter) : Adapter :=
  ⟨a.intakes.map (Intake.rename f), a.outcome.rename f⟩

def MemberPlan.rename (plan : MemberPlan) : MemberPlan :=
  { plan with
    adapter := plan.adapter.rename f
    bound := plan.bound.map (Implementation.rename f) }

def ConstructorPlan.rename (plan : ConstructorPlan) : ConstructorPlan :=
  { plan with params := renameParams f plan.params, adapter := plan.adapter.rename f }

/-- The adapter of a renamed signature. -/
theorem Adapter.ofSignature_rename (params : List Param) (result : NativeType) :
    (ofSignature params result).rename f =
      ofSignature (renameParams f params) (result.rename f) := by
  have hintakes : (params.map Param.intake).map (Intake.rename f) =
      (renameParams f params).map Param.intake := by
    rw [renameParams_eq_map, List.map_map, List.map_map]
    refine List.map_congr_left fun p _ => ?_
    cases p <;> rfl
  simp only [ofSignature, rename, hintakes, NativeType.isVoid_rename]
  split <;> rfl

end Rename

end ScriptBoundary
