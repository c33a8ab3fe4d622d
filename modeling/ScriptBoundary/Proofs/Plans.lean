import ScriptBoundary.Proofs.Computation
import ScriptBoundary.Proofs.Twins

/-!
# Plans of declarations of one type

Whether the definition of a class can be planned, and how it is, is the same for all declarations of
its type, where these are equal: the same failure, or plans that differ at most in the places by
which they name classes (`outline_congr`).
-/

namespace ScriptBoundary

/-! ## Pure computations with results of one form -/

section Forms

variable {ε ε' α β γ δ : Type}

/-- What follows results of one form gives results of one form. -/
theorem bind_congr_map {x x' : Except ε α} {f f' : α → Except ε β} {s : α → γ} {t : β → δ}
    (hx : x.map s = x'.map s) (hf : ∀ a a', s a = s a' → (f a).map t = (f' a').map t) :
    (x >>= f).map t = (x' >>= f').map t := by
  cases x with
  | error e =>
    cases x' with
    | error e' =>
      cases hx
      rfl
    | ok a' => cases hx
  | ok a =>
    cases x' with
    | error e' => cases hx
    | ok a' => exact hf a a' (Except.ok.inj hx)

/-- Errors of another form leave the form of results. -/
theorem mapError_congr_map {x x' : Except ε α} {s : α → γ} (h : x.map s = x'.map s)
    (e : ε → ε') : (x.mapError e).map s = (x'.mapError e).map s := by
  have hcommute : ∀ x : Except ε α, (x.mapError e).map s = (x.map s).mapError e := by
    intro x
    cases x <;> rfl
  rw [hcommute, h, ← hcommute]

/-- Steps over lists of one form give results of one form, when each step does. -/
theorem mapM_congr_map {r : α → γ} {s : β → δ} {f g : α → Except ε β}
    (hfg : ∀ a a', r a = r a' → (f a).map s = (g a').map s) {l l' : List α}
    (h : l.map r = l'.map r) : (l.mapM f).map (List.map s) = (l'.mapM g).map (List.map s) := by
  induction l generalizing l' with
  | nil =>
    rw [List.map_eq_nil_iff.1 h.symm]
    rfl
  | cons a l ih =>
    obtain ⟨a', l', rfl, ha, hrest⟩ := List.map_eq_cons_iff.1 h.symm
    rw [List.mapM_cons, List.mapM_cons]
    refine bind_congr_map (hfg a a' ha.symm) fun b b' hb => ?_
    refine bind_congr_map (ih hrest.symm) fun bs bs' hbs => ?_
    exact congrArg Except.ok (congrArg₂ List.cons hb hbs)

/-- What is made of options of one form is of one form. -/
theorem map_congr_of_commutes {r : α → α} {g : α → β} {s : β → β} {o o' : Option α}
    (h : o'.map r = o.map r) (hcommute : ∀ a, s (g a) = g (r a)) :
    (o'.map g).map s = (o.map g).map s := by
  have hrename : ∀ o : Option α, (o.map g).map s = (o.map r).map g := by
    intro o
    rw [Option.map_map, Option.map_map]
    exact congrArg (Option.map · o) (funext hcommute)
  rw [hrename, h, hrename]

/-- What may be missing, with an error where it is. -/
theorem elim_congr_map {s : α → γ} {o o' : Option α} (h : o'.map s = o.map s) (e : ε) :
    (o'.elim (.error e) Except.ok).map s = (o.elim (.error e) Except.ok).map s := by
  cases o with
  | none => rw [Option.map_eq_none_iff.1 h]
  | some a =>
    obtain ⟨a', rfl, ha⟩ := Option.map_eq_some_iff.1 h
    exact congrArg Except.ok ha

end Forms

/-- An adapter and the types of a signature, with the classes that they name renamed. -/
def renameSignature (f : ClassRef → ClassRef) (signature : Adapter × List NativeType) :
    Adapter × List NativeType :=
  (signature.1.rename f, signature.2.map (NativeType.rename f))

namespace Catalog

variable {catalog : Catalog}

/-! ## Types -/

mutual

theorem scriptKind_rename (hcoherent : catalog.Coherent) : (type : NativeType) →
    catalog.scriptKind (type.rename catalog.first) = catalog.scriptKind type
  | .array element | .sequence element | .dictionary element => by
    simp only [NativeType.rename, scriptKind, scriptKind_rename hcoherent element]
  | .callable shape => by
    simp only [NativeType.rename, scriptKind, shapeSupported_rename hcoherent shape]
  | .object c => by
    simp only [NativeType.rename, scriptKind, declaresNoMembers_first hcoherent,
      name_first hcoherent]
  | .void | .bool | .int _ | .float _ | .char | .datetime | .string | .enumeration _ | .multimap
  | .json | .any => rfl

theorem shapeSupported_rename (hcoherent : catalog.Coherent) : (shape : Shape) →
    catalog.shapeSupported (shape.rename catalog.first) = catalog.shapeSupported shape
  | ⟨name, params, result⟩ => by
    simp only [Shape.rename, shapeSupported, paramsSupported_rename hcoherent params,
      scriptKind_rename hcoherent result]

theorem paramsSupported_rename (hcoherent : catalog.Coherent) : (params : List Param) →
    catalog.paramsSupported (renameParams catalog.first params) = catalog.paramsSupported params
  | [] => rfl
  | .fixed name type :: rest => by
    simp only [renameParams, Param.rename, paramsSupported, scriptKind_rename hcoherent type,
      paramsSupported_rename hcoherent rest]
  | .rest name :: rest => by
    simp only [renameParams, Param.rename, paramsSupported, paramsSupported_rename hcoherent rest]

end

/-! ## Plans -/

/-- Plans, and the classes mentioned, with the classes that they name renamed. -/
def renamePlans (f : ClassRef → ClassRef)
    (plans : List MemberPlan × List ConstructorPlan × List ClassRef) :
    List MemberPlan × List ConstructorPlan × List ClassRef :=
  (plans.1.map (MemberPlan.rename f), plans.2.1.map (ConstructorPlan.rename f), plans.2.2.map f)

variable (catalog) in
/-- The adapter of an exposed member and the types in its signature, if its class has the member. -/
def signature? (m : ExposedMember) : Option (Adapter × List NativeType) :=
  match m.role with
  | .method => (catalog.method? m.declaring m.member).map fun d =>
      (Adapter.ofSignature d.params d.result, d.params.map Param.type ++ [d.result])
  | .getter => (catalog.property? m.declaring m.member).map fun d =>
      (⟨[], .checked d.type⟩, [d.type])
  | .setter => (catalog.property? m.declaring m.member).map fun d =>
      (⟨[.converted d.type], .discarded⟩, [d.type])
  | .subscribe | .unsubscribe => (catalog.event? m.declaring m.member).map fun d =>
      (⟨[.converted (.callable d.handler)], .discarded⟩, [.callable d.handler])

theorem memberSignature_eq (m : ExposedMember) : catalog.memberSignature m =
    (catalog.signature? m).elim
      (.error (.unknownMember (catalog.name m.declaring) m.member m.role.category)) .ok := by
  unfold memberSignature
  dsimp only
  change (match catalog.signature? m with
    | some signature => Except.ok signature
    | none => _) = _
  cases catalog.signature? m <;> rfl

section Plans

variable (hcoherent : catalog.Coherent)

include hcoherent

/-- The signature of an exposed member, by the first declaration of the class that opened it. -/
theorem memberSignature_first (m : ExposedMember) :
    (catalog.memberSignature (m.rename catalog.first)).map (renameSignature catalog.first) =
      (catalog.memberSignature m).map (renameSignature catalog.first) := by
  obtain ⟨name, member, role, declaring⟩ := m
  rw [memberSignature_eq, memberSignature_eq]
  simp only [ExposedMember.rename, name_first hcoherent]
  refine elim_congr_map ?_ _
  cases role with
  | method =>
    refine map_congr_of_commutes (method?_first hcoherent declaring member) fun d => ?_
    simp only [renameSignature, Adapter.ofSignature_rename, MethodDecl.rename,
      renameParams_eq_map, List.map_append, List.map_map, Function.comp_def, Param.type_rename]
    rfl
  | getter =>
    exact map_congr_of_commutes (property?_first hcoherent declaring member) fun d => rfl
  | setter =>
    exact map_congr_of_commutes (property?_first hcoherent declaring member) fun d => rfl
  | subscribe =>
    exact map_congr_of_commutes (event?_first hcoherent declaring member) fun d => rfl
  | unsubscribe =>
    exact map_congr_of_commutes (event?_first hcoherent declaring member) fun d => rfl

/-- The code that a definition binds for a member. -/
theorem bound_congr {c d : ClassRef} (h : catalog.first c = catalog.first d) (mode : ProxyMode)
    (role : MemberRole) (member : String) :
    (match mode with
      | .bound => catalog.implementation? c role member
      | .byName => none).map (Implementation.rename catalog.first) =
    (match mode with
      | .bound => catalog.implementation? d role member
      | .byName => none).map (Implementation.rename catalog.first) := by
  cases mode with
  | bound =>
    rw [← implementation?_first hcoherent c, h, implementation?_first hcoherent d]
  | byName => rfl

omit hcoherent in
/-- The other classes that types of one form hold. -/
theorem mentioned_congr {c d : ClassRef} (h : catalog.first c = catalog.first d)
    {types types' : List NativeType}
    (htypes : types.map (NativeType.rename catalog.first) =
      types'.map (NativeType.rename catalog.first)) :
    ((types.filterMap NativeType.referenced).filter fun e => !catalog.sameType e c).map
        catalog.first =
      ((types'.filterMap NativeType.referenced).filter fun e => !catalog.sameType e d).map
        catalog.first := by
  have hform : ∀ (c : ClassRef) (types : List NativeType),
      ((types.filterMap NativeType.referenced).filter fun e => !catalog.sameType e c).map
          catalog.first =
        ((types.map (NativeType.rename catalog.first)).filterMap NativeType.referenced).filter
          fun e => !catalog.sameType e (catalog.first c) := by
    intro c types
    rw [List.filterMap_map]
    simp only [Function.comp_def, NativeType.referenced_rename, ← List.map_filterMap]
    rw [List.filter_map]
    simp only [Function.comp_def, sameType_first]
  rw [hform, htypes, h, ← hform]

/-- Types of one form are supported alike, since that is asked of the renamed types. -/
theorem supported_congr {types types' : List NativeType}
    (htypes : types.map (NativeType.rename catalog.first) =
      types'.map (NativeType.rename catalog.first)) :
    (types.forM fun type => ((catalog.scriptKind type).mapError Error.conversion).map fun _ => ()) =
      types'.forM fun type =>
        ((catalog.scriptKind type).mapError Error.conversion).map fun _ => () := by
  have hrename : ∀ types : List NativeType, (types.forM fun type =>
      ((catalog.scriptKind type).mapError Error.conversion).map fun _ => ()) =
        (types.map (NativeType.rename catalog.first)).forM fun type =>
          ((catalog.scriptKind type).mapError Error.conversion).map fun _ => () := by
    intro types
    refine Eq.trans ?_ List.forM_map.symm
    simp only [scriptKind_rename hcoherent]
    rfl
  rw [hrename, htypes, ← hrename]

/-- The plan of an exposed member and the classes that its signature mentions. -/
theorem planMember_congr {c d : ClassRef} (h : catalog.first c = catalog.first d)
    (mode : ProxyMode) {m m' : ExposedMember}
    (hm : m.rename catalog.first = m'.rename catalog.first) :
    (catalog.planMember c mode m).map
        (Prod.map (MemberPlan.rename catalog.first) (List.map catalog.first)) =
      (catalog.planMember d mode m').map
        (Prod.map (MemberPlan.rename catalog.first) (List.map catalog.first)) := by
  have hsignature : (catalog.memberSignature m).map (renameSignature catalog.first) =
      (catalog.memberSignature m').map (renameSignature catalog.first) := by
    rw [← memberSignature_first hcoherent m, hm, memberSignature_first hcoherent m']
  obtain ⟨name, member, role, declaring⟩ := m
  obtain ⟨name', member', role', declaring'⟩ := m'
  obtain ⟨rfl, rfl, rfl, -⟩ := ExposedMember.mk.inj hm
  refine bind_congr_map (mapError_congr_map hsignature _) fun signature signature' hs => ?_
  obtain ⟨adapter, types⟩ := signature
  obtain ⟨adapter', types'⟩ := signature'
  obtain ⟨hadapter, htypes⟩ := Prod.mk.inj hs
  have hsupported := congrArg (Except.map id) (supported_congr hcoherent htypes)
  refine bind_congr_map hsupported fun _ _ _ => ?_
  refine congrArg Except.ok (Prod.ext ?_ (mentioned_congr h htypes))
  have hbound := bound_congr hcoherent h mode role member
  simp only [Prod.map, MemberPlan.rename, hadapter]
  exact congrArg _ hbound

/-- The plan of a constructor. -/
theorem planConstructor_congr {c d : ClassRef} (h : catalog.first c = catalog.first d)
    {k k' : ConstructorDecl} (hk : k.rename catalog.first = k'.rename catalog.first) :
    (catalog.planConstructor c k).map (ConstructorPlan.rename catalog.first) =
      (catalog.planConstructor d k').map (ConstructorPlan.rename catalog.first) := by
  obtain ⟨params, code⟩ := k
  obtain ⟨params', code'⟩ := k'
  obtain ⟨hparams, rfl⟩ := ConstructorDecl.mk.inj hk
  have hsupported : catalog.paramsSupported params = catalog.paramsSupported params' := by
    rw [← paramsSupported_rename hcoherent params, ← paramsSupported_rename hcoherent params']
    exact congrArg _ hparams
  refine bind_congr_map (mapError_congr_map (congrArg (Except.map id) hsupported) _) fun _ _ _ => ?_
  refine congrArg Except.ok ?_
  simp only [ConstructorPlan.rename, Adapter.ofSignature_rename, NativeType.rename, h]
  rw [show renameParams catalog.first params = renameParams catalog.first params' from hparams]

/-- The plans of a class for members of one form. -/
theorem plans_congr {c d : ClassRef} (h : catalog.first c = catalog.first d)
    {members members' : List ExposedMember}
    (hm : members.map (ExposedMember.rename catalog.first) =
      members'.map (ExposedMember.rename catalog.first)) :
    (catalog.plans c members).map (renamePlans catalog.first) =
      (catalog.plans d members').map (renamePlans catalog.first) := by
  have hmode : catalog.mode c = catalog.mode d := by
    rw [← mode_first hcoherent c, h, mode_first hcoherent d]
  have hplan : ∀ m m' : ExposedMember,
      m.rename catalog.first = m'.rename catalog.first → _ = _ :=
    fun m m' hm => planMember_congr hcoherent h (catalog.mode d) hm
  -- Members first, then constructors for a class that binds code; the parts are put together alike.
  unfold plans
  rw [hmode]
  refine bind_congr_map (mapM_congr_map hplan hm) fun planned planned' hplanned => ?_
  have hresult : ∀ constructors constructors' : List ConstructorPlan,
      constructors.map (ConstructorPlan.rename catalog.first) =
        constructors'.map (ConstructorPlan.rename catalog.first) →
      renamePlans catalog.first (planned.map (·.1), constructors, planned.flatMap (·.2)) =
        renamePlans catalog.first (planned'.map (·.1), constructors', planned'.flatMap (·.2)) := by
    intro constructors constructors' hconstructors
    have hplans := congrArg (List.map (·.1)) hplanned
    have hmentioned := congrArg (List.flatMap (·.2)) hplanned
    simp only [List.map_map, List.flatMap_map, Function.comp_def, Prod.map] at hplans hmentioned
    simp only [renamePlans, List.map_map, List.map_flatMap, Function.comp_def, hplans, hmentioned,
      hconstructors]
  cases catalog.mode d with
  | bound =>
    refine bind_congr_map (mapM_congr_map (fun k k' hk => planConstructor_congr hcoherent h hk)
      (congrArg (·.constructors) (decl_congr hcoherent h))) fun constructors constructors' hk => ?_
    exact congrArg Except.ok (hresult constructors constructors' hk)
  | byName => exact congrArg Except.ok (hresult [] [] rfl)

end Plans

variable (catalog) in
/-- The plans that the definition of a class is made from, and the classes that they mention. -/
def outline (settings : Settings) (registrations : Registrations) (c : ClassRef) :
    Except Error (List MemberPlan × List ConstructorPlan × List ClassRef) := do
  catalog.plans c
    (← (catalog.exposed settings.events registrations c).mapError Error.resolution)

/-- Two declarations of one type are planned alike. -/
theorem outline_congr (hcoherent : catalog.Coherent) {c d : ClassRef}
    (h : catalog.first c = catalog.first d) (settings : Settings) (registrations : Registrations) :
    (catalog.outline settings registrations c).map (renamePlans catalog.first) =
      (catalog.outline settings registrations d).map (renamePlans catalog.first) := by
  refine bind_congr_map (mapError_congr_map ?_ _) fun members members' hm =>
    plans_congr hcoherent h hm
  rw [← exposed_first hcoherent c, h, exposed_first hcoherent d]

end Catalog

end ScriptBoundary
