import ScriptBoundary.Proofs.Filling

/-!
# Classes that the policy refuses

A class that declares no member exposes none either, as long as nothing is registered for it, and
with no members to plan it is up to the constructors whether there is a definition: of an interface
there is one, and of a class unless one of its constructors takes a type that is refused. So the
definition of a class that the policy refuses is built, and its instances are wrapped
(`Catalog.wrapInstance_of_refused`).
-/

namespace ScriptBoundary

open Run

/-- A declaration without members has no annotated ones. -/
theorem ClassDecl.annotations_of_isBare {d : ClassDecl} (h : d.isBare = true) :
    d.annotations = [] := by
  simp only [isBare, Bool.and_eq_true, List.isEmpty_iff] at h
  obtain ⟨⟨hmethods, hproperties⟩, hevents⟩ := h
  rw [annotations, hmethods, hproperties, hevents]
  rfl

namespace Catalog

variable (catalog : Catalog)

/-- The policy refuses a class with this error. -/
def Refuses (e : ConversionError) : Prop :=
  ∃ c, catalog.declaresNoMembers c = true ∧ e = .unsupported (catalog.name c)

/-- No constructor of the class, if it has any to plan, takes a type that the policy refuses. -/
def Constructible (c : ClassRef) : Prop :=
  catalog.isInterface c = true ∨
    ∀ k ∈ (catalog.decl c).constructors, catalog.paramsSupported k.params = .ok ()

variable {catalog}

/-! ## The policy -/

mutual

/-- A type without a script kind mentions a class that the policy refuses. -/
theorem refuses_of_scriptKind : (type : NativeType) → ∀ {e : ConversionError},
    catalog.scriptKind type = .error e → catalog.Refuses e
  | .array element | .sequence element | .dictionary element => fun h => by
    rw [scriptKind] at h
    exact refuses_of_scriptKind element (error_of_map_eq_error h)
  | .callable shape => fun h => by
    rw [scriptKind] at h
    exact refuses_of_shapeSupported shape (error_of_map_eq_error h)
  | .object c => fun h => by
    rw [scriptKind] at h
    split at h
    · next hbare =>
      cases h
      exact ⟨c, hbare, rfl⟩
    · cases h
  | .void | .bool | .int _ | .float _ | .char | .datetime | .string | .enumeration _ | .multimap
  | .json | .any => fun h => by
    rw [scriptKind] at h
    cases h

theorem refuses_of_shapeSupported : (shape : Shape) → ∀ {e : ConversionError},
    catalog.shapeSupported shape = .error e → catalog.Refuses e
  | ⟨_, params, result⟩ => fun h => by
    rw [shapeSupported] at h
    rcases error_cases_of_bind h with hparams | ⟨_, -, h⟩
    · exact refuses_of_paramsSupported params hparams
    · rcases error_cases_of_bind h with hresult | ⟨_, -, h⟩
      · exact refuses_of_scriptKind result hresult
      · cases h

theorem refuses_of_paramsSupported : (params : List Param) → ∀ {e : ConversionError},
    catalog.paramsSupported params = .error e → catalog.Refuses e
  | [] => fun h => by
    rw [paramsSupported] at h
    cases h
  | .fixed _ type :: rest => fun h => by
    rw [paramsSupported] at h
    rcases error_cases_of_bind h with htype | ⟨_, -, h⟩
    · exact refuses_of_scriptKind type htype
    · exact refuses_of_paramsSupported rest h
  | .rest _ :: rest => fun h => by
    rw [paramsSupported] at h
    exact refuses_of_paramsSupported rest h

end

/-! ## Definitions -/

/-- With nothing registered, a class that declares no member exposes none. -/
theorem exposed_of_declaresNoMembers {c : ClassRef} (h : catalog.declaresNoMembers c = true)
    (prefixes : EventPrefixes) : catalog.exposed prefixes [] c = .ok [] := by
  obtain ⟨hancestors, hinterfaces⟩ := Bool.and_eq_true_iff.1 h
  have hregistered : ∀ a, catalog.registeredClaims [] a = [] := fun _ => rfl
  have hannotated : ∀ {l : List ClassRef}, l.all (fun a => (catalog.decl a).isBare) = true →
      ∀ a ∈ l, catalog.annotatedClaims a = [] := by
    intro l hl a ha
    rw [annotatedClaims, ClassDecl.annotations_of_isBare (List.all_eq_true.1 hl a ha)]
    rfl
  have hstray : catalog.strayClaim? [] c = none := by
    rw [strayClaim?, List.flatMap_eq_nil_iff.2 fun a _ => hregistered a]
    rfl
  have hclaims : catalog.claims [] c = [] := by
    refine List.append_eq_nil_iff.2 ⟨List.flatMap_eq_nil_iff.2 fun a ha => ?_,
      List.flatMap_eq_nil_iff.2 fun i hi => ?_⟩
    · rw [hannotated hancestors a ha, hregistered]
      rfl
    · rw [hannotated hinterfaces i hi, hregistered]
      rfl
  rw [exposed, hstray, hclaims]
  rfl

/-- A constructor is planned exactly if its parameters have script kinds. -/
theorem planConstructor_cases (catalog : Catalog) (c : ClassRef) (k : ConstructorDecl) :
    (catalog.paramsSupported k.params = .ok () ∧ ∃ plan, catalog.planConstructor c k = .ok plan) ∨
      ∃ e, catalog.paramsSupported k.params = .error e ∧
        catalog.planConstructor c k = .error (.conversion e) := by
  unfold planConstructor
  cases hparams : catalog.paramsSupported k.params with
  | ok u => exact .inl ⟨rfl, _, rfl⟩
  | error e => exact .inr ⟨e, rfl, rfl⟩

/-- Without members, there are plans of a class exactly if those of its constructors are. -/
theorem plans_nil_cases (catalog : Catalog) (c : ClassRef) :
    (catalog.Constructible c ∧ ∃ constructors, catalog.plans c [] = .ok ([], constructors, [])) ∨
      ¬ catalog.Constructible c ∧
        ∃ e, catalog.Refuses e ∧ catalog.plans c [] = .error (.conversion e) := by
  unfold plans
  rw [List.mapM_nil, mode]
  cases hi : catalog.isInterface c with
  | true => exact .inl ⟨.inl hi, [], rfl⟩
  | false =>
    cases hk : (catalog.decl c).constructors.mapM (catalog.planConstructor c) with
    | ok constructors =>
      refine .inl ⟨.inr fun k hmem => ?_, constructors, by simp⟩
      obtain ⟨plan, -, hplan⟩ := exists_result_of_mapM_eq_ok hk hmem
      rcases catalog.planConstructor_cases c k with ⟨hparams, -⟩ | ⟨e, -, he⟩
      · exact hparams
      · rw [he] at hplan
        cases hplan
    | error error =>
      obtain ⟨k, hmem, hfailed⟩ := exists_mem_of_mapM_eq_error hk
      rcases catalog.planConstructor_cases c k with ⟨-, _, hplan⟩ | ⟨e, hparams, he⟩
      · rw [hplan] at hfailed
        cases hfailed
      · obtain rfl : .conversion e = error := Except.error.inj (he.symm.trans hfailed)
        refine .inr ⟨?_, e, refuses_of_paramsSupported _ hparams, by simp⟩
        rintro (hinterface | hsupported)
        · rw [hi] at hinterface
          cases hinterface
        · rw [hsupported k hmem] at hparams
          cases hparams

/-! ## Wrapping -/

/-- A class that the policy refuses, with nothing registered for it and no definition yet: its
instances are wrapped, unless a constructor of the class takes a type that the policy refuses, and
then they fail for that type. -/
theorem wrapInstance_of_refused {w : World} {target : Instance}
    (hrefused : catalog.declaresNoMembers target.runtimeClass = true)
    (hregistered : catalog.RegisteredAlike w.exposer.registrations [] target.runtimeClass)
    (hnone : w.exposer.definition? (catalog.identity target.runtimeClass) = none) :
    (catalog.Constructible target.runtimeClass ∧ ∃ o w',
        catalog.wrapInstance target w = some (.ok (.object o), w') ∧
          (w'.heap.object o).target = some target) ∨
      ¬ catalog.Constructible target.runtimeClass ∧
        ∃ e, catalog.Refuses e ∧
          catalog.wrapInstance target w = some (.error (.conversion e), w) := by
  have hexposed : catalog.exposed w.exposer.settings.events w.exposer.registrations
      target.runtimeClass = .ok [] :=
    (exposed_congr catalog hregistered _).trans (exposed_of_declaresNoMembers hrefused _)
  rcases catalog.plans_nil_cases target.runtimeClass with
    ⟨hconstructible, constructors, hplans⟩ | ⟨hconstructible, e, he, hplans⟩
  · -- No class is mentioned, so none is built before.
    have hbefore : catalog.prebuild catalog.size [catalog.identity target.runtimeClass]
        w.exposer.settings [] w = some (.ok (), w) := by
      unfold prebuild
      split <;> rfl
    obtain ⟨d, hcomplete⟩ := catalog.complete_apply target.runtimeClass w.exposer.settings []
      constructors w
    have hgiven : catalog.definitionOf target.runtimeClass w = _ :=
      (build_of_planned hnone hexposed hplans).trans ((bind_ok hbefore _).trans hcomplete)
    exact .inl ⟨hconstructible, _, _, bind_ok hgiven _, Heap.target_newProxy _ d target⟩
  · exact .inr ⟨hconstructible, e, he, bind_error (build_of_unplanned hnone hexposed hplans) _⟩

end Catalog

end ScriptBoundary
