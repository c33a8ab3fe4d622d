import ScriptBoundary.Adapter.Build
import ScriptBoundary.Proofs.Computation

/-!
# What building depends on

Whether the definition of a class can be built depends on the settings, the registrations and on
which types have a definition already, not on what those definitions hold nor on the rest of the
state. So building succeeds alike in two states that agree on these (`follows_build`), and leaves
them in agreement.
-/

namespace ScriptBoundary

/-- Two states agree on what decides whether a definition can be built. -/
structure World.Agree (w u : World) : Prop where
  settings : w.exposer.settings = u.exposer.settings
  registrations : w.exposer.registrations = u.exposer.registrations
  types : Keyed.keys w.exposer.definitions = Keyed.keys u.exposer.definitions

namespace World.Agree

variable {w u v : World}

/-- States with the same exposer agree. -/
theorem of_exposer (h : w.exposer = u.exposer) : w.Agree u := by
  constructor <;> rw [h]

theorem refl (w : World) : w.Agree w := of_exposer rfl

theorem symm (h : w.Agree u) : u.Agree w := ⟨h.settings.symm, h.registrations.symm, h.types.symm⟩

theorem trans (h : w.Agree u) (h' : u.Agree v) : w.Agree v :=
  ⟨h.settings.trans h'.settings, h.registrations.trans h'.registrations, h.types.trans h'.types⟩

/-- A type without a definition has none in a state that agrees. -/
theorem definition?_eq_none (h : w.Agree u) {type : TypeId}
    (hw : w.exposer.definition? type = none) : u.exposer.definition? type = none := by
  unfold Exposer.definition? at hw ⊢
  rw [Keyed.get?_eq_none_iff] at hw ⊢
  rwa [← h.types]

/-- A type with a definition has one in a state that agrees. -/
theorem exists_definition? (h : w.Agree u) {type : TypeId} {d : Definition}
    (hw : w.exposer.definition? type = some d) : ∃ d', u.exposer.definition? type = some d' := by
  cases hu : u.exposer.definition? type with
  | some d' => exact ⟨d', rfl⟩
  | none =>
    rw [h.symm.definition?_eq_none hu] at hw
    cases hw

/-- Keeping a definition for one type leaves states in agreement. -/
theorem keep (h : w.Agree u) {type : TypeId} {d d' : Definition} {w' u' : World}
    (hw' : w'.exposer = w.exposer.keep type d) (hu' : u'.exposer = u.exposer.keep type d') :
    w'.Agree u' := by
  constructor
  · rw [hw', hu']
    exact h.settings
  · rw [hw', hu']
    exact h.registrations
  rw [hw', hu']
  have htypes := h.types
  unfold Keyed.keys at htypes
  unfold Exposer.keep Keyed.keys
  cases hw : w.exposer.definition? type with
  | some e =>
    obtain ⟨e', hu⟩ := h.exists_definition? hw
    rw [hu]
    exact htypes
  | none =>
    rw [h.definition?_eq_none hw]
    simp only [Option.isSome_none, Bool.false_eq_true, if_false, List.map_append, htypes,
      List.map_cons, List.map_nil]

end World.Agree

namespace Catalog

variable (catalog : Catalog)

/-- Builds the definitions of the classes that a class under way mentions, if the settings say so.
-/
def prebuild (n : Nat) (underWay : List TypeId) (settings : Settings) (mentioned : List ClassRef) :
    Run Error Unit :=
  if settings.prebuildNested then
    mentioned.forM fun other => do
      if catalog.isInterface other || underWay.contains (catalog.identity other) then
        return ()
      if (← catalog.kept? other).isNone then
        let _ ← catalog.build n underWay other
  else pure ()

/-- Makes the definition of a class from its plans and keeps it. -/
def complete (c : ClassRef) (settings : Settings) (members : List MemberPlan)
    (constructors : List ConstructorPlan) : Run Error Definition := do
  let prototype ← Run.onHeap (·.newPrototype members)
  let d : Definition :=
    ⟨c, catalog.mode c, settings.namePrefix ++ catalog.name c, members, constructors, prototype⟩
  Run.onExposer (·.keep (catalog.identity c) d)
  return (← catalog.kept? c).getD d

variable {catalog} {n : Nat} {underWay : List TypeId} {c : ClassRef} {w w' : World}

theorem kept?_apply (catalog : Catalog) (c : ClassRef) (w : World) :
    (catalog.kept? c : Run Error _) w =
      some (.ok (w.exposer.definition? (catalog.identity c)), w) := rfl

theorem resolve_apply (catalog : Catalog) (c : ClassRef) (w : World) :
    catalog.resolve c w =
      some ((catalog.exposed w.exposer.settings.events w.exposer.registrations c).mapError
        Error.resolution, w) := rfl

/-- The plans of a class and the classes mentioned come from its members one by one. -/
theorem exists_planned {members : List ExposedMember} {plans : List MemberPlan}
    {constructors : List ConstructorPlan} {mentioned : List ClassRef}
    (h : catalog.plans c members = .ok (plans, constructors, mentioned)) :
    ∃ planned, members.mapM (catalog.planMember c (catalog.mode c)) = .ok planned ∧
      plans = planned.map (·.1) ∧ mentioned = planned.flatMap (·.2) := by
  obtain ⟨planned, hplanned, h⟩ := exists_of_bind_eq_ok h
  -- The mode decides about the constructors only.
  cases hmode : catalog.mode c with
  | bound =>
    rw [hmode] at h hplanned
    obtain ⟨_, -, h⟩ := exists_of_bind_eq_ok h
    cases h
    exact ⟨planned, hplanned, rfl, rfl⟩
  | byName =>
    rw [hmode] at h hplanned
    cases h
    exact ⟨planned, hplanned, rfl, rfl⟩

/-- A definition that is there is not built again. -/
theorem build_of_kept {d : Definition}
    (h : w.exposer.definition? (catalog.identity c) = some d) :
    catalog.build (n + 1) underWay c w = some (.ok d, w) := by
  rw [build, Run.bind_ok (kept?_apply catalog c w), h]
  rfl

/-- A class whose members cannot be resolved is not built. -/
theorem build_of_unresolved (h : w.exposer.definition? (catalog.identity c) = none)
    {e : ResolutionError}
    (he : catalog.exposed w.exposer.settings.events w.exposer.registrations c = .error e) :
    catalog.build (n + 1) underWay c w = some (.error (.resolution e), w) := by
  have hresolve := resolve_apply catalog c w
  rw [he] at hresolve
  rw [build, Run.bind_ok (kept?_apply catalog c w), h]
  exact Run.bind_error hresolve _

/-- A class whose members or constructors cannot be planned is not built. -/
theorem build_of_unplanned (h : w.exposer.definition? (catalog.identity c) = none)
    {members : List ExposedMember} {e : Error}
    (hm : catalog.exposed w.exposer.settings.events w.exposer.registrations c = .ok members)
    (he : catalog.plans c members = .error e) :
    catalog.build (n + 1) underWay c w = some (.error e, w) := by
  have hresolve := resolve_apply catalog c w
  rw [hm] at hresolve
  rw [build, Run.bind_ok (kept?_apply catalog c w), h]
  refine (Run.bind_ok hresolve _).trans (Run.bind_error ?_ _)
  rw [he]
  rfl

/-- A class whose plans are there is built after those that it mentions. -/
theorem build_of_planned (h : w.exposer.definition? (catalog.identity c) = none)
    {members : List ExposedMember} {plans : List MemberPlan} {constructors : List ConstructorPlan}
    {mentioned : List ClassRef}
    (hm : catalog.exposed w.exposer.settings.events w.exposer.registrations c = .ok members)
    (hp : catalog.plans c members = .ok (plans, constructors, mentioned)) :
    catalog.build (n + 1) underWay c w =
      (do
        catalog.prebuild n (catalog.identity c :: underWay) w.exposer.settings mentioned
        catalog.complete c w.exposer.settings plans constructors : Run Error Definition) w := by
  have hresolve := resolve_apply catalog c w
  rw [hm] at hresolve
  have hplans : (Run.ofExcept (catalog.plans c members) : Run Error _) w =
      some (.ok (plans, constructors, mentioned), w) := by
    rw [hp]
    rfl
  rw [build, Run.bind_ok (kept?_apply catalog c w), h]
  refine (Run.bind_ok hresolve _).trans ((Run.bind_ok hplans _).trans ?_)
  refine (Run.bind_ok (Run.read_apply _ w) _).trans ?_
  unfold prebuild
  split <;> rfl

/-- A run of building that came to an outcome found a definition, failed at the plans, or went on to
build what the class mentions. -/
theorem build_cases {r : Except Error Definition}
    (h : catalog.build (n + 1) underWay c w = some (r, w')) :
    (∃ d, w.exposer.definition? (catalog.identity c) = some d ∧ r = .ok d ∧ w' = w) ∨
      w.exposer.definition? (catalog.identity c) = none ∧
        ((∃ e, r = .error e ∧ w' = w) ∨
          ∃ members plans constructors mentioned,
            catalog.exposed w.exposer.settings.events w.exposer.registrations c = .ok members ∧
            catalog.plans c members = .ok (plans, constructors, mentioned) ∧
            (do
              catalog.prebuild n (catalog.identity c :: underWay) w.exposer.settings mentioned
              catalog.complete c w.exposer.settings plans constructors : Run Error Definition) w =
                some (r, w')) := by
  cases hd : w.exposer.definition? (catalog.identity c) with
  | some d =>
    rw [build_of_kept hd] at h
    cases h
    exact .inl ⟨d, rfl, rfl, rfl⟩
  | none =>
    refine .inr ⟨rfl, ?_⟩
    -- The class can fail to be resolved, then to be planned.
    cases hm : catalog.exposed w.exposer.settings.events w.exposer.registrations c with
    | error e =>
      rw [build_of_unresolved hd hm] at h
      cases h
      exact .inl ⟨_, rfl, rfl⟩
    | ok members =>
      cases hp : catalog.plans c members with
      | error e =>
        rw [build_of_unplanned hd hm hp] at h
        cases h
        exact .inl ⟨e, rfl, rfl⟩
      | ok found =>
        obtain ⟨plans, constructors, mentioned⟩ := found
        rw [build_of_planned hd hm hp] at h
        exact .inr ⟨members, plans, constructors, mentioned, rfl, hp, h⟩

/-- The definition of a class that is made from its plans in a state. -/
def assemble (catalog : Catalog) (c : ClassRef) (settings : Settings) (members : List MemberPlan)
    (constructors : List ConstructorPlan) (w : World) : Definition :=
  ⟨c, catalog.mode c, settings.namePrefix ++ catalog.name c, members, constructors,
    (w.heap.newPrototype members).2⟩

end Catalog

/-- The state with the prototype of a definition, which is kept for a type. -/
def World.completed (w : World) (type : TypeId) (d : Definition) : World :=
  { w with
    heap := (w.heap.newPrototype d.members).1
    exposer := w.exposer.keep type d }

/-- What a class comes to once its plans are there. -/
theorem Catalog.complete_apply (catalog : Catalog) (c : ClassRef) (settings : Settings)
    (members : List MemberPlan) (constructors : List ConstructorPlan) (w : World) :
    ∃ d, catalog.complete c settings members constructors w =
      some (.ok d, w.completed (catalog.identity c)
        (catalog.assemble c settings members constructors w)) :=
  ⟨_, rfl⟩

/-- A type that is not passed over is not under way. -/
theorem Catalog.not_mem_of_not_passed {catalog : Catalog} {underWay : List TypeId} {c : ClassRef}
    (h : ¬ (catalog.isInterface c || underWay.contains (catalog.identity c)) = true) :
    catalog.identity c ∉ underWay := by
  intro hmem
  exact h (Bool.or_eq_true_iff.2 (.inr (List.contains_iff_mem.2 hmem)))

/-- Building what a class mentions moves the state as building does. -/
theorem Catalog.within_prebuild (catalog : Catalog) {R : World → World → Prop}
    [IsPreorder World R] {n : Nat}
    {underWay : List TypeId}
    (hbuild : ∀ c, catalog.identity c ∉ underWay → (catalog.build n underWay c).Within R)
    (settings : Settings) (mentioned : List ClassRef) :
    (catalog.prebuild n underWay settings mentioned).Within R := by
  unfold prebuild
  split
  · refine .forM fun other _ => ?_
    split
    · exact .pure ()
    · next hother =>
      refine .bind (.read _) fun kept => ?_
      split
      · exact .bind (hbuild other (not_mem_of_not_passed hother)) fun _ => .pure ()
      · exact .pure ()
  · exact .pure ()

/-- Keeping a definition leaves those of other types. -/
theorem Exposer.definition?_keep_of_ne {t type : TypeId} (hne : t ≠ type) (e : Exposer)
    (d : Definition) : (e.keep type d).definition? t = e.definition? t := by
  unfold Exposer.keep Exposer.definition?
  simp only
  split
  · rfl
  · exact Keyed.get?_append_of_ne hne d _

/-! ## States that agree -/

/-- Where the computation succeeds, it succeeds in every state that agrees, and leaves the two in
agreement. -/
def Run.Follows {ε α : Type} (x : Run ε α) : Prop :=
  ∀ ⦃w u w' : World⦄ ⦃a : α⦄, w.Agree u → x w = some (.ok a, w') →
    ∃ b u', x u = some (.ok b, u') ∧ w'.Agree u'

namespace Run.Follows

variable {ε α β : Type}

theorem pure (a : α) : Follows (Pure.pure a : Run ε α) := by
  intro w u w' b h hx
  cases hx
  exact ⟨a, u, rfl, h⟩

/-- One computation after the other, when the second does not use the result of the first. -/
theorem seq {x : Run ε α} {y : Run ε β} (hx : x.Follows) (hy : y.Follows) :
    Follows (x >>= fun _ => y) := by
  intro w u w' b h hrun
  obtain ⟨a, w₁, hxa, hyb⟩ := bind_ok_cases hrun
  obtain ⟨a', u₁, hxu, h₁⟩ := hx h hxa
  rw [bind_ok hxu]
  exact hy h₁ hyb

theorem forM {x : α → Run ε Unit} {l : List α} (h : ∀ a ∈ l, (x a).Follows) :
    Follows (l.forM x) := by
  induction l with
  | nil => exact pure ()
  | cons a l ih =>
    exact seq (h a List.mem_cons_self) (ih fun b hb => h b (List.mem_cons_of_mem _ hb))

end Run.Follows

namespace Catalog

variable (catalog : Catalog)

theorem follows_prebuild {n : Nat} (hbuild : ∀ underWay c, (catalog.build n underWay c).Follows)
    (underWay : List TypeId) (settings : Settings) (mentioned : List ClassRef) :
    (catalog.prebuild n underWay settings mentioned).Follows := by
  unfold prebuild
  split
  · refine .forM fun other _ => ?_
    split
    · exact .pure ()
    · intro w u w' a h hrun
      rw [Run.bind_ok (kept?_apply catalog other w)] at hrun
      rw [Run.bind_ok (kept?_apply catalog other u)]
      cases hw : w.exposer.definition? (catalog.identity other) with
      | some d =>
        obtain ⟨d', hu⟩ := h.exists_definition? hw
        rw [hw] at hrun
        rw [hu]
        cases hrun
        exact ⟨(), u, rfl, h⟩
      | none =>
        rw [hw] at hrun
        rw [h.definition?_eq_none hw]
        exact Run.Follows.seq (hbuild underWay other) (.pure ()) h hrun
  · exact .pure ()

theorem follows_complete (c : ClassRef) (settings : Settings) (members : List MemberPlan)
    (constructors : List ConstructorPlan) :
    (catalog.complete c settings members constructors).Follows := by
  intro w u w' a h hrun
  obtain ⟨d, hw⟩ := catalog.complete_apply c settings members constructors w
  obtain ⟨e, hu⟩ := catalog.complete_apply c settings members constructors u
  rw [hw] at hrun
  cases hrun
  exact ⟨e, _, hu, h.keep rfl rfl⟩

/-- What can be built in one state can be built in every state that agrees. -/
theorem follows_build (n : Nat) (underWay : List TypeId) (c : ClassRef) :
    (catalog.build n underWay c).Follows := by
  induction n generalizing underWay c with
  | zero =>
    intro w u w' a h hrun
    cases hrun
  | succ n ih =>
    intro w u w' d h hrun
    rcases build_cases hrun with ⟨d, hd, -, rfl⟩ |
      ⟨hnone, ⟨e, he, -⟩ | ⟨members, plans, constructors, mentioned, hm, hp, hrest⟩⟩
    · obtain ⟨d', hu⟩ := h.exists_definition? hd
      exact ⟨d', u, build_of_kept hu, h⟩
    · cases he
    · have hmu := hm
      rw [h.settings, h.registrations] at hmu
      rw [build_of_planned (h.definition?_eq_none hnone) hmu hp, ← h.settings]
      exact Run.Follows.seq (catalog.follows_prebuild ih _ _ _)
        (catalog.follows_complete c _ plans constructors) h hrest

theorem follows_definitionOf (c : ClassRef) : (catalog.definitionOf c).Follows :=
  catalog.follows_build _ _ c

end Catalog

end ScriptBoundary
