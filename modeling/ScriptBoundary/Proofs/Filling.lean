import ScriptBoundary.Proofs.Origins
import ScriptBoundary.Proofs.Plans

/-!
# What scripts can set

A script sets properties of an instance in two ways: it writes them on a proxy, or it hands over a
plain object that stands for an instance of the class. The second way asks each time which members
the class exposes, and takes the type of a property as the class itself sees it. The first goes by
the plans of a definition, which were made once, and takes the type as the class sees it that opened
the property.

Where the plans of a definition are made, the two ways reach the same properties under the same
names with the same code, one by one (`Catalog.fillable?_eq_assignment?`). As long as nothing is
registered for a type that the class gets members from, that stays so
(`Catalog.fillables_agree_with_plans`).
-/

namespace ScriptBoundary

open Run

/-- A way to set a property of an instance: the name that scripts use, the member, the type that the
value is converted to, and the code that then runs. -/
structure Assignment where
  name : String
  member : String
  type : NativeType
  setter : Implementation

/-- All but the type. -/
def Assignment.untyped (a : Assignment) : String × String × Implementation :=
  (a.name, a.member, a.setter)

def FillableProperty.assignment (p : FillableProperty) : Assignment :=
  ⟨p.name, p.member, p.type, p.setter⟩

namespace Catalog

variable (catalog : Catalog)

/-- What the function of a plan sets on an instance, if it is that of a setter and there is code. -/
def assignment? (target : Instance) (plan : MemberPlan) : Option Assignment :=
  match plan.role, plan.adapter.intakes, catalog.codeFor plan target with
  | .setter, [.converted type], .ok setter => some ⟨plan.name, plan.member, type, setter⟩
  | _, _, _ => none

/-- What scripts can set on an instance through a proxy by a definition. -/
def assignments (d : Definition) (target : Instance) : List Assignment :=
  d.members.filterMap (catalog.assignment? target)

/-- The property has one type for a class and for the class that opened it. -/
def TypedAlike (c : ClassRef) (m : ExposedMember) : Prop :=
  (catalog.property? c m.member).map (·.type) =
    (catalog.property? m.declaring m.member).map (·.type)

/-- Of the types that a class gets members from, none has other registrations. -/
def RegisteredAlike (registrations registrations' : Registrations) (c : ClassRef) : Prop :=
  ∀ a ∈ catalog.ancestors c ++ catalog.allInterfaces c,
    registrations.of (catalog.identity a) = registrations'.of (catalog.identity a)

variable {catalog}

/-! ## Where plans are made -/

/-- A property that has code for its setter along the bases of a class is one that the class sees. -/
theorem exists_property?_of_implementation? {c : ClassRef} {member : String} {i : Implementation}
    (h : catalog.implementation? c .setter member = some i) :
    ∃ p, catalog.property? c member = some p := by
  obtain ⟨a, ha, hfound⟩ := List.exists_of_findSome?_eq_some h
  obtain ⟨code, hcode, -⟩ := Option.map_eq_some_iff.1 hfound
  obtain ⟨p, hp, hnamed⟩ := List.exists_of_findSome?_eq_some hcode
  have hname : p.name = member := by
    by_contra hne
    rw [if_neg hne] at hnamed
    cases hnamed
  -- The declaration with the code has the property, so the search along the bases ends there.
  have hdeclared : ((catalog.decl a).properties.find? (·.name = member)).isSome = true :=
    List.find?_isSome.2 ⟨p, hp, decide_eq_true hname⟩
  have halong : ((catalog.ancestors c).findSome? fun a =>
      (catalog.decl a).properties.find? (·.name = member)).isSome = true :=
    List.findSome?_isSome_iff.2 ⟨a, ha, hdeclared⟩
  obtain ⟨q, hq⟩ := Option.isSome_iff_exists.1 halong
  refine ⟨q, ?_⟩
  unfold property? findSignature
  dsimp only
  rw [hq]
  rfl

/-- On instances of the class, the code that a plan finds for a member is the code of the class. -/
theorem PlanOf.codeFor_eq {c : ClassRef} {m : ExposedMember} {plan : MemberPlan}
    (h : catalog.PlanOf c m plan) {target : Instance} (htarget : target.runtimeClass = c) :
    catalog.codeFor plan target = (catalog.implementation? c m.role m.member).elim
      (.error (.resolution (.unknownMember (catalog.name c) m.member m.role.category))) .ok := by
  obtain ⟨-, hmember, hrole, hbound⟩ := h.eq
  unfold codeFor
  rw [hbound, hmember, hrole, htarget]
  cases catalog.mode c with
  | bound => cases catalog.implementation? c m.role m.member <;> rfl
  | byName => cases catalog.implementation? c m.role m.member <;> rfl

/-- The plan of a setter takes one value, of the type that the opening class sees. -/
theorem PlanOf.exists_property {c : ClassRef} {m : ExposedMember} {plan : MemberPlan}
    (h : catalog.PlanOf c m plan) (hrole : m.role = .setter) :
    ∃ p, catalog.property? m.declaring m.member = some p ∧
      plan.adapter.intakes = [.converted p.type] := by
  obtain ⟨⟨types, hsignature⟩, -⟩ := h.eq
  rw [memberSignature_eq, signature?, hrole] at hsignature
  cases hp : catalog.property? m.declaring m.member with
  | none =>
    rw [hp] at hsignature
    cases hsignature
  | some p =>
    rw [hp] at hsignature
    refine ⟨p, rfl, ?_⟩
    rw [← (Prod.mk.inj (Except.ok.inj hsignature)).1]

/-- On instances of the class, the plan of a member sets what a plain object fills: the same member
under the same name with the same code, and with the same type if that is seen alike. -/
theorem fillable?_eq_assignment? {c : ClassRef} {m : ExposedMember} {plan : MemberPlan}
    (h : catalog.PlanOf c m plan) {target : Instance} (htarget : target.runtimeClass = c) :
    (catalog.fillable? c m).map (·.assignment.untyped) =
        (catalog.assignment? target plan).map Assignment.untyped ∧
      (catalog.TypedAlike c m →
        (catalog.fillable? c m).map FillableProperty.assignment =
          catalog.assignment? target plan) := by
  obtain ⟨-, hmember, hrole, -⟩ := h.eq
  have hcode := h.codeFor_eq htarget
  unfold fillable? assignment?
  rw [hrole, h.name_eq, hmember]
  cases hm : m.role with
  | setter =>
    obtain ⟨p, hp, hintakes⟩ := h.exists_property hm
    rw [hm] at hcode
    cases hi : catalog.implementation? c .setter m.member with
    | none =>
      rw [hcode, hi, hintakes]
      cases catalog.property? c m.member <;> exact ⟨rfl, fun _ => rfl⟩
    | some i =>
      obtain ⟨q, hq⟩ := exists_property?_of_implementation? hi
      rw [hcode, hi, hintakes, hq]
      refine ⟨rfl, fun halike => ?_⟩
      rw [TypedAlike, hq, hp] at halike
      have htype : q.type = p.type := Option.some.inj halike
      show some (Assignment.mk m.name m.member q.type i) = some ⟨m.name, m.member, p.type, i⟩
      rw [htype]
  | _ => exact ⟨rfl, fun _ => rfl⟩

/-- The member that is filled is the one exposed. -/
theorem member_of_fillable? {c : ClassRef} {m : ExposedMember} {p : FillableProperty}
    (h : catalog.fillable? c m = some p) : p.member = m.member := by
  unfold fillable? at h
  split at h
  · cases h
    rfl
  · cases h

/-- Members that a plain object fills and plans that set them, paired, have the same list of ways but
for the types. -/
theorem untyped_fillables_eq {c : ClassRef} {members : List ExposedMember}
    {plans : List MemberPlan} (h : List.Forall₂ (catalog.PlanOf c) members plans)
    {target : Instance} (htarget : target.runtimeClass = c) :
    (catalog.fillables c members).map (·.assignment.untyped) =
      (plans.filterMap (catalog.assignment? target)).map Assignment.untyped := by
  rw [fillables, List.map_filterMap, List.map_filterMap]
  induction h with
  | nil => rfl
  | cons hplan _ ih =>
    rw [List.filterMap_cons, List.filterMap_cons, ih, (fillable?_eq_assignment? hplan htarget).1]

/-- A way to set a property that is seen alike is among those of the members if it is among those of
their plans, and the other way round. -/
theorem mem_fillables_iff {c : ClassRef} {members : List ExposedMember} {plans : List MemberPlan}
    (h : List.Forall₂ (catalog.PlanOf c) members plans) {target : Instance}
    (htarget : target.runtimeClass = c) {a : Assignment}
    (halike : ∀ m ∈ members, m.member = a.member → catalog.TypedAlike c m) :
    a ∈ (catalog.fillables c members).map FillableProperty.assignment ↔
      a ∈ plans.filterMap (catalog.assignment? target) := by
  rw [fillables, List.map_filterMap]
  induction h with
  | nil => rfl
  | @cons m plan members plans hplan _ ih =>
    obtain ⟨huntyped, htyped⟩ := fillable?_eq_assignment? hplan htarget
    have hrest := ih fun m hm => halike m (List.mem_cons_of_mem _ hm)
    -- A member of another name sets something else on both sides.
    have hhead : (catalog.fillable? c m).map FillableProperty.assignment = some a ↔
        catalog.assignment? target plan = some a := by
      by_cases hmember : m.member = a.member
      · rw [htyped (halike m List.mem_cons_self hmember)]
      · refine iff_of_false (fun hfills => ?_) fun hassigns => ?_
        · obtain ⟨p, hp, rfl⟩ := Option.map_eq_some_iff.1 hfills
          exact hmember (member_of_fillable? hp).symm
        · rw [hassigns] at huntyped
          obtain ⟨p, hp, hpa⟩ := Option.map_eq_some_iff.1 huntyped
          exact hmember ((member_of_fillable? hp).symm.trans (congrArg (·.2.1) hpa))
    simp only [List.mem_filterMap] at hrest ⊢
    rw [List.exists_mem_cons_iff, List.exists_mem_cons_iff, hhead, hrest]

/-! ## Registrations -/

/-- What a class exposes depends on no registrations but those for the types that it gets members
from. -/
theorem exposed_congr (catalog : Catalog) {registrations registrations' : Registrations}
    {c : ClassRef} (h : catalog.RegisteredAlike registrations registrations' c)
    (prefixes : EventPrefixes) :
    catalog.exposed prefixes registrations c = catalog.exposed prefixes registrations' c := by
  have hregistered : ∀ a ∈ catalog.ancestors c ++ catalog.allInterfaces c,
      catalog.registeredClaims registrations a = catalog.registeredClaims registrations' a := by
    intro a ha
    rw [registeredClaims, registeredClaims, h a ha]
  have hancestor := fun a ha => hregistered a (List.mem_append_left _ ha)
  have hinterface := fun i hi => hregistered i (List.mem_append_right _ hi)
  have hstray : catalog.strayClaim? registrations c = catalog.strayClaim? registrations' c := by
    rw [strayClaim?, strayClaim?, List.flatMap_congr hancestor]
  have hclaims : catalog.claims registrations c = catalog.claims registrations' c := by
    refine congrArg₂ (· ++ ·) (List.flatMap_congr fun a ha => ?_) (List.flatMap_congr fun i hi => ?_)
    · rw [hancestor a ha]
    · rw [hinterface i hi]
  rw [exposed, exposed, hstray, hclaims]

/-- The settings of an exposer are those that it began with. -/
theorem settings_of_visits {w u : World} (h : Session.Visits catalog w u) :
    u.exposer.settings = w.exposer.settings := by
  refine h.invariant (P := fun u => u.exposer.settings = w.exposer.settings) ?_ ?_ rfl
  · intro u u' hmove hu
    rw [(World.Later.of_move hmove).settings, hu]
  · rintro u _ ⟨_, _, _, _, rfl⟩ hu
    exact hu

/-- What plain objects and proxies can set, in every state of a history in which a class has a
definition of its own. The definition was made in an earlier state, from the members that the class
exposed there. On every instance of the class its plans set what a plain object fills by those
members: the same properties, in order, under the same names and with the same code; and a property
that the class sees with the type that the opening class gives it is converted to one type as well.
If the types that the class gets members from have the same registrations as then, these members are
what a plain object fills now. -/
theorem fillables_agree_with_plans {settings : Settings} {w : World} {c : ClassRef}
    {d : Definition} (hw : Session.Visits catalog (World.start settings) w)
    (hd : w.exposer.definition? (catalog.identity c) = some d) (hown : d.declaration = c) :
    ∃ before members, Session.Visits catalog (World.start settings) before ∧
      catalog.MadeIn before d members ∧ Session.Visits catalog (catalog.making before d) w ∧
      (∀ target : Instance, target.runtimeClass = c →
        (catalog.fillables c members).map (·.assignment.untyped) =
            (catalog.assignments d target).map Assignment.untyped ∧
          ∀ a : Assignment, (∀ m ∈ members, m.member = a.member → catalog.TypedAlike c m) →
            (a ∈ (catalog.fillables c members).map FillableProperty.assignment ↔
              a ∈ catalog.assignments d target)) ∧
      (catalog.RegisteredAlike w.exposer.registrations before.exposer.registrations c →
        catalog.resolve c w = some (.ok members, w)) := by
  obtain ⟨-, before, members, hbefore, hmade, hsince⟩ := traced_of_visits hw _ d hd
  refine ⟨before, members, hbefore, hmade, hsince, fun target htarget => ?_, fun halike => ?_⟩
  · obtain ⟨mentioned, hplanned⟩ := hmade.planned
    rw [hown] at hplanned
    have hplans := forall₂_planOf hplanned
    exact ⟨untyped_fillables_eq hplans htarget, fun a ha => mem_fillables_iff hplans htarget ha⟩
  · -- The settings are those of the start, so only the registrations could make a difference.
    have hsettings : w.exposer.settings = before.exposer.settings :=
      (settings_of_visits hw).trans (settings_of_visits hbefore).symm
    have hresolved : catalog.exposed w.exposer.settings.events w.exposer.registrations c =
        .ok members := by
      rw [exposed_congr catalog halike, hsettings, ← hmade.resolved, hown]
      rfl
    rw [resolve_apply, hresolved]
    rfl

/-- Code that does nothing. -/
def idle : MemberCode := fun _ _ => .done (.ok .null)

/-- A panel with a level that it does not open; a dial that opens its level, an integer; a knob, which
is a dial that declares its level again, as a text; and a stub for dials. -/
def panels : Catalog where
  decls :=
    [{ (default : ClassDecl) with
        identity := ⟨1⟩, name := "Panel", constructors := [⟨[], idle⟩]
        properties := [⟨"level", .int .i32, none, none, .readWrite idle idle⟩] },
      { (default : ClassDecl) with
        identity := ⟨2⟩, name := "Dial", constructors := [⟨[], idle⟩]
        properties :=
          [⟨"level", .int .i32, some (.property none false), none, .readWrite idle idle⟩] },
      { (default : ClassDecl) with
        identity := ⟨3⟩, name := "Knob", base := some ⟨1⟩, constructors := [⟨[], idle⟩]
        properties := [⟨"level", .string, none, none, .readWrite idle idle⟩] },
      { (default : ClassDecl) with identity := ⟨2⟩, name := "Dial" }]
  restsOn := by decide

/-- The level of a panel is opened after dials have their definition, which changes nothing for
dials. -/
theorem dial_fills_what_it_plans :
    ∃ w d, Session.Visits panels (World.start {}) w ∧
      w.exposer.definition? (panels.identity ⟨1⟩) = some d ∧ d.declaration = ⟨1⟩ ∧
      ∃ before members, Session.Visits panels (World.start {}) before ∧
        panels.MadeIn before d members ∧
        (panels.fillables ⟨1⟩ members).map (·.assignment.untyped) =
          (panels.assignments d ⟨1, ⟨1⟩⟩).map Assignment.untyped := by
  have hsession : ∃ rep₁ rep₂ d,
      Session.report panels 0 none (.definition ⟨1⟩ none) (World.start {}) = some rep₁ ∧
      Session.report panels 0 none (.register ⟨0⟩ [⟨"level", .property none false⟩]) rep₁.world =
        some rep₂ ∧
      rep₂.world.exposer.definition? (panels.identity ⟨1⟩) = some d ∧ d.declaration = ⟨1⟩ :=
    ⟨_, _, _, rfl, rfl, rfl, rfl⟩
  obtain ⟨rep₁, rep₂, d, h₁, h₂, hd, hown⟩ := hsession
  have hvisits := Session.Visits.step (.step .start h₁) h₂
  obtain ⟨before, members, hbefore, hmade, -, hagree, -⟩ :=
    fillables_agree_with_plans hvisits hd hown
  exact ⟨_, d, hvisits, hd, hown, before, members, hbefore, hmade, (hagree ⟨1, ⟨1⟩⟩ rfl).1⟩

/-- Opened after panels have their definition, the level of a panel is filled by plain objects and
not set through proxies; the level of a knob is filled as a text and set as an integer; and if the
definition of dials is built from their stub, the level of a dial is filled and not set. -/
theorem panels_disagree :
    (∃ w d members, Session.Visits panels (World.start {}) w ∧
      w.exposer.definition? (panels.identity ⟨0⟩) = some d ∧ d.declaration = ⟨0⟩ ∧
      panels.resolve ⟨0⟩ w = some (.ok members, w) ∧
      (panels.fillables ⟨0⟩ members).map (·.assignment.member) = ["level"] ∧
      (panels.assignments d ⟨1, ⟨0⟩⟩).map (·.member) = []) ∧
    (∃ w d members, Session.Visits panels (World.start {}) w ∧
      w.exposer.definition? (panels.identity ⟨2⟩) = some d ∧ d.declaration = ⟨2⟩ ∧
      panels.resolve ⟨2⟩ w = some (.ok members, w) ∧
      (panels.fillables ⟨2⟩ members).map (·.assignment.type) = [.string] ∧
      (panels.assignments d ⟨1, ⟨2⟩⟩).map (·.type) = [.int .i32]) ∧
    ∃ w d members, Session.Visits panels (World.start {}) w ∧
      w.exposer.definition? (panels.identity ⟨1⟩) = some d ∧ d.declaration = ⟨3⟩ ∧
      panels.resolve ⟨1⟩ w = some (.ok members, w) ∧
      (panels.fillables ⟨1⟩ members).map (·.assignment.member) = ["level"] ∧
      (panels.assignments d ⟨1, ⟨1⟩⟩).map (·.member) = [] := by
  have hpanel : ∃ rep₁ rep₂ d members,
      Session.report panels 0 none (.definition ⟨0⟩ none) (World.start {}) = some rep₁ ∧
      Session.report panels 0 none (.register ⟨0⟩ [⟨"level", .property none false⟩]) rep₁.world =
        some rep₂ ∧
      rep₂.world.exposer.definition? (panels.identity ⟨0⟩) = some d ∧ d.declaration = ⟨0⟩ ∧
      panels.resolve ⟨0⟩ rep₂.world = some (.ok members, rep₂.world) ∧
      (panels.fillables ⟨0⟩ members).map (·.assignment.member) = ["level"] ∧
      (panels.assignments d ⟨1, ⟨0⟩⟩).map (·.member) = [] :=
    ⟨_, _, _, _, rfl, rfl, rfl, rfl, rfl, rfl, rfl⟩
  have hknob : ∃ rep d members,
      Session.report panels 0 none (.definition ⟨2⟩ none) (World.start {}) = some rep ∧
      rep.world.exposer.definition? (panels.identity ⟨2⟩) = some d ∧ d.declaration = ⟨2⟩ ∧
      panels.resolve ⟨2⟩ rep.world = some (.ok members, rep.world) ∧
      (panels.fillables ⟨2⟩ members).map (·.assignment.type) = [.string] ∧
      (panels.assignments d ⟨1, ⟨2⟩⟩).map (·.type) = [.int .i32] :=
    ⟨_, _, _, rfl, rfl, rfl, rfl, rfl, rfl⟩
  have hstub : ∃ rep d members,
      Session.report panels 0 none (.definition ⟨3⟩ none) (World.start {}) = some rep ∧
      rep.world.exposer.definition? (panels.identity ⟨1⟩) = some d ∧ d.declaration = ⟨3⟩ ∧
      panels.resolve ⟨1⟩ rep.world = some (.ok members, rep.world) ∧
      (panels.fillables ⟨1⟩ members).map (·.assignment.member) = ["level"] ∧
      (panels.assignments d ⟨1, ⟨1⟩⟩).map (·.member) = [] :=
    ⟨_, _, _, rfl, rfl, rfl, rfl, rfl, rfl⟩
  obtain ⟨_, _, d, members, h₁, h₂, hpanel⟩ := hpanel
  obtain ⟨_, d', members', h, hknob⟩ := hknob
  obtain ⟨_, d'', members'', h', hstub⟩ := hstub
  exact ⟨⟨_, d, members, .step (.step .start h₁) h₂, hpanel⟩,
    ⟨_, d', members', .step .start h, hknob⟩, _, d'', members'', .step .start h', hstub⟩

end Catalog

end ScriptBoundary
