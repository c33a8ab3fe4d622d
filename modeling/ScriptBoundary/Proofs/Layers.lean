import ScriptBoundary.Proofs.Building
import ScriptBoundary.Proofs.Plans
import ScriptBoundary.Proofs.Resolution

/-!
# Classes that a definition mentions

A declaration is made when those that its members' types name are there, so these come earlier
(`Layered`). A class then mentions earlier classes only, through all signatures that its bases and
interfaces contribute, and no type mentions itself through others.
-/

namespace ScriptBoundary

/-- The types in the signatures of methods and properties. -/
def ClassDecl.types (d : ClassDecl) : List NativeType :=
  d.methods.flatMap (fun m => m.params.map Param.type ++ [m.result]) ++
    d.properties.map PropertyDecl.type

namespace Catalog

variable (catalog : Catalog)

/-- The types of members name only classes that are declared earlier. -/
def Layered : Prop :=
  ∀ place < catalog.size, ∀ type ∈ (catalog.decl ⟨place⟩).types,
    ∀ c ∈ type.referenced, c.index < place

instance : Decidable catalog.Layered :=
  inferInstanceAs (Decidable (∀ place < catalog.size, ∀ type ∈ _, ∀ c ∈ NativeType.referenced type,
    c.index < place))

/-- The signature of an exposed member of one class holds the other. -/
def Mentions (settings : Settings) (registrations : Registrations) (c e : ClassRef) : Prop :=
  ∃ members, catalog.exposed settings.events registrations c = .ok members ∧
    ∃ m ∈ members, ∃ adapter types, catalog.memberSignature m = .ok (adapter, types) ∧
      ∃ type ∈ types, type.referenced = some e

variable {catalog} {c : ClassRef}

theorem Layered.lt (h : catalog.Layered) {type : NativeType}
    (htype : type ∈ (catalog.decl c).types) {e : ClassRef} (he : type.referenced = some e) :
    e.index < c.index := by
  by_cases hc : c.index < catalog.size
  · exact h c.index hc type htype e he
  · rw [catalog.decl_of_size_le (Nat.not_lt.1 hc)] at htype
    cases htype

/-! ## Walks go to earlier places -/

theorem le_of_mem_ancestors {a : ClassRef} (h : a ∈ catalog.ancestors c) : a.index ≤ c.index := by
  -- On the place of the class, since its base comes earlier.
  induction hn : c.index using Nat.strongRecOn generalizing c with
  | _ n ih =>
    rw [catalog.ancestors_eq c] at h
    rcases List.mem_cons.1 h with rfl | h
    · exact Nat.le_of_eq hn
    · cases hb : (catalog.decl c).base with
      | none =>
        rw [hb] at h
        cases h
      | some b =>
        rw [hb] at h
        have hlt := (catalog.restsOn_decl c).1 b (by simp [hb])
        have hle := ih b.index (hn ▸ hlt) h rfl
        omega

/-- What a fold adds is what one of its steps adds. -/
theorem mem_or_of_mem_foldl {α β : Type} {step : List β → α → List β} {P : β → Prop} {l : List α}
    (hstep : ∀ a ∈ l, ∀ found, ∀ b ∈ step found a, b ∈ found ∨ P b) {found : List β} {b : β}
    (h : b ∈ l.foldl step found) : b ∈ found ∨ P b := by
  induction l generalizing found with
  | nil => exact .inl h
  | cons a l ih =>
    rcases ih (fun a ha => hstep a (List.mem_cons_of_mem _ ha)) h with hb | hb
    · exact hstep a List.mem_cons_self found b hb
    · exact .inr hb

/-- What visiting an interface adds comes no later than the interface. -/
theorem le_of_mem_visitInterface {n : Nat} {found : List ClassRef} {i k : ClassRef}
    (h : k ∈ catalog.visitInterface n found i) : k ∈ found ∨ k.index ≤ i.index := by
  induction n generalizing found i k with
  | zero => exact .inl h
  | succ n ih =>
    rw [visitInterface] at h
    split at h
    · exact .inl h
    · have hstep : ∀ j ∈ (catalog.decl i).interfaces, ∀ found : List ClassRef,
          ∀ k ∈ catalog.visitInterface n found j, k ∈ found ∨ k.index ≤ i.index := by
        intro j hj found k hk
        have hlt := (catalog.restsOn_decl i).2 j hj
        exact (ih hk).imp id fun hle => Nat.le_trans hle (Nat.le_of_lt hlt)
      rcases mem_or_of_mem_foldl hstep h with hk | hk
      · rcases List.mem_append.1 hk with hk | hk
        · exact .inl hk
        · exact .inr (Nat.le_of_eq (congrArg _ (List.mem_singleton.1 hk)))
      · exact .inr hk

theorem le_of_mem_allInterfaces {i : ClassRef} (h : i ∈ catalog.allInterfaces c) :
    i.index ≤ c.index := by
  have hstep : ∀ j ∈ (catalog.ancestors c).flatMap fun a => (catalog.decl a).interfaces,
      ∀ found : List ClassRef, ∀ k ∈ catalog.visitInterface (j.index + 1) found j,
        k ∈ found ∨ k.index ≤ c.index := by
    intro j hj found k hk
    obtain ⟨a, ha, hja⟩ := List.mem_flatMap.1 hj
    have hlt := Nat.lt_of_lt_of_le ((catalog.restsOn_decl a).2 j hja) (le_of_mem_ancestors ha)
    exact (le_of_mem_visitInterface hk).imp id fun hle => Nat.le_trans hle (Nat.le_of_lt hlt)
  rcases mem_or_of_mem_foldl hstep h with hi | hi
  · cases hi
  · exact hi

/-- A member is opened by the class, one of its bases or one of its interfaces. -/
theorem declaring_le_of_exposed {prefixes : EventPrefixes} {registrations : Registrations}
    {members : List ExposedMember} (h : catalog.exposed prefixes registrations c = .ok members)
    {m : ExposedMember} (hm : m ∈ members) : m.declaring.index ≤ c.index := by
  obtain ⟨taken, htaken⟩ := catalog.exists_firstWins_of_exposed prefixes registrations c h
  obtain ⟨i, -, hmi, -⟩ := htaken.exists_claim hm hm (.inl rfl)
  rw [(catalog.of_mem_expand prefixes hmi).2]
  rcases (catalog.optsIn_of_mem_claims registrations c (List.getElem_mem _)).1 with ha | hi
  · exact le_of_mem_ancestors ha
  · exact le_of_mem_allInterfaces hi

/-! ## Mentioned classes -/

/-- A signature is found in a declaration that comes no later. -/
theorem exists_of_findSignature {α : Type} {find : ClassDecl → Option α} {x : α}
    (h : catalog.findSignature c find = some x) :
    ∃ a : ClassRef, a.index ≤ c.index ∧ find (catalog.decl a) = some x := by
  simp only [findSignature, Option.orElse_eq_orElse, Option.orElse_eq_or,
    Option.or_eq_some_iff] at h
  rcases h with h | ⟨-, h⟩
  · obtain ⟨a, ha, hx⟩ := List.exists_of_findSome?_eq_some h
    exact ⟨a, le_of_mem_ancestors ha, hx⟩
  · obtain ⟨i, hi, h⟩ := List.exists_of_findSome?_eq_some h
    obtain ⟨a, ha, hx⟩ := List.exists_of_findSome?_eq_some h
    exact ⟨a, Nat.le_trans (le_of_mem_ancestors ha) (le_of_mem_allInterfaces hi), hx⟩

/-- The classes in a signature come before the class that opened the member. -/
theorem lt_of_mem_signature (hlayered : catalog.Layered) {m : ExposedMember} {adapter : Adapter}
    {types : List NativeType} (h : catalog.signature? m = some (adapter, types)) {type : NativeType}
    (htype : type ∈ types) {e : ClassRef} (he : type.referenced = some e) :
    e.index < m.declaring.index := by
  obtain ⟨name, member, role, declaring⟩ := m
  have hproperty : ∀ {d : PropertyDecl}, catalog.property? declaring member = some d →
      d.type.referenced = some e → e.index < declaring.index := by
    intro d hd he
    obtain ⟨a, ha, hfind⟩ := exists_of_findSignature hd
    refine Nat.lt_of_lt_of_le (hlayered.lt ?_ he) ha
    exact List.mem_append_right _ (List.mem_map_of_mem (List.mem_of_find?_eq_some hfind))
  cases role with
  | method =>
    obtain ⟨d, hd, hsignature⟩ := Option.map_eq_some_iff.1 h
    cases hsignature
    obtain ⟨a, ha, hfind⟩ := exists_of_findSignature hd
    refine Nat.lt_of_lt_of_le (hlayered.lt ?_ he) ha
    refine List.mem_append_left _ (List.mem_flatMap.2 ⟨d, ?_, htype⟩)
    exact List.mem_of_find?_eq_some hfind
  | getter =>
    obtain ⟨d, hd, hsignature⟩ := Option.map_eq_some_iff.1 h
    cases hsignature
    cases List.mem_singleton.1 htype
    exact hproperty hd he
  | setter =>
    obtain ⟨d, hd, hsignature⟩ := Option.map_eq_some_iff.1 h
    cases hsignature
    cases List.mem_singleton.1 htype
    exact hproperty hd he
  | subscribe =>
    obtain ⟨d, hd, hsignature⟩ := Option.map_eq_some_iff.1 h
    cases hsignature
    cases List.mem_singleton.1 htype
    cases he
  | unsubscribe =>
    obtain ⟨d, hd, hsignature⟩ := Option.map_eq_some_iff.1 h
    cases hsignature
    cases List.mem_singleton.1 htype
    cases he

variable {settings : Settings} {registrations : Registrations} {e : ClassRef}

/-- A class mentions earlier classes. -/
theorem lt_of_mentions (hlayered : catalog.Layered)
    (h : catalog.Mentions settings registrations c e) : e.index < c.index := by
  obtain ⟨members, hmembers, m, hm, adapter, types, hsignature, type, htype, he⟩ := h
  refine Nat.lt_of_lt_of_le ?_ (declaring_le_of_exposed hmembers hm)
  rw [memberSignature_eq] at hsignature
  cases hfound : catalog.signature? m with
  | none =>
    rw [hfound] at hsignature
    cases hsignature
  | some signature =>
    rw [hfound] at hsignature
    cases hsignature
    exact lt_of_mem_signature hlayered hfound htype he

/-- A class that is planned has its members resolved. -/
theorem exists_of_outline {plans : List MemberPlan} {constructors : List ConstructorPlan}
    {mentioned : List ClassRef}
    (h : catalog.outline settings registrations c = .ok (plans, constructors, mentioned)) :
    ∃ members, catalog.exposed settings.events registrations c = .ok members ∧
      catalog.plans c members = .ok (plans, constructors, mentioned) := by
  obtain ⟨members, hmembers, hplans⟩ := exists_of_bind_eq_ok h
  cases hexposed : catalog.exposed settings.events registrations c with
  | error e =>
    rw [hexposed] at hmembers
    cases hmembers
  | ok found =>
    rw [hexposed] at hmembers
    cases hmembers
    exact ⟨_, rfl, hplans⟩

/-- The classes of the plan of a member are those in its signature. -/
theorem mem_of_planMember {mode : ProxyMode} {m : ExposedMember} {plan : MemberPlan}
    {mentioned : List ClassRef} (h : catalog.planMember c mode m = .ok (plan, mentioned)) :
    ∃ adapter types, catalog.memberSignature m = .ok (adapter, types) ∧
      ∀ e, e ∈ mentioned ↔
        (∃ type ∈ types, type.referenced = some e) ∧ catalog.sameType e c = false := by
  obtain ⟨⟨adapter, types⟩, hsignature, h⟩ := exists_of_bind_eq_ok h
  obtain ⟨_, -, h⟩ := exists_of_bind_eq_ok h
  cases h
  refine ⟨adapter, types, ?_, fun e => ?_⟩
  · cases hm : catalog.memberSignature m with
    | error e =>
      rw [hm] at hsignature
      cases hsignature
    | ok signature =>
      rw [hm] at hsignature
      cases hsignature
      rfl
  · rw [List.mem_filter, List.mem_filterMap, Bool.not_eq_true']

/-- The classes of the plans of a class are those that it mentions, other than itself. -/
theorem mem_mentioned_iff {plans : List MemberPlan} {constructors : List ConstructorPlan}
    {mentioned : List ClassRef}
    (h : catalog.outline settings registrations c = .ok (plans, constructors, mentioned)) :
    e ∈ mentioned ↔
      catalog.Mentions settings registrations c e ∧ catalog.sameType e c = false := by
  obtain ⟨members, hmembers, h⟩ := exists_of_outline h
  obtain ⟨planned, hplanned, -, rfl⟩ := exists_planned h
  rw [List.mem_flatMap]
  constructor
  · rintro ⟨p, hp, he⟩
    obtain ⟨m, hm, hplan⟩ := exists_mem_of_mapM_eq_ok hplanned hp
    obtain ⟨adapter, types, hsignature, hmentioned⟩ := mem_of_planMember hplan
    obtain ⟨⟨type, htype, hreferenced⟩, hother⟩ := (hmentioned e).1 he
    exact ⟨⟨members, hmembers, m, hm, adapter, types, hsignature, type, htype, hreferenced⟩, hother⟩
  · rintro ⟨⟨members', hmembers', m, hm, adapter, types, hsignature, hreferenced⟩, hother⟩
    rw [hmembers] at hmembers'
    cases hmembers'
    obtain ⟨p, hp, hplan⟩ := exists_result_of_mapM_eq_ok hplanned hm
    obtain ⟨adapter', types', hsignature', hmentioned⟩ := mem_of_planMember hplan
    rw [hsignature] at hsignature'
    cases hsignature'
    exact ⟨p, hp, (hmentioned e).2 ⟨hreferenced, hother⟩⟩

end Catalog

end ScriptBoundary
