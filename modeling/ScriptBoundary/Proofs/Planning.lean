import ScriptBoundary.Proofs.Plans
import ScriptBoundary.Proofs.Refusal
import ScriptBoundary.Proofs.Resolution

/-!
# What is exposed can be planned

Resolution and planning look for members in different ways. Resolution asks of a registered
descriptor only that the bases or the interfaces of its type declare the member (`hasMember`); an
annotation names a member of its own declaration. Planning asks for a signature, along the bases
first, then along the interfaces and, but for events, their bases (`method?`, `property?`,
`event?`).

The declarations that resolution looks at are among those that planning looks at
(`exists_of_hasMember`). So it is enough that every claim on a member of a class names one
(`claimsMember_of_mem_claims`), and that what a claim asks for is of the sort that it names
(`category_of_mem_expand`): each exposed member has a signature, and planning fails at nothing but
its types (`exposed_plannable`).
-/

namespace ScriptBoundary

/-- Each annotation in a declaration is for the sort of member that it stands at. -/
structure ClassDecl.AnnotationsMatch (d : ClassDecl) : Prop where
  methods : ∀ m ∈ d.methods, ∀ expose ∈ m.expose, expose.category = .method
  properties : ∀ p ∈ d.properties, ∀ expose ∈ p.expose, expose.category = .property
  events : ∀ e ∈ d.events, ∀ expose ∈ e.expose, expose.category = .event

/-- What is kept of a list of members for their annotations is a member and its annotation. -/
theorem exists_of_mem_annotated {β : Type} {l : List β} {name : β → String}
    {exposeOf : β → Option Expose} {member : String} {expose : Expose}
    (h : (member, expose) ∈ l.filterMap fun b => (exposeOf b).map (name b, ·)) :
    ∃ b ∈ l, name b = member ∧ exposeOf b = some expose := by
  obtain ⟨b, hb, hannotated⟩ := List.mem_filterMap.1 h
  obtain ⟨expose', hexpose, hpair⟩ := Option.map_eq_some_iff.1 hannotated
  obtain ⟨hname, rfl⟩ := Prod.mk.inj hpair
  exact ⟨b, hb, hname, hexpose⟩

/-- What an annotation names stands in its declaration. -/
theorem ClassDecl.AnnotationsMatch.declares {d : ClassDecl} (h : d.AnnotationsMatch)
    {member : String} {expose : Expose} (hmem : (member, expose) ∈ d.annotations) :
    d.declares expose.category member = true := by
  -- One list of members after the other, each searched for its own sort.
  simp only [annotations, List.mem_append] at hmem
  rcases hmem with (hmem | hmem) | hmem
  · obtain ⟨m, hm, hname, hexpose⟩ := exists_of_mem_annotated hmem
    rw [h.methods m hm expose hexpose]
    exact List.any_eq_true.2 ⟨m, hm, beq_iff_eq.2 hname⟩
  · obtain ⟨p, hp, hname, hexpose⟩ := exists_of_mem_annotated hmem
    rw [h.properties p hp expose hexpose]
    exact List.any_eq_true.2 ⟨p, hp, beq_iff_eq.2 hname⟩
  · obtain ⟨e, he, hname, hexpose⟩ := exists_of_mem_annotated hmem
    rw [h.events e he expose hexpose]
    exact List.any_eq_true.2 ⟨e, he, beq_iff_eq.2 hname⟩

/-- A search finds something in a list with an element that has it. -/
theorem isSome_findSome?_of_mem {α β : Type} {find : α → Option β} {l : List α} {a : α} {b : β}
    (ha : a ∈ l) (hfind : find a = some b) : (l.findSome? find).isSome = true :=
  List.findSome?_isSome_iff.2 ⟨a, ha, Option.isSome_of_eq_some hfind⟩

namespace Catalog

variable {catalog : Catalog} {prefixes : EventPrefixes} {registrations : Registrations}
  {c : ClassRef}

/-! ## Members that a class has -/

/-- A class has what one of its bases or interfaces declares. -/
theorem hasMember_iff {category : MemberCategory} {name : String} :
    catalog.hasMember c category name = true ↔
      ∃ t, (t ∈ catalog.ancestors c ∨ t ∈ catalog.allInterfaces c) ∧
        (catalog.decl t).declares category name = true := by
  simp only [hasMember, Bool.or_eq_true, List.any_eq_true, or_and_right, exists_or]

/-- A class is the first of its bases. -/
theorem self_mem_ancestors (catalog : Catalog) (c : ClassRef) : c ∈ catalog.ancestors c := by
  rw [ancestors_eq]
  exact List.mem_cons_self

/-- A class has what it declares itself. -/
theorem hasMember_of_declares {category : MemberCategory} {name : String}
    (h : (catalog.decl c).declares category name = true) :
    catalog.hasMember c category name = true :=
  hasMember_iff.2 ⟨c, .inl (self_mem_ancestors catalog c), h⟩

/-- A search through the bases and the interfaces of a class finds something when one of their
declarations has it, since each interface is the first of its own bases. -/
theorem exists_findSignature {α : Type} (find : ClassDecl → Option α) {t : ClassRef} {x : α}
    (ht : t ∈ catalog.ancestors c ∨ t ∈ catalog.allInterfaces c)
    (hfind : find (catalog.decl t) = some x) : ∃ y, catalog.findSignature c find = some y := by
  have halong : ∀ {c : ClassRef}, t ∈ catalog.ancestors c →
      ((catalog.ancestors c).findSome? fun a => find (catalog.decl a)).isSome = true :=
    fun ht => isSome_findSome?_of_mem ht hfind
  refine Option.isSome_iff_exists.1 ?_
  simp only [findSignature, Option.orElse_eq_orElse, Option.orElse_eq_or, Option.isSome_or,
    Bool.or_eq_true]
  rcases ht with ht | ht
  · exact .inl (halong ht)
  · have hself := halong (self_mem_ancestors catalog t)
    obtain ⟨y, hy⟩ := Option.isSome_iff_exists.1 hself
    exact .inr (isSome_findSome?_of_mem ht hy)

/-- The signature that planning looks up for a sort of member is there. -/
def Signed (catalog : Catalog) (c : ClassRef) (category : MemberCategory) (name : String) : Prop :=
  match category with
  | .method => ∃ d, catalog.method? c name = some d
  | .property => ∃ d, catalog.property? c name = some d
  | .event => ∃ d, catalog.event? c name = some d

/-- What a class has can be looked up. -/
theorem signed_of_hasMember {category : MemberCategory} {name : String}
    (h : catalog.hasMember c category name = true) : catalog.Signed c category name := by
  obtain ⟨t, ht, hdeclares⟩ := hasMember_iff.1 h
  -- A list with a member of a name gives one when it is searched for the name.
  have hfind : ∀ {β : Type} {l : List β} {named : β → String},
      l.any (named · == name) = true → ∃ b, l.find? (named · = name) = some b := by
    intro β l named hany
    obtain ⟨b, hb, hname⟩ := List.any_eq_true.1 hany
    refine Option.isSome_iff_exists.1 (List.find?_isSome.2 ⟨b, hb, ?_⟩)
    exact decide_eq_true (beq_iff_eq.1 hname)
  cases category with
  | method =>
    obtain ⟨d, hd⟩ := hfind hdeclares
    exact exists_findSignature (fun d => d.methods.find? (·.name = name)) ht hd
  | property =>
    obtain ⟨d, hd⟩ := hfind hdeclares
    exact exists_findSignature (fun d => d.properties.find? (·.name = name)) ht hd
  | event =>
    obtain ⟨d, hd⟩ := hfind hdeclares
    have hsearched : ∀ {l : List ClassRef}, t ∈ l →
        (l.findSome? fun a => (catalog.decl a).events.find? (·.name = name)).isSome = true :=
      fun ht => isSome_findSome?_of_mem ht hd
    refine Option.isSome_iff_exists.1 ?_
    simp only [event?, Option.orElse_eq_orElse, Option.orElse_eq_or, Option.isSome_or,
      Bool.or_eq_true]
    exact ht.imp hsearched hsearched

/-! ## Members that scripts see -/

/-- Every claim on a member of a class names one, when resolution meets no stray descriptor. -/
theorem claimsMember_of_mem_claims
    (hmatch : ∀ t, t ∈ catalog.ancestors c ∨ t ∈ catalog.allInterfaces c →
      (catalog.decl t).AnnotationsMatch)
    (hstray : catalog.strayClaim? registrations c = none) {claim : Claim}
    (h : claim ∈ catalog.claims registrations c) : catalog.claimsMember claim = true := by
  have hannotated : ∀ {t}, t ∈ catalog.ancestors c ∨ t ∈ catalog.allInterfaces c →
      claim ∈ catalog.annotatedClaims t → catalog.claimsMember claim = true := by
    intro t ht hclaim
    obtain ⟨⟨member, expose⟩, hmem, rfl⟩ := List.mem_map.1 hclaim
    exact hasMember_of_declares ((hmatch t ht).declares hmem)
  rcases List.mem_append.1 h with h | h
  · obtain ⟨t, ht, hclaim⟩ := List.mem_flatMap.1 h
    rcases List.mem_append.1 hclaim with hclaim | hclaim
    · exact hannotated (.inl ht) hclaim
    · -- Resolution has looked at all descriptors of the bases.
      have hall := List.find?_eq_none.1 hstray claim (List.mem_flatMap.2 ⟨t, ht, hclaim⟩)
      simpa using hall
  · obtain ⟨t, ht, hclaim⟩ := List.mem_flatMap.1 h
    rcases List.mem_append.1 hclaim with hclaim | hclaim
    · exact hannotated (.inr ht) hclaim
    · exact (List.mem_filter.1 hclaim).2

/-- What a claim asks for is of the sort of member that the claim is on. -/
theorem category_of_mem_expand {claim : Claim} {m : ExposedMember}
    (h : m ∈ catalog.expand prefixes claim) : m.role.category = claim.expose.category := by
  obtain ⟨declaring, member, expose⟩ := claim
  cases expose with
  | function name =>
    obtain rfl := List.mem_singleton.1 h
    rfl
  | property name readOnly =>
    rcases List.mem_cons.1 h with rfl | h
    · rfl
    · split at h
      · obtain rfl := List.mem_singleton.1 h
        rfl
      · cases h
  | event name add remove => rcases List.mem_pair.1 h with rfl | rfl <;> rfl

/-- A claim asks for a setter only of a property that is found and can be written. -/
theorem writable_of_mem_expand {claim : Claim} {m : ExposedMember}
    (h : m ∈ catalog.expand prefixes claim) (hrole : m.role = .setter) :
    ∃ d, catalog.property? m.declaring m.member = some d ∧ d.access.isWritable = true := by
  obtain ⟨declaring, member, expose⟩ := claim
  cases expose with
  | function name =>
    cases List.mem_singleton.1 h
    cases hrole
  | property name readOnly =>
    rcases List.mem_cons.1 h with rfl | h
    · cases hrole
    · split at h
      · next hshown =>
        obtain rfl := List.mem_singleton.1 h
        exact (Option.any_eq_true _ _).1 (Bool.and_eq_true_iff.1 hshown).1
      · cases h
  | event name add remove => rcases List.mem_pair.1 h with rfl | rfl <;> cases hrole

/-! ## Plans -/

/-- Planning finds what it needs of an exposed member. -/
structure Plannable (catalog : Catalog) (m : ExposedMember) : Prop where
  /-- The signature of the member is found on the class that opened it. -/
  signature : ∃ signature, catalog.memberSignature m = .ok signature
  /-- What scripts may set can be written, by the signature that is found. -/
  writable : m.role = .setter →
    ∃ d, catalog.property? m.declaring m.member = some d ∧ d.access.isWritable = true
  /-- Planned for any class, the member fails at most at its types. -/
  planned : ∀ c mode e, catalog.planMember c mode m = .error e → ∃ reason, e = .conversion reason

/-- A member of a class that has it has a signature. -/
theorem exists_memberSignature {m : ExposedMember}
    (h : catalog.hasMember m.declaring m.role.category m.member = true) :
    ∃ signature, catalog.memberSignature m = .ok signature := by
  suffices hfound : ∃ signature, catalog.signature? m = some signature by
    obtain ⟨signature, hsignature⟩ := hfound
    refine ⟨signature, ?_⟩
    rw [memberSignature_eq, hsignature]
    rfl
  have hsigned := signed_of_hasMember h
  obtain ⟨name, member, role, declaring⟩ := m
  cases role <;>
    · obtain ⟨d, hd⟩ := hsigned
      exact ⟨_, Option.map_eq_some_iff.2 ⟨d, hd, rfl⟩⟩

/-- Types that cannot all be handed on fail with the reason of one of them. -/
theorem conversion_of_forM_scriptKind {types : List NativeType} {e : Error}
    (h : (types.forM fun type =>
      ((catalog.scriptKind type).mapError Error.conversion).map fun _ => ()) = .error e) :
    ∃ reason, e = .conversion reason := by
  induction types with
  | nil => cases h
  | cons type types ih =>
    rcases error_cases_of_bind h with hfirst | ⟨-, -, hrest⟩
    · have hkind := error_of_map_eq_error hfirst
      cases hk : catalog.scriptKind type with
      | ok kind =>
        rw [hk] at hkind
        cases hkind
      | error reason =>
        rw [hk] at hkind
        cases hkind
        exact ⟨reason, rfl⟩
    · exact ih hrest

/-- With a signature, only the types in it stand in the way of a plan. -/
theorem conversion_of_planMember {mode : ProxyMode} {m : ExposedMember} {e : Error}
    {signature : Adapter × List NativeType} (hsignature : catalog.memberSignature m = .ok signature)
    (h : catalog.planMember c mode m = .error e) : ∃ reason, e = .conversion reason := by
  unfold planMember at h
  rw [hsignature] at h
  rcases error_cases_of_bind h with hnone | ⟨found, -, hfailed⟩
  · cases hnone
  · rcases error_cases_of_bind hfailed with hfailed | ⟨-, -, hdone⟩
    · exact conversion_of_forM_scriptKind hfailed
    · cases hdone

/-- Where each member can be planned, planning them all and the constructors fails at nothing but a
type. -/
theorem conversion_of_plans {members : List ExposedMember} {e : Error}
    (hplannable : ∀ m ∈ members, catalog.Plannable m)
    (h : catalog.plans c members = .error e) : ∃ reason, e = .conversion reason := by
  -- The members come first; constructors are planned for classes only.
  unfold plans at h
  rcases error_cases_of_bind h with hmembers | ⟨planned, -, h⟩
  · obtain ⟨m, hm, hfailed⟩ := exists_mem_of_mapM_eq_error hmembers
    exact (hplannable m hm).planned _ _ e hfailed
  · cases hmode : catalog.mode c with
    | byName =>
      rw [hmode] at h
      cases h
    | bound =>
      rw [hmode] at h
      rcases error_cases_of_bind h with hconstructors | ⟨constructors, -, hdone⟩
      · obtain ⟨k, -, hfailed⟩ := exists_mem_of_mapM_eq_error hconstructors
        rcases catalog.planConstructor_cases c k with ⟨-, plan, hplan⟩ | ⟨reason, -, hrefused⟩
        · rw [hplan] at hfailed
          cases hfailed
        · exact ⟨reason, Except.error.inj (hfailed.symm.trans hrefused)⟩
      · cases hdone

/-- Where each annotation is for the sort of member that it stands at, whatever resolution exposes
can be planned: the signature of each exposed member is found on the class that opened the member,
a setter is exposed only if that signature can be written, and planning the members and the
constructors of the class fails at nothing but a type that the policy refuses. -/
theorem exposed_plannable {members : List ExposedMember}
    (hmatch : ∀ t, t ∈ catalog.ancestors c ∨ t ∈ catalog.allInterfaces c →
      (catalog.decl t).AnnotationsMatch)
    (hexposed : catalog.exposed prefixes registrations c = .ok members) :
    (∀ m ∈ members, catalog.Plannable m) ∧
      ∀ e, catalog.plans c members = .error e → ∃ reason, e = .conversion reason := by
  have hstray : catalog.strayClaim? registrations c = none := by
    unfold exposed at hexposed
    split at hexposed
    · cases hexposed
    · assumption
  obtain ⟨taken, hwins⟩ := catalog.exists_firstWins_of_exposed prefixes registrations c hexposed
  have hplannable : ∀ m ∈ members, catalog.Plannable m := by
    intro m hm
    obtain ⟨i, -, hmi, -⟩ := hwins.exists_claim hm hm (.inl rfl)
    have hclaim := claimsMember_of_mem_claims hmatch hstray (List.getElem_mem i.isLt)
    have hhas : catalog.hasMember m.declaring m.role.category m.member = true := by
      obtain ⟨hmember, hdeclaring⟩ := catalog.of_mem_expand prefixes hmi
      rw [hmember, hdeclaring, category_of_mem_expand hmi]
      exact hclaim
    obtain ⟨signature, hsignature⟩ := exists_memberSignature hhas
    exact ⟨⟨signature, hsignature⟩, writable_of_mem_expand hmi,
      fun c mode e he => conversion_of_planMember hsignature he⟩
  exact ⟨hplannable, fun _ => conversion_of_plans hplannable⟩

/-- A book is lent as an interface says and has a title. The property of the title is declared by
the base of the interface that the book names. -/
def library : Catalog where
  decls :=
    [{ (default : ClassDecl) with
        identity := ⟨1⟩, name := "Named", isInterface := true,
        properties := [⟨"Title", .string, none, none, .abstract true⟩] },
      { (default : ClassDecl) with
        identity := ⟨2⟩, name := "Catalogued", isInterface := true, base := some ⟨0⟩ },
      { (default : ClassDecl) with
        identity := ⟨3⟩, name := "Lent", isInterface := true, interfaces := [⟨1⟩],
        events := [⟨"Returned", .undeclared, none, none⟩] },
      { (default : ClassDecl) with
        identity := ⟨4⟩, name := "Book", interfaces := [⟨2⟩],
        methods := [⟨"Open", [], .void, some (.function none), none⟩] }]
  restsOn := by decide

/-- Descriptors for what a book inherits: an event of its interface, and a property of the base of
another. -/
def shelfmarks : Registrations :=
  [(⟨4⟩, [⟨"Returned", .event none none none⟩]), (⟨2⟩, [⟨"Title", .property (some "title") false⟩])]

/-- What a book inherits is exposed by descriptors and planned. -/
theorem book_plannable :
    library.exposed {} shelfmarks ⟨3⟩ =
        .ok [⟨"Open", "Open", .method, ⟨3⟩⟩, ⟨"addReturned", "Returned", .subscribe, ⟨3⟩⟩,
          ⟨"removeReturned", "Returned", .unsubscribe, ⟨3⟩⟩, ⟨"title", "Title", .getter, ⟨1⟩⟩,
          ⟨"title", "Title", .setter, ⟨1⟩⟩] ∧
      library.Plannable ⟨"title", "Title", .setter, ⟨1⟩⟩ := by
  have hfound : library.ancestors ⟨3⟩ ++ library.allInterfaces ⟨3⟩ = [⟨3⟩, ⟨2⟩, ⟨1⟩] := by decide
  have hmatch : ∀ t, t ∈ library.ancestors ⟨3⟩ ∨ t ∈ library.allInterfaces ⟨3⟩ →
      (library.decl t).AnnotationsMatch := by
    intro t ht
    rw [← List.mem_append, hfound] at ht
    simp only [List.mem_cons, List.not_mem_nil, or_false] at ht
    rcases ht with rfl | rfl | rfl <;> exact ⟨by decide, by decide, by decide⟩
  have hexposed : library.exposed {} shelfmarks ⟨3⟩ = .ok _ := rfl
  refine ⟨hexposed, (exposed_plannable hmatch hexposed).1 _ ?_⟩
  decide

end Catalog

end ScriptBoundary
