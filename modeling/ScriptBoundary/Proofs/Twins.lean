import Mathlib.Data.List.Basic
import ScriptBoundary.Adapter.Build
import ScriptBoundary.Proofs.Renaming

/-!
# Declarations of one type

A catalogue may hold several declarations of one type. Where they are equal but for the places by
which they name other classes (`Coherent`), it does not matter from which of them one starts: walks
along bases and interfaces, look-ups, exposed members and plans are the same, again but for such
places. Each fact compares what is said of a class with what is said of the first declaration of its
type, all places replaced by those of first declarations.
-/

namespace ScriptBoundary

/-- Folds over lists of one form give results of one form, when each step does. -/
theorem foldl_congr_map {α β γ δ : Type} {r : α → γ} {s : β → δ} {step step' : β → α → β}
    {l l' : List α} (hl : l.map r = l'.map r)
    (hstep : ∀ b b', s b = s b' → ∀ a ∈ l, ∀ a' ∈ l', r a = r a' → s (step b a) = s (step' b' a'))
    {b b' : β} (hb : s b = s b') : s (l.foldl step b) = s (l'.foldl step' b') := by
  induction l generalizing l' b b' with
  | nil =>
    rw [List.map_eq_nil_iff.1 hl.symm]
    exact hb
  | cons a l ih =>
    obtain ⟨a', l', rfl, ha, hrest⟩ := List.map_eq_cons_iff.1 hl.symm
    refine ih hrest.symm (fun b b' hb x hx x' hx' => ?_) ?_
    · exact hstep b b' hb x (List.mem_cons_of_mem _ hx) x' (List.mem_cons_of_mem _ hx')
    · exact hstep b b' hb a List.mem_cons_self a' List.mem_cons_self ha.symm

/-- What is found by name in a list is found in the renamed list, renamed. -/
theorem find?_rename {β : Type} {r : β → β} {name : β → String} (hname : ∀ b, name (r b) = name b)
    (l : List β) (key : String) :
    (l.find? (name · = key)).map r = (l.map r).find? (name · = key) := by
  rw [List.find?_map]
  refine congrArg (fun p => (l.find? p).map r) (funext fun b => ?_)
  exact congrArg (fun n => decide (n = key)) (hname b).symm

namespace Catalog

variable (catalog : Catalog)

/-! ## First declarations -/

/-- The first declaration of the type that a class is of. -/
def first (c : ClassRef) : ClassRef :=
  if c.index < catalog.size then
    ⟨catalog.decls.findIdx (·.identity == catalog.identity c)⟩
  else c

/-- Declarations of one type are equal, but for the places by which they name other classes. -/
def Coherent : Prop :=
  ∀ c d : ClassRef, c.index < catalog.size → d.index < catalog.size →
    catalog.identity c = catalog.identity d →
      (catalog.decl c).rename catalog.first = (catalog.decl d).rename catalog.first

variable {catalog} {c d : ClassRef}

theorem decl_of_lt (hc : c.index < catalog.size) :
    catalog.decl c = catalog.decls.get ⟨c.index, hc⟩ := by
  rw [decl, List.getD_eq_getElem?_getD, List.getElem?_eq_getElem hc, Option.getD_some]
  rfl

/-- The first declaration is no later than the class. -/
theorem first_le (c : ClassRef) : (catalog.first c).index ≤ c.index := by
  unfold first
  split
  · next hc =>
    refine Nat.not_lt.1 fun hlt => ?_
    have hother := List.not_of_lt_findIdx hlt
    have hself : (catalog.decls.get ⟨c.index, hc⟩).identity = catalog.identity c := by
      rw [identity, decl_of_lt hc]
    exact beq_eq_false_iff_ne.1 hother hself
  · exact Nat.le_refl _

theorem identity_first (c : ClassRef) :
    catalog.identity (catalog.first c) = catalog.identity c := by
  by_cases hc : c.index < catalog.size
  · have hle := catalog.first_le c
    have hlt := Nat.lt_of_le_of_lt hle hc
    rw [first, if_pos hc] at hlt ⊢
    have hfound := List.findIdx_getElem (w := hlt)
    rw [identity, decl_of_lt hlt]
    exact beq_iff_eq.1 hfound
  · rw [first, if_neg hc]

/-- Declarations that are there have the first declaration in common exactly when they are of one
type. -/
theorem first_eq_iff (hc : c.index < catalog.size) (hd : d.index < catalog.size) :
    catalog.first c = catalog.first d ↔ catalog.identity c = catalog.identity d := by
  refine ⟨fun h => ?_, fun h => ?_⟩
  · rw [← identity_first c, h, identity_first]
  · rw [first, first, if_pos hc, if_pos hd, h]

/-- What is the first declaration of its type stays so. -/
theorem first_first (c : ClassRef) : catalog.first (catalog.first c) = catalog.first c := by
  by_cases hc : c.index < catalog.size
  · have hlt := Nat.lt_of_le_of_lt (catalog.first_le c) hc
    exact (first_eq_iff hlt hc).2 (identity_first c)
  · have hfirst : catalog.first c = c := by rw [first, if_neg hc]
    rw [hfirst, hfirst]

/-- Being of the type of a class is being of the type that it is a declaration of. -/
theorem sameType_congr (h : catalog.identity c = catalog.identity d) :
    catalog.sameType c = catalog.sameType d :=
  funext fun b => congrArg (· == catalog.identity b) h

theorem sameType_first (c d : ClassRef) :
    catalog.sameType (catalog.first c) (catalog.first d) = catalog.sameType c d := by
  rw [sameType, identity_first, identity_first, sameType]

/-- Something said of classes that is the same for the first declaration of the type is the same
along lists of classes of the same types. -/
theorem map_eq_of_first {γ : Type} {g : ClassRef → γ}
    (hg : ∀ a, g (catalog.first a) = g a) {l l' : List ClassRef}
    (h : l.map catalog.first = l'.map catalog.first) : l.map g = l'.map g := by
  have hfirst : ∀ l : List ClassRef, l.map g = (l.map catalog.first).map g := by
    intro l
    rw [List.map_map]
    exact List.map_congr_left fun a _ => (hg a).symm
  rw [hfirst l, h, ← hfirst l']

/-- What is said alike of first declarations and comes in lists comes in lists of one form. -/
theorem flatMap_map_congr {β γ : Type} {g : ClassRef → List β} {r : β → γ}
    (hg : ∀ a, (g (catalog.first a)).map r = (g a).map r) {l l' : List ClassRef}
    (h : l.map catalog.first = l'.map catalog.first) :
    (l.flatMap g).map r = (l'.flatMap g).map r := by
  rw [List.map_flatMap, List.map_flatMap, List.flatMap_def, List.flatMap_def,
    map_eq_of_first hg h]

/-- The first thing that is found along classes of the same types. -/
theorem findSome?_congr {β γ : Type} {g : ClassRef → Option β} {r : β → γ}
    (hg : ∀ a, (g (catalog.first a)).map r = (g a).map r) {l l' : List ClassRef}
    (h : l.map catalog.first = l'.map catalog.first) :
    (l.findSome? g).map r = (l'.findSome? g).map r := by
  have hflat : ∀ l : List ClassRef, (l.findSome? g).map r =
      (l.map fun a => (g a).map r).findSome? id := by
    intro l
    rw [List.findSome?_map, List.map_findSome?]
    rfl
  rw [hflat, hflat, map_eq_of_first hg h]

theorem any_congr {g : ClassRef → Bool} (hg : ∀ a, g (catalog.first a) = g a)
    {l l' : List ClassRef} (h : l.map catalog.first = l'.map catalog.first) :
    l.any g = l'.any g := by
  have hflat : ∀ l : List ClassRef, l.any g = (l.map g).any id := by
    intro l
    rw [List.any_map]
    rfl
  rw [hflat, hflat, map_eq_of_first hg h]

theorem all_congr {g : ClassRef → Bool} (hg : ∀ a, g (catalog.first a) = g a)
    {l l' : List ClassRef} (h : l.map catalog.first = l'.map catalog.first) :
    l.all g = l'.all g := by
  have hflat : ∀ l : List ClassRef, l.all g = (l.map g).all id := by
    intro l
    rw [List.all_map]
    rfl
  rw [hflat, hflat, map_eq_of_first hg h]

/-- It is enough to compare each declaration with the first of its type. -/
theorem Coherent.of_first (h : ∀ c : ClassRef, c.index < catalog.size →
    (catalog.decl (catalog.first c)).rename catalog.first =
      (catalog.decl c).rename catalog.first) : catalog.Coherent := by
  intro c d hc hd hidentity
  rw [← h c hc, (first_eq_iff hc hd).2 hidentity, h d hd]

/-! ## Walks -/

variable (hcoherent : catalog.Coherent)

include hcoherent

theorem decl_first (c : ClassRef) : (catalog.decl (catalog.first c)).rename catalog.first =
    (catalog.decl c).rename catalog.first := by
  by_cases hc : c.index < catalog.size
  · exact hcoherent _ _ (Nat.lt_of_le_of_lt (catalog.first_le c) hc) hc (identity_first c)
  · rw [first, if_neg hc]

theorem decl_congr {c d : ClassRef} (h : catalog.first c = catalog.first d) :
    (catalog.decl c).rename catalog.first = (catalog.decl d).rename catalog.first := by
  rw [← decl_first hcoherent c, h, decl_first hcoherent d]

/-- What renaming leaves is said alike of the first declaration of the type. -/
theorem field_first {γ : Type} (g : ClassDecl → γ)
    (hg : ∀ d : ClassDecl, g (d.rename catalog.first) = g d) (c : ClassRef) :
    g (catalog.decl (catalog.first c)) = g (catalog.decl c) := by
  rw [← hg (catalog.decl c), ← decl_first hcoherent c, hg]

theorem name_first (c : ClassRef) : catalog.name (catalog.first c) = catalog.name c :=
  field_first hcoherent ClassDecl.name (fun _ => rfl) c

theorem isInterface_first (c : ClassRef) :
    catalog.isInterface (catalog.first c) = catalog.isInterface c :=
  field_first hcoherent ClassDecl.isInterface (fun _ => rfl) c

theorem mode_first (c : ClassRef) : catalog.mode (catalog.first c) = catalog.mode c := by
  rw [mode, isInterface_first hcoherent, mode]

/-- The bases of classes of one type are of the same types. -/
theorem ancestors_congr {c d : ClassRef} (h : catalog.first c = catalog.first d) :
    (catalog.ancestors c).map catalog.first = (catalog.ancestors d).map catalog.first := by
  -- On the place of the first class; the bases are of one type again, at whatever places.
  induction hn : c.index using Nat.strongRecOn generalizing c d with
  | _ n ih =>
    have hbase : (catalog.decl c).base.map catalog.first =
        (catalog.decl d).base.map catalog.first :=
      congrArg (·.base) (decl_congr hcoherent h)
    rw [catalog.ancestors_eq c, catalog.ancestors_eq d, List.map_cons, List.map_cons, h]
    refine congrArg _ ?_
    cases hb : (catalog.decl c).base with
    | none =>
      rw [hb] at hbase
      rw [Option.map_eq_none_iff.1 hbase.symm]
    | some b =>
      rw [hb] at hbase
      obtain ⟨b', hb', hfirst⟩ := Option.map_eq_some_iff.1 hbase.symm
      rw [hb']
      have hlt := (catalog.restsOn_decl c).1 b (by simp [hb])
      exact ih b.index (hn ▸ hlt) hfirst.symm rfl

/-- Visiting interfaces of one type adds interfaces of the same types, whatever the bounds on the
depth. -/
theorem visitInterface_congr {n m : Nat} {i j : ClassRef} {found found' : List ClassRef}
    (hi : i.index < n) (hj : j.index < m) (h : catalog.first i = catalog.first j)
    (hfound : found.map catalog.first = found'.map catalog.first) :
    (catalog.visitInterface n found i).map catalog.first =
      (catalog.visitInterface m found' j).map catalog.first := by
  induction n generalizing m i j found found' with
  | zero => omega
  | succ n ih =>
    cases m with
    | zero => omega
    | succ m =>
      have hany : found.any (catalog.sameType i) = found'.any (catalog.sameType j) := by
        have hsame : ∀ (l : List ClassRef) (k : ClassRef), l.any (catalog.sameType k) =
            (l.map catalog.first).any (catalog.sameType (catalog.first k)) := by
          intro l k
          rw [List.any_map]
          exact congrArg l.any (funext fun a => (sameType_first k a).symm)
        rw [hsame found i, hsame found' j, h, hfound]
      rw [visitInterface, visitInterface, hany]
      split
      · exact hfound
      · -- The interfaces that are named lie deeper, so the induction takes them one by one.
        have hinterfaces : (catalog.decl i).interfaces.map catalog.first =
            (catalog.decl j).interfaces.map catalog.first :=
          congrArg (·.interfaces) (decl_congr hcoherent h)
        have hbelow := (catalog.restsOn_decl i).2
        have hbelow' := (catalog.restsOn_decl j).2
        have hstart : (found ++ [i]).map catalog.first = (found' ++ [j]).map catalog.first := by
          rw [List.map_append, List.map_append, hfound, List.map_singleton, List.map_singleton, h]
        refine foldl_congr_map hinterfaces (fun b b' hb k hk k' hk' hkk' => ?_) hstart
        have hkn := hbelow k hk
        have hkm := hbelow' k' hk'
        exact ih (by omega) (by omega) hkk' hb

/-- The interfaces of classes of one type are of the same types. -/
theorem allInterfaces_congr {c d : ClassRef} (h : catalog.first c = catalog.first d) :
    (catalog.allInterfaces c).map catalog.first =
      (catalog.allInterfaces d).map catalog.first := by
  have hnamed := flatMap_map_congr (r := catalog.first) (g := fun a => (catalog.decl a).interfaces)
    (fun a => congrArg (·.interfaces) (decl_first hcoherent a)) (ancestors_congr hcoherent h)
  refine foldl_congr_map hnamed (fun b b' hb i _ i' _ hi => ?_) rfl
  exact visitInterface_congr hcoherent (Nat.lt_succ_self _) (Nat.lt_succ_self _) hi hb

/-! ## Members -/

theorem hasMember_first (c : ClassRef) (category : MemberCategory) (name : String) :
    catalog.hasMember (catalog.first c) category name = catalog.hasMember c category name := by
  have hdeclares := field_first hcoherent (fun d => d.declares category name)
    fun d => d.declares_rename _ category name
  rw [hasMember, hasMember, any_congr hdeclares (ancestors_congr hcoherent (first_first c)),
    any_congr hdeclares (allInterfaces_congr hcoherent (first_first c))]

theorem declaresNoMembers_first (c : ClassRef) :
    catalog.declaresNoMembers (catalog.first c) = catalog.declaresNoMembers c := by
  have hbare := field_first hcoherent ClassDecl.isBare fun d => d.isBare_rename _
  rw [declaresNoMembers, declaresNoMembers,
    all_congr hbare (ancestors_congr hcoherent (first_first c)),
    all_congr hbare (allInterfaces_congr hcoherent (first_first c))]

/-- The code of a member is that of the same type. -/
theorem implementation?_first (c : ClassRef) (role : MemberRole) (name : String) :
    (catalog.implementation? (catalog.first c) role name).map
        (Implementation.rename catalog.first) =
      (catalog.implementation? c role name).map (Implementation.rename catalog.first) := by
  refine findSome?_congr (fun a => ?_) (ancestors_congr hcoherent (first_first c))
  have hcode : (catalog.decl (catalog.first a)).code role name = (catalog.decl a).code role name :=
    field_first hcoherent (·.code role name) (fun d => d.code_rename _ role name) a
  rw [hcode, Option.map_map, Option.map_map]
  refine congrArg (Option.map · _) (funext fun code => ?_)
  exact congrArg (Implementation.mk · name role code) (first_first a)

/-- What is found by name among the members of a declaration of some sort is found in the first
declaration of the type. -/
theorem find?_first {β : Type} (r : β → β) (name : β → String) (list : ClassDecl → List β)
    (hname : ∀ b, name (r b) = name b)
    (hlist : ∀ d : ClassDecl, list (d.rename catalog.first) = (list d).map r) (key : String)
    (c : ClassRef) : ((list (catalog.decl (catalog.first c))).find? (name · = key)).map r =
      ((list (catalog.decl c)).find? (name · = key)).map r := by
  rw [find?_rename hname, find?_rename hname, ← hlist, ← hlist, decl_first hcoherent]

/-- What is found along a class and its bases, or else along its interfaces. -/
theorem findMember_first {α β : Type} {find along : ClassRef → Option α} {r : α → β}
    (hfind : ∀ a, (find (catalog.first a)).map r = (find a).map r)
    (halong : ∀ a, (along (catalog.first a)).map r = (along a).map r) (c : ClassRef) :
    ((catalog.ancestors (catalog.first c)).findSome? find <|>
        (catalog.allInterfaces (catalog.first c)).findSome? along).map r =
      ((catalog.ancestors c).findSome? find <|>
        (catalog.allInterfaces c).findSome? along).map r := by
  simp only [Option.orElse_eq_orElse, Option.orElse_eq_or, Option.map_or]
  rw [findSome?_congr hfind (ancestors_congr hcoherent (first_first c)),
    findSome?_congr halong (allInterfaces_congr hcoherent (first_first c))]

/-- The signature of a member as the first declaration of the type sees it. -/
theorem findSignature_first {α β : Type} {find : ClassDecl → Option α} {r : α → β}
    (hfind : ∀ a, (find (catalog.decl (catalog.first a))).map r = (find (catalog.decl a)).map r)
    (c : ClassRef) : (catalog.findSignature (catalog.first c) find).map r =
      (catalog.findSignature c find).map r :=
  findMember_first hcoherent hfind
    (fun a => findSome?_congr hfind (ancestors_congr hcoherent (first_first a))) c

theorem method?_first (c : ClassRef) (name : String) :
    (catalog.method? (catalog.first c) name).map (MethodDecl.rename catalog.first) =
      (catalog.method? c name).map (MethodDecl.rename catalog.first) :=
  findSignature_first hcoherent (find?_first hcoherent (MethodDecl.rename catalog.first)
    MethodDecl.name ClassDecl.methods (fun _ => rfl) (fun _ => rfl) name) c

theorem property?_first (c : ClassRef) (name : String) :
    (catalog.property? (catalog.first c) name).map (PropertyDecl.rename catalog.first) =
      (catalog.property? c name).map (PropertyDecl.rename catalog.first) :=
  findSignature_first hcoherent (find?_first hcoherent (PropertyDecl.rename catalog.first)
    PropertyDecl.name ClassDecl.properties (fun _ => rfl) (fun _ => rfl) name) c

theorem event?_first (c : ClassRef) (name : String) :
    (catalog.event? (catalog.first c) name).map (EventDecl.rename catalog.first) =
      (catalog.event? c name).map (EventDecl.rename catalog.first) :=
  have hfind := find?_first hcoherent (EventDecl.rename catalog.first) EventDecl.name
    ClassDecl.events (fun _ => rfl) (fun _ => rfl) name
  findMember_first hcoherent hfind hfind c

/-! ## Exposed members -/

variable {prefixes : EventPrefixes} {registrations : Registrations}

/-- A claim asks for the same of the first declaration of its type. -/
theorem expand_rename (claim : Claim) :
    catalog.expand prefixes (claim.rename catalog.first) =
      (catalog.expand prefixes claim).map (ExposedMember.rename catalog.first) := by
  obtain ⟨declaring, member, expose⟩ := claim
  cases expose with
  | function name => rfl
  | event name add remove => rfl
  | property name readOnly =>
    have hwritable : (catalog.property? (catalog.first declaring) member).any
        (·.access.isWritable) = (catalog.property? declaring member).any (·.access.isWritable) := by
      have hrename : ∀ p : Option PropertyDecl, p.any (·.access.isWritable) =
          (p.map (PropertyDecl.rename catalog.first)).any (·.access.isWritable) := by
        intro p
        cases p <;> rfl
      rw [hrename, property?_first hcoherent, ← hrename]
    simp only [expand, Claim.rename, hwritable]
    split <;> rfl

/-- Taking up a claim, with all places replaced. -/
theorem takeUp_rename (taken : List ExposedMember) (claim : Claim) :
    catalog.takeUp prefixes (taken.map (ExposedMember.rename catalog.first))
        (claim.rename catalog.first) =
      (catalog.takeUp prefixes taken claim).map (ExposedMember.rename catalog.first) := by
  have hmember : (taken.map (ExposedMember.rename catalog.first)).any
      (·.member == claim.member) = taken.any (·.member == claim.member) := List.any_map
  have hnames : ((catalog.expand prefixes claim).map (ExposedMember.rename catalog.first)).any
      (fun a => (taken.map (ExposedMember.rename catalog.first)).any (·.name == a.name)) =
        (catalog.expand prefixes claim).any fun a => taken.any (·.name == a.name) := by
    rw [List.any_map]
    exact congrArg _ (funext fun a => List.any_map)
  unfold takeUp
  dsimp only
  rw [expand_rename hcoherent, hnames]
  simp only [Claim.rename, hmember]
  split
  · rfl
  · split
    · rfl
    · exact List.map_append.symm

theorem claimsMember_rename (claim : Claim) :
    catalog.claimsMember (claim.rename catalog.first) = catalog.claimsMember claim :=
  hasMember_first hcoherent _ _ _

omit hcoherent in
/-- What was registered for a type. -/
theorem registeredClaims_first (c : ClassRef) :
    (catalog.registeredClaims registrations (catalog.first c)).map (Claim.rename catalog.first) =
      (catalog.registeredClaims registrations c).map (Claim.rename catalog.first) := by
  simp only [registeredClaims, identity_first, List.map_map, Function.comp_def, Claim.rename,
    first_first]

/-- The claims on members of a class and of the first declaration of its type. -/
theorem claims_first (c : ClassRef) :
    (catalog.claims registrations (catalog.first c)).map (Claim.rename catalog.first) =
      (catalog.claims registrations c).map (Claim.rename catalog.first) := by
  have hannotated : ∀ a, (catalog.annotatedClaims (catalog.first a)).map
      (Claim.rename catalog.first) =
        (catalog.annotatedClaims a).map (Claim.rename catalog.first) := by
    intro a
    have hsame := field_first hcoherent ClassDecl.annotations
      (fun d => d.annotations_rename _) a
    simp only [annotatedClaims, hsame, List.map_map, Function.comp_def, Claim.rename, first_first]
  have hfilter : ∀ l : List Claim, (l.filter catalog.claimsMember).map
      (Claim.rename catalog.first) =
        (l.map (Claim.rename catalog.first)).filter catalog.claimsMember := by
    intro l
    rw [List.filter_map]
    refine congrArg (fun p => (l.filter p).map _) (funext fun claim => ?_)
    exact (claimsMember_rename hcoherent claim).symm
  rw [claims, claims, List.map_append, List.map_append]
  refine congrArg₂ _ ?_ ?_
  · refine flatMap_map_congr (fun a => ?_) (ancestors_congr hcoherent (first_first c))
    rw [List.map_append, List.map_append, hannotated, registeredClaims_first]
  · refine flatMap_map_congr (fun a => ?_) (allInterfaces_congr hcoherent (first_first c))
    rw [List.map_append, List.map_append, hannotated, hfilter, registeredClaims_first, ← hfilter]

/-- The first stray claim of a class and of the first declaration of its type. -/
theorem strayClaim?_first (c : ClassRef) :
    (catalog.strayClaim? registrations (catalog.first c)).map (Claim.rename catalog.first) =
      (catalog.strayClaim? registrations c).map (Claim.rename catalog.first) := by
  have hfind : ∀ l : List Claim, (l.find? (!catalog.claimsMember ·)).map
      (Claim.rename catalog.first) =
        (l.map (Claim.rename catalog.first)).find? (!catalog.claimsMember ·) := by
    intro l
    rw [List.find?_map]
    refine congrArg (fun p => (l.find? p).map _) (funext fun claim => ?_)
    exact congrArg _ (claimsMember_rename hcoherent claim).symm
  rw [strayClaim?, strayClaim?, hfind, hfind]
  exact congrArg (List.find? _ ·) (flatMap_map_congr registeredClaims_first
    (ancestors_congr hcoherent (first_first c)))

/-- The members that scripts see of a class and of the first declaration of its type. -/
theorem exposed_first (c : ClassRef) :
    (catalog.exposed prefixes registrations (catalog.first c)).map
        (List.map (ExposedMember.rename catalog.first)) =
      (catalog.exposed prefixes registrations c).map
        (List.map (ExposedMember.rename catalog.first)) := by
  have hstray : (catalog.strayClaim? registrations (catalog.first c)).map _ = _ :=
    strayClaim?_first hcoherent c
  unfold exposed
  -- A stray claim fails with names only, which the declarations have in common.
  cases hs : catalog.strayClaim? registrations (catalog.first c) with
  | some claim =>
    rw [hs] at hstray
    obtain ⟨claim', hs', hclaim⟩ := Option.map_eq_some_iff.1 hstray.symm
    have hname : catalog.name claim.declaring = catalog.name claim'.declaring := by
      rw [← name_first hcoherent claim.declaring, ← name_first hcoherent claim'.declaring]
      exact congrArg (catalog.name ·.declaring) hclaim.symm
    obtain ⟨-, hmember, hexpose⟩ := Claim.mk.inj hclaim
    rw [hs']
    dsimp only
    rw [hname, hmember, hexpose]
  | none =>
    rw [hs] at hstray
    rw [Option.map_eq_none_iff.1 hstray.symm]
    refine congrArg Except.ok ?_
    -- Otherwise the claims are taken up one by one, at each step alike.
    have hfold : ∀ (l : List Claim) (taken : List ExposedMember),
        (l.foldl (catalog.takeUp prefixes) taken).map (ExposedMember.rename catalog.first) =
          (l.map (Claim.rename catalog.first)).foldl (catalog.takeUp prefixes)
            (taken.map (ExposedMember.rename catalog.first)) := by
      intro l
      induction l with
      | nil => exact fun _ => rfl
      | cons claim l ih =>
        intro taken
        rw [List.foldl_cons, ih, List.map_cons, List.foldl_cons, takeUp_rename hcoherent]
    rw [hfold, hfold, claims_first hcoherent]

end Catalog

end ScriptBoundary
