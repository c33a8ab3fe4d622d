import ScriptBoundary.Proofs.Definitions
import ScriptBoundary.Proofs.Layers

/-!
# Building is independent of history

Whether a class has a definition, and which, is a matter of the class, the settings and the
registrations: a class is built exactly when it is `Buildable`, which says nothing of a state. The
invariant that carries this over all attempts at building, failed ones included, ties each
definition that is kept to the plans of its declaration (`Sound`). Types never mention themselves
through others, so no type that a class mentions is under way when it is its turn, and each is
really built.
-/

namespace ScriptBoundary

open Run

/-- What there is to a definition apart from its place on the heap and the declaration that it was
made from, with classes renamed. -/
def Definition.form (f : ClassRef → ClassRef) (d : Definition) :
    String × ProxyMode × List MemberPlan × List ConstructorPlan :=
  (d.name, d.mode, d.members.map (MemberPlan.rename f),
    d.constructors.map (ConstructorPlan.rename f))

/-- Nothing was built yet under these settings and registrations. -/
structure World.Fresh (settings : Settings) (registrations : Registrations) (w : World) : Prop where
  settled : w.exposer.settings = settings
  registered : w.exposer.registrations = registrations
  unbuilt : w.exposer.definitions = []

/-- A definition that is found once another is kept was found before, or is that other. -/
theorem Exposer.definition?_of_keep {e : Exposer} {t type : TypeId} {d x : Definition}
    (h : (e.keep type d).definition? t = some x) :
    e.definition? t = some x ∨ t = type ∧ x = d := by
  by_cases ht : t = type
  · subst ht
    unfold keep at h
    cases hd : e.definition? t with
    | some old =>
      rw [hd] at h
      exact .inl (hd.symm.trans h)
    | none =>
      rw [hd] at h
      have hnew : t ∉ Keyed.keys e.definitions := Keyed.get?_eq_none_iff.1 hd
      have hput : Keyed.get? t (e.definitions ++ [(t, d)]) = some x := h
      rw [← Keyed.put_of_not_mem hnew, Keyed.get?_put_self] at hput
      exact .inr ⟨rfl, (Option.some.inj hput).symm⟩
  · rw [Exposer.definition?_keep_of_ne ht] at h
    exact .inl h

namespace Catalog

variable (catalog : Catalog) (settings : Settings) (registrations : Registrations)

/-- Asks for the definitions of classes one after the other, whatever comes of each. -/
def tryEach (cs : List ClassRef) : Run Error Unit :=
  cs.forM fun c => do let _ ← (catalog.definitionOf c).attempt

/-- A class can be built: it can be planned and, if the settings ask for it, so can the classes that
it mentions, and those that they mention. -/
inductive Buildable : ClassRef → Prop
  | of_outline {c : ClassRef} {plans : List MemberPlan} {constructors : List ConstructorPlan}
      {mentioned : List ClassRef}
      (planned : catalog.outline settings registrations c = .ok (plans, constructors, mentioned))
      (nested : settings.prebuildNested = true →
        ∀ e ∈ mentioned, catalog.isInterface e = false → Buildable e) :
      Buildable c

/-- One class leads to another through classes that are mentioned, none of them an interface. -/
inductive Leads (c : ClassRef) : ClassRef → Prop
  | mentioned {e : ClassRef} (mentions : catalog.Mentions settings registrations c e)
      (isClass : catalog.isInterface e = false) : Leads c e
  | further {d e : ClassRef} (before : Leads c d)
      (mentions : catalog.Mentions settings registrations d e)
      (isClass : catalog.isInterface e = false) : Leads c e

/-- A class has a definition, or is an interface, which nothing asks to have one. -/
def Provided (w : World) (e : ClassRef) : Prop :=
  catalog.isInterface e = false → (w.exposer.definition? (catalog.identity e)).isSome = true

/-- The definition was made from the plans of its declaration, and what that mentions has
definitions too, if the settings ask for it. -/
structure MadeFor (w : World) (t : TypeId) (d : Definition) : Prop where
  inRange : d.declaration.index < catalog.size
  own : catalog.identity d.declaration = t
  buildable : catalog.Buildable settings registrations d.declaration
  mode : d.mode = catalog.mode d.declaration
  name : d.name = settings.namePrefix ++ catalog.name d.declaration
  planned : ∃ mentioned, catalog.outline settings registrations d.declaration =
      .ok (d.members, d.constructors, mentioned) ∧
    (settings.prebuildNested = true → ∀ e ∈ mentioned, catalog.Provided w e)

/-- All definitions that are kept were made for their types. -/
structure Sound (w : World) : Prop where
  settled : w.exposer.settings = settings
  registered : w.exposer.registrations = registrations
  made : ∀ t d, w.exposer.definition? t = some d → catalog.MadeFor settings registrations w t d

variable {catalog settings registrations} {c d : ClassRef} {w w' : World}

/-! ## Declarations of one type -/

/-- A declaration of the same type is planned in the same form. -/
theorem exists_outline_congr (hcoherent : catalog.Coherent)
    (h : catalog.first c = catalog.first d) {plans : List MemberPlan}
    {constructors : List ConstructorPlan} {mentioned : List ClassRef}
    (hc : catalog.outline settings registrations c = .ok (plans, constructors, mentioned)) :
    ∃ plans' constructors' mentioned',
      catalog.outline settings registrations d = .ok (plans', constructors', mentioned') ∧
      renamePlans catalog.first (plans, constructors, mentioned) =
        renamePlans catalog.first (plans', constructors', mentioned') := by
  have hform := outline_congr hcoherent h settings registrations
  rw [hc] at hform
  cases hd : catalog.outline settings registrations d with
  | error e =>
    rw [hd] at hform
    cases hform
  | ok found =>
    rw [hd] at hform
    exact ⟨_, _, _, rfl, Except.ok.inj hform⟩

/-- A class that is mentioned has a counterpart of the same type among classes of one form. -/
theorem exists_counterpart {mentioned mentioned' : List ClassRef}
    (h : mentioned.map catalog.first = mentioned'.map catalog.first) {e : ClassRef}
    (he : e ∈ mentioned) : ∃ e' ∈ mentioned', catalog.first e' = catalog.first e :=
  List.mem_map.1 (h ▸ List.mem_map_of_mem he)

/-- A declaration of the same type can be built as well. -/
theorem Buildable.congr (hcoherent : catalog.Coherent)
    (hc : catalog.Buildable settings registrations c) (h : catalog.first c = catalog.first d) :
    catalog.Buildable settings registrations d := by
  induction hc generalizing d with
  | of_outline planned nested ih =>
    -- The other declaration mentions counterparts, which can be built by induction.
    obtain ⟨plans', constructors', mentioned', hd, hform⟩ :=
      exists_outline_congr hcoherent h planned
    refine .of_outline hd fun hnested e' he' hclass => ?_
    obtain ⟨e, he, hfirst⟩ := exists_counterpart (congrArg (·.2.2) hform).symm he'
    refine ih hnested e he ?_ hfirst
    rw [← isInterface_first hcoherent, hfirst, isInterface_first hcoherent, hclass]

/-- A class that can be planned is buildable as far as what it mentions is. -/
theorem buildable_iff {plans : List MemberPlan} {constructors : List ConstructorPlan}
    {mentioned : List ClassRef}
    (h : catalog.outline settings registrations c = .ok (plans, constructors, mentioned)) :
    catalog.Buildable settings registrations c ↔ (settings.prebuildNested = true →
      ∀ e ∈ mentioned, catalog.isInterface e = false →
        catalog.Buildable settings registrations e) := by
  refine ⟨fun hc => ?_, .of_outline h⟩
  obtain ⟨planned, nested⟩ := hc
  rw [h] at planned
  cases planned
  exact nested

/-- What a class mentions is declared, and its type before that of the class. -/
theorem lt_of_mem_mentioned (hcoherent : catalog.Coherent) (hlayered : catalog.Layered)
    (hc : c.index < catalog.size) {plans : List MemberPlan} {constructors : List ConstructorPlan}
    {mentioned : List ClassRef}
    (h : catalog.outline settings registrations c = .ok (plans, constructors, mentioned))
    {e : ClassRef} (he : e ∈ mentioned) :
    e.index < catalog.size ∧ (catalog.first e).index < (catalog.first c).index := by
  refine ⟨Nat.lt_trans (lt_of_mentions hlayered ((mem_mentioned_iff h).1 he).1) hc, ?_⟩
  -- The first declaration of the type mentions a class of the type of `e`, which is earlier.
  obtain ⟨plans', constructors', mentioned', h', hform⟩ :=
    exists_outline_congr hcoherent (catalog.first_first c).symm h
  obtain ⟨e', he', hfirst⟩ := exists_counterpart (congrArg (·.2.2) hform) he
  rw [← hfirst]
  exact Nat.lt_of_le_of_lt (catalog.first_le e')
    (lt_of_mentions hlayered ((mem_mentioned_iff h').1 he').1)

/-! ## The invariant -/

theorem MadeFor.mono {t : TypeId} {d : Definition}
    (hd : catalog.MadeFor settings registrations w t d)
    (h : ∀ t, (w.exposer.definition? t).isSome = true → (w'.exposer.definition? t).isSome = true) :
    catalog.MadeFor settings registrations w' t d := by
  obtain ⟨mentioned, houtline, hnested⟩ := hd.planned
  exact { hd with
    planned := ⟨mentioned, houtline, fun hp e he hclass => h _ (hnested hp e he hclass)⟩ }

theorem Sound.of_fresh (hw : w.Fresh settings registrations) :
    catalog.Sound settings registrations w where
  settled := hw.settled
  registered := hw.registered
  made t d h := by
    rw [Exposer.definition?, hw.unbuilt] at h
    cases h

/-- A class whose type has a definition can be built. -/
theorem Sound.buildable (hcoherent : catalog.Coherent)
    (hw : catalog.Sound settings registrations w) (hc : c.index < catalog.size) {d : Definition}
    (hd : w.exposer.definition? (catalog.identity c) = some d) :
    catalog.Buildable settings registrations c := by
  have hmade := hw.made _ d hd
  exact hmade.buildable.congr hcoherent ((first_eq_iff hmade.inRange hc).2 hmade.own)

/-- Keeping the definition of a class that is buildable, when what it mentions has definitions. -/
theorem Sound.complete (hw : catalog.Sound settings registrations w) (hc : c.index < catalog.size)
    {plans : List MemberPlan} {constructors : List ConstructorPlan} {mentioned : List ClassRef}
    (houtline : catalog.outline settings registrations c = .ok (plans, constructors, mentioned))
    (hbuildable : catalog.Buildable settings registrations c)
    (hnested : settings.prebuildNested = true → ∀ e ∈ mentioned, catalog.Provided w e) :
    catalog.Sound settings registrations (w.completed (catalog.identity c)
      (catalog.assemble c settings plans constructors w)) := by
  have hlater : ∀ t, (w.exposer.definition? t).isSome = true →
      ((w.completed (catalog.identity c)
        (catalog.assemble c settings plans constructors w)).exposer.definition? t).isSome = true :=
    fun t ht => Exposer.isSome_definition?_keep ht _ _
  refine ⟨hw.settled, hw.registered, fun t x hx => ?_⟩
  rcases Exposer.definition?_of_keep hx with hx | ⟨rfl, rfl⟩
  · exact (hw.made t x hx).mono hlater
  · exact {
      inRange := hc
      own := rfl
      buildable := hbuildable
      mode := rfl
      name := rfl
      planned := ⟨mentioned, houtline, fun hp e he hclass => hlater _ (hnested hp e he hclass)⟩ }

/-- Two definitions that were made for one type are of one form. -/
theorem MadeFor.form_congr (hcoherent : catalog.Coherent) {t : TypeId} {d e : Definition}
    (hd : catalog.MadeFor settings registrations w t d)
    (he : catalog.MadeFor settings registrations w' t e) :
    d.form catalog.first = e.form catalog.first := by
  have hfirst : catalog.first d.declaration = catalog.first e.declaration :=
    (first_eq_iff hd.inRange he.inRange).2 (hd.own.trans he.own.symm)
  obtain ⟨_, hplanned, -⟩ := hd.planned
  obtain ⟨_, hplanned', -⟩ := he.planned
  obtain ⟨_, _, _, houtline, hform⟩ := exists_outline_congr hcoherent hfirst hplanned
  rw [hplanned'] at houtline
  cases houtline
  have hmembers := congrArg (·.1) hform
  have hconstructors := congrArg (·.2.1) hform
  have hname : d.name = e.name := by
    rw [hd.name, he.name, ← name_first hcoherent d.declaration, hfirst, name_first hcoherent]
  have hmode : d.mode = e.mode := by
    rw [hd.mode, he.mode, ← mode_first hcoherent d.declaration, hfirst, mode_first hcoherent]
  rw [Definition.form, Definition.form, hname, hmode]
  exact congrArg₂ (fun x y => (e.name, e.mode, x, y)) hmembers hconstructors

/-- What a class mentions has a definition, once the class has one and the settings ask for it. -/
theorem Sound.mentioned (hcoherent : catalog.Coherent)
    (hw : catalog.Sound settings registrations w) (hnested : settings.prebuildNested = true)
    (hc : c.index < catalog.size)
    (hkept : (w.exposer.definition? (catalog.identity c)).isSome = true)
    (hmentions : catalog.Mentions settings registrations c d)
    (hclass : catalog.isInterface d = false) :
    (w.exposer.definition? (catalog.identity d)).isSome = true := by
  obtain ⟨kept, hkept⟩ := Option.isSome_iff_exists.1 hkept
  cases hself : catalog.sameType d c with
  | true =>
    have hidentity : catalog.identity d = catalog.identity c := beq_iff_eq.1 hself
    rw [hidentity, hkept]
    rfl
  | false =>
    -- The definition was made from a declaration of the type, which mentions a counterpart.
    have hmade := hw.made _ kept hkept
    obtain ⟨_, houtline, hbuilt⟩ := hmade.planned
    have hfirst := (first_eq_iff hmade.inRange hc).2 hmade.own
    obtain ⟨_, _, _, hplanned, hform⟩ := exists_outline_congr hcoherent hfirst houtline
    have hmem := (mem_mentioned_iff hplanned).2 ⟨hmentions, hself⟩
    obtain ⟨e, he, hcounterpart⟩ := exists_counterpart (congrArg (·.2.2) hform).symm hmem
    have hinterface : catalog.isInterface e = false := by
      rw [← isInterface_first hcoherent, hcounterpart, isInterface_first hcoherent, hclass]
    have hidentity : catalog.identity e = catalog.identity d := by
      rw [← identity_first, hcounterpart, identity_first]
    rw [← hidentity]
    exact hbuilt hnested e he hinterface

/-- All classes that a class leads to have definitions, once the class has one and the settings ask
for it. -/
theorem Sound.leads (hcoherent : catalog.Coherent) (hlayered : catalog.Layered)
    (hw : catalog.Sound settings registrations w) (hnested : settings.prebuildNested = true)
    (hc : c.index < catalog.size)
    (hkept : (w.exposer.definition? (catalog.identity c)).isSome = true)
    (hleads : catalog.Leads settings registrations c d) :
    (w.exposer.definition? (catalog.identity d)).isSome = true := by
  -- Along the chain the classes stay declared, which is what keeps the invariant applicable.
  suffices h : d.index < catalog.size ∧
      (w.exposer.definition? (catalog.identity d)).isSome = true from h.2
  induction hleads with
  | mentioned mentions isClass =>
    exact ⟨Nat.lt_trans (lt_of_mentions hlayered mentions) hc,
      hw.mentioned hcoherent hnested hc hkept mentions isClass⟩
  | further _ mentions isClass ih =>
    exact ⟨Nat.lt_trans (lt_of_mentions hlayered mentions) ih.1,
      hw.mentioned hcoherent hnested ih.1 ih.2 mentions isClass⟩

/-! ## Building keeps the invariant -/

/-- A class that cannot be planned is not built. -/
theorem build_of_not_outlined (hnone : w.exposer.definition? (catalog.identity c) = none)
    {e : Error}
    (he : catalog.outline w.exposer.settings w.exposer.registrations c = .error e) :
    ∃ e, ∀ n underWay, catalog.build (n + 1) underWay c w = some (.error e, w) := by
  cases hm : catalog.exposed w.exposer.settings.events w.exposer.registrations c with
  | error e => exact ⟨_, fun _ _ => build_of_unresolved hnone hm⟩
  | ok members =>
    refine ⟨e, fun _ _ => build_of_unplanned hnone hm ?_⟩
    rw [outline, hm] at he
    exact he

/-- The types under way are declared, and the first declaration of each comes after that of the
class. -/
def Below (catalog : Catalog) (underWay : List TypeId) (c : ClassRef) : Prop :=
  ∀ t ∈ underWay, ∃ u : ClassRef, u.index < catalog.size ∧ catalog.identity u = t ∧
    (catalog.first c).index < (catalog.first u).index

theorem Below.not_mem {underWay : List TypeId} (h : catalog.Below underWay c)
    (hc : c.index < catalog.size) : catalog.identity c ∉ underWay := by
  intro hmem
  obtain ⟨u, hu, hidentity, hlt⟩ := h _ hmem
  rw [(first_eq_iff hc hu).2 hidentity.symm] at hlt
  exact Nat.lt_irrefl _ hlt

theorem Below.cons {underWay : List TypeId} (h : catalog.Below underWay c)
    (hc : c.index < catalog.size) (hlt : (catalog.first d).index < (catalog.first c).index) :
    catalog.Below (catalog.identity c :: underWay) d := by
  refine List.forall_mem_cons.2 ⟨⟨c, hc, rfl, hlt⟩, fun t ht => ?_⟩
  obtain ⟨u, hu, hidentity, hltu⟩ := h t ht
  exact ⟨u, hu, hidentity, Nat.lt_trans hlt hltu⟩

/-- The computation keeps the invariant, and succeeds exactly when the class can be built. -/
def Decides (catalog : Catalog) (settings : Settings) (registrations : Registrations)
    (c : ClassRef) (x : Run Error Definition) : Prop :=
  ∀ ⦃w : World⦄ ⦃r : Except Error Definition⦄ ⦃w' : World⦄,
    catalog.Sound settings registrations w → x w = some (r, w') →
      catalog.Sound settings registrations w' ∧
        ((∃ d, r = .ok d) ↔ catalog.Buildable settings registrations c)

/-- Building a class on the way to another succeeds exactly when the class can be built, and then it
has a definition. -/
theorem Decides.nested {n : Nat} {underWay : List TypeId} (hfree : catalog.identity c ∉ underWay)
    (hbuild : catalog.Decides settings registrations c (catalog.build n underWay c))
    (hw : catalog.Sound settings registrations w) {r : Except Error Unit}
    (h : (do let _ ← catalog.build n underWay c : Run Error Unit) w = some (r, w')) :
    catalog.Sound settings registrations w' ∧ w.Later w' ∧
      (r = .ok () ↔ catalog.Buildable settings registrations c) ∧
      (r = .ok () → (w'.exposer.definition? (catalog.identity c)).isSome = true) := by
  have hlater : ∀ {r}, catalog.build n underWay c w = some (r, w') → w.Later w' :=
    fun hrun => .of_moves (catalog.movesBut_build n underWay c hfree hrun).1.moves
  rcases bind_cases h with ⟨e, hrun, rfl⟩ | ⟨d, w₁, hrun, hpure⟩
  · obtain ⟨hsound, hdecides⟩ := hbuild hw hrun
    refine ⟨hsound, hlater hrun, ⟨?_, fun hbuildable => ?_⟩, ?_⟩
    · rintro ⟨⟩
    · obtain ⟨d, hd⟩ := hdecides.2 hbuildable
      cases hd
    · rintro ⟨⟩
  · cases hpure
    obtain ⟨hsound, hdecides⟩ := hbuild hw hrun
    refine ⟨hsound, hlater hrun, ⟨fun _ => hdecides.1 ⟨d, rfl⟩, fun _ => rfl⟩, fun _ => ?_⟩
    rw [definition?_of_build hrun]
    rfl

/-- Building what a class mentions succeeds exactly when all of that can be built, and then all of
it has definitions. -/
theorem sound_prebuild (hcoherent : catalog.Coherent) {n : Nat} {underWay : List TypeId}
    {mentioned : List ClassRef} (hrange : ∀ e ∈ mentioned, e.index < catalog.size)
    (hfree : ∀ e ∈ mentioned, catalog.identity e ∉ underWay)
    (hbuild : ∀ e ∈ mentioned,
      catalog.Decides settings registrations e (catalog.build n underWay e))
    (hw : catalog.Sound settings registrations w) {r : Except Error Unit}
    (h : catalog.prebuild n underWay settings mentioned w = some (r, w')) :
    catalog.Sound settings registrations w' ∧
      (r = .ok () ↔ (settings.prebuildNested = true → ∀ e ∈ mentioned,
        catalog.isInterface e = false → catalog.Buildable settings registrations e)) ∧
      (r = .ok () → settings.prebuildNested = true → ∀ e ∈ mentioned, catalog.Provided w' e) := by
  unfold prebuild at h
  split at h
  · next hnested =>
    refine (Run.forM_outcome (I := catalog.Sound settings registrations)
      (P := fun e => catalog.isInterface e = false → catalog.Buildable settings registrations e)
      (Q := fun e w => catalog.Provided w e) ?_ hw h).imp_right fun houtcome => ?_
    · intro e he w r w' hw h
      -- Nothing that is mentioned is under way, so only interfaces are passed over.
      have hcontains : underWay.contains (catalog.identity e) = false :=
        Bool.eq_false_iff.2 fun hmem => hfree e he (List.contains_iff_mem.1 hmem)
      rw [hcontains, Bool.or_false] at h
      cases hinterface : catalog.isInterface e with
      | true =>
        rw [hinterface] at h
        cases h
        exact ⟨hw, by simp, by simp [Provided, hinterface], fun _ => id⟩
      | false =>
        rw [hinterface, if_neg Bool.false_ne_true, Run.bind_ok (kept?_apply catalog e w)] at h
        cases hkept : w.exposer.definition? (catalog.identity e) with
        | some d =>
          rw [hkept] at h
          cases h
          have hbuildable := hw.buildable hcoherent (hrange e he) hkept
          exact ⟨hw, by simp [hbuildable], by simp [Provided, hkept], fun _ => id⟩
        | none =>
          rw [hkept] at h
          obtain ⟨hsound, hlater, hsucceeds, hachieves⟩ := (hbuild e he).nested (hfree e he) hw h
          exact ⟨hsound, hsucceeds.trans ⟨fun hbuildable _ => hbuildable, fun hall => hall rfl⟩,
            fun hr _ => hachieves hr, fun b hb hclass => hlater.definition _ (hb hclass)⟩
    · obtain ⟨hsucceeds, hachieves, -⟩ := houtcome
      exact ⟨hsucceeds.trans ⟨fun hall _ => hall, fun hall => hall hnested⟩,
        fun hr _ => hachieves hr⟩
  · next hnested =>
    cases h
    exact ⟨hw, by simp [hnested], fun _ hp => absurd hp hnested⟩

/-- Building keeps the invariant and succeeds exactly when the class can be built. -/
theorem decides_build (hcoherent : catalog.Coherent) (hlayered : catalog.Layered) (n : Nat)
    {underWay : List TypeId} (hc : c.index < catalog.size) (hbelow : catalog.Below underWay c) :
    catalog.Decides settings registrations c (catalog.build n underWay c) := by
  -- On the bound, with the invariant carried through what the class mentions.
  induction n generalizing underWay c with
  | zero =>
    intro w r w' hw h
    cases h
  | succ n ih =>
    intro w r w' hw h
    cases hkept : w.exposer.definition? (catalog.identity c) with
    | some d =>
      rw [build_of_kept hkept] at h
      cases h
      exact ⟨hw, fun _ => hw.buildable hcoherent hc hkept, fun _ => ⟨d, rfl⟩⟩
    | none =>
      cases houtline : catalog.outline settings registrations c with
      | error e =>
        rw [← hw.settled, ← hw.registered] at houtline
        obtain ⟨e', hfails⟩ := build_of_not_outlined hkept houtline
        rw [hfails n underWay] at h
        cases h
        refine ⟨hw, ?_, ?_⟩
        · rintro ⟨d, ⟨⟩⟩
        · rintro ⟨planned, -⟩
          rw [hw.settled, hw.registered, planned] at houtline
          cases houtline
      | ok found =>
        obtain ⟨plans, constructors, mentioned⟩ := found
        obtain ⟨members, hm, hp⟩ := exists_of_outline houtline
        rw [← hw.settled, ← hw.registered] at hm
        rw [build_of_planned hkept hm hp, hw.settled] at h
        have hmentioned := fun e (he : e ∈ mentioned) =>
          lt_of_mem_mentioned hcoherent hlayered hc houtline he
        have hnested := fun e (he : e ∈ mentioned) => hbelow.cons hc (hmentioned e he).2
        have hprebuild {r : Except Error Unit} {u : World} (hrun : catalog.prebuild n
            (catalog.identity c :: underWay) settings mentioned w = some (r, u)) :=
          sound_prebuild hcoherent (fun e he => (hmentioned e he).1)
            (fun e he => (hnested e he).not_mem (hmentioned e he).1)
            (fun e he => ih (hmentioned e he).1 (hnested e he)) hw hrun
        rcases bind_cases h with ⟨e, hrun, rfl⟩ | ⟨_, w₁, hrun, hcomplete⟩
        · obtain ⟨hsound, hsucceeds, -⟩ := hprebuild hrun
          refine ⟨hsound, ?_, fun hbuildable => ?_⟩
          · rintro ⟨d, ⟨⟩⟩
          · cases hsucceeds.2 ((buildable_iff houtline).1 hbuildable)
        · obtain ⟨hsound, hsucceeds, hachieves⟩ := hprebuild hrun
          have hbuildable := (buildable_iff houtline).2 (hsucceeds.1 rfl)
          obtain ⟨d, hd⟩ := catalog.complete_apply c settings plans constructors w₁
          rw [hd] at hcomplete
          cases hcomplete
          exact ⟨hsound.complete hc houtline hbuildable (hachieves rfl), fun _ => hbuildable,
            fun _ => ⟨d, rfl⟩⟩

theorem decides_definitionOf (hcoherent : catalog.Coherent) (hlayered : catalog.Layered)
    (hc : c.index < catalog.size) :
    catalog.Decides settings registrations c (catalog.definitionOf c) :=
  decides_build hcoherent hlayered _ hc (List.forall_mem_nil _)

/-- Attempts at building end and keep the invariant. -/
theorem sound_tryEach (hcoherent : catalog.Coherent) (hlayered : catalog.Layered)
    {cs : List ClassRef} (hcs : ∀ c ∈ cs, c.index < catalog.size)
    (hw : catalog.Sound settings registrations w) :
    ∃ w', catalog.tryEach cs w = some (.ok (), w') ∧ catalog.Sound settings registrations w' := by
  induction cs generalizing w with
  | nil => exact ⟨w, rfl, hw⟩
  | cons c cs ih =>
    obtain ⟨hc, hcs⟩ := List.forall_mem_cons.1 hcs
    obtain ⟨r, w₁, hrun⟩ := catalog.answers_definitionOf c w
    have hsound := (decides_definitionOf hcoherent hlayered hc hw hrun).1
    obtain ⟨w', hrest, hw'⟩ := ih hcs hsound
    refine ⟨w', ?_, hw'⟩
    exact (bind_ok (bind_ok (attempt_some hrun) _) _).trans hrest

/-- After any attempts at building classes, some of which may have failed, a class is built exactly
when it is built where nothing was built before, in the same form, and then all classes that it
leads to have definitions, if the settings ask for it. -/
theorem building_independent_of_history (hcoherent : catalog.Coherent)
    (hlayered : catalog.Layered) {w u : World} (hw : w.Fresh settings registrations)
    (hu : u.Fresh settings registrations) {cs : List ClassRef}
    (hcs : ∀ c ∈ cs, c.index < catalog.size) (hc : c.index < catalog.size) :
    ∃ w₁ r w₂ r' u₁, catalog.tryEach cs w = some (.ok (), w₁) ∧
      catalog.definitionOf c w₁ = some (r, w₂) ∧ catalog.definitionOf c u = some (r', u₁) ∧
      ((∃ d, r = .ok d) ↔ ∃ d, r' = .ok d) ∧
      (∀ d d', r = .ok d → r' = .ok d' → d.form catalog.first = d'.form catalog.first) ∧
      (settings.prebuildNested = true → (∃ d, r = .ok d) →
        ∀ e, catalog.Leads settings registrations c e →
          (w₂.exposer.definition? (catalog.identity e)).isSome = true) := by
  -- Both runs start from states that satisfy the invariant, and it decides them alike.
  obtain ⟨w₁, hattempts, hsound⟩ := sound_tryEach hcoherent hlayered hcs (.of_fresh hw)
  obtain ⟨r, w₂, hafter⟩ := catalog.answers_definitionOf c w₁
  obtain ⟨r', u₁, hfresh⟩ := catalog.answers_definitionOf c u
  obtain ⟨hw₂, hr⟩ := decides_definitionOf hcoherent hlayered hc hsound hafter
  obtain ⟨hu₁, hr'⟩ := decides_definitionOf hcoherent hlayered hc (.of_fresh hu) hfresh
  refine ⟨w₁, r, w₂, r', u₁, hattempts, hafter, hfresh, hr.trans hr'.symm, ?_, ?_⟩
  · rintro d d' rfl rfl
    have hmade := hw₂.made _ d (definition?_of_build hafter)
    exact hmade.form_congr hcoherent (hu₁.made _ d' (definition?_of_build hfresh))
  · rintro hnested ⟨d, rfl⟩ e hleads
    refine hw₂.leads hcoherent hlayered hnested hc ?_ hleads
    rw [definition?_of_build hafter]
    rfl

/-- A branch and a crown mention leaves, each by a declaration of its own. A crown also mentions a
stump, whose member gives what scripts cannot hold. -/
def grove : Catalog where
  decls :=
    [{ (default : ClassDecl) with
        identity := ⟨1⟩, name := "Leaf",
        methods := [⟨"Label", [], .string, some (.function none), none⟩] },
      { (default : ClassDecl) with
        identity := ⟨1⟩, name := "Leaf",
        methods := [⟨"Label", [], .string, some (.function none), none⟩] },
      { (default : ClassDecl) with identity := ⟨2⟩, name := "Hollow" },
      { (default : ClassDecl) with
        identity := ⟨3⟩, name := "Stump",
        methods := [⟨"Inside", [], .object ⟨2⟩, some (.function none), none⟩] },
      { (default : ClassDecl) with
        identity := ⟨4⟩, name := "Crown",
        methods :=
          [⟨"Top", [], .object ⟨0⟩, some (.function none), none⟩,
            ⟨"Foot", [], .object ⟨3⟩, some (.function none), none⟩] },
      { (default : ClassDecl) with
        identity := ⟨5⟩, name := "Branch",
        methods := [⟨"Leaves", [], .array (.object ⟨1⟩), some (.function none), none⟩] }]
  restsOn := by decide

/-- Building a crown fails once leaves are built. A branch is then built as it is where nothing was
built before, and leads to leaves, which have a definition. -/
theorem grove_building_independent_of_history :
    ∃ w₁ r w₂ r' u₁, grove.tryEach [⟨4⟩] (World.start {}) = some (.ok (), w₁) ∧
      Keyed.keys w₁.exposer.definitions = [⟨1⟩] ∧
      grove.definitionOf ⟨5⟩ w₁ = some (r, w₂) ∧
      grove.definitionOf ⟨5⟩ (World.start {}) = some (r', u₁) ∧
      (∃ d d', r = .ok d ∧ r' = .ok d' ∧ d.form grove.first = d'.form grove.first) ∧
      (w₂.exposer.definition? (grove.identity ⟨1⟩)).isSome = true := by
  have hcoherent : grove.Coherent := by
    refine .of_first fun c hc => ?_
    match c, hc with
    | ⟨0⟩, _ | ⟨1⟩, _ | ⟨2⟩, _ | ⟨3⟩, _ | ⟨4⟩, _ | ⟨5⟩, _ => rfl
  have hlayered : grove.Layered := by decide
  have hfresh : (World.start {}).Fresh {} [] := ⟨rfl, rfl, rfl⟩
  obtain ⟨w₁, r, w₂, r', u₁, hattempts, hafter, hbefore, -, hform, hleads⟩ :=
    building_independent_of_history hcoherent hlayered hfresh hfresh
      (by decide : ∀ c ∈ ([⟨4⟩] : List ClassRef), c.index < grove.size)
      (by decide : (⟨5⟩ : ClassRef).index < grove.size)
  -- The crown fails at the stump, after leaves.
  have hkept : (grove.tryEach [⟨4⟩] (World.start {})).map
      (fun p => Keyed.keys p.2.exposer.definitions) = some [⟨1⟩] := rfl
  rw [hattempts] at hkept
  have hsecond : (do grove.tryEach [⟨4⟩]; grove.definitionOf ⟨5⟩ : Run Error Definition)
      (World.start {}) = some (.ok _, _) := rfl
  rw [bind_ok hattempts, hafter] at hsecond
  cases hsecond
  have hfirst : grove.definitionOf ⟨5⟩ (World.start {}) = some (.ok _, _) := rfl
  cases hbefore.symm.trans hfirst
  refine ⟨w₁, _, _, _, _, hattempts, Option.some.inj hkept, hafter, hbefore,
    ⟨_, _, rfl, rfl, hform _ _ rfl rfl⟩, ?_⟩
  refine hleads rfl ⟨_, rfl⟩ ⟨1⟩ (.mentioned ?_ rfl)
  exact ⟨_, rfl, _, List.mem_cons_self, _, _, rfl, _, List.mem_cons_self, rfl⟩

end Catalog

end ScriptBoundary
