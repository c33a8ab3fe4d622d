import ScriptBoundary.Proofs.Filling
import ScriptBoundary.Proofs.Overloads
import ScriptBoundary.Proofs.Resolution

/-!
# Instances from plain objects

A plain object that stands for an instance of a class is read property by property. The constructor
without arguments runs first. Then the properties of the new instance that scripts can set are
visited in the order in which the class exposes them, and each takes what the plain object has under
its name, else under the name of its member, else its default. The first failure ends the whole.

`Finds`, `Provides` and `Fills` say this of one value, one property and a list of properties, by
what happens and in which order, and `Catalog.FromPlain` of the whole.
-/

namespace ScriptBoundary

open Run

/-- The names under which a plain object may have a property, in the order in which they are
tried. -/
def FillableProperty.names (p : FillableProperty) : List String :=
  if p.name = p.member then [p.name] else [p.name, p.member]

/-- Looking for a value under names, one after the other, ends with the first that is defined, with
a failure to read one, or with nothing. -/
inductive Finds (r : Reentry) (o : ObjectId) :
    List String → World → Except Error ScriptValue → World → Prop
  | nothing (w : World) : Finds r o [] w (.ok .undefined) w
  | found {key : String} {keys : List String} {w w' : World} {value : ScriptValue}
      (read : r.get o key w = some (.ok value, w')) (defined : value ≠ .undefined) :
      Finds r o (key :: keys) w (.ok value) w'
  | missing {key : String} {keys : List String} {w w₁ w' : World} {found : Except Error ScriptValue}
      (read : r.get o key w = some (.ok .undefined, w₁)) (rest : Finds r o keys w₁ found w') :
      Finds r o (key :: keys) w found w'
  | failed {key : String} {keys : List String} {w w' : World} {e : Error}
      (read : r.get o key w = some (.error e, w')) : Finds r o (key :: keys) w (.error e) w'

/-- What a plain object provides for a property: what is found, converted to the type of the
property, or the default of the property where nothing is found. Only a property without a default
may be left without a value. -/
inductive Provides (r : Reentry) (o : ObjectId) (p : FillableProperty) (w : World) :
    Except Error (Option NativeValue) → World → Prop
  | unread {w' : World} {e : Error} (search : Finds r o p.names w (.error e) w') :
      Provides r o p w (.error e) w'
  | default {w' : World} (search : Finds r o p.names w (.ok .undefined) w') :
      Provides r o p w (.ok p.default) w'
  | given {w₁ w' : World} {value : ScriptValue} {native : Except Error NativeValue}
      (search : Finds r o p.names w (.ok value) w₁) (defined : value ≠ .undefined)
      (converted : r.toNative p.type value w₁ = some (native, w')) :
      Provides r o p w (native.map some) w'

namespace Catalog

variable (catalog : Catalog)

/-- The visits to properties of an instance that is filled from a plain object: each property
visited, with the value that its setter was run with, if it was. They go on as long as nothing
fails. -/
inductive Fills (r : Reentry) (o : ObjectId) (target : Instance) :
    List FillableProperty → World → List (FillableProperty × Option NativeValue) →
      Except Error Unit → World → Prop
  | done (w : World) : Fills r o target [] w [] (.ok ()) w
  | left {p : FillableProperty} {ps : List FillableProperty} {w w₁ w' : World}
      {visits : List (FillableProperty × Option NativeValue)} {outcome : Except Error Unit}
      (provided : Provides r o p w (.ok none) w₁)
      (rest : Fills r o target ps w₁ visits outcome w') :
      Fills r o target (p :: ps) w ((p, none) :: visits) outcome w'
  | set {p : FillableProperty} {ps : List FillableProperty} {w w₁ w₂ w' : World}
      {value result : NativeValue} {visits : List (FillableProperty × Option NativeValue)}
      {outcome : Except Error Unit} (provided : Provides r o p w (.ok (some value)) w₁)
      (run : catalog.runImplementation r p.setter target [value] w₁ = some (.ok result, w₂))
      (rest : Fills r o target ps w₂ visits outcome w') :
      Fills r o target (p :: ps) w ((p, some value) :: visits) outcome w'
  | unprovided {p : FillableProperty} {ps : List FillableProperty} {w w' : World} {e : Error}
      (failed : Provides r o p w (.error e) w') :
      Fills r o target (p :: ps) w [(p, none)] (.error e) w'
  | unset {p : FillableProperty} {ps : List FillableProperty} {w w₁ w' : World}
      {value : NativeValue} {e : HostError} (provided : Provides r o p w (.ok (some value)) w₁)
      (failed : catalog.runImplementation r p.setter target [value] w₁ = some (.error e, w')) :
      Fills r o target (p :: ps) w [(p, some value)] (.error (Error.ofHost p.member e)) w'

/-- An instance from a plain object: the constructor runs, without arguments; then the members that
the class of the instance exposes are resolved; then the properties among them that can be set are
visited. -/
inductive FromPlain (r : Reentry) (o : ObjectId) (c : ClassRef) (k : ConstructorDecl) (w : World) :
    List (FillableProperty × Option NativeValue) → Except Error NativeValue → World → Prop
  | unconstructed {w' : World} {e : Error}
      (failed : catalog.constructed r c k.code [] w = some (.error e, w')) :
      FromPlain r o c k w [] (.error e) w'
  | unresolved {w' : World} {target : Instance} {e : ResolutionError}
      (made : catalog.constructed r c k.code [] w = some (.ok target, w'))
      (failed : catalog.exposedIn w' target.runtimeClass = .error e) :
      FromPlain r o c k w [] (.error (.resolution e)) w'
  | visited {w₁ w' : World} {target : Instance} {members : List ExposedMember}
      {visits : List (FillableProperty × Option NativeValue)} {outcome : Except Error Unit}
      (made : catalog.constructed r c k.code [] w = some (.ok target, w₁))
      (resolved : catalog.exposedIn w₁ target.runtimeClass = .ok members)
      (fills : catalog.Fills r o target (catalog.fillables target.runtimeClass members) w₁ visits
        outcome w') :
      FromPlain r o c k w visits (outcome.map fun _ => .object target) w'

variable {catalog} {r : Reentry} {o : ObjectId}

/-! ## One property -/

/-- The search under a first name. -/
theorem finds_cons_iff {key : String} {keys : List String} {w w' : World}
    {found : Except Error ScriptValue} :
    Finds r o (key :: keys) w found w' ↔
      (∃ e, r.get o key w = some (.error e, w') ∧ found = .error e) ∨
        ∃ value w₁, r.get o key w = some (.ok value, w₁) ∧
          if value = .undefined then Finds r o keys w₁ found w'
          else found = .ok value ∧ w₁ = w' := by
  constructor
  · rintro (_ | ⟨read, defined⟩ | ⟨read, rest⟩ | read)
    · exact .inr ⟨_, _, read, by rw [if_neg defined]; exact ⟨rfl, rfl⟩⟩
    · exact .inr ⟨_, _, read, by rw [if_pos rfl]; exact rest⟩
    · exact .inl ⟨_, read, rfl⟩
  · rintro (⟨e, read, rfl⟩ | ⟨value, w₁, read, rest⟩)
    · exact .failed read
    · split at rest
      · next hundefined =>
        subst hundefined
        exact .missing read rest
      · next hdefined =>
        obtain ⟨rfl, rfl⟩ := rest
        exact .found read hdefined

theorem finds_nil_iff {w w' : World} {found : Except Error ScriptValue} :
    Finds r o [] w found w' ↔ found = .ok .undefined ∧ w = w' := by
  constructor
  · rintro ⟨⟩
    exact ⟨rfl, rfl⟩
  · rintro ⟨rfl, rfl⟩
    exact .nothing _

/-- Under a last name, what is there is what is found. -/
theorem finds_singleton_iff {key : String} {w w' : World} {found : Except Error ScriptValue} :
    Finds r o [key] w found w' ↔ r.get o key w = some (found, w') := by
  rw [finds_cons_iff]
  constructor
  · rintro (⟨e, read, rfl⟩ | ⟨value, w₁, read, rest⟩)
    · exact read
    · split at rest
      · next hundefined =>
        obtain ⟨rfl, rfl⟩ := finds_nil_iff.1 rest
        rw [read, hundefined]
      · obtain ⟨rfl, rfl⟩ := rest
        exact read
  · intro read
    cases found with
    | error e => exact .inl ⟨e, read, rfl⟩
    | ok value =>
      refine .inr ⟨value, w', read, ?_⟩
      split
      · next hundefined => exact finds_nil_iff.2 ⟨congrArg Except.ok hundefined, rfl⟩
      · exact ⟨rfl, rfl⟩

/-- What a plain object has for a property is what is found under its names. -/
theorem finds_iff {p : FillableProperty} {w w' : World} {found : Except Error ScriptValue} :
    Finds r o p.names w found w' ↔ r.plainValue o p w = some (found, w') := by
  unfold FillableProperty.names Reentry.plainValue
  split
  · next hsame =>
    have hread : (fun value => if (decide (value = .undefined) && p.name != p.member) = true then
        r.get o p.member else pure value) = (pure : ScriptValue → Run Error ScriptValue) := by
      funext value
      rw [hsame, bne_self_eq_false, Bool.and_false]
      rfl
    rw [finds_singleton_iff, hread, bind_pure]
  · next hother =>
    rw [finds_cons_iff, bind_eq_some_iff]
    refine or_congr_right (exists₂_congr fun value w₁ => and_congr_right fun _ => ?_)
    by_cases hundefined : value = .undefined
    · rw [if_pos hundefined, finds_singleton_iff, if_pos (by simp [hundefined, hother])]
    · rw [if_neg hundefined, if_neg (by simp [hundefined]), pure_apply, Option.some.injEq,
        Prod.mk.injEq, @eq_comm _ (Except.ok value)]

/-- What is provided for a property, as one computation. -/
def provide (r : Reentry) (o : ObjectId) (p : FillableProperty) :
    Run Error (Option NativeValue) := do
  let given ← r.plainValue o p
  if given = .undefined then pure p.default else some <$> r.toNative p.type given

theorem provides_iff {p : FillableProperty} {w w' : World}
    {native : Except Error (Option NativeValue)} :
    Provides r o p w native w' ↔ provide r o p w = some (native, w') := by
  rw [provide, bind_eq_some_iff]
  simp only [← finds_iff]
  constructor
  · rintro (search | search | ⟨search, defined, converted⟩)
    · exact .inl ⟨_, search, rfl⟩
    · exact .inr ⟨_, _, search, by rw [if_pos rfl]; rfl⟩
    · refine .inr ⟨_, _, search, ?_⟩
      rw [if_neg defined]
      exact map_eq_some_iff.2 ⟨_, converted, rfl⟩
  · rintro (⟨e, search, rfl⟩ | ⟨value, w₁, search, rest⟩)
    · exact .unread search
    · split at rest
      · next hundefined =>
        cases rest
        exact .default (hundefined ▸ search)
      · next hdefined =>
        obtain ⟨native, converted, rfl⟩ := map_eq_some_iff.1 rest
        exact .given search hdefined converted

/-! ## All properties -/

/-- Visiting a property provides for it, then runs its setter with what was provided. -/
theorem fill_eq (target : Instance) (p : FillableProperty) :
    catalog.fill r o target p = provide r o p >>= fun provided =>
      provided.elim (pure ()) fun value =>
        (fun _ => ()) <$> (catalog.runImplementation r p.setter target [value]).mapError
          (Error.ofHost p.member) := by
  unfold fill provide
  rw [bind_assoc]
  refine bind_congr fun given => ?_
  split
  · cases p.default <;> rfl
  · refine bind_congr fun value => ?_
    cases value <;> rfl

/-- The outcomes of a visit to a property. -/
theorem fill_iff {target : Instance} {p : FillableProperty} {w w' : World}
    {outcome : Except Error Unit} :
    catalog.fill r o target p w = some (outcome, w') ↔
      (∃ e, Provides r o p w (.error e) w' ∧ outcome = .error e) ∨
        (Provides r o p w (.ok none) w' ∧ outcome = .ok ()) ∨
          ∃ value w₁ result, Provides r o p w (.ok (some value)) w₁ ∧
            catalog.runImplementation r p.setter target [value] w₁ = some (result, w') ∧
            outcome = (result.mapError (Error.ofHost p.member)).map fun _ => () := by
  simp only [provides_iff]
  rw [fill_eq, bind_eq_some_iff]
  refine or_congr_right ?_
  constructor
  · rintro ⟨none | value, w₁, hprovide, hset⟩
    · cases hset
      exact .inl ⟨hprovide, rfl⟩
    · obtain ⟨_, hset', rfl⟩ := map_eq_some_iff.1 hset
      obtain ⟨result, hrun, rfl⟩ := mapError_cases hset'
      exact .inr ⟨value, w₁, result, hprovide, hrun, rfl⟩
  · rintro (⟨hprovide, rfl⟩ | ⟨value, w₁, result, hprovide, hrun, rfl⟩)
    · exact ⟨none, w', hprovide, rfl⟩
    · exact ⟨some value, w₁, hprovide, map_eq_some_iff.2 ⟨_, mapError_some hrun _, rfl⟩⟩

/-- The properties of an instance are filled by visits to them. -/
theorem exists_fills_iff {target : Instance} {ps : List FillableProperty} {w w' : World}
    {outcome : Except Error Unit} :
    (∃ visits, catalog.Fills r o target ps w visits outcome w') ↔
      ps.forM (catalog.fill r o target) w = some (outcome, w') := by
  induction ps generalizing w with
  | nil =>
    constructor
    · rintro ⟨_, ⟨⟩⟩
      rfl
    · rintro ⟨⟩
      exact ⟨[], .done _⟩
  | cons p ps ih =>
    show _ ↔ (catalog.fill r o target p >>= fun _ => ps.forM (catalog.fill r o target)) w = _
    rw [bind_eq_some_iff]
    constructor
    · rintro ⟨_, _ | ⟨provided, rest⟩ | ⟨provided, run, rest⟩ | failed | ⟨provided, failed⟩⟩
      · exact .inr ⟨(), _, fill_iff.2 (.inr (.inl ⟨provided, rfl⟩)), ih.1 ⟨_, rest⟩⟩
      · exact .inr ⟨(), _, fill_iff.2 (.inr (.inr ⟨_, _, _, provided, run, rfl⟩)), ih.1 ⟨_, rest⟩⟩
      · exact .inl ⟨_, fill_iff.2 (.inl ⟨_, failed, rfl⟩), rfl⟩
      · exact .inl ⟨_, fill_iff.2 (.inr (.inr ⟨_, _, _, provided, failed, rfl⟩)), rfl⟩
    · rintro (⟨e, hvisit, rfl⟩ | ⟨_, w₁, hvisit, hrest⟩)
      · rcases fill_iff.1 hvisit with
          ⟨e, hfailed, he⟩ | ⟨-, he⟩ | ⟨value, w₁, e | result, hprovided, hrun, he⟩
        · cases he
          exact ⟨_, .unprovided hfailed⟩
        · cases he
        · cases he
          exact ⟨_, .unset hprovided hrun⟩
        · cases he
      · obtain ⟨visits, hrest⟩ := ih.2 hrest
        rcases fill_iff.1 hvisit with
          ⟨e, -, he⟩ | ⟨hprovided, -⟩ | ⟨value, w₁, e | result, hprovided, hrun, he⟩
        · cases he
        · exact ⟨_, .left hprovided hrest⟩
        · cases he
        · exact ⟨_, .set hprovided hrun hrest⟩

/-- The properties visited are the first of those that there are, and all unless one fails. -/
theorem Fills.visited {target : Instance} {ps : List FillableProperty} {w w' : World}
    {visits : List (FillableProperty × Option NativeValue)} {outcome : Except Error Unit}
    (h : catalog.Fills r o target ps w visits outcome w') :
    ∃ rest, ps = visits.map (·.1) ++ rest ∧ (outcome = .ok () → rest = []) := by
  induction h with
  | done => exact ⟨[], rfl, fun _ => rfl⟩
  | left _ _ ih | set _ _ _ ih =>
    obtain ⟨rest, hps, hok⟩ := ih
    exact ⟨rest, congrArg (_ :: ·) hps, hok⟩
  | unprovided | unset => exact ⟨_, rfl, nofun⟩

/-- The members that a class exposes in a state, or the error that it has there. -/
theorem resolve_iff {c : ClassRef} {w w' : World} {members : Except Error (List ExposedMember)} :
    catalog.resolve c w = some (members, w') ↔
      members = (catalog.exposedIn w c).mapError Error.resolution ∧ w = w' := by
  rw [resolve_apply, Option.some.injEq, Prod.mk.injEq, @eq_comm _ _ members]
  rfl

/-- An instance comes from a plain object by the constructor and by visits to its properties. -/
theorem exists_fromPlain_iff {c : ClassRef} {k : ConstructorDecl} {w w' : World}
    {outcome : Except Error NativeValue} (hclass : catalog.isInterface c = false)
    (hk : catalog.constructorFor c 0 = some k) :
    (∃ visits, catalog.FromPlain r o c k w visits outcome w') ↔
      catalog.constructFromPlain r o c w = some (outcome, w') := by
  rw [constructFromPlain_of_some hclass hk, bind_eq_some_iff]
  refine Iff.trans ?_ (or_congr_right (exists₂_congr fun target w₁ => and_congr_right fun _ =>
    bind_eq_some_iff.symm))
  constructor
  · rintro ⟨_, failed | ⟨made, failed⟩ | ⟨made, resolved, fills⟩⟩
    · exact .inl ⟨_, failed, rfl⟩
    · refine .inr ⟨_, _, made, .inl ⟨_, resolve_iff.2 ⟨?_, rfl⟩, rfl⟩⟩
      rw [failed]
      rfl
    · refine .inr ⟨_, _, made, .inr ⟨_, _, resolve_iff.2 ⟨?_, rfl⟩,
        map_eq_some_iff.2 ⟨_, exists_fills_iff.1 ⟨_, fills⟩, rfl⟩⟩⟩
      rw [resolved]
      rfl
  · rintro (⟨e, failed, rfl⟩ |
      ⟨target, w₁, made, ⟨e, hresolve, rfl⟩ | ⟨members, w₂, hresolve, hfill⟩⟩)
    · exact ⟨[], .unconstructed failed⟩
    · obtain ⟨hexposed, rfl⟩ := resolve_iff.1 hresolve
      cases hm : catalog.exposedIn w₁ target.runtimeClass with
      | error e' =>
        rw [hm] at hexposed
        cases hexposed
        exact ⟨[], .unresolved made hm⟩
      | ok members =>
        rw [hm] at hexposed
        cases hexposed
    · obtain ⟨hexposed, rfl⟩ := resolve_iff.1 hresolve
      obtain ⟨result, hvisits, rfl⟩ := map_eq_some_iff.1 hfill
      obtain ⟨visits, hfills⟩ := exists_fills_iff.2 hvisits
      cases hm : catalog.exposedIn w₁ target.runtimeClass with
      | error e' =>
        rw [hm] at hexposed
        cases hexposed
      | ok members' =>
        rw [hm] at hexposed
        cases hexposed
        exact ⟨visits, .visited made hm hfills⟩

/-! ## Which properties are visited -/

/-- An exposed member is a setter for which a class has code. -/
def Settable (catalog : Catalog) (c : ClassRef) (m : ExposedMember) : Bool :=
  m.role = .setter && (catalog.implementation? c .setter m.member).isSome

/-- What is filled for a member: its names are those of the member, its type and default those that
the class sees, its setter the code of the class. -/
theorem eq_of_fillable? {c : ClassRef} {m : ExposedMember} {p : FillableProperty}
    (h : catalog.fillable? c m = some p) :
    m.role = .setter ∧ p.name = m.name ∧ p.member = m.member ∧
      catalog.implementation? c .setter m.member = some p.setter ∧
      ∃ d, catalog.property? c m.member = some d ∧ p.type = d.type ∧ p.default = d.default := by
  unfold fillable? at h
  split at h
  · next d setter hrole hd hsetter =>
    cases h
    exact ⟨hrole, rfl, rfl, hsetter, d, hd, rfl, rfl⟩
  · cases h

/-- A member is filled when it is a setter with code. -/
theorem isSome_fillable? (c : ClassRef) (m : ExposedMember) :
    (catalog.fillable? c m).isSome = catalog.Settable c m := by
  cases hfillable : catalog.fillable? c m with
  | some p =>
    obtain ⟨hrole, -, -, hsetter, -⟩ := eq_of_fillable? hfillable
    rw [Settable, hrole, hsetter]
    rfl
  | none =>
    rw [Option.isSome_none, eq_comm, Bool.eq_false_iff]
    intro h
    obtain ⟨hrole, hsome⟩ := Bool.and_eq_true_iff.1 h
    obtain ⟨setter, hsetter⟩ := Option.isSome_iff_exists.1 hsome
    obtain ⟨d, hd⟩ := exists_property?_of_implementation? hsetter
    unfold fillable? at hfillable
    rw [of_decide_eq_true hrole, hd, hsetter] at hfillable
    cases hfillable

/-- The properties that are visited are the setters with code among the exposed members, in their
order. -/
theorem fillables_eq (c : ClassRef) (members : List ExposedMember) :
    (catalog.fillables c members).map (fun p => (p.name, p.member)) =
      (members.filter (catalog.Settable c)).map fun m => (m.name, m.member) := by
  induction members with
  | nil => rfl
  | cons m members ih =>
    have hsome : (catalog.fillable? c m).isSome = catalog.Settable c m := isSome_fillable? c m
    unfold fillables at ih ⊢
    cases hfillable : catalog.fillable? c m with
    | none =>
      rw [hfillable] at hsome
      rw [List.filterMap_cons_none hfillable, List.filter_cons_of_neg (by rw [← hsome]; decide), ih]
    | some p =>
      rw [hfillable] at hsome
      obtain ⟨-, hname, hmember, -⟩ := eq_of_fillable? hfillable
      rw [List.filterMap_cons_some hfillable, List.filter_cons_of_pos (by rw [← hsome]; rfl),
        List.map_cons, List.map_cons, ih, hname, hmember]

/-- A claim that asks for a setter opens a property that is not read-only, and asks for no other
setter. -/
theorem of_setter_mem_expand {prefixes : EventPrefixes} {claim : Claim} {m : ExposedMember}
    (hm : m ∈ catalog.expand prefixes claim) (hrole : m.role = .setter) :
    ∃ name, claim.expose = .property name false ∧
      m = ⟨name.getD claim.member, claim.member, .setter, claim.declaring⟩ := by
  obtain ⟨declaring, member, expose⟩ := claim
  cases expose with
  | function name =>
    cases List.mem_singleton.1 hm
    cases hrole
  | property name readOnly =>
    rcases List.mem_cons.1 hm with rfl | hm
    · cases hrole
    · split at hm
      · next hshown =>
        obtain rfl : readOnly = false := by simpa using (Bool.and_eq_true_iff.1 hshown).2
        exact ⟨name, rfl, List.mem_singleton.1 hm⟩
      · cases hm
  | event name add remove => rcases List.mem_pair.1 hm with rfl | rfl <;> cases hrole

/-- The properties of a class that a plain object fills in a state. -/
structure Visitable (catalog : Catalog) (w : World) (c : ClassRef) (members : List ExposedMember)
    (ps : List FillableProperty) : Prop where
  /-- They are the exposed setters with code, in the order of the exposed members. -/
  inOrder : ps.map (fun p => (p.name, p.member)) =
    (members.filter (catalog.Settable c)).map fun m => (m.name, m.member)
  /-- No property comes twice. -/
  once : (ps.map (·.member)).Nodup
  /-- Setter, type and default are those that the class has for the property. -/
  declared : ∀ p ∈ ps, catalog.implementation? c .setter p.member = some p.setter ∧
    ∃ d, catalog.property? c p.member = some d ∧ p.type = d.type ∧ p.default = d.default
  /-- The claim that opens the property does not open it read-only, and no other claim opens it. -/
  opened : ∀ p ∈ ps, ∃ claim ∈ catalog.claims w.exposer.registrations c,
    claim.member = p.member ∧ (∃ name, claim.expose = .property name false) ∧
      ∀ m ∈ members, m.member = p.member →
        m ∈ catalog.expand w.exposer.settings.events claim

theorem visitable_fillables {w : World} {c : ClassRef} {members : List ExposedMember}
    (h : catalog.exposedIn w c = .ok members) :
    catalog.Visitable w c members (catalog.fillables c members) := by
  obtain ⟨taken, hwins⟩ := catalog.exists_firstWins_of_exposed _ _ _ h
  have hfillable : ∀ p ∈ catalog.fillables c members, ∃ m ∈ members,
      catalog.fillable? c m = some p := fun p hp => List.mem_filterMap.1 hp
  refine ⟨fillables_eq c members, ?_, fun p hp => ?_, fun p hp => ?_⟩
  · have hmembers : (catalog.fillables c members).map (·.member) =
        (members.filter (catalog.Settable c)).map (·.member) := by
      have horder :
          ((catalog.fillables c members).map fun p => (p.name, p.member)).map Prod.snd = _ :=
        congrArg (List.map Prod.snd) (fillables_eq c members)
      rwa [List.map_map, List.map_map] at horder
    have hnodup : members.Nodup :=
      hwins.pairwise_out (fun i _ => catalog.nodup_expand _ _) fun _ _ hne h => hne (h ▸ rfl)
    rw [hmembers]
    -- Two setters of one member come from one claim, which asks for one.
    refine (hnodup.filter _).map_on fun m hm m' hm' hsame => ?_
    obtain ⟨hm, hset⟩ := List.mem_filter.1 hm
    obtain ⟨hm', hset'⟩ := List.mem_filter.1 hm'
    obtain ⟨i, -, hmi, hmi'⟩ := hwins.exists_claim hm hm' (.inl hsame)
    obtain ⟨name, hexpose, rfl⟩ :=
      of_setter_mem_expand hmi (of_decide_eq_true (Bool.and_eq_true_iff.1 hset).1)
    obtain ⟨name', hexpose', rfl⟩ :=
      of_setter_mem_expand hmi' (of_decide_eq_true (Bool.and_eq_true_iff.1 hset').1)
    obtain rfl : name = name' := (Expose.property.inj (hexpose.symm.trans hexpose')).1
    rfl
  · obtain ⟨m, -, hm⟩ := hfillable p hp
    obtain ⟨-, -, hmember, hsetter, hdeclared⟩ := eq_of_fillable? hm
    rw [hmember]
    exact ⟨hsetter, hdeclared⟩
  · obtain ⟨m, hmem, hm⟩ := hfillable p hp
    obtain ⟨hrole, -, hmember, -⟩ := eq_of_fillable? hm
    obtain ⟨i, hi, hmi, -⟩ := hwins.exists_claim hmem hmem (.inl rfl)
    have hclaim := (catalog.of_mem_expand _ hmi).1
    obtain ⟨name, hexpose, -⟩ := of_setter_mem_expand hmi hrole
    refine ⟨_, List.getElem_mem i.isLt, hclaim.symm.trans hmember.symm, ⟨name, hexpose⟩,
      fun m' hm' hsame => ?_⟩
    obtain ⟨j, hj, hmj, hmj'⟩ := hwins.exists_claim hmem hm' (.inl (hmember.symm.trans hsame.symm))
    obtain rfl :=
      hwins.eq_of_compete hi hj (.inl (hclaim.symm.trans (catalog.of_mem_expand _ hmj).1))
    exact hmj'

/-! ## The whole -/

/-- A plain object as an instance of a class, in any state, where the class is no interface and has
a constructor without arguments. The conversion comes to an outcome exactly by running that
constructor and then visiting the properties of the new instance. These are the exposed properties
that have a setter with code and are not read-only, in the order of the exposed members and no
property twice; they are all visited unless one fails, and then none after that. Null counts as a
value, and a plain object within is converted by the same rules. -/
theorem plain_objects_fill_exposed_setters {c : ClassRef} {k : ConstructorDecl} {w : World}
    (hclass : catalog.isInterface c = false) (hk : catalog.constructorFor c 0 = some k)
    (hplain : (w.heap.object o).target = none) :
    (∀ r outcome w', catalog.toNative r (.object c) (.object o) w = some (outcome, w') ↔
      ∃ visits, catalog.FromPlain r o c k w visits outcome w') ∧
    (∀ w₁ runtimeClass members, catalog.exposedIn w₁ runtimeClass = .ok members →
      catalog.Visitable w₁ runtimeClass members (catalog.fillables runtimeClass members)) ∧
    (∀ r target ps v visits outcome v', catalog.Fills r o target ps v visits outcome v' →
      ∃ rest, ps = visits.map (·.1) ++ rest ∧ (outcome = .ok () → rest = [])) ∧
    ∀ n, (∀ p v v', Finds (catalog.reentry (n + 1)) o p.names v (.ok .null) v' →
        Provides (catalog.reentry (n + 1)) o p v (.ok (some p.type.default)) v') ∧
      (catalog.reentry (n + 1)).toNative = catalog.toNative (catalog.reentry n) := by
  refine ⟨fun r outcome w' => ?_, fun w₁ runtimeClass members h => visitable_fillables h,
    fun r target ps v visits outcome v' h => h.visited, fun n => ⟨fun p v v' hnull => ?_, rfl⟩⟩
  · rw [exists_fromPlain_iff hclass hk, toNative_object, objectToNative, bind_ok (ofHeap_apply _ w),
      hplain]
  · have hdefault : (catalog.reentry (n + 1)).toNative p.type .null v' =
        some (.ok p.type.default, v') := by
      show catalog.toNative (catalog.reentry n) p.type .null v' = _
      rw [toNative_of_nullish catalog _ _ rfl, pure_apply]
    exact .given hnull (by decide) hdefault

/-- Code that keeps its argument in a field. -/
def keeping (field : String) : MemberCode := fun target args =>
  .setField target field (args.headD .null) (.done (.ok .null))

/-- A heater. Whether it is lit is opened under another name, whether it saves power has a default,
whether it is hot cannot be set, and its owner is not opened. -/
def heaters : Catalog where
  decls :=
    [{ (default : ClassDecl) with
        identity := ⟨1⟩, name := "Heater", constructors := [⟨[], idle⟩]
        properties :=
          [⟨"lit", .bool, some (.property (some "on") false), none,
              .readWrite idle (keeping "lit")⟩,
            ⟨"hot", .bool, some (.property none true), none, .readWrite idle (keeping "hot")⟩,
            ⟨"saves", .bool, some (.property none false), some (.bool true),
              .readWrite idle (keeping "saves")⟩,
            ⟨"owner", .string, none, none, .readWrite idle (keeping "owner")⟩] }]
  restsOn := by decide

/-- A state with a plain object that says that a heater is lit, is hot and has an owner. -/
def described : World :=
  { World.start {} with
    heap := { objects := #[.plain, { ScriptObject.plain with
      properties := [("owner", .data (.string "Ada")), ("hot", .data (.bool true)),
        ("lit", .data (.bool true))] }] } }

/-- The heater is lit, which the object says under the name of the member, and saves power by
default. Nothing else is set. -/
theorem heater_filled : ∃ k visits w', heaters.constructorFor ⟨0⟩ 0 = some k ∧
    heaters.FromPlain (heaters.reentry 1) ⟨1⟩ ⟨0⟩ k described visits (.ok (.object ⟨1, ⟨0⟩⟩)) w' ∧
    (w'.instanceState ⟨1, ⟨0⟩⟩).fields = [("lit", .bool true), ("saves", .bool true)] := by
  have hrun : ∃ k w', heaters.constructorFor ⟨0⟩ 0 = some k ∧
      heaters.toNative (heaters.reentry 1) (.object ⟨0⟩) (.object ⟨1⟩) described =
        some (.ok (.object ⟨1, ⟨0⟩⟩), w') ∧
      (w'.instanceState ⟨1, ⟨0⟩⟩).fields = [("lit", .bool true), ("saves", .bool true)] :=
    ⟨_, _, rfl, rfl, rfl⟩
  obtain ⟨k, w', hk, hrun, hfields⟩ := hrun
  obtain ⟨visits, hfrom⟩ := ((plain_objects_fill_exposed_setters rfl hk rfl).1 _ _ _).1 hrun
  exact ⟨k, visits, w', hk, hfrom, hfields⟩

end Catalog

end ScriptBoundary
