import ScriptBoundary.Proofs.Failures
import ScriptBoundary.Proofs.Journal
import ScriptBoundary.Proofs.Lasting
import ScriptBoundary.Proofs.Origins
import ScriptBoundary.Proofs.Plans
import ScriptBoundary.Proofs.Prototypes

/-!
# Early and late binding

The functions of a class have their code bound when the definition of the class is built, those of
an interface look it up on the class of each instance. Where the declarations of a type are equal,
both find the same code for an instance of the class, or none (`codeFor_congr`): what a definition
binds was looked up along a declaration of the class of the instance, and where nothing was found
then, nothing is found later.

Members of one signature hand the code the same arguments. What it gives back may be declared under
any declaration of the type, since nothing of the declaration stays in a result
(`giveResult_congr`); an argument may become an instance of the very class that the signature names,
so there the types have to be equal.

The class may have another declaration than the one that its definition was built from, and then the
journal notes the call under another declaration of the type that owns the code. Nothing else tells
the two calls apart, since nobody reads the journal (`Run.Alike`).
-/

namespace ScriptBoundary

open Run

/-! ## Alike but for declarations in the journal -/

/-- A call with the class that owns its code renamed. -/
def CallRecord.rename (f : ClassRef → ClassRef) : CallRecord → CallRecord
  | .member owner name role target args => .member (f owner) name role target args
  | call => call

/-- The state with the owners of noted calls renamed. -/
def World.renameOwners (f : ClassRef → ClassRef) (w : World) : World :=
  { w with journal := w.journal.map fun entry => { entry with call := entry.call.rename f } }

/-- What came of a run, with the owners of noted calls renamed. -/
def renameOwners {α : Type} (f : ClassRef → ClassRef) : Option (α × World) → Option (α × World) :=
  Option.map (Prod.map id (World.renameOwners f))

namespace Run

variable {ε ε' α β : Type} {f : ClassRef → ClassRef} {w w' : World}

/-- From a state two computations come to the same outcome, or both to none, and to states that are
the same but for the owners of noted calls. -/
def Alike (f : ClassRef → ClassRef) (x y : Run ε α) (w : World) : Prop :=
  renameOwners f (x w) = renameOwners f (y w)

theorem Alike.of_eq {x y : Run ε α} (h : x w = y w) : Alike f x y w := congrArg (renameOwners f) h

/-- What does not read the journal comes to the same from states that are the same but for the
owners of noted calls. -/
theorem Blind.renameOwners_eq {x : Run ε α} (hx : Blind x)
    (h : w.renameOwners f = w'.renameOwners f) : renameOwners f (x w) = renameOwners f (x w') := by
  have hcleared : ({ w with journal := [] } : World) = { w' with journal := [] } :=
    congrArg (fun u : World => { u with journal := [] }) h
  have hjournal := congrArg World.journal h
  rw [← w.after_cleared, ← w'.after_cleared, hx, hx, hcleared]
  rcases x { w' with journal := [] } with _ | ⟨r, u⟩
  · rfl
  · refine congrArg (fun journal => some (r, ({ u with journal } : World))) ?_
    exact List.map_append.trans ((congrArg (· ++ _) hjournal).trans List.map_append.symm)

namespace Alike

/-- Alike computations come to nothing both, or to one outcome and to states that are the same but
for the owners of noted calls. -/
theorem cases {x y : Run ε α} (h : Alike f x y w) : (x w = none ∧ y w = none) ∨
    ∃ r u u', x w = some (r, u) ∧ y w = some (r, u') ∧ u.renameOwners f = u'.renameOwners f := by
  unfold Alike renameOwners at h
  cases hx : x w with
  | none =>
    rw [hx] at h
    exact .inl ⟨rfl, Option.map_eq_none_iff.1 h.symm⟩
  | some p =>
    rw [hx] at h
    obtain ⟨q, hy, hpq⟩ := Option.map_eq_some_iff.1 h.symm
    obtain ⟨hr, hu⟩ := Prod.mk.inj hpq
    exact .inr ⟨p.1, p.2, q.2, rfl, hy.trans (congrArg (fun r => some (r, q.2)) hr), hu.symm⟩

/-- What follows alike computations and does not read the journal leaves them alike. -/
theorem bind {x y : Run ε α} {k : α → Run ε β} (h : Alike f x y w) (hk : ∀ a, Blind (k a)) :
    Alike f (x >>= k) (y >>= k) w := by
  rcases h.cases with ⟨hx, hy⟩ | ⟨_ | a, u, u', hx, hy, hu⟩
  · exact .of_eq (bind_congr_apply (hx.trans hy.symm) k)
  · unfold Alike
    rw [bind_error hx, bind_error hy]
    exact congrArg (fun u => some (_, u)) hu
  · unfold Alike
    rw [bind_ok hx, bind_ok hy]
    exact (hk a).renameOwners_eq hu

/-- Computations that go on alike from every result of their first step are alike. -/
theorem bind_left (x : Run ε α) {k k' : α → Run ε β} (h : ∀ a u, Alike f (k a) (k' a) u) :
    Alike f (x >>= k) (x >>= k') w := by
  show renameOwners f ((x w).bind _) = renameOwners f ((x w).bind _)
  rcases x w with _ | ⟨_ | a, u⟩
  · rfl
  · rfl
  · exact h a u

/-- Notes of calls that are the same but for their owners. -/
theorem record {call call' : CallRecord} (h : call.rename f = call'.rename f) :
    Alike f (Run.record call : Run ε Unit) (Run.record call') w := by
  have hjournal : ((w.noting call).renameOwners f).journal =
      ((w.noting call').renameOwners f).journal := by
    simp only [World.noting, World.renameOwners, List.map_append, List.map_cons, h]
  exact congrArg (fun journal => some (Except.ok (), ({ w with journal } : World))) hjournal

theorem mapError {x y : Run ε α} (h : Alike f x y w) (g : ε → ε') :
    Alike f (x.mapError g) (y.mapError g) w := by
  rcases h.cases with ⟨hx, hy⟩ | ⟨r, u, u', hx, hy, hu⟩
  · show renameOwners f ((x w).bind _) = renameOwners f ((y w).bind _)
    rw [hx, hy]
  · unfold Alike
    rw [mapError_some hx, mapError_some hy]
    exact congrArg (fun u => some (_, u)) hu

end Alike

end Run

/-- A plan with no code bound, as those of interfaces have. -/
def MemberPlan.unbound (plan : MemberPlan) : MemberPlan := { plan with bound := none }

/-! ## Members as scripts use them -/

/-- What a script does with a member that an object shows under a name: it calls a method or a
function of an event, reads a property, or writes one. -/
def Reentry.useMember (r : Reentry) (o : ObjectId) (role : MemberRole) (name : String)
    (args : List ScriptValue) : Run Error ScriptValue :=
  match role with
  | .method | .subscribe | .unsubscribe => r.callMethod o name args
  | .getter => r.get o name
  | .setter => do
    r.set o name (args.headD .undefined)
    return .undefined

/-- The arguments with which the function of a member is called. -/
def MemberRole.given (role : MemberRole) (args : List ScriptValue) : List ScriptValue :=
  match role with
  | .method | .subscribe | .unsubscribe => args
  | .getter => []
  | .setter => [args.headD .undefined]

/-- What a script gets of the result of the function of a member: writing gives nothing. -/
def MemberRole.gotten (role : MemberRole) (result : ScriptValue) : ScriptValue :=
  match role with
  | .setter => .undefined
  | _ => result

/-- A property has a function for a member in a role. -/
inductive Property.Has (f : FunctionId) : MemberRole → Property → Prop
  | method : Has f .method (.data (.function f))
  | subscribe : Has f .subscribe (.data (.function f))
  | unsubscribe : Has f .unsubscribe (.data (.function f))
  | getter (setter : Option FunctionId) : Has f .getter (.accessor (some f) setter)
  | setter (getter : Option FunctionId) : Has f .setter (.accessor getter (some f))

/-- An object has the function of a plan under the name of the plan, for itself or along its
prototypes. -/
def Heap.Serves (h : Heap) (o : ObjectId) (plan : MemberPlan) : Prop :=
  ∃ property f, h.lookup? o plan.name = some property ∧ Property.Has f plan.role property ∧
    h.Performs plan f

/-- A function that is found under a name of an object is called on the object. -/
theorem Reentry.callMethod_of_function {r : Reentry} {w : World} {o : ObjectId} {key : String}
    {f : FunctionId} (h : w.heap.lookup? o key = some (.data (.function f)))
    (args : List ScriptValue) :
    r.callMethod o key args w = r.callFunction f (.object o) args w := by
  have hread : r.get o key w = some (.ok (.function f), w) := by
    rw [get, bind_ok (ofHeap_apply _ w), h]
    rfl
  exact bind_ok hread _

/-- To use a member is to call the function that is found for it on the object. -/
theorem Reentry.useMember_of_has {r : Reentry} {w : World} {o : ObjectId} {key : String}
    {role : MemberRole} {property : Property} {f : FunctionId}
    (hlookup : w.heap.lookup? o key = some property) (hf : Property.Has f role property)
    (args : List ScriptValue) :
    r.useMember o role key args w =
      (role.gotten <$> r.callFunction f (.object o) (role.given args)) w := by
  cases hf with
  | method | subscribe | unsubscribe =>
    exact (callMethod_of_function hlookup args).trans (congrFun (id_map _).symm w)
  | getter => exact (get_of_getter hlookup).trans (congrFun (id_map _).symm w)
  | setter =>
    show (r.set o key _ >>= fun _ => pure ScriptValue.undefined) w = _
    rw [bind_congr_apply (set_of_setter hlookup _), bind_assoc]
    rfl

namespace Catalog

/-- Plans for one member in one role that take arguments of equal types and give results of the same
type, under any declarations of it. For the arguments the declarations matter too: the instance that
a plain object becomes and the callable that a function becomes keep the declaration which the
parameter names, so under another one the code would be given another value. A result shows scripts
nothing of the declaration that it was checked against. -/
structure Counterparts (catalog : Catalog) (plan plan' : MemberPlan) : Prop where
  member : plan.member = plan'.member
  role : plan.role = plan'.role
  intakes : plan.adapter.intakes = plan'.adapter.intakes
  outcome : plan.adapter.outcome.rename catalog.first = plan'.adapter.outcome.rename catalog.first

variable {catalog : Catalog}

/-! ## The same code -/

/-- A type that scripts see a member of is declared: where nothing is declared every descriptor is
astray. -/
theorem lt_size_of_exposed {prefixes : EventPrefixes} {registrations : Registrations} {c : ClassRef}
    {members : List ExposedMember} (h : catalog.exposed prefixes registrations c = .ok members)
    {x : ExposedMember} (hx : x ∈ members) : c.index < catalog.size := by
  by_contra hc
  have hdecl := catalog.decl_of_size_le (Nat.not_lt.1 hc)
  have hancestors : catalog.ancestors c = [c] := by
    rw [catalog.ancestors_eq c, hdecl]
    rfl
  have hinterfaces : catalog.allInterfaces c = [] := by
    rw [allInterfaces, hancestors, List.flatMap_singleton, hdecl]
    rfl
  have hno : ∀ category name, catalog.hasMember c category name = false := by
    intro category name
    rw [hasMember, hancestors, hinterfaces, List.any_cons, hdecl]
    cases category <;> rfl
  cases hs : catalog.strayClaim? registrations c with
  | some claim =>
    rw [exposed, hs] at h
    cases h
  | none =>
    rw [exposed, hs] at h
    -- A descriptor for the type would name a member that it has.
    have hregistered : catalog.registeredClaims registrations c = [] := by
      rw [strayClaim?, hancestors, List.flatMap_singleton, List.find?_eq_none] at hs
      refine List.eq_nil_iff_forall_not_mem.2 fun claim hclaim => hs claim hclaim ?_
      obtain ⟨d, -, rfl⟩ := List.mem_map.1 hclaim
      exact congrArg (!·) (hno _ _)
    have hclaims : catalog.claims registrations c = [] := by
      rw [claims, hancestors, hinterfaces, List.flatMap_singleton, hregistered, annotatedClaims,
        hdecl]
      rfl
    rw [hclaims] at h
    cases h
    cases hx

/-- An interface is declared. -/
theorem lt_size_of_isInterface {c : ClassRef} (h : catalog.isInterface c = true) :
    c.index < catalog.size := by
  by_contra hc
  rw [isInterface, catalog.decl_of_size_le (Nat.not_lt.1 hc)] at h
  cases h

theorem codeFor_eq (plan : MemberPlan) (target : Instance) : catalog.codeFor plan target =
    (plan.bound <|> catalog.implementation? target.runtimeClass plan.role plan.member).elim
      (.error (.resolution (.unknownMember (catalog.name target.runtimeClass) plan.member
        plan.role.category))) .ok := by
  unfold codeFor
  cases plan.bound <|> catalog.implementation? target.runtimeClass plan.role plan.member <;> rfl

section Coherent

variable (hcoherent : catalog.Coherent)

include hcoherent

/-- Declarations of one type find the same code. -/
theorem implementation?_congr {c d : ClassRef} (h : catalog.first c = catalog.first d)
    (role : MemberRole) (member : String) :
    (catalog.implementation? c role member).map (Implementation.rename catalog.first) =
      (catalog.implementation? d role member).map (Implementation.rename catalog.first) :=
  bound_congr hcoherent h .bound role member

/-- What a definition binds was looked up along a declaration of the class of the instance, so it is
what is found late. Where nothing was bound the code is found late in any case. -/
theorem PlanOf.codeFor_unbound {type : ClassRef} {x : ExposedMember} {plan : MemberPlan}
    (h : catalog.PlanOf type x plan) {target : Instance}
    (htype : catalog.mode type = .bound → catalog.first type = catalog.first target.runtimeClass) :
    (catalog.codeFor plan target).map (Implementation.rename catalog.first) =
      (catalog.codeFor plan.unbound target).map (Implementation.rename catalog.first) := by
  obtain ⟨-, hmember, hrole, hbound⟩ := h.eq
  rw [codeFor_eq, codeFor_eq]
  refine elim_congr_map ?_ _
  cases hmode : catalog.mode type with
  | byName =>
    rw [hmode] at hbound
    rw [hbound]
    rfl
  | bound =>
    rw [hmode] at hbound
    have hfound : plan.bound.map (Implementation.rename catalog.first) =
        (catalog.implementation? target.runtimeClass plan.role plan.member).map
          (Implementation.rename catalog.first) := by
      rw [hbound, hmember, hrole]
      exact implementation?_congr hcoherent (htype hmode) x.role x.member
    rw [Option.orElse_eq_orElse, Option.orElse_eq_or, Option.map_or, hfound, Option.or_self]
    rfl

/-- Two plans for a member in a role find the same code for an instance, or the same error, if each
is of a declaration of its class or of an interface. -/
theorem PlanOf.codeFor_congr {type type' : ClassRef} {x x' : ExposedMember}
    {plan plan' : MemberPlan} (h : catalog.PlanOf type x plan) (h' : catalog.PlanOf type' x' plan')
    {target : Instance}
    (htype : catalog.mode type = .bound → catalog.first type = catalog.first target.runtimeClass)
    (htype' : catalog.mode type' = .bound →
      catalog.first type' = catalog.first target.runtimeClass)
    (hsame : catalog.Counterparts plan plan') :
    (catalog.codeFor plan target).map (Implementation.rename catalog.first) =
      (catalog.codeFor plan' target).map (Implementation.rename catalog.first) := by
  have hlate : catalog.codeFor plan.unbound target = catalog.codeFor plan'.unbound target := by
    simp only [codeFor_eq, MemberPlan.unbound, hsame.member, hsame.role]
  rw [h.codeFor_unbound hcoherent htype, hlate, h'.codeFor_unbound hcoherent htype']

/-! ## The same result -/

/-- The error for a value tells the type in the same words under any declarations of its classes. -/
theorem mismatch_rename (type : NativeType) (got : String) :
    catalog.mismatch (type.rename catalog.first) got = catalog.mismatch type got := by
  suffices htext : (type.rename catalog.first).text catalog.name = type.text catalog.name from
    congrArg (ConversionError.typeMismatch · got) htext
  induction type using NativeType.referenced.induct with
  | case1 c => exact name_first hcoherent c
  | case2 inner ih | case3 inner ih | case4 inner ih =>
    exact congrArg (fun text => _ ++ text ++ ">") ih
  | case5 type =>
    cases type with
    | callable shape =>
      cases shape
      rfl
    | _ => first | rfl | simp_all

/-- A value passes for one of a type under any declarations of its classes, and becomes the same. -/
theorem conform_rename (type : NativeType) :
    catalog.conform (type.rename catalog.first) = catalog.conform type := by
  funext value
  have hmismatch := mismatch_rename hcoherent type
  -- Classes in the type matter for what stands for them and for the words of the error.
  induction type using NativeType.referenced.induct generalizing value with
  | case1 c =>
    have hassignable (d : ClassRef) :
        catalog.isAssignable d (catalog.first c) = catalog.isAssignable d c := by
      rw [isAssignable, isAssignable, sameType_congr (identity_first c)]
    cases value <;> simp [conform, NativeType.rename, NativeType.default, hassignable, ← hmismatch]
  | case2 inner ih | case3 inner ih | case4 inner ih =>
    have hinner : catalog.conform (inner.rename catalog.first) = catalog.conform inner :=
      funext fun v => ih v (mismatch_rename hcoherent inner)
    cases value <;> simp [conform, NativeType.rename, NativeType.default, hinner, ← hmismatch]
  | case5 type =>
    cases type with
    | callable shape =>
      cases value <;> simp [conform, NativeType.rename, NativeType.default, ← hmismatch]
    | _ => first | rfl | simp_all

theorem giveResult_congr {outcome outcome' : Outcome}
    (h : outcome.rename catalog.first = outcome'.rename catalog.first) :
    catalog.giveResult outcome = catalog.giveResult outcome' := by
  have hrename : ∀ outcome : Outcome,
      catalog.giveResult (outcome.rename catalog.first) = catalog.giveResult outcome := by
    intro outcome
    cases outcome with
    | discarded => rfl
    | checked type =>
      funext v
      exact congrArg (fun r => Run.ofConversion r >>= catalog.toScript)
        (congrFun (conform_rename hcoherent type) v)
  rw [← hrename, h, hrename]

/-! ## The same call -/

omit hcoherent in
/-- Being code of a type for instances is the same for all declarations of the type. -/
theorem receives_congr {owner owner' : ClassRef}
    (h : catalog.first owner = catalog.first owner') (c : ClassRef) :
    catalog.receives owner c = catalog.receives owner' c := by
  rw [receives, receives, ← sameType_congr (identity_first owner), h,
    sameType_congr (identity_first owner')]

/-- Running code of a member, under either of two declarations of the type that owns it. -/
theorem alike_runImplementation {r : Reentry} (hr : r.Blind) {i i' : Implementation}
    (h : i.rename catalog.first = i'.rename catalog.first) (target : Instance)
    (args : List NativeValue) (w : World) :
    Alike catalog.first (catalog.runImplementation r i target args)
      (catalog.runImplementation r i' target args) w := by
  obtain ⟨owner, member, role, code⟩ := i
  obtain ⟨owner', member', role', code'⟩ := i'
  obtain ⟨howner, rfl, rfl, rfl⟩ := Implementation.mk.inj h
  have hname : catalog.name owner = catalog.name owner' := by
    rw [← name_first hcoherent owner, ← name_first hcoherent owner']
    exact congrArg catalog.name howner
  simp only [runImplementation, receives_congr howner, hname]
  split
  · refine .bind (.record ?_) fun _ => hr.nativeCode _
    exact congrArg (CallRecord.member · member role target args) howner
  · rfl

/-- Calling a member through two proxies of an instance, by plans that cross alike and find the same
code. -/
theorem alike_callMember {r : Reentry} (hr : r.Blind) {plan plan' : MemberPlan} {target : Instance}
    (hcode : (catalog.codeFor plan target).map (Implementation.rename catalog.first) =
      (catalog.codeFor plan' target).map (Implementation.rename catalog.first))
    (hsame : catalog.Counterparts plan plan') {this this' : ScriptValue} {w : World}
    (hthis : World.receiver? w this = some target) (hthis' : World.receiver? w this' = some target)
    (args : List ScriptValue) :
    Alike catalog.first (catalog.callMember r plan this args)
      (catalog.callMember r plan' this' args) w := by
  rw [Alike, callMember_of_receiver hthis, callMember_of_receiver hthis', hsame.intakes, hsame.role,
    hsame.member, giveResult_congr hcoherent hsame.outcome]
  -- Both take the arguments first, and then look for the code.
  refine Alike.bind_left _ fun natives u => ?_
  cases hi : catalog.codeFor plan target with
  | error e =>
    rw [hi] at hcode
    rw [error_of_map_eq_error hcode.symm]
    rfl
  | ok i =>
    rw [hi] at hcode
    obtain ⟨i', hi', howner⟩ := exists_of_map_eq_ok hcode.symm
    rw [hi', ofExcept_ok_bind, ofExcept_ok_bind]
    refine Alike.bind_left _ fun given v => ?_
    refine ((alike_runImplementation hcoherent hr howner.symm target given v).mapError _).bind ?_
    exact fun v => blind_giveResult _ _

/-- Calling functions of such plans on two proxies of an instance. -/
theorem alike_callFunction {r : Reentry} (hr : r.Blind) {plan plan' : MemberPlan}
    {target : Instance}
    (hcode : (catalog.codeFor plan target).map (Implementation.rename catalog.first) =
      (catalog.codeFor plan' target).map (Implementation.rename catalog.first))
    (hsame : catalog.Counterparts plan plan') {this this' : ScriptValue} {w : World}
    (hthis : World.receiver? w this = some target) (hthis' : World.receiver? w this' = some target)
    {f g : FunctionId} (hf : w.heap.Performs plan f) (hg : w.heap.Performs plan' g)
    (args : List ScriptValue) :
    Alike catalog.first (catalog.callFunction r f this args) (catalog.callFunction r g this' args)
      w := by
  cases halive : w.exposer.alive with
  | false =>
    rw [Alike, callFunction_of_disposed hf halive, callFunction_of_disposed hg halive]
  | true =>
    rw [Alike, callFunction_of_offers ⟨halive, hf⟩, callFunction_of_offers ⟨halive, hg⟩]
    exact alike_callMember hcoherent hr hcode hsame hthis hthis' args

/-- Using a member of two proxies of an instance. -/
theorem alike_useMember {plan plan' : MemberPlan} {target : Instance}
    (hcode : (catalog.codeFor plan target).map (Implementation.rename catalog.first) =
      (catalog.codeFor plan' target).map (Implementation.rename catalog.first))
    (hsame : catalog.Counterparts plan plan') {p q : ObjectId} {w : World}
    (hp : (w.heap.object p).target = some target) (hq : (w.heap.object q).target = some target)
    (hserves : w.heap.Serves p plan) (hserves' : w.heap.Serves q plan') (n : Nat)
    (args : List ScriptValue) :
    Alike catalog.first ((catalog.reentry n).useMember p plan.role plan.name args)
      ((catalog.reentry n).useMember q plan'.role plan'.name args) w := by
  have hthis : World.receiver? w (.object p) = some target := hp
  have hthis' : World.receiver? w (.object q) = some target := hq
  obtain ⟨property, f, hlookup, hhas, hf⟩ := hserves
  obtain ⟨property', g, hlookup', hhas', hg⟩ := hserves'
  have hfunctions : ∀ args, Alike catalog.first
      ((catalog.reentry n).callFunction f (.object p) args)
      ((catalog.reentry n).callFunction g (.object q) args) w := by
    intro args
    cases n with
    | zero => exact .of_eq rfl
    | succ n =>
      exact alike_callFunction hcoherent (blind_reentry catalog n) hcode hsame hthis hthis' hf hg
        args
  rw [Alike, Reentry.useMember_of_has hlookup hhas, Reentry.useMember_of_has hlookup' hhas',
    hsame.role]
  exact (hfunctions _).bind fun _ => .pure _

end Coherent

/-! ## Proxies of a class and of an interface -/

/-- What wraps an instance is a proxy of it, by the definition that is then kept for its class. -/
theorem of_wrapInstance {target : Instance} {p : ObjectId} {u w : World}
    (h : catalog.wrapInstance target u = some (.ok (.object p), w)) :
    (w.heap.object p).target = some target := by
  obtain ⟨d, v, -, hwrap⟩ := bind_ok_cases h
  cases hwrap
  exact v.heap.target_newProxy d target

/-- What a factory makes of an instance is a proxy of it. -/
theorem of_createThrough {factory : Factory} {target : Instance} {q : ObjectId} {u w : World}
    (h : catalog.createThrough factory target u = some (.ok (.object q), w)) :
    (w.heap.object q).target = some target := by
  obtain ⟨_, v, -, h⟩ := bind_ok_cases h
  split at h
  · cases h
    exact v.heap.target_newProxy factory.definition target
  · cases h

/-- A plan of a definition that a session keeps is that of a member of its declaration, which is
declared. -/
theorem exists_planOf_of_kept {settings : Settings} {w : World}
    (hw : Session.Visits catalog (World.start settings) w) {c : ClassRef} {d : Definition}
    (hd : w.exposer.definition? (catalog.identity c) = some d) {plan : MemberPlan}
    (hplan : plan ∈ d.members) :
    catalog.identity d.declaration = catalog.identity c ∧ d.declaration.index < catalog.size ∧
      ∃ x, catalog.PlanOf d.declaration x plan := by
  obtain ⟨htype, before, members, -, hmade, -⟩ := traced_of_visits hw _ _ hd
  obtain ⟨mentioned, hplanned⟩ := hmade.planned
  obtain ⟨x, hx, hplanOf⟩ := exists_planOf_of_mem_plans hplanned hplan
  exact ⟨htype, lt_size_of_exposed hmade.resolved hx, x, hplanOf⟩

/-- Where declarations of one type are equal, an instance has two proxies, one by the definition of
its class and one made by the factory of an interface. A member that both have, in one role and with
one signature, is then the same through both: the definitions find the same code for the instance,
or the same error where its class has none, and using the member in any later state, with any
arguments and at any depth, comes to the same outcome and leaves the same state. Only the
declaration under which the journal notes the call may be another one of the same type. -/
theorem proxies_dispatch_alike (hcoherent : catalog.Coherent) {settings : Settings}
    {target : Instance} (htarget : target.runtimeClass.index < catalog.size)
    {u₁ w₁ : World} (hu₁ : Session.Visits catalog (World.start settings) u₁) {p : ObjectId}
    (hwrap : catalog.wrapInstance target u₁ = some (.ok (.object p), w₁)) {d : Definition}
    (hd : w₁.exposer.definition? (catalog.identity target.runtimeClass) = some d)
    {u₂ w₂ : World} (hu₂ : Session.Visits catalog (World.start settings) u₂) {c : ClassRef}
    {factory : Factory} (hexpose : catalog.exposeInterface c u₂ = some (.ok factory, w₂))
    {u₃ w₃ : World} {q : ObjectId}
    (hcreate : catalog.createThrough factory target u₃ = some (.ok (.object q), w₃))
    {plan plan' : MemberPlan} (hplan : plan ∈ d.members)
    (hplan' : plan' ∈ factory.definition.members) (hsame : catalog.Counterparts plan plan') :
    (catalog.codeFor plan target).map (Implementation.rename catalog.first) =
        (catalog.codeFor plan' target).map (Implementation.rename catalog.first) ∧
      ∀ v, Session.Visits catalog w₁ v → Session.Visits catalog w₃ v →
        v.heap.Serves p plan → v.heap.Serves q plan' → ∀ n args,
          Alike catalog.first ((catalog.reentry n).useMember p plan.role plan.name args)
            ((catalog.reentry n).useMember q plan'.role plan'.name args) v := by
  have hw₁ := hu₁.moves (moves_wrapInstance catalog target hwrap).moves
  have hw₂ := hu₂.moves (Step.moves_exposeInterface c hexpose).moves
  obtain ⟨hinterface, -, he⟩ := of_exposeInterface hexpose
  obtain ⟨htype, hdeclared, x, hplanOf⟩ := exists_planOf_of_kept hw₁ hd hplan
  obtain ⟨htype', hdeclared', x', hplanOf'⟩ := exists_planOf_of_kept hw₂ he hplan'
  have hc := lt_size_of_isInterface hinterface
  -- Whatever declaration the factory's definition was built from, it is one of an interface.
  have hmode : catalog.mode factory.definition.declaration = .byName := by
    have hfirst := (first_eq_iff hdeclared' hc).2 htype'
    rw [mode, ← isInterface_first hcoherent, hfirst, isInterface_first hcoherent, hinterface]
    rfl
  have hcode := hplanOf.codeFor_congr hcoherent hplanOf'
    (fun _ => (first_eq_iff hdeclared htarget).2 htype)
    (fun hbound => by rw [hmode] at hbound; cases hbound) hsame
  refine ⟨hcode, fun v hv₁ hv₃ hp hq n args => ?_⟩
  exact alike_useMember hcoherent hcode hsame
    (hv₁.later.target p target (of_wrapInstance hwrap))
    (hv₃.later.target q target (of_createThrough hcreate)) hp hq n args

/-- Whatever can be read; meters, of which there are two declarations; and water meters, of which
there are two that name one of those each as their base, and say again without code that they can be
read. -/
def waterMeters : Catalog where
  decls :=
    let reading (expose : Option Expose) (code : Option MemberCode) : List MethodDecl :=
      [⟨"read", [], .string, expose, code⟩]
    let meter : ClassDecl := { (default : ClassDecl) with
      identity := ⟨2⟩, name := "Meter"
      methods := reading none (some fun _ _ => .done (.ok (.string "7"))) }
    let waterMeter (base : ClassRef) : ClassDecl := { (default : ClassDecl) with
      identity := ⟨3⟩, name := "WaterMeter", base := some base, interfaces := [⟨0⟩]
      methods := reading (some (.function none)) none }
    [{ (default : ClassDecl) with
        identity := ⟨1⟩, name := "Readable", isInterface := true
        methods := reading (some (.function none)) none },
      meter, meter, waterMeter ⟨1⟩, waterMeter ⟨2⟩]
  restsOn := by decide

/-- The definition of water meters is built from their first declaration, the instance is of the
second. It is read by the code of the first meter as a water meter and by that of the second as
readable, which makes no difference but in the journal. -/
theorem water_meter_dispatches_alike :
    ∃ (p q : ObjectId) (plan plan' : MemberPlan) (v : World),
      Session.Visits waterMeters (World.start {}) v ∧
      plan.bound.map (·.owner) = some ⟨1⟩ ∧ plan'.bound = none ∧
      (waterMeters.codeFor plan' ⟨1, ⟨4⟩⟩).map (·.owner) = .ok ⟨2⟩ ∧
      v.heap.Serves p plan ∧ v.heap.Serves q plan' ∧ ∀ n args,
        Alike waterMeters.first
          ((waterMeters.reentry n).useMember p plan.role plan.name args)
          ((waterMeters.reentry n).useMember q plan'.role plan'.name args) v := by
  have hcoherent : waterMeters.Coherent := by
    refine .of_first fun c hc => ?_
    match c, hc with
    | ⟨0⟩, _ | ⟨1⟩, _ | ⟨2⟩, _ | ⟨3⟩, _ | ⟨4⟩, _ => rfl
  have hsession : ∃ rep p w₁ d factory w₂ q w₃ plan plan',
      Session.report waterMeters 0 none (.definition ⟨3⟩ none) (World.start {}) = some rep ∧
      waterMeters.wrapInstance ⟨1, ⟨4⟩⟩ rep.world = some (.ok (.object p), w₁) ∧
      w₁.exposer.definition? (waterMeters.identity ⟨4⟩) = some d ∧
      waterMeters.exposeInterface ⟨0⟩ w₁ = some (.ok factory, w₂) ∧
      waterMeters.createThrough factory ⟨1, ⟨4⟩⟩ w₂ = some (.ok (.object q), w₃) ∧
      d.members = [plan] ∧ factory.definition.members = [plan'] ∧
      waterMeters.Counterparts plan plan' ∧
      plan.bound.map (·.owner) = some ⟨1⟩ ∧ plan'.bound = none ∧
      (waterMeters.codeFor plan' ⟨1, ⟨4⟩⟩).map (·.owner) = .ok ⟨2⟩ ∧
      w₃.heap.Serves p plan ∧ w₃.heap.Serves q plan' :=
    ⟨_, _, _, _, _, _, _, _, _, _, rfl, rfl, rfl, rfl, rfl, rfl, rfl, ⟨rfl, rfl, rfl, rfl⟩, rfl,
      rfl, rfl, ⟨_, _, rfl, .method, rfl⟩, ⟨_, _, rfl, .method, rfl⟩⟩
  obtain ⟨rep, p, w₁, d, factory, w₂, q, w₃, plan, plan', hrep, hwrap, hd, hexpose, hcreate, hplan,
    hplan', hsame, hbound, hlate, hfound, hp, hq⟩ := hsession
  have hu := Session.Visits.step .start hrep
  have hw₁ := hu.moves (moves_wrapInstance waterMeters _ hwrap).moves
  have hexposed := (Step.moves_exposeInterface ⟨0⟩ hexpose).moves
  have hcreated := Step.moves_createThrough factory _ hcreate
  have hw₃ : Session.Visits waterMeters w₁ w₃ :=
    (Session.Visits.start.moves hexposed).moves hcreated
  obtain ⟨-, halike⟩ := proxies_dispatch_alike hcoherent (by decide) hu hwrap hd hw₁ hexpose hcreate
    (hplan ▸ List.mem_singleton_self plan) (hplan' ▸ List.mem_singleton_self plan') hsame
  exact ⟨p, q, plan, plan', w₃, (hw₁.moves hexposed).moves hcreated, hbound, hlate, hfound, hp, hq,
    halike w₃ hw₃ .start hp hq⟩

end Catalog

end ScriptBoundary
