import ScriptBoundary.Proofs.Receivers
import ScriptBoundary.Proofs.Sessions

/-!
# Opting in, over sessions

A class permits scripts to run those members that it exposes itself and those that an interface
exposes to which it is assignable. In a session whose registrations are fixed, members run through
the functions of exposed members and where plain objects fill exposed properties, and nowhere else:
this is an invariant of the moves (`Opening`). Plain objects only fill what the class permits. What
functions run is told by the pairs of `accepted`, so opting in protects instances from being called
through foreign functions exactly as far as the pairs that a session can bring about are among what
the classes permit (`Sealed`).
-/

namespace ScriptBoundary

open Run

namespace Catalog

variable (catalog : Catalog) (prefixes : EventPrefixes) (registrations : Registrations)

/-- A class permits scripts to run a member: it exposes the member itself, or is assignable to an
interface that does. -/
def Permits (runtimeClass : ClassRef) (category : MemberCategory) (member : String) : Prop :=
  ∃ type x, (type = runtimeClass ∨
      catalog.isInterface type = true ∧ catalog.isAssignable runtimeClass type = true) ∧
    catalog.Exposes prefixes registrations type x ∧ x.role.category = category ∧ x.member = member

/-- A call of a member is one that the class of the instance permits. -/
def PermittedCall : CallRecord → Prop
  | .member _ member role target _ =>
    catalog.Permits prefixes registrations target.runtimeClass role.category member
  | _ => True

/-- A function of an exposed member is there and works. -/
structure Serves (w : World) (f : FunctionId) (plan : MemberPlan) (type : ClassRef)
    (x : ExposedMember) : Prop where
  offers : Offers f plan w
  exposes : catalog.Exposes prefixes registrations type x
  planOf : catalog.PlanOf type x plan

/-- A call of a member is permitted, or of code that a function reaches and that accepts the
instance. -/
def OpenCall (w : World) : CallRecord → Prop
  | .member owner member role target args =>
    catalog.PermittedCall prefixes registrations (.member owner member role target args) ∨
      ∃ f plan type x i, catalog.Serves prefixes registrations w f plan type x ∧
        catalog.accepted type x target.runtimeClass = some i ∧
        i.call target args = .member owner member role target args
  | _ => True

/-- What holds in all states of a session whose settings and registrations are fixed: functions on
prototypes are those of exposed members of types that have definitions, and members that ran were
open. -/
structure Opening (w : World) : Prop where
  events : w.exposer.settings.events = prefixes
  registered : w.exposer.registrations = registrations
  planned : ∀ f plan, (w.heap.function f).body = .member plan →
    ∃ type x, catalog.Exposes prefixes registrations type x ∧ catalog.PlanOf type x plan ∧
      (w.exposer.definition? (catalog.identity type)).isSome = true
  calls : ∀ entry ∈ w.journal, catalog.OpenCall prefixes registrations w entry.call

/-- The states of sessions that register nothing. -/
abbrev Reached (start : World) : World → Prop := Session.Reaches catalog (¬ ·.IsRegister) start

/-- Whatever code a function reaches that works in some state of a session, on instances that the
code accepts, it is of a member that the class of the instances permits. -/
def Sealed (start : World) : Prop :=
  ∀ w f plan type x, catalog.Reached start w →
    catalog.Serves start.exposer.settings.events start.exposer.registrations w f plan type x →
    ∀ runtimeClass i, catalog.accepted type x runtimeClass = some i →
      catalog.Permits start.exposer.settings.events start.exposer.registrations runtimeClass
        i.role.category i.member

/-- What calls of the function of a member come to: they fail when the exposer is gone, when the
receiver is no proxy, and when there is no code that accepts the instance behind it; else they run
that code, with or without arguments given. -/
def Answers (w : World) (f : FunctionId) (plan : MemberPlan) (type : ClassRef) (x : ExposedMember)
    (r : Reentry) (this : ScriptValue) : Prop :=
  if w.exposer.alive then
    match World.receiver? w this with
    | none => ∀ args, catalog.callFunction r f this args w = some (.error (.script
        (plan.name ++ " called on an incompatible receiver (" ++ this.typeName ++ ")")), w)
    | some target =>
      match catalog.accepted type x target.runtimeClass with
      | none => ∃ error, ∀ args,
        catalog.callFunction r f this args w = catalog.refuse r plan error args w
      | some i =>
        (∀ args, catalog.callFunction r f this args w = catalog.grant r plan i target args w) ∧
          ∃ given, catalog.callFunction r f this [] w = catalog.runOn r plan i target given w
  else ∀ args, catalog.callFunction r f this args w = some (.error .disposed, w)

end Catalog

/-! ## Functions with plans -/

namespace Heap

/-- A new function is at its place, and all others are as they were. -/
theorem function_newFunction_cases (h : Heap) (g : ScriptFunction) (f : FunctionId) :
    (h.newFunction g).1.function f = h.function f ∨ (h.newFunction g).1.function f = g := by
  simp only [newFunction, function, Array.getD_eq_getD_getElem?, Array.getElem?_push]
  split
  · exact .inr rfl
  · exact .inl rfl

/-- What alters a heap adds no function of a member. -/
theorem Alters.member {h h' : Heap} (ha : h.Alters h') {f : FunctionId} {plan : MemberPlan}
    (hf : (h'.function f).body = .member plan) : (h.function f).body = .member plan := by
  cases ha with
  | newFunction free =>
    rcases h.function_newFunction_cases _ f with hold | hnew
    · rwa [hold] at hf
    · rw [hnew] at hf
      exact absurd hf (free plan)
  | _ => exact hf

/-- Putting a member on a prototype adds its function only. -/
theorem member_addMember {prototype : ObjectId} {h : Heap} {added plan : MemberPlan}
    {f : FunctionId} (hf : ((addMember prototype h added).function f).body = .member plan) :
    (h.function f).body = .member plan ∨ plan = added := by
  have hnew : (addMember prototype h added).function f =
      (h.newFunction ⟨added.name, .member added⟩).1.function f := by
    obtain ⟨property, hadded⟩ := h.exists_addMember_eq prototype added
    rw [hadded]
    rfl
  rw [hnew] at hf
  rcases h.function_newFunction_cases ⟨added.name, .member added⟩ f with hold | hadded
  · rw [hold] at hf
    exact .inl hf
  · rw [hadded] at hf
    cases hf
    exact .inr rfl

/-- A prototype adds the functions of its plans only. -/
theorem member_newPrototype {h : Heap} {plans : List MemberPlan} {f : FunctionId}
    {plan : MemberPlan} (hf : ((h.newPrototype plans).1.function f).body = .member plan) :
    (h.function f).body = .member plan ∨ plan ∈ plans := by
  have hfold : ∀ (plans : List MemberPlan) (h' : Heap),
      ((plans.foldl (addMember ⟨h.objects.size⟩) h').function f).body = .member plan →
        (h'.function f).body = .member plan ∨ plan ∈ plans := by
    intro plans
    induction plans with
    | nil => exact fun _ => .inl
    | cons added plans ih =>
      intro h' hf
      rcases ih _ hf with hmade | hmem
      · rcases member_addMember hmade with hbody | rfl
        · exact .inl hbody
        · exact .inr List.mem_cons_self
      · exact .inr (List.mem_cons_of_mem _ hmem)
  exact hfold plans (h.newObject .plain).1 hf

end Heap

namespace Catalog

variable {catalog : Catalog} {prefixes : EventPrefixes} {registrations : Registrations}
  {w w' : World}

/-! ## The invariant -/

/-- A function of a member is one that was there, or one that was built with its type. -/
theorem Opening.planned_move (hw : catalog.Opening prefixes registrations w)
    (h : catalog.Move w w') {f : FunctionId} {plan : MemberPlan}
    (hf : (w'.heap.function f).body = .member plan) :
    ∃ type x, catalog.Exposes prefixes registrations type x ∧ catalog.PlanOf type x plan ∧
      (w'.exposer.definition? (catalog.identity type)).isSome = true := by
  have hlater := World.Later.of_move h
  have hthere : (w.heap.function f).body = .member plan →
      ∃ type x, catalog.Exposes prefixes registrations type x ∧ catalog.PlanOf type x plan ∧
        (w'.exposer.definition? (catalog.identity type)).isSome = true := by
    intro hbody
    obtain ⟨type, x, hx, hplan, hkept⟩ := hw.planned f plan hbody
    exact ⟨type, x, hx, hplan, hlater.definition _ hkept⟩
  -- Only building makes functions of members.
  cases h with
  | heap alters => exact hthere (alters.member hf)
  | @build c members plans constructors mentioned absent resolved planned =>
    rcases Heap.member_newPrototype hf with hbody | hplan
    · exact hthere hbody
    · obtain ⟨x, hx, hplanOf⟩ := exists_planOf_of_mem_plans planned hplan
      have hexposes : catalog.Exposes prefixes registrations c x := by
        rw [exposedIn, hw.events, hw.registered] at resolved
        exact ⟨members, resolved, hx⟩
      exact ⟨c, x, hexposes, hplanOf, Exposer.isSome_definition?_keep_self _ _ _⟩
  | _ => exact hthere hf

/-- What is served stays served. -/
theorem Serves.later (hlater : w.Later w') {f : FunctionId} {plan : MemberPlan} {type : ClassRef}
    {x : ExposedMember} (h : catalog.Serves prefixes registrations w f plan type x) :
    catalog.Serves prefixes registrations w' f plan type x :=
  { h with offers := ⟨hlater.alive.trans h.offers.1, hlater.heap.member f plan h.offers.2⟩ }

/-- A call that was open stays open. -/
theorem OpenCall.later (hlater : w.Later w') {call : CallRecord}
    (h : catalog.OpenCall prefixes registrations w call) :
    catalog.OpenCall prefixes registrations w' call := by
  cases call with
  | member owner member role target args =>
    rcases h with hpermitted | ⟨f, plan, type, x, i, hserves, haccepted, hcall⟩
    · exact .inl hpermitted
    · exact .inr ⟨f, plan, type, x, i, hserves.later hlater, haccepted, hcall⟩
  | _ => trivial

/-- A setter that a plain object fills is one that the class of the instance exposes. -/
theorem permits_of_mem_fillables {c : ClassRef} {members : List ExposedMember}
    {p : FillableProperty} (hm : catalog.exposed prefixes registrations c = .ok members)
    (hp : p ∈ catalog.fillables c members) :
    catalog.Permits prefixes registrations c p.setter.role.category p.setter.member := by
  obtain ⟨x, hx, hxp⟩ := List.mem_filterMap.1 hp
  unfold fillable? at hxp
  split at hxp
  · next d setter hrole hproperty hsetter =>
    cases hxp
    obtain ⟨hmember, hsetterRole⟩ := of_implementation? hsetter
    refine ⟨c, x, .inl rfl, ⟨members, hm, hx⟩, ?_, hmember.symm⟩
    rw [hrole, hsetterRole]
  · cases hxp

/-- A call that a move notes is open. -/
theorem Opening.calls_move (hw : catalog.Opening prefixes registrations w)
    (h : catalog.Move w w') : ∀ entry ∈ w'.journal,
      catalog.OpenCall prefixes registrations w' entry.call := by
  have hlater := World.Later.of_move h
  have hthere : ∀ entry ∈ w.journal, catalog.OpenCall prefixes registrations w' entry.call :=
    fun entry hentry => (hw.calls entry hentry).later hlater
  -- What is noted now was reached by a function that is there, or fills what the class exposes.
  have hnoted : ∀ call, catalog.OpenCall prefixes registrations w' call →
      ∀ entry ∈ (w.noting call).journal, catalog.OpenCall prefixes registrations w' entry.call := by
    intro call hcall entry hentry
    rcases List.mem_append.1 hentry with hold | hnew
    · exact hthere entry hold
    · obtain rfl := List.mem_singleton.1 hnew
      exact hcall
  cases h with
  | memberCall alive function code receives args =>
    refine hnoted _ (.inr ?_)
    obtain ⟨type, x, hx, hplan, -⟩ := hw.planned _ _ function
    exact ⟨_, _, type, x, _, ⟨⟨alive, function⟩, hx, hplan⟩,
      hplan.accepted_of_codeFor code receives, rfl⟩
  | fillCall resolved fillable receives args =>
    refine hnoted _ (.inl ?_)
    rw [exposedIn, hw.events, hw.registered] at resolved
    exact permits_of_mem_fillables resolved fillable
  | @otherCall call other =>
    refine hnoted _ ?_
    cases call with
    | member => exact other.elim
    | _ => trivial
  | _ => exact hthere

/-- A move keeps the invariant. -/
theorem Opening.move (hw : catalog.Opening prefixes registrations w) (h : catalog.Move w w') :
    catalog.Opening prefixes registrations w' where
  events := by rw [(World.Later.of_move h).settings, hw.events]
  registered := (World.Later.of_move h).registrations.trans hw.registered
  planned _ _ := hw.planned_move h
  calls := hw.calls_move h

/-- Moves keep the invariant. -/
theorem Opening.moves (hw : catalog.Opening prefixes registrations w) (h : catalog.Moves w w') :
    catalog.Opening prefixes registrations w' := by
  induction h with
  | refl => exact hw
  | tail _ hstep ih => exact ih.move hstep

/-- A step that registers nothing keeps the invariant. -/
theorem Opening.report {allowance : Nat} {name : Option String} {step : Step}
    {rep : Session.Report} (hw : catalog.Opening prefixes registrations { w with journal := [] })
    (hstep : ¬ step.IsRegister) (h : Session.report catalog allowance name step w = some rep) :
    catalog.Opening prefixes registrations rep.world := by
  rcases Step.isOrdinary_or_eq_dispose hstep with hordinary | rfl
  · exact hw.moves (Session.moves_report hordinary h)
  · rw [(Session.report_dispose h).2]
    exact ⟨hw.events, hw.registered, hw.planned, List.forall_mem_nil _⟩

/-- The invariant holds between the steps of a session that began before anything was built. -/
theorem opening_of_reached {start : World}
    (unbuilt : ∀ f plan, (start.heap.function f).body ≠ .member plan)
    (hw : catalog.Reached start w) :
    catalog.Opening start.exposer.settings.events start.exposer.registrations
      { w with journal := [] } := by
  induction hw with
  | start => exact ⟨rfl, rfl, fun f plan hf => absurd hf (unbuilt f plan), List.forall_mem_nil _⟩
  | step _ ofKind done ih =>
    have hreport := ih.report ofKind done
    exact ⟨hreport.events, hreport.registered, hreport.planned, List.forall_mem_nil _⟩

/-! ## What runs -/

/-- Where no function of a session reaches more than classes permit, open calls are permitted. -/
theorem Sealed.permittedCall {start : World} (hsealed : catalog.Sealed start)
    (hw : catalog.Reached start w) {call : CallRecord}
    (hcall : catalog.OpenCall start.exposer.settings.events start.exposer.registrations w call) :
    catalog.PermittedCall start.exposer.settings.events start.exposer.registrations call := by
  cases call with
  | member owner member role target args =>
    rcases hcall with hpermitted | ⟨f, plan, type, x, i, hserves, haccepted, hsame⟩
    · exact hpermitted
    · cases hsame
      exact hsealed w f plan type x hw hserves target.runtimeClass i haccepted
  | _ => trivial

/-- Code that is accepted runs when its function is called without arguments. -/
theorem exists_runOn {f : FunctionId} {plan : MemberPlan} (hoffers : Offers f plan w)
    {type : ClassRef} {x : ExposedMember} (hplan : catalog.PlanOf type x plan) {this : ScriptValue}
    {target : Instance} (hthis : World.receiver? w this = some target) {i : Implementation}
    (hi : catalog.accepted type x target.runtimeClass = some i) :
    ∃ given, ∀ r, catalog.callFunction r f this [] w = catalog.runOn r plan i target given w := by
  obtain ⟨given, hgiven⟩ := hplan.exists_codeArguments
  refine ⟨given, fun r => ?_⟩
  rw [callFunction_of_offers hoffers, callMember_of_accepted hplan hthis hi, grant]
  rw [bind_ok (takeArguments_nil catalog r _ w), hgiven, ofExcept_ok_bind]

/-- Calls of the function of a member come to what the pair of type and class tells. -/
theorem answers_of_planOf {f : FunctionId} {plan : MemberPlan}
    (hbody : (w.heap.function f).body = .member plan) {type : ClassRef} {x : ExposedMember}
    (hplan : catalog.PlanOf type x plan) (r : Reentry) (this : ScriptValue) :
    catalog.Answers w f plan type x r this := by
  unfold Answers
  split
  · next halive =>
    have hoffers : Offers f plan w := ⟨halive, hbody⟩
    cases hthis : World.receiver? w this with
    | none =>
      intro args
      rw [callFunction_of_offers hoffers, callMember_of_incompatible hthis]
    | some target =>
      dsimp only
      split
      · next hnone =>
        obtain ⟨error, hrefuse⟩ := callMember_of_refused (r := r) hplan hthis hnone
        refine ⟨error, fun args => ?_⟩
        rw [callFunction_of_offers hoffers, hrefuse]
      · next i hi =>
        obtain ⟨given, hrun⟩ := exists_runOn hoffers hplan hthis hi
        refine ⟨fun args => ?_, given, hrun r⟩
        rw [callFunction_of_offers hoffers, callMember_of_accepted hplan hthis hi]
  · next hgone => exact callFunction_of_disposed hbody (eq_false_of_ne_true hgone) this

/-- Where a function of a session reaches more than a class permits, a session comes to an instance
of the class on which the function runs that. -/
theorem exists_bypass {start : World}
    (unbuilt : ∀ f plan, (start.heap.function f).body ≠ .member plan)
    (hsealed : ¬ catalog.Sealed start) :
    ∃ w f plan this target i given, catalog.Reached start w ∧ Offers f plan w ∧
      World.receiver? w this = some target ∧
      ¬ catalog.Permits start.exposer.settings.events start.exposer.registrations
        target.runtimeClass i.role.category i.member ∧
      ∀ r, catalog.callFunction r f this [] w = catalog.runOn r plan i target given w := by
  simp only [Sealed, not_forall] at hsealed
  obtain ⟨w, f, plan, type, x, hw, hserves, runtimeClass, i, haccepted, hforbidden⟩ := hsealed
  -- Any definition makes a proxy, and that of the function's own type is there.
  obtain ⟨built, -, -, -, hkept⟩ := (opening_of_reached unbuilt hw).planned f plan hserves.offers.2
  obtain ⟨d, hd⟩ := Option.isSome_iff_exists.1 hkept
  obtain ⟨rep, hreport, hworld⟩ := Session.report_instantiate hserves.offers.1 hd runtimeClass
  let target : Instance := ⟨w.instances.size + 1, runtimeClass⟩
  have hoffers : Offers f plan rep.world := by
    rw [hworld]
    exact hserves.offers
  have hthis : World.receiver? rep.world (.object (w.heap.newProxy d target).2) = some target := by
    rw [hworld]
    exact w.heap.target_newProxy d target
  obtain ⟨given, hrun⟩ := exists_runOn hoffers hserves.planOf hthis haccepted
  exact ⟨rep.world, f, plan, _, target, i, given, .step hw id hreport, hoffers, hthis, hforbidden,
    hrun⟩

/-- In a session that began before anything was built and registers nothing, opting in cannot be
bypassed through a receiver if what functions reach is what classes permit. If it is not, some
function runs on an instance what the class of the instance does not permit. In either case each
function of a member answers as the pair of its type and the class of the instance tells. -/
theorem opt_in_exactly_where_sealed (catalog : Catalog) {start : World}
    (unbuilt : ∀ f plan, (start.heap.function f).body ≠ .member plan) :
    let prefixes := start.exposer.settings.events
    let registrations := start.exposer.registrations
    (catalog.Sealed start → ∀ w, catalog.Reached start w → ∀ allowance name step rep,
      ¬ step.IsRegister → Session.report catalog allowance name step w = some rep →
        ∀ entry ∈ rep.calls, catalog.PermittedCall prefixes registrations entry.call) ∧
    (¬ catalog.Sealed start → ∃ w f plan this target i given, catalog.Reached start w ∧
      Offers f plan w ∧ World.receiver? w this = some target ∧
      ¬ catalog.Permits prefixes registrations target.runtimeClass i.role.category i.member ∧
      ∀ r, catalog.callFunction r f this [] w = catalog.runOn r plan i target given w) ∧
    ∀ w, catalog.Reached start w → ∀ f plan, (w.heap.function f).body = .member plan →
      ∃ type x, catalog.Exposes prefixes registrations type x ∧ catalog.PlanOf type x plan ∧
        ∀ r this, catalog.Answers w f plan type x r this := by
  refine ⟨?_, exists_bypass unbuilt, ?_⟩
  · intro hsealed w hw allowance name step rep hstep hreport entry hentry
    have hopening := (opening_of_reached unbuilt hw).report hstep hreport
    rw [(Session.report_cases hreport).2] at hentry
    exact hsealed.permittedCall (.step hw hstep hreport) (hopening.calls entry hentry)
  · intro w hw f plan hbody
    obtain ⟨type, x, hx, hplan, -⟩ := (opening_of_reached unbuilt hw).planned f plan hbody
    exact ⟨type, x, hx, hplan, answers_of_planOf hbody hplan⟩

/-- Nothing is built when a program starts. -/
theorem start_unbuilt (settings : Settings) (f : FunctionId) (plan : MemberPlan) :
    ((World.start settings).heap.function f).body ≠ .member plan := by
  intro h
  cases h

/-- An interface of vaults, which scripts can open; doors, which are vaults; and safes, which are
not: they show their label, and have code to open them for other native code. -/
def vaults : Catalog where
  decls :=
    [{ (default : ClassDecl) with
        identity := ⟨1⟩, name := "Vault", isInterface := true,
        methods := [⟨"open", [], .void, some (.function none), none⟩] },
      { (default : ClassDecl) with
        identity := ⟨2⟩, name := "Door", interfaces := [⟨0⟩],
        methods := [⟨"open", [], .void, none, some fun _ _ => .done (.ok .null)⟩] },
      { (default : ClassDecl) with
        identity := ⟨3⟩, name := "Safe",
        methods := [⟨"open", [], .void, none, some fun _ _ => .done (.ok .null)⟩,
          ⟨"label", [], .void, some (.function none), some fun _ _ => .done (.ok .null)⟩] }]
  restsOn := by decide

/-- Safes do not permit scripts to open them. -/
theorem safe_not_permits : ¬ vaults.Permits {} [] ⟨2⟩ .method "open" := by
  rintro ⟨type, x, htype, ⟨members, hmembers, hx⟩, -, hmember⟩
  have hsafe : type = ⟨2⟩ := by
    rcases htype with rfl | ⟨hinterface, hassignable⟩
    · rfl
    · -- The one interface is not one of a safe, and the other types are none.
      obtain ⟨index⟩ := type
      rcases index with _ | _ | _ | index
      · exact absurd hassignable (by decide)
      · exact absurd hinterface (by decide)
      · exact absurd hinterface (by decide)
      · exact absurd hinterface Bool.false_ne_true
  subst hsafe
  have hlabel : vaults.exposed {} [] ⟨2⟩ = .ok [⟨"label", "label", .method, ⟨2⟩⟩] := rfl
  rw [hlabel] at hmembers
  cases hmembers
  obtain rfl := List.mem_singleton.1 hx
  exact absurd hmember (by decide)

/-- The function that opens vaults opens safes. -/
theorem vaults_not_sealed : ¬ vaults.Sealed (World.start {}) := by
  intro hsealed
  have hbuild : ∃ rep, Session.report vaults 0 none (.exposeInterface ⟨0⟩) (World.start {}) =
      some rep ∧ Offers ⟨0⟩ ⟨"open", "open", .method, ⟨[], .discarded⟩, none⟩ rep.world :=
    ⟨_, rfl, rfl, rfl⟩
  obtain ⟨rep, hreport, hoffers⟩ := hbuild
  refine safe_not_permits (hsealed rep.world _ _ ⟨0⟩ ⟨"open", "open", .method, ⟨0⟩⟩
    (.step .start id hreport) ⟨hoffers, ⟨_, rfl, List.mem_singleton_self _⟩, ⟨_, rfl⟩⟩ ⟨2⟩ _ rfl)

/-- A session comes to an instance on which scripts run what its class does not permit. -/
theorem vaults_bypassed :
    (∀ f plan, ((World.start {}).heap.function f).body ≠ .member plan) ∧
    ∃ w f plan this target i given, vaults.Reached (World.start {}) w ∧ Offers f plan w ∧
      World.receiver? w this = some target ∧
      ¬ vaults.Permits {} [] target.runtimeClass i.role.category i.member ∧
      ∀ r, vaults.callFunction r f this [] w = vaults.runOn r plan i target given w :=
  ⟨start_unbuilt {}, (opt_in_exactly_where_sealed vaults (start_unbuilt {})).2.1 vaults_not_sealed⟩


/-- A proxy of vaults, as it is built first. -/
def vaultDefinition : Definition where
  declaration := ⟨0⟩
  mode := .byName
  name := "InstanceProxyVault"
  members := [⟨"open", "open", .method, ⟨[], .discarded⟩, none⟩]
  constructors := []
  prototype := ⟨1⟩

/-- The state once a door is wrapped as a vault. -/
def doorWrapped : World where
  heap := {
    objects := #[.plain, ⟨"Object", [], none, [("open", .data (.function ⟨0⟩))]⟩,
      ⟨"InstanceProxyVault", [⟨1⟩], some ⟨1, ⟨1⟩⟩, []⟩]
    functions := #[⟨"open", .member ⟨"open", "open", .method, ⟨[], .discarded⟩, none⟩⟩] }
  instances := #[{}]
  exposer := { definitions := [(⟨1⟩, vaultDefinition)], builds := 1 }
  named := [("vaults", .factory ⟨⟨0⟩, vaultDefinition⟩), ("door", .script (.object ⟨2⟩))]

/-- A factory wraps a door as a vault. -/
theorem reached_doorWrapped : vaults.Reached (World.start {}) doorWrapped := by
  have hsession : ∃ rep₁ rep₂,
      Session.report vaults 0 (some "vaults") (.exposeInterface ⟨0⟩) (World.start {}) = some rep₁ ∧
      Session.report vaults 0 (some "door") (.createThrough "vaults"
        (.newInstance ⟨1⟩ fun t => .done (.ok (.object t)))) rep₁.world = some rep₂ ∧
      rep₂.world = doorWrapped :=
    ⟨_, _, rfl, rfl, rfl⟩
  obtain ⟨rep₁, rep₂, h₁, h₂, hworld⟩ := hsession
  rw [← hworld]
  exact .step (.step .start id h₁) id h₂

/-- Next to a door that is wrapped as a vault, a safe is wrapped as itself, and the function of the
door opens the safe. -/
theorem safe_opened :
    let call : Step := .call (.readVariable "safe" fun v => .done (.ok v))
      (.readVariable "door" fun
        | .object door => .get door "open" .done
        | _ => .done (.ok .undefined)) []
    ∃ w rep, vaults.Reached (World.start {}) w ∧ Session.report vaults 1 none call w = some rep ∧
      rep.calls.map (·.call) = [.member ⟨2⟩ "open" .method ⟨2, ⟨2⟩⟩ []] ∧
      ¬ vaults.PermittedCall {} [] (.member ⟨2⟩ "open" .method ⟨2, ⟨2⟩⟩ []) := by
  intro call
  have hsession : ∃ rep₁ rep,
      Session.report vaults 0 (some "safe") (.create
        (.newInstance ⟨2⟩ fun t => .done (.ok (.object t)))) doorWrapped = some rep₁ ∧
      Session.report vaults 1 none call rep₁.world = some rep ∧
      rep.calls.map (·.call) = [.member ⟨2⟩ "open" .method ⟨2, ⟨2⟩⟩ []] :=
    ⟨_, _, rfl, rfl, rfl⟩
  obtain ⟨rep₁, rep, h₁, h, hcalls⟩ := hsession
  exact ⟨rep₁.world, rep, .step reached_doorWrapped id h₁, h, hcalls, safe_not_permits⟩

end Catalog

end ScriptBoundary
