import ScriptBoundary.Proofs.Calling

/-!
# Which code a receiver is open to

A function on a prototype asks of its receiver only that it is a proxy. The code that it reaches on
the instance behind the proxy is the code bound when the definition was built or, if none was, the
code that the class of the instance has under the name of the member; and code runs on an instance
that it accepts. So what runs on an instance is told by the pair of a type that exposes a member and
the class of the instance (`Catalog.accepted`), not by what the class of the instance exposes.

A call through the function of an exposed member comes to one of three ends, each given here as an
equation: the receiver is no proxy, the pair is refused and the call fails once its arguments are
converted, or the pair is accepted and the code runs.
-/

namespace ScriptBoundary

open Run

/-- What a call of code gives back: code of methods and getters gives its result, any other null. -/
def MemberRole.result (role : MemberRole) (v : NativeValue) : NativeValue :=
  match role with
  | .method | .getter => v
  | .setter | .subscribe | .unsubscribe => .null

/-- What is taken where the script gives no argument. -/
def Intake.missing : Intake → NativeValue
  | .converted type => type.default
  | .rest => .array []

/-- No parameter but the last takes all arguments that remain. -/
def RestLast (params : List Param) : Prop := ∀ p ∈ params.dropLast, p.isRest = false

instance (params : List Param) : Decidable (RestLast params) :=
  inferInstanceAs (Decidable (∀ p ∈ _, _))

/-- The last parameter takes all arguments that remain. -/
def takesRest (params : List Param) : Bool := params.getLast?.any Param.isRest

/-- The types of the parameters that take one argument each. -/
def fixedTypes (params : List Param) : List NativeType :=
  params.filterMap fun
    | .fixed _ type => some type
    | .rest _ => none

/-- Of parameters of which only the last takes all that remain, the first is the last, or it is fixed
and the others are such parameters. -/
theorem RestLast.cases_cons {p : Param} {params : List Param} (h : RestLast (p :: params)) :
    (∃ name, p = .rest name ∧ params = []) ∨ ∃ name type, p = .fixed name type ∧
      RestLast params ∧ takesRest (p :: params) = takesRest params := by
  cases params with
  | nil =>
    cases p with
    | rest name => exact .inl ⟨name, rfl, rfl⟩
    | fixed name type => exact .inr ⟨name, type, rfl, List.forall_mem_nil _, rfl⟩
  | cons q params =>
    rw [RestLast, List.dropLast_cons_cons, List.forall_mem_cons] at h
    cases p with
    | rest name => cases h.1
    | fixed name type => exact .inr ⟨name, type, rfl, h.2, rfl⟩

/-- Where only the last parameter takes all that remain, some parameter does if the last does. -/
theorem RestLast.any_isRest {params : List Param} (h : RestLast params) :
    params.any Param.isRest = takesRest params := by
  induction params with
  | nil => rfl
  | cons p params ih =>
    rcases h.cases_cons with ⟨name, rfl, rfl⟩ | ⟨name, type, rfl, hrest, htakes⟩
    · rfl
    · rw [htakes, ← ih hrest]
      rfl

namespace Catalog

variable (catalog : Catalog) (prefixes : EventPrefixes) (registrations : Registrations)

/-- A type exposes a member. -/
def Exposes (type : ClassRef) (x : ExposedMember) : Prop :=
  ∃ members, catalog.exposed prefixes registrations type = .ok members ∧ x ∈ members

/-- The code that a function of a type reaches on instances of a class, if there is any and it
accepts them. -/
def accepted (type : ClassRef) (x : ExposedMember) (runtimeClass : ClassRef) :
    Option Implementation :=
  let bound := match catalog.mode type with
    | .bound => catalog.implementation? type x.role x.member
    | .byName => none
  (bound <|> catalog.implementation? runtimeClass x.role x.member).filter fun i =>
    catalog.receives i.owner runtimeClass

/-- A plan is that of a member that a type exposes. -/
def PlanOf (type : ClassRef) (x : ExposedMember) (plan : MemberPlan) : Prop :=
  ∃ mentioned, catalog.planMember type (catalog.mode type) x = .ok (plan, mentioned)

/-- The arguments for code in a role, from the converted arguments of a call. -/
def codeArguments (role : MemberRole) (natives : List NativeValue) :
    Except Error (List NativeValue) :=
  match role with
  | .method => .ok natives
  | .getter => .ok []
  | .setter => .ok [natives.headD .null]
  | .subscribe | .unsubscribe => (catalog.handlerArgument natives).map ([·])

/-- A call that fails once its arguments are converted. -/
def refuse (r : Reentry) (plan : MemberPlan) (error : List NativeValue → Error)
    (args : List ScriptValue) : Run Error ScriptValue := do
  throw (error (← catalog.takeArguments r plan.adapter.intakes args))

/-- A call that runs code on an instance, with the arguments for the code. -/
def runOn (r : Reentry) (plan : MemberPlan) (i : Implementation) (target : Instance)
    (given : List NativeValue) : Run Error ScriptValue := do
  Run.record (i.call target given)
  let v ← ((i.code target given).run r).mapError (Error.ofHost plan.member)
  catalog.giveResult plan.adapter.outcome (plan.role.result v)

/-- A call that runs code on an instance once its arguments are converted. -/
def grant (r : Reentry) (plan : MemberPlan) (i : Implementation) (target : Instance)
    (args : List ScriptValue) : Run Error ScriptValue := do
  let natives ← catalog.takeArguments r plan.adapter.intakes args
  let given ← .ofExcept (catalog.codeArguments plan.role natives)
  catalog.runOn r plan i target given

/-! ## Plans -/

variable {catalog}

/-- What is found as the code of a member is of that member and role. -/
theorem of_implementation? {c : ClassRef} {role : MemberRole} {name : String} {i : Implementation}
    (h : catalog.implementation? c role name = some i) : i.member = name ∧ i.role = role := by
  obtain ⟨a, -, ha⟩ := List.exists_of_findSome?_eq_some h
  obtain ⟨code, -, rfl⟩ := Option.map_eq_some_iff.1 ha
  exact ⟨rfl, rfl⟩

/-- A plan has the names and the role of its member, an adapter for its signature, and binds code as
the type does. -/
theorem PlanOf.eq {type : ClassRef} {x : ExposedMember} {plan : MemberPlan}
    (h : catalog.PlanOf type x plan) :
    (∃ types, catalog.memberSignature x = .ok (plan.adapter, types)) ∧ plan.member = x.member ∧
      plan.role = x.role ∧
      plan.bound = match catalog.mode type with
        | .bound => catalog.implementation? type x.role x.member
        | .byName => none := by
  obtain ⟨mentioned, h⟩ := h
  obtain ⟨⟨adapter, types⟩, hsignature, h⟩ := exists_of_bind_eq_ok h
  obtain ⟨_, -, h⟩ := exists_of_bind_eq_ok h
  cases h
  refine ⟨⟨types, ?_⟩, rfl, rfl, rfl⟩
  cases hm : catalog.memberSignature x with
  | error e =>
    rw [hm] at hsignature
    cases hsignature
  | ok found =>
    rw [hm] at hsignature
    cases hsignature
    rfl

/-- A plan has the name that scripts use for its member. -/
theorem PlanOf.name_eq {type : ClassRef} {x : ExposedMember} {plan : MemberPlan}
    (h : catalog.PlanOf type x plan) : plan.name = x.name := by
  obtain ⟨mentioned, h⟩ := h
  obtain ⟨signature, -, h⟩ := exists_of_bind_eq_ok h
  obtain ⟨_, -, h⟩ := exists_of_bind_eq_ok h
  cases h
  rfl

/-- The plans of a class are those of its members, one for each, in their order. -/
theorem forall₂_planOf {c : ClassRef} {members : List ExposedMember} {plans : List MemberPlan}
    {constructors : List ConstructorPlan} {mentioned : List ClassRef}
    (h : catalog.plans c members = .ok (plans, constructors, mentioned)) :
    List.Forall₂ (catalog.PlanOf c) members plans := by
  obtain ⟨planned, hplanned, rfl, -⟩ := exists_planned h
  obtain ⟨pairs, rfl, rfl, hpairs⟩ := exists_pairs_of_mapM_eq_ok hplanned
  rw [List.map_map, List.forall₂_map_left_iff, List.forall₂_map_right_iff]
  exact List.forall₂_same.2 fun p hp => ⟨p.2.2, hpairs p hp⟩

/-- The plans of a class are those of its members. -/
theorem exists_planOf_of_mem_plans {c : ClassRef} {members : List ExposedMember}
    {plans : List MemberPlan} {constructors : List ConstructorPlan} {mentioned : List ClassRef}
    (h : catalog.plans c members = .ok (plans, constructors, mentioned)) {plan : MemberPlan}
    (hplan : plan ∈ plans) : ∃ x ∈ members, catalog.PlanOf c x plan := by
  obtain ⟨planned, hplanned, rfl, -⟩ := exists_planned h
  obtain ⟨p, hp, rfl⟩ := List.mem_map.1 hplan
  obtain ⟨x, hx, hxp⟩ := exists_mem_of_mapM_eq_ok hplanned hp
  exact ⟨x, hx, p.2, hxp⟩

/-- What a type reaches on a class is what the plan finds for the instance, if it accepts it. -/
theorem PlanOf.accepted_eq {type : ClassRef} {x : ExposedMember} {plan : MemberPlan}
    (h : catalog.PlanOf type x plan) (target : Instance) :
    catalog.accepted type x target.runtimeClass =
      (catalog.codeFor plan target).toOption.filter fun i =>
        catalog.receives i.owner target.runtimeClass := by
  obtain ⟨-, hmember, hrole, hbound⟩ := h.eq
  unfold accepted codeFor
  rw [hbound, hmember, hrole]
  dsimp only
  generalize ((match catalog.mode type with
    | .bound => catalog.implementation? type x.role x.member
    | .byName => none) <|> catalog.implementation? target.runtimeClass x.role x.member) = found
  cases found <;> rfl

/-- Code that is accepted is what the plan finds for the instance. -/
theorem PlanOf.codeFor_of_accepted {type : ClassRef} {x : ExposedMember} {plan : MemberPlan}
    (h : catalog.PlanOf type x plan) {target : Instance} {i : Implementation}
    (hi : catalog.accepted type x target.runtimeClass = some i) :
    catalog.codeFor plan target = .ok i ∧ catalog.receives i.owner target.runtimeClass = true := by
  rw [h.accepted_eq target] at hi
  obtain ⟨hfound, hreceives⟩ := Option.filter_eq_some_iff.1 hi
  cases hcode : catalog.codeFor plan target with
  | error e =>
    rw [hcode] at hfound
    cases hfound
  | ok j =>
    rw [hcode] at hfound
    cases hfound
    exact ⟨rfl, hreceives⟩

/-- What the plan finds for an instance that accepts it is accepted. -/
theorem PlanOf.accepted_of_codeFor {type : ClassRef} {x : ExposedMember} {plan : MemberPlan}
    (h : catalog.PlanOf type x plan) {target : Instance} {i : Implementation}
    (hcode : catalog.codeFor plan target = .ok i)
    (hreceives : catalog.receives i.owner target.runtimeClass = true) :
    catalog.accepted type x target.runtimeClass = some i := by
  rw [h.accepted_eq target, hcode]
  exact Option.filter_eq_some_iff.2 ⟨rfl, hreceives⟩

/-! ## Arguments -/

/-- A call without arguments converts to the defaults. -/
theorem takeArguments_nil (catalog : Catalog) (r : Reentry) (intakes : List Intake) (w : World) :
    catalog.takeArguments r intakes [] w = some (.ok (intakes.map Intake.missing), w) := by
  induction intakes with
  | nil => rfl
  | cons intake intakes ih =>
    cases intake with
    | converted type =>
      have hdefault : catalog.toNative r type .undefined w = some (.ok type.default, w) := by
        rw [toNative_of_nullish catalog r type rfl, pure_apply]
      exact (bind_ok hdefault _).trans (bind_ok ih _)
    | rest => exact bind_ok ih _

/-- The arguments for parameters are those for the fixed ones, and one array of all that remain. -/
theorem takeArguments_params (catalog : Catalog) (r : Reentry) {params : List Param}
    (h : RestLast params) (args : List ScriptValue) :
    catalog.takeArguments r (params.map Param.intake) args = (do
      let natives ← catalog.takeArguments r ((fixedTypes params).map Intake.converted) args
      return natives ++ if takesRest params then
        [.array ((args.drop (fixedTypes params).length).map .script)] else []) := by
  induction params generalizing args with
  | nil => rfl
  | cons p params ih =>
    rcases h.cases_cons with ⟨name, rfl, rfl⟩ | ⟨name, type, rfl, hrest, htakes⟩
    · rfl
    · have hdrop : args.tail.drop (fixedTypes params).length =
          args.drop (fixedTypes (.fixed name type :: params)).length := List.drop_tail
      rw [htakes]
      show (catalog.toNative r type _ >>= fun value =>
        catalog.takeArguments r (params.map Param.intake) args.tail >>= _) =
          (catalog.toNative r type _ >>= fun value => _) >>= _
      rw [ih hrest, hdrop, bind_assoc]
      refine bind_congr fun value => ?_
      rw [bind_assoc, bind_assoc]
      rfl

/-- The argument for a fixed parameter is the one at its place, or undefined. -/
theorem takeArguments_fixed (catalog : Catalog) (r : Reentry) (types : List NativeType)
    (args : List ScriptValue) :
    catalog.takeArguments r (types.map Intake.converted) args =
      types.zipIdx.mapM fun (type, i) => catalog.toNative r type (args.getD i .undefined) := by
  suffices ∀ k, catalog.takeArguments r (types.map Intake.converted) (args.drop k) =
      (types.zipIdx k).mapM fun (type, i) => catalog.toNative r type (args.getD i .undefined) from
    this 0
  induction types with
  | nil => exact fun _ => rfl
  | cons type types ih =>
    intro k
    rw [List.zipIdx_cons, List.mapM_cons, ← ih (k + 1), ← List.tail_drop]
    show _ = catalog.toNative r type (args.getD k .undefined) >>= _
    rw [← headD_drop]
    rfl

/-- The functions of an event take one handler of its shape. -/
theorem PlanOf.exists_event {type : ClassRef} {x : ExposedMember} {plan : MemberPlan}
    (h : catalog.PlanOf type x plan) (hrole : x.role = .subscribe ∨ x.role = .unsubscribe) :
    ∃ event, catalog.event? x.declaring x.member = some event ∧
      plan.adapter = ⟨[.converted (.callable event.handler)], .discarded⟩ := by
  obtain ⟨⟨types, hsignature⟩, -⟩ := h.eq
  unfold memberSignature at hsignature
  cases hevent : catalog.event? x.declaring x.member with
  | none => rcases hrole with hrole | hrole <;> rw [hrole, hevent] at hsignature <;> cases hsignature
  | some event =>
    refine ⟨event, rfl, ?_⟩
    rcases hrole with hrole | hrole <;> rw [hrole, hevent] at hsignature <;>
      exact (Prod.mk.inj (Except.ok.inj hsignature)).1.symm

/-- Defaults are arguments for the code of a member. -/
theorem PlanOf.exists_codeArguments {type : ClassRef} {x : ExposedMember} {plan : MemberPlan}
    (h : catalog.PlanOf type x plan) :
    ∃ given, catalog.codeArguments plan.role (plan.adapter.intakes.map Intake.missing) =
      .ok given := by
  -- An event takes one handler, and the default of a callable is no handler.
  have hevent : x.role = .subscribe ∨ x.role = .unsubscribe → plan.role = x.role →
      ∃ given, catalog.codeArguments plan.role (plan.adapter.intakes.map Intake.missing) =
        .ok given := by
    intro hrole hplan
    obtain ⟨event, -, hadapter⟩ := h.exists_event hrole
    rw [hplan, hadapter]
    rcases hrole with hrole | hrole <;> rw [hrole] <;> exact ⟨_, rfl⟩
  have hrole : plan.role = x.role := h.eq.2.2.1
  cases hx : x.role with
  | method =>
    rw [hrole, hx]
    exact ⟨_, rfl⟩
  | getter =>
    rw [hrole, hx]
    exact ⟨_, rfl⟩
  | setter =>
    rw [hrole, hx]
    exact ⟨_, rfl⟩
  | subscribe => exact hevent (.inl hx) hrole
  | unsubscribe => exact hevent (.inr hx) hrole

/-! ## Calls -/

variable {r : Reentry} {w : World}

/-- Running a member finds its code, then its arguments, then runs it. -/
theorem runMember_eq (catalog : Catalog) (r : Reentry) (plan : MemberPlan) (target : Instance)
    (natives : List NativeValue) :
    catalog.runMember r plan target natives = (do
      let i ← .ofExcept (catalog.codeFor plan target)
      let given ← .ofExcept (catalog.codeArguments plan.role natives)
      plan.role.result <$>
        (catalog.runImplementation r i target given).mapError (Error.ofHost plan.member)) := by
  unfold runMember codeArguments
  refine bind_congr fun i => ?_
  cases plan.role with
  | method => exact (id_map _).symm
  | getter => exact (id_map _).symm
  | setter =>
    rw [ofExcept_ok_bind, map_eq_pure_bind]
    rfl
  | subscribe | unsubscribe =>
    cases catalog.handlerArgument natives with
    | error e => rfl
    | ok handler =>
      dsimp only [Except.map]
      rw [ofExcept_ok_bind, ofExcept_ok_bind, map_eq_pure_bind]
      rfl

/-- A call through a proxy, once its receiver is known. -/
theorem callMember_of_receiver {plan : MemberPlan} {this : ScriptValue} {target : Instance}
    (hthis : World.receiver? w this = some target) (args : List ScriptValue) :
    catalog.callMember r plan this args w = (do
      let natives ← catalog.takeArguments r plan.adapter.intakes args
      let i ← .ofExcept (catalog.codeFor plan target)
      let given ← .ofExcept (catalog.codeArguments plan.role natives)
      let v ← (catalog.runImplementation r i target given).mapError (Error.ofHost plan.member)
      catalog.giveResult plan.adapter.outcome (plan.role.result v) : Run Error ScriptValue) w := by
  have hreceiver : receiver plan this w = some (.ok target, w) := by
    rw [receiver_apply, hthis]
  rw [callMember_eq, bind_ok hreceiver, cross]
  refine congrFun (bind_congr fun natives => ?_) w
  rw [runMember_eq]
  simp only [bind_assoc, bind_map_left]

/-- A call through something that is no proxy fails. -/
theorem callMember_of_incompatible {plan : MemberPlan} {this : ScriptValue}
    (hthis : World.receiver? w this = none) (args : List ScriptValue) :
    catalog.callMember r plan this args w = some (.error (.script
      (plan.name ++ " called on an incompatible receiver (" ++ this.typeName ++ ")")), w) := by
  have hreceiver := receiver_apply plan this w
  rw [hthis] at hreceiver
  exact bind_error hreceiver _

/-- A call of code that is accepted runs it. -/
theorem callMember_of_accepted {type : ClassRef} {x : ExposedMember} {plan : MemberPlan}
    (h : catalog.PlanOf type x plan) {this : ScriptValue} {target : Instance}
    (hthis : World.receiver? w this = some target) {i : Implementation}
    (hi : catalog.accepted type x target.runtimeClass = some i) (args : List ScriptValue) :
    catalog.callMember r plan this args w = catalog.grant r plan i target args w := by
  obtain ⟨hcode, hreceives⟩ := h.codeFor_of_accepted hi
  rw [callMember_of_receiver hthis, hcode, grant]
  refine congrFun (bind_congr fun natives => ?_) w
  rw [ofExcept_ok_bind]
  refine bind_congr fun given => ?_
  rw [runImplementation, if_pos hreceives, mapError_bind, bind_assoc]
  rfl

/-- A call of code that is not accepted fails, and runs none. -/
theorem callMember_of_refused {type : ClassRef} {x : ExposedMember} {plan : MemberPlan}
    (h : catalog.PlanOf type x plan) {this : ScriptValue} {target : Instance}
    (hthis : World.receiver? w this = some target)
    (hnone : catalog.accepted type x target.runtimeClass = none) :
    ∃ error, ∀ args, catalog.callMember r plan this args w =
      catalog.refuse r plan error args w := by
  cases hcode : catalog.codeFor plan target with
  | error e =>
    refine ⟨fun _ => e, fun args => ?_⟩
    rw [callMember_of_receiver hthis, hcode]
    rfl
  | ok i =>
    have hreceives : ¬ catalog.receives i.owner target.runtimeClass = true := by
      intro hreceives
      rw [h.accepted_of_codeFor hcode hreceives] at hnone
      cases hnone
    -- The arguments for the code are checked before the instance is, and may fail first.
    let refused := Error.ofHost plan.member
      (.foreign ("receiver is not an instance of " ++ catalog.name i.owner))
    refine ⟨fun natives => match catalog.codeArguments plan.role natives with
      | .error e => e
      | .ok _ => refused, fun args => ?_⟩
    rw [callMember_of_receiver hthis, hcode, refuse]
    refine congrFun (bind_congr fun natives => ?_) w
    rw [ofExcept_ok_bind]
    cases catalog.codeArguments plan.role natives with
    | error e => rfl
    | ok given =>
      rw [ofExcept_ok_bind, runImplementation, if_neg hreceives]
      rfl

end Catalog

end ScriptBoundary
