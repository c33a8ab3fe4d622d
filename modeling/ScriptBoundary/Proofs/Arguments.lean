import ScriptBoundary.Proofs.Receivers
import ScriptBoundary.Session

/-!
# Calls run code on converted arguments

Members, published functions and constructors are called through adapters. Each call goes the same
way (`Catalog.Course`): the parameters take their values one after the other, and where one fails
the call fails with its error and no code runs; with a value for each parameter the code runs once;
and what it gives becomes the result of the call. So `Course` has one constructor for each of the
three ends of a call, and it is shown for any adapter (`cross_iff`) before it is shown for the three
sorts of functions, each with its own parameters and code (`Catalog.Entry`).

What a call gives is undefined where nothing is declared to be given back, and else the result as
the declared type (`Catalog.promised`). The getter of a property alone is planned without asking
whether its type is void (`Catalog.VoidGetter`).
-/

namespace ScriptBoundary

open Run

namespace Catalog

variable (catalog : Catalog) (r : Reentry)

/-! ## Arguments -/

/-- The value of the parameter at a place: the argument at that place converted, or undefined where
there is none; or all arguments from there on, as they are. -/
def takeParam (args : List ScriptValue) (place : Nat) : Param → Run Error NativeValue
  | .fixed _ type => catalog.toNative r type (args.getD place .undefined)
  | .rest _ => return .array ((args.drop place).map .script)

/-- Parameters, the first of them at a place, take their values one after the other. -/
inductive Taken (args : List ScriptValue) : Nat → List Param → World → List NativeValue → World →
    Prop where
  | nil {place : Nat} {w : World} : Taken args place [] w [] w
  | cons {place : Nat} {p : Param} {params : List Param} {v : NativeValue}
      {natives : List NativeValue} {w w₁ w₂ : World}
      (hfirst : catalog.takeParam r args place p w = some (.ok v, w₁))
      (hrest : Taken args (place + 1) params w₁ natives w₂) :
      Taken args place (p :: params) w (v :: natives) w₂

variable {catalog r} {args : List ScriptValue} {place : Nat} {params : List Param}
  {natives : List NativeValue} {w w' : World}

/-- The first parameter takes what is at its place, the others what comes after it. -/
theorem takeArguments_cons (p : Param) :
    catalog.takeArguments r ((p :: params).map Param.intake) (args.drop place) = (do
      let v ← catalog.takeParam r args place p
      let natives ← catalog.takeArguments r (params.map Param.intake) (args.drop (place + 1))
      return v :: natives) := by
  cases p with
  | fixed name type =>
    rw [takeParam, ← headD_drop, ← List.tail_drop]
    rfl
  | rest name =>
    rw [takeParam, ← List.tail_drop, pure_bind]
    rfl

/-- Arguments convert exactly where the parameters take their values in turn. -/
theorem takeArguments_ok_iff :
    catalog.takeArguments r (params.map Param.intake) (args.drop place) w = some (.ok natives, w') ↔
      catalog.Taken r args place params w natives w' := by
  induction params generalizing place natives w with
  | nil =>
    constructor
    · intro h
      cases h
      exact .nil
    · intro h
      cases h
      rfl
  | cons p params ih =>
    rw [takeArguments_cons]
    constructor
    · intro h
      obtain ⟨v, w₁, hfirst, h⟩ := bind_ok_cases h
      obtain ⟨natives, w₂, hrest, h⟩ := bind_ok_cases h
      cases h
      exact .cons hfirst (ih.1 hrest)
    · rintro (_ | ⟨hfirst, hrest⟩)
      rw [bind_ok hfirst, bind_ok (ih.2 hrest)]
      rfl

/-- Arguments fail to convert exactly where a parameter fails and all before it have taken their
values, and then with the error of that parameter. -/
theorem takeArguments_error_iff {e : Error} :
    catalog.takeArguments r (params.map Param.intake) (args.drop place) w = some (.error e, w') ↔
      ∃ before p after natives w₁, params = before ++ p :: after ∧
        catalog.Taken r args place before w natives w₁ ∧
        catalog.takeParam r args (place + before.length) p w₁ = some (.error e, w') := by
  induction params generalizing place w with
  | nil =>
    constructor
    · intro h
      cases h
    · rintro ⟨before, p, after, natives, w₁, hsplit, -⟩
      simp at hsplit
  | cons p params ih =>
    rw [takeArguments_cons]
    constructor
    · intro h
      rcases bind_cases h with ⟨e', hfirst, he⟩ | ⟨v, w₁, hfirst, h⟩
      · cases he
        exact ⟨[], p, params, [], w, rfl, .nil, hfirst⟩
      · rcases bind_cases h with ⟨e', hrest, he⟩ | ⟨natives, w₂, -, h⟩
        · cases he
          obtain ⟨before, q, after, natives, w₂, rfl, htaken, hfails⟩ := ih.1 hrest
          refine ⟨p :: before, q, after, v :: natives, w₂, rfl, .cons hfirst htaken, ?_⟩
          rw [List.length_cons, Nat.add_comm before.length 1, ← Nat.add_assoc]
          exact hfails
        · cases h
    · rintro ⟨before, q, after, natives, w₁, hsplit, htaken, hfails⟩
      cases htaken with
      | nil =>
        obtain ⟨rfl, rfl⟩ := List.cons.inj hsplit
        exact bind_error hfails _
      | @cons _ p' before v natives _ w₂ _ hfirst hrest =>
        obtain ⟨rfl, rfl⟩ := List.cons.inj hsplit
        rw [List.length_cons, Nat.add_comm before.length 1, ← Nat.add_assoc] at hfails
        rw [bind_ok hfirst]
        exact bind_error (ih.2 ⟨before, q, after, natives, w₁, rfl, hrest, hfails⟩) _

/-! ## One call -/

variable (catalog r) in
/-- How a call goes that hands the values of its parameters to native code and makes its result of
what the code gives. The code runs only once all parameters have their values, and then once. -/
inductive Course (params : List Param) (args : List ScriptValue)
    (native : List NativeValue → Run Error NativeValue) (give : NativeValue → Run Error ScriptValue)
    (w : World) : Except Error ScriptValue → World → Prop where
  /-- A parameter fails, the ones before it have taken their values, and the code does not run. -/
  | unconverted {before after : List Param} {p : Param} {natives : List NativeValue}
      {w₁ w' : World} {e : Error} (hsplit : params = before ++ p :: after)
      (htaken : catalog.Taken r args 0 before w natives w₁)
      (hfails : catalog.takeParam r args before.length p w₁ = some (.error e, w')) :
      Course params args native give w (.error e) w'
  /-- The code runs on a value for each parameter, and fails. -/
  | failed {natives : List NativeValue} {w₁ w' : World} {e : Error}
      (htaken : catalog.Taken r args 0 params w natives w₁)
      (hruns : native natives w₁ = some (.error e, w')) :
      Course params args native give w (.error e) w'
  /-- The code runs on a value for each parameter, and its result is given. -/
  | returned {natives : List NativeValue} {w₁ w₂ w' : World} {v : NativeValue}
      {out : Except Error ScriptValue} (htaken : catalog.Taken r args 0 params w natives w₁)
      (hruns : native natives w₁ = some (.ok v, w₂)) (hgives : give v w₂ = some (out, w')) :
      Course params args native give w out w'

variable {native native' : List NativeValue → Run Error NativeValue}
  {give : NativeValue → Run Error ScriptValue} {out : Except Error ScriptValue}

/-- Every call through an adapter takes this course. -/
theorem cross_iff {a : Adapter} (hintakes : a.intakes = params.map Param.intake) :
    catalog.cross r a args native w = some (out, w') ↔
      catalog.Course r params args native (catalog.giveResult a.outcome) w out w' := by
  have hstart : catalog.takeArguments r a.intakes args =
      catalog.takeArguments r (params.map Param.intake) (args.drop 0) := by
    rw [hintakes, List.drop_zero]
  rw [cross, hstart]
  constructor
  · intro h
    rcases bind_cases h with ⟨e, hconversion, rfl⟩ | ⟨natives, w₁, hconversion, h⟩
    · obtain ⟨before, p, after, natives, w₁, hsplit, htaken, hfails⟩ :=
        takeArguments_error_iff.1 hconversion
      rw [Nat.zero_add] at hfails
      exact .unconverted hsplit htaken hfails
    · have htaken := takeArguments_ok_iff.1 hconversion
      rcases bind_cases h with ⟨e, hruns, rfl⟩ | ⟨v, w₂, hruns, hgives⟩
      · exact .failed htaken hruns
      · exact .returned htaken hruns hgives
  · intro h
    cases h with
    | @unconverted before after p natives w₁ _ e hsplit htaken hfails =>
      refine bind_error (takeArguments_error_iff.2 ?_) _
      rw [← Nat.zero_add before.length] at hfails
      exact ⟨before, p, after, natives, w₁, hsplit, htaken, hfails⟩
    | failed htaken hruns =>
      rw [bind_ok (takeArguments_ok_iff.2 htaken)]
      exact bind_error hruns _
    | returned htaken hruns hgives =>
      rw [bind_ok (takeArguments_ok_iff.2 htaken), bind_ok hruns]
      exact hgives

/-- Where what is given depends only on a part of what the code gives, that part may be taken at
once. -/
theorem course_map_iff {f : NativeValue → NativeValue}
    (hnative : ∀ natives w₁, catalog.Taken r args 0 params w natives w₁ →
      native natives = f <$> native' natives) (hgive : ∀ v, give (f v) = give v) :
    catalog.Course r params args native give w out w' ↔
      catalog.Course r params args native' give w out w' := by
  constructor
  · intro h
    cases h with
    | unconverted hsplit htaken hfails => exact .unconverted hsplit htaken hfails
    | failed htaken hruns =>
      rw [hnative _ _ htaken] at hruns
      obtain ⟨e | v, hcode, he⟩ := map_eq_some_iff.1 hruns
      · cases he
        exact .failed htaken hcode
      · cases he
    | returned htaken hruns hgives =>
      rw [hnative _ _ htaken] at hruns
      obtain ⟨e | v, hcode, hv⟩ := map_eq_some_iff.1 hruns
      · cases hv
      · cases hv
        rw [hgive] at hgives
        exact .returned htaken hcode hgives
  · intro h
    cases h with
    | unconverted hsplit htaken hfails => exact .unconverted hsplit htaken hfails
    | @failed natives w₁ _ e htaken hcode =>
      have hruns : native natives w₁ = some (.error e, w') := by
        rw [hnative _ _ htaken]
        exact map_eq_some_iff.2 ⟨.error e, hcode, rfl⟩
      exact .failed htaken hruns
    | @returned natives w₁ w₂ _ v _ htaken hcode hgives =>
      have hruns : native natives w₁ = some (.ok (f v), w₂) := by
        rw [hnative _ _ htaken]
        exact map_eq_some_iff.2 ⟨.ok v, hcode, rfl⟩
      rw [← hgive] at hgives
      exact .returned htaken hruns hgives

/-- A call whose errors are reported as they are. -/
theorem course_iff_unreported :
    catalog.Course r params args native give w out w' ↔
      ∃ outcome, catalog.Course r params args native give w outcome w' ∧
        out = outcome.mapError id := by
  have hid : ∀ outcome : Except Error ScriptValue, outcome.mapError id = outcome := by
    intro outcome
    cases outcome <;> rfl
  simp only [hid, exists_eq_right']

/-! ## What functions call -/

/-- What a function calls on the native side: the parameters and the declared type of what it gives
back, what becomes of the result, the code that runs on the native arguments, and the form in which
an error of the call is reported. -/
structure Callee where
  params : List Param
  result : NativeType
  outcome : Outcome
  code : List NativeValue → Run Error NativeValue
  report : Error → Error

/-- What an exposed member takes and gives back, as its class declares it. -/
def declared? (catalog : Catalog) (x : ExposedMember) : Option (List Param × NativeType) :=
  match x.role with
  | .method => (catalog.method? x.declaring x.member).map fun d => (d.params, d.result)
  | .getter => (catalog.property? x.declaring x.member).map fun d => ([], d.type)
  | .setter => (catalog.property? x.declaring x.member).map fun d =>
      ([.fixed x.member d.type], .void)
  | .subscribe | .unsubscribe => (catalog.event? x.declaring x.member).map fun d =>
      ([.fixed x.member (.callable d.handler)], .void)

variable (catalog r) in
/-- Runs the code that a plan reaches on an instance, on the native arguments as they are. -/
def runReached (plan : MemberPlan) (target : Instance) (natives : List NativeValue) :
    Run Error NativeValue := do
  let i ← .ofExcept (catalog.codeFor plan target)
  (catalog.runImplementation r i target natives).mapError (Error.ofHost plan.member)

variable (catalog r) in
/-- Makes an instance by the code of a constructor, on the native arguments as they are. -/
def runConstruct (c : ClassRef) (code : MemberCode) (natives : List NativeValue) :
    Run Error NativeValue :=
  ((r.runConstructor c (catalog.made c) code natives).mapError
    fun e => .construction (.failed (catalog.name c) e)).map .object

variable (catalog r) in
/-- What a call of a function, with a receiver and a number of arguments, calls on the native side:
the code of a member on the instance behind the receiver, a published callable, or a constructor. -/
inductive Entry (w : World) (this : ScriptValue) (arity : Nat) : FunctionBody → Callee → Prop where
  | member {type : ClassRef} {x : ExposedMember} {plan : MemberPlan} {params : List Param}
      {result : NativeType} {target : Instance} (hplan : catalog.PlanOf type x plan)
      (hdeclared : catalog.declared? x = some (params, result))
      (hthis : World.receiver? w this = some target) :
      Entry w this arity (.member plan)
        ⟨params, result, plan.adapter.outcome, catalog.runReached r plan target, id⟩
  | face (c : Callable) :
      Entry w this arity (.face c)
        ⟨c.shape.params, c.shape.result, (Adapter.ofShape c.shape).outcome,
          fun natives => (r.invoke c natives).mapError (Error.ofHost c.shape.name), id⟩
  /-- A conversion that fails concerns an argument of the constructor. -/
  | construct {d : Definition} {k : ConstructorDecl} {plan : ConstructorPlan}
      (hplan : catalog.planConstructor d.declaration k = .ok plan)
      (hchosen : d.constructor? arity = some plan) :
      Entry w this arity (.construct d)
        ⟨k.params, .object d.declaration, plan.adapter.outcome,
          catalog.runConstruct r d.declaration k.code,
          constructionError (catalog.name d.declaration)⟩

/-- What a result of a declared type becomes: undefined where nothing is given back. -/
def promised (catalog : Catalog) (result : NativeType) (v : NativeValue) : Run Error ScriptValue :=
  if result.isVoid then return .undefined else catalog.toScriptAs result v

/-- The getter of a property that is declared to be void. -/
def VoidGetter (body : FunctionBody) (result : NativeType) : Prop :=
  result.isVoid = true ∧ ∃ plan, body = .member plan ∧ plan.role = .getter

/-- A parameter that is a handler takes nothing or a callable. -/
theorem gives_handler (shape : Shape) (s : ScriptValue) :
    (catalog.toNative r (.callable shape) s).Gives
      fun v => catalog.handlerArgument [v] = .ok v := by
  unfold toNative
  split
  · exact .pure rfl
  · cases s with
    | function f => exact .bind_any fun c => .pure rfl
    | _ => exact .throw _

/-! ## Members -/

variable {type : ClassRef} {x : ExposedMember} {plan : MemberPlan} {result : NativeType}

/-- The adapter of a plan is that of the declared signature of its member, but for a getter, whose
result is converted whatever its type. -/
theorem PlanOf.adapter_eq (h : catalog.PlanOf type x plan)
    (hdeclared : catalog.declared? x = some (params, result)) :
    plan.adapter.intakes = params.map Param.intake ∧
      plan.adapter.outcome = if x.role = .getter then .checked result
        else (Adapter.ofSignature params result).outcome := by
  obtain ⟨⟨types, hsignature⟩, -⟩ := h.eq
  obtain ⟨name, member, role, declaring⟩ := x
  unfold memberSignature at hsignature
  cases role with
  | method | getter | setter | subscribe | unsubscribe =>
    obtain ⟨d, hd, hsides⟩ := Option.map_eq_some_iff.1 hdeclared
    cases hsides
    simp only [hd, Option.map_some, Except.ok.injEq, Prod.mk.injEq] at hsignature
    rw [← hsignature.1]
    exact ⟨rfl, rfl⟩

/-- The code of a member takes the native values of the parameters as they are. -/
theorem codeArguments_of_taken (hdeclared : catalog.declared? x = some (params, result))
    (htaken : catalog.Taken r args 0 params w natives w') :
    catalog.codeArguments x.role natives = .ok natives := by
  have hhandler : ∀ {name : String} {shape : Shape},
      catalog.Taken r args 0 [.fixed name (.callable shape)] w natives w' →
        (catalog.handlerArgument natives).map ([·]) = .ok natives := by
    rintro name shape (_ | ⟨hfirst, _ | _⟩)
    rw [gives_handler shape _ hfirst]
    rfl
  obtain ⟨name, member, role, declaring⟩ := x
  cases role with
  | method => rfl
  | getter =>
    obtain ⟨d, -, hsides⟩ := Option.map_eq_some_iff.1 hdeclared
    cases hsides
    cases htaken
    rfl
  | setter =>
    obtain ⟨d, -, hsides⟩ := Option.map_eq_some_iff.1 hdeclared
    cases hsides
    obtain _ | ⟨-, _ | _⟩ := htaken
    rfl
  | subscribe | unsubscribe =>
    obtain ⟨d, -, hsides⟩ := Option.map_eq_some_iff.1 hdeclared
    cases hsides
    exact hhandler htaken

/-- On values of its parameters, the member of a plan runs the code that the plan reaches. -/
theorem PlanOf.runMember_of_taken (h : catalog.PlanOf type x plan)
    (hdeclared : catalog.declared? x = some (params, result)) (target : Instance)
    (htaken : catalog.Taken r args 0 params w natives w') :
    catalog.runMember r plan target natives =
      plan.role.result <$> catalog.runReached r plan target natives := by
  have hrole : plan.role = x.role := h.eq.2.2.1
  rw [runMember_eq, hrole, codeArguments_of_taken hdeclared htaken, runReached, map_bind]
  refine bind_congr fun i => ?_
  rw [ofExcept_ok_bind]

/-- Code of setters and events gives nothing that a call would give back. -/
theorem PlanOf.giveResult_result (h : catalog.PlanOf type x plan)
    (hdeclared : catalog.declared? x = some (params, result)) (v : NativeValue) :
    catalog.giveResult plan.adapter.outcome (plan.role.result v) =
      catalog.giveResult plan.adapter.outcome v := by
  have hrole : plan.role = x.role := h.eq.2.2.1
  have houtcome := (h.adapter_eq hdeclared).2
  obtain ⟨name, member, role, declaring⟩ := x
  rw [hrole, houtcome]
  cases role with
  | method | getter => rfl
  | setter | subscribe | unsubscribe =>
    obtain ⟨d, -, hsides⟩ := Option.map_eq_some_iff.1 hdeclared
    cases hsides
    rfl

/-- A call of a member on an instance takes the course of a call of the code that its plan
reaches. -/
theorem PlanOf.callMember_iff (h : catalog.PlanOf type x plan)
    (hdeclared : catalog.declared? x = some (params, result)) {this : ScriptValue}
    {target : Instance} (hthis : World.receiver? w this = some target) :
    catalog.callMember r plan this args w = some (out, w') ↔
      catalog.Course r params args (catalog.runReached r plan target)
        (catalog.giveResult plan.adapter.outcome) w out w' := by
  have hreceiver : receiver plan this w = some (.ok target, w) := by
    rw [receiver_apply, hthis]
  rw [callMember_eq, bind_ok hreceiver, cross_iff (h.adapter_eq hdeclared).1]
  exact course_map_iff (fun natives w₁ htaken => h.runMember_of_taken hdeclared target htaken)
    (h.giveResult_result hdeclared)

/-! ## Constructors -/

/-- The plan of a constructor has the adapter of its parameters and gives an instance. -/
theorem eq_of_planConstructor {c : ClassRef} {k : ConstructorDecl} {plan : ConstructorPlan}
    (h : catalog.planConstructor c k = .ok plan) :
    plan = ⟨k.params, .ofSignature k.params (.object c), k.code⟩ := by
  obtain ⟨_, -, h⟩ := exists_of_bind_eq_ok h
  cases h
  rfl

/-- A construction takes the course of a call of the constructor that is chosen, with its errors
reported as those of a construction. -/
theorem construct_iff {d : Definition} {k : ConstructorDecl} {plan : ConstructorPlan}
    (hplan : catalog.planConstructor d.declaration k = .ok plan)
    (hchosen : d.constructor? args.length = some plan) :
    catalog.construct r d args w = some (out, w') ↔
      ∃ outcome, catalog.Course r k.params args (catalog.runConstruct r d.declaration k.code)
        (catalog.giveResult plan.adapter.outcome) w outcome w' ∧
          out = outcome.mapError (constructionError (catalog.name d.declaration)) := by
  have heq := eq_of_planConstructor hplan
  have hintakes : plan.adapter.intakes = k.params.map Param.intake := by
    rw [heq]
    rfl
  have hcross : catalog.construct r d args =
      (catalog.cross r plan.adapter args (catalog.runConstruct r d.declaration k.code)).mapError
        (constructionError (catalog.name d.declaration)) := by
    rw [construct_eq, hchosen, heq]
    rfl
  rw [hcross]
  constructor
  · intro h
    obtain ⟨outcome, hrun, hout⟩ := mapError_cases h
    exact ⟨outcome, (cross_iff hintakes).1 hrun, hout⟩
  · rintro ⟨outcome, hcourse, rfl⟩
    exact mapError_some ((cross_iff hintakes).2 hcourse) _

/-! ## All functions -/

/-- The adapter of a signature gives what is promised. -/
theorem giveResult_ofSignature (params : List Param) (result : NativeType) (v : NativeValue) :
    catalog.giveResult (Adapter.ofSignature params result).outcome v =
      catalog.promised result v := by
  unfold Adapter.ofSignature promised
  cases result.isVoid <;> rfl

/-- Converting whatever the code gives is what is promised of a type that is not void. -/
theorem giveResult_checked_iff {result : NativeType} :
    (∀ v, catalog.giveResult (.checked result) v = catalog.promised result v) ↔
      result.isVoid = false := by
  constructor
  · intro hall
    refine Bool.eq_false_iff.2 fun hvoid => ?_
    -- As void, anything is handed on, such as a truth value.
    have htrue := congrFun (hall (.bool true)) default
    rw [promised, if_pos hvoid] at htrue
    cases result <;> cases hvoid
    cases htrue
  · intro hvoid v
    rw [promised, hvoid]
    rfl

/-- What a call gives is what was promised, unless the function is the getter of a property that is
declared to be void: that one gives the result of its code. -/
theorem Entry.gives_promised_iff {this : ScriptValue} {arity : Nat} {body : FunctionBody}
    {callee : Callee} (h : catalog.Entry r w this arity body callee) :
    (∀ v, catalog.giveResult callee.outcome v = catalog.promised callee.result v) ↔
      ¬ VoidGetter body callee.result := by
  cases h with
  | @member type x plan params result target hplan hdeclared _ =>
    have hrole : plan.role = x.role := hplan.eq.2.2.1
    have houtcome := (hplan.adapter_eq hdeclared).2
    dsimp only
    rw [houtcome]
    by_cases hgetter : x.role = .getter
    · rw [if_pos hgetter, giveResult_checked_iff, ← Bool.not_eq_true]
      refine not_congr ⟨fun hvoid => ?_, fun hvoid => hvoid.1⟩
      exact ⟨hvoid, plan, rfl, hrole.trans hgetter⟩
    · rw [if_neg hgetter]
      refine ⟨fun _ => ?_, fun _ => giveResult_ofSignature params result⟩
      rintro ⟨-, plan', hbody, hgetter'⟩
      cases hbody
      exact hgetter (hrole.symm.trans hgetter')
  | face c =>
    refine ⟨fun _ => ?_, fun _ => giveResult_ofSignature c.shape.params c.shape.result⟩
    rintro ⟨-, plan, hbody, -⟩
    cases hbody
  | @construct d k plan hplan _ =>
    dsimp only
    rw [eq_of_planConstructor hplan]
    refine ⟨fun _ => ?_, fun _ => giveResult_ofSignature k.params (.object d.declaration)⟩
    rintro ⟨hvoid, -⟩
    cases hvoid

/-- While the exposer lives, calling the function of a member with a proxy as receiver, of a
published callable or of a constructor comes to an outcome exactly in the course of one call: the
code runs at most once, and only on one native value for each parameter, in order, each from the
argument at its place, or from all arguments that remain; where a parameter fails the code does not
run and the call fails with the error of the first that does. What a call gives is undefined where
nothing is declared to be given back and else the converted result, unless the function is the
getter of a property that is declared to be void. -/
theorem calls_convert_first {f : FunctionId} {this : ScriptValue} {callee : Callee}
    (halive : w.exposer.alive = true)
    (hentry : catalog.Entry r w this args.length (w.heap.function f).body callee) :
    (∀ out w', catalog.callFunction r f this args w = some (out, w') ↔
      ∃ outcome, catalog.Course r callee.params args callee.code
        (catalog.giveResult callee.outcome) w outcome w' ∧ out = outcome.mapError callee.report) ∧
    ((∀ v, catalog.giveResult callee.outcome v = catalog.promised callee.result v) ↔
      ¬ VoidGetter (w.heap.function f).body callee.result) := by
  refine ⟨fun out w' => ?_, hentry.gives_promised_iff⟩
  rw [callFunction, bind_ok (ofHeap_apply _ w)]
  generalize (w.heap.function f).body = body at hentry ⊢
  cases hentry with
  | member hplan hdeclared hthis =>
    refine Iff.trans ?_ course_iff_unreported
    dsimp only
    rw [bind_ok (requireAlive_of_alive halive)]
    exact hplan.callMember_iff hdeclared hthis
  | face c =>
    refine Iff.trans ?_ course_iff_unreported
    dsimp only
    rw [bind_ok (requireAlive_of_alive halive), callFace_eq]
    exact cross_iff rfl
  | construct hplan hchosen =>
    dsimp only
    rw [bind_ok (requireAlive_of_alive halive)]
    exact construct_iff hplan hchosen

/-- What adjusting a meter takes. -/
def adjustment : List Param := [.fixed "upwards" .bool, .fixed "lasting" .bool, .rest "notes"]

/-- A meter that can be adjusted, and whose reading is declared to be void. -/
def meters : Catalog where
  decls :=
    [{ (default : ClassDecl) with
        identity := ⟨1⟩, name := "Meter",
        methods := [⟨"adjust", adjustment, .bool, some (.function none),
          some fun _ args => .done (.ok (args.headD .null))⟩],
        properties := [⟨"reading", .void, some (.property none true), none,
          .readOnly fun _ _ => .done (.ok (.bool true))⟩] }]
  restsOn := by decide

/-- The plan for adjusting a meter. -/
def adjustPlan : MemberPlan where
  name := "adjust"
  member := "adjust"
  role := .method
  adapter := .ofSignature adjustment .bool
  bound := meters.implementation? ⟨0⟩ .method "adjust"

/-- The plan for reading a meter. -/
def readingPlan : MemberPlan where
  name := "reading"
  member := "reading"
  role := .getter
  adapter := ⟨[], .checked .void⟩
  bound := meters.implementation? ⟨0⟩ .getter "reading"

/-- The step that wraps a meter. -/
def wrapMeter : Step := .create (.newInstance ⟨0⟩ fun t => .done (.ok (.object t)))

/-- The state once a meter is wrapped. -/
def metered : World where
  heap := {
    objects := #[.plain,
      ⟨"Object", [], none,
        [("adjust", .data (.function ⟨0⟩)), ("reading", .accessor (some ⟨1⟩) none)]⟩,
      ⟨"InstanceProxyMeter", [⟨1⟩], some ⟨1, ⟨0⟩⟩, []⟩]
    functions := #[⟨"adjust", .member adjustPlan⟩, ⟨"reading", .member readingPlan⟩] }
  instances := #[{}]
  exposer := {
    definitions := [(⟨1⟩,
      ⟨⟨0⟩, .bound, "InstanceProxyMeter", [adjustPlan, readingPlan], [], ⟨1⟩⟩)]
    builds := 1 }
  named := [("meter", .script (.object ⟨2⟩))]

/-- A meter is not adjusted where the second argument is no truth value, and then the call fails
with the error of that argument. -/
theorem meter_not_adjusted :
    meters.callFunction (meters.reentry 1) ⟨0⟩ (.object ⟨2⟩) [.bool true, .string "x", .null]
        metered = some (.error (.conversion (.typeMismatch "bool" "string")), metered) := by
  let args : List ScriptValue := [.bool true, .string "x", .null]
  have hplan : meters.PlanOf ⟨0⟩ ⟨"adjust", "adjust", .method, ⟨0⟩⟩ adjustPlan := ⟨[], rfl⟩
  have hentry : meters.Entry (meters.reentry 1) metered (.object ⟨2⟩) args.length
      (metered.heap.function ⟨0⟩).body ⟨adjustment, .bool, adjustPlan.adapter.outcome,
        meters.runReached (meters.reentry 1) adjustPlan ⟨1, ⟨0⟩⟩, id⟩ := .member hplan rfl rfl
  have hsplit : adjustment =
      [.fixed "upwards" .bool] ++ .fixed "lasting" .bool :: [.rest "notes"] := rfl
  have htaken : meters.Taken (meters.reentry 1) args 0 [.fixed "upwards" .bool] metered
      [.bool true] metered := .cons rfl .nil
  have hfails : meters.takeParam (meters.reentry 1) args 1 (.fixed "lasting" .bool) metered =
      some (.error (.conversion (.typeMismatch "bool" "string")), metered) := rfl
  refine ((calls_convert_first rfl hentry).1 _ _).2
    ⟨.error (.conversion (.typeMismatch "bool" "string")), ?_, rfl⟩
  exact .unconverted hsplit htaken hfails

/-- The reading of a meter is declared to be void, yet reading it gives what the code gives. -/
theorem void_reading_given : ∃ rep₁ rep,
    Session.report meters 0 (some "meter") wrapMeter (World.start {}) = some rep₁ ∧
    Session.report meters 1 none (.get (.readVariable "meter" fun v => .done (.ok v)) "reading")
      rep₁.world = some rep ∧
    (meters.property? ⟨0⟩ "reading").map (·.type) = some .void ∧
    rep.calls.map (·.call) = [.member ⟨0⟩ "reading" .getter ⟨1, ⟨0⟩⟩ []] ∧
    rep.outcome = .ok (.script (.bool true)) := by
  have hmade : ∃ rep₁, Session.report meters 0 (some "meter") wrapMeter (World.start {}) =
      some rep₁ ∧ rep₁.world = metered := ⟨_, rfl, rfl⟩
  obtain ⟨rep₁, hreport, hworld⟩ := hmade
  refine ⟨rep₁, ?_⟩
  rw [hworld]
  exact ⟨_, hreport, rfl, rfl, rfl, rfl⟩

end Catalog

end ScriptBoundary
