import Mathlib.Data.List.Find
import ScriptBoundary.Proofs.Origins

/-!
# Which constructor is taken

Scripts construct an instance by a call, with any number of arguments, and a plain object stands for
an instance that is constructed without any. Both ways look for a constructor. The call takes the
first one that accepts so many arguments. The plain object prefers one that has exactly so many
parameters, and takes a variadic one where there is none; and it hands over no arguments at all,
where a call gives a variadic constructor the array of what remains.

So the two ways differ, and `Catalog.constructs_alike_iff` says for which classes they do not.
-/

namespace ScriptBoundary

open Run

/-! ## First matches -/

section FirstMatches

variable {α : Type} {p q : α → Bool} {l : List α}

/-- The first match is where nothing before it matches. -/
theorem find?_eq_some_iff_split {a : α} : l.find? p = some a ↔
    ∃ before after, l = before ++ a :: after ∧ p a = true ∧ ∀ b ∈ before, p b = false := by
  rw [List.find?_eq_some_iff_append]
  simp only [Bool.not_eq_true']
  exact ⟨fun ⟨ha, before, after, hl, hbefore⟩ => ⟨before, after, hl, ha, hbefore⟩,
    fun ⟨before, after, hl, ha, hbefore⟩ => ⟨ha, before, after, hl, hbefore⟩⟩

/-- The first element that meets one of two conditions is the first that meets the preferred one,
where there is any, exactly when that has no element before it that meets the other. -/
theorem find?_or_eq_iff :
    l.find? (fun a => p a || q a) = (l.find? p <|> l.find? q) ↔
      ∀ before a after, l = before ++ a :: after → p a = true → (∀ b ∈ before, p b = false) →
        ∀ b ∈ before, q b = false := by
  constructor
  · rintro h before a after rfl ha hbefore b hb
    rw [find?_eq_some_iff_split.2 ⟨before, after, rfl, ha, hbefore⟩] at h
    by_contra hq
    -- Then the first that meets either stands before the preferred one, which is not of its kind.
    have hsome : (before.find? fun x => p x || q x).isSome = true :=
      List.find?_isSome.2 ⟨b, hb, by rw [Bool.eq_true_of_not_eq_false hq, Bool.or_true]⟩
    obtain ⟨x, hx⟩ := Option.isSome_iff_exists.1 hsome
    rw [List.find?_append, hx] at h
    obtain rfl : x = a := Option.some.inj h
    rw [hbefore x (List.mem_of_find?_eq_some hx)] at ha
    cases ha
  · intro h
    induction l with
    | nil => rfl
    | cons x l ih =>
      cases hp : p x with
      | true => simp [hp]
      | false =>
        cases hq : q x with
        | true =>
          -- What is preferred would have this element before it.
          have hnone : l.find? p = none := by
            by_contra hsome
            obtain ⟨a, ha⟩ := Option.ne_none_iff_exists'.1 hsome
            obtain ⟨before, after, rfl, ha, hbefore⟩ := find?_eq_some_iff_split.1 ha
            have := h (x :: before) a after rfl ha (List.forall_mem_cons.2 ⟨hp, hbefore⟩) x
              List.mem_cons_self
            rw [hq] at this
            cases this
          simp [hp, hq, hnone]
        | false =>
          have hrest := ih fun before a after hl ha hbefore b hb =>
            h (x :: before) a after (congrArg (x :: ·) hl) ha
              (List.forall_mem_cons.2 ⟨hp, hbefore⟩) b (List.mem_cons_of_mem _ hb)
          simpa [hp, hq] using hrest

end FirstMatches

/-! ## Constructors -/

namespace ConstructorDecl

variable (k : ConstructorDecl)

/-- The last parameter takes all arguments that remain. -/
def isVariadic : Bool := takesRest k.params

/-- A constructor of exactly so many parameters. -/
def isExact (n : Nat) : Bool := k.params.length == n && !k.isVariadic

/-- A variadic constructor that gets by on so many arguments. -/
def isOpen (n : Nat) : Bool := k.isVariadic && k.params.length ≤ n + 1

/-- The plan of a constructor of a class. -/
def planned (c : ClassRef) : ConstructorPlan :=
  ⟨k.params, .ofSignature k.params (.object c), k.code⟩

end ConstructorDecl

/-- The constructor that a plan is for. -/
def ConstructorPlan.declared (plan : ConstructorPlan) : ConstructorDecl := ⟨plan.params, plan.code⟩

namespace Catalog

variable (catalog : Catalog)

/-- No variadic constructor stands before the first exact one for a number of arguments that it
accepts as well. -/
def ExactFirst (c : ClassRef) : Prop :=
  ∀ n before k after, (catalog.decl c).constructors = before ++ k :: after → k.isExact n = true →
    (∀ j ∈ before, j.isExact n = false) → ∀ j ∈ before, j.isOpen n = false

/-- A call and a plain object take the same constructor for every number of arguments, or none, and
without arguments the constructor is handed none either way. -/
structure ConstructsAlike (d : Definition) : Prop where
  selects : ∀ n, (d.constructor? n).map ConstructorPlan.declared =
    catalog.constructorFor d.declaration n
  hands : ∀ plan, d.constructor? 0 = some plan → ∀ r w,
    catalog.takeArguments r plan.adapter.intakes [] w = some (.ok [], w)

/-- A new instance by the code of a constructor of a class. -/
def constructed (r : Reentry) (c : ClassRef) (code : MemberCode) (natives : List NativeValue) :
    Run Error Instance :=
  (r.runConstructor c (catalog.made c) code natives).mapError fun e =>
    .construction (.failed (catalog.name c) e)

/-- A new instance as a plain object fills it. -/
def filled (r : Reentry) (o : ObjectId) (target : Instance) : Run Error NativeValue := do
  let members ← catalog.resolve target.runtimeClass
  (catalog.fillables target.runtimeClass members).forM (catalog.fill r o target)
  return .object target

/-! ## Selections -/

/-- A plan accepts as many arguments as its constructor does. -/
theorem accepts_eq (plan : ConstructorPlan) (n : Nat) :
    plan.accepts n = (plan.declared.isExact n || plan.declared.isOpen n) := by
  unfold ConstructorPlan.accepts ConstructorDecl.isExact ConstructorDecl.isOpen
    ConstructorDecl.isVariadic takesRest ConstructorPlan.declared
  cases plan.params.getLast?.any Param.isRest <;> simp [BEq.comm]

/-- A plain object takes the first exact constructor, else the first open one. -/
theorem constructorFor_eq {c : ClassRef}
    (h : ∀ k ∈ (catalog.decl c).constructors, RestLast k.params) (n : Nat) :
    catalog.constructorFor c n = ((catalog.decl c).constructors.find? (·.isExact n) <|>
      (catalog.decl c).constructors.find? (·.isOpen n)) := by
  unfold constructorFor
  dsimp only
  rw [List.find?_congr fun k hk => ?_]
  · rfl
  · rw [ConstructorDecl.isExact, ConstructorDecl.isVariadic, (h k hk).any_isRest]

variable {catalog}

/-- The constructors of the definition of a class are those of the class. -/
theorem constructors_of_plans {c : ClassRef} {members : List ExposedMember}
    {plans : List MemberPlan} {constructors : List ConstructorPlan} {mentioned : List ClassRef}
    (hclass : catalog.isInterface c = false)
    (h : catalog.plans c members = .ok (plans, constructors, mentioned)) :
    constructors = (catalog.decl c).constructors.map (·.planned c) := by
  have hmode : catalog.mode c = .bound := by rw [mode, hclass]; rfl
  obtain ⟨_, -, h⟩ := exists_of_bind_eq_ok h
  rw [hmode] at h
  obtain ⟨planned, hplanned, h⟩ := exists_of_bind_eq_ok h
  cases h
  obtain ⟨pairs, hctors, rfl, hpairs⟩ := exists_pairs_of_mapM_eq_ok hplanned
  rw [hctors, List.map_map]
  refine List.map_congr_left fun p hp => ?_
  obtain ⟨_, -, hplan⟩ := exists_of_bind_eq_ok (hpairs p hp)
  exact (Except.ok.inj hplan).symm

section Kept

variable {settings : Settings} {w : World} {t : TypeId} {d : Definition}

/-- The definition that a session keeps for a class has its constructors. -/
theorem constructors_of_visits (hw : Session.Visits catalog (World.start settings) w)
    (hd : w.exposer.definition? t = some d) (hclass : catalog.isInterface d.declaration = false) :
    d.constructors = (catalog.decl d.declaration).constructors.map (·.planned d.declaration) := by
  obtain ⟨-, _, _, -, hmade, -⟩ := traced_of_visits hw t d hd
  obtain ⟨_, hplanned⟩ := hmade.planned
  exact constructors_of_plans hclass hplanned

end Kept

variable {d : Definition}

/-- A call takes the first constructor that is exact or open for the number of arguments. -/
theorem constructor?_eq
    (hd : d.constructors =
      (catalog.decl d.declaration).constructors.map (·.planned d.declaration)) (n : Nat) :
    d.constructor? n = ((catalog.decl d.declaration).constructors.find? fun k =>
      k.isExact n || k.isOpen n).map (·.planned d.declaration) := by
  rw [Definition.constructor?, hd, List.find?_map]
  exact congrArg _ (List.find?_congr fun k _ => accepts_eq _ n)

/-- A call and a plain object take the same constructors exactly when exact ones come first. -/
theorem selects_iff
    (hd : d.constructors =
      (catalog.decl d.declaration).constructors.map (·.planned d.declaration))
    (hrest : ∀ k ∈ (catalog.decl d.declaration).constructors, RestLast k.params) :
    (∀ n, (d.constructor? n).map ConstructorPlan.declared =
      catalog.constructorFor d.declaration n) ↔ catalog.ExactFirst d.declaration := by
  have hselect : ∀ n, (d.constructor? n).map ConstructorPlan.declared =
      (catalog.decl d.declaration).constructors.find? fun k => k.isExact n || k.isOpen n := by
    intro n
    rw [constructor?_eq hd, Option.map_map]
    exact congrFun Option.map_id _
  simp only [hselect, constructorFor_eq catalog hrest, find?_or_eq_iff]
  rfl

/-- Where no constructor is variadic, exact ones come first. -/
theorem exactFirst_of_fixed {c : ClassRef}
    (h : ∀ k ∈ (catalog.decl c).constructors, k.isVariadic = false) : catalog.ExactFirst c := by
  intro n before k after hctors hk hbefore j hj
  have hfixed : j.isVariadic = false := h j (hctors ▸ List.mem_append_left _ hj)
  rw [ConstructorDecl.isOpen, hfixed, Bool.false_and]

/-! ## Runs -/

/-- A call without arguments hands over none exactly when the constructor that it takes has no
parameters. -/
theorem hands_iff
    (hd : d.constructors =
      (catalog.decl d.declaration).constructors.map (·.planned d.declaration)) :
    (∀ plan, d.constructor? 0 = some plan → ∀ r w,
      catalog.takeArguments r plan.adapter.intakes [] w = some (.ok [], w)) ↔
      ∀ plan, d.constructor? 0 = some plan → plan.declared.params = [] := by
  refine forall₂_congr fun plan hplan => ?_
  obtain ⟨k, -, rfl⟩ := List.mem_map.1 (hd ▸ List.mem_of_find?_eq_some hplan)
  have hnone : (k.params.map Param.intake).map Intake.missing = [] ↔ k.params = [] := by
    rw [List.map_eq_nil_iff, List.map_eq_nil_iff]
  constructor
  · intro h
    have hrun := h (catalog.reentry 0) default
    rw [takeArguments_nil] at hrun
    exact hnone.1 (Except.ok.inj (Prod.mk.inj (Option.some.inj hrun)).1)
  · intro h r w
    rw [takeArguments_nil]
    exact congrArg (fun natives => some (Except.ok natives, w)) (hnone.2 h)

/-- A call takes its arguments for the constructor, which makes the instance that is wrapped. -/
theorem construct_of_some {r : Reentry} {k : ConstructorDecl} (args : List ScriptValue)
    (hk : d.constructor? args.length = some (k.planned d.declaration)) :
    catalog.construct r d args = (do
      let natives ← catalog.takeArguments r (k.params.map Param.intake) args
      let target ← catalog.constructed r d.declaration k.code natives
      catalog.toScriptAs (.object d.declaration) (.object target)).mapError
        (constructionError (catalog.name d.declaration)) := by
  rw [construct_eq, hk]
  refine congrArg (Run.mapError _) (bind_congr fun natives => ?_)
  funext w
  show ((catalog.constructed r d.declaration k.code natives w).bind _).bind _ =
    (catalog.constructed r d.declaration k.code natives w).bind _
  rcases catalog.constructed r d.declaration k.code natives w with _ | ⟨_ | target, w'⟩ <;> rfl

/-- A plain object takes no arguments for the constructor, which makes the instance that is filled.
-/
theorem constructFromPlain_of_some {r : Reentry} {o : ObjectId} {c : ClassRef} {k : ConstructorDecl}
    (hclass : catalog.isInterface c = false) (hk : catalog.constructorFor c 0 = some k) :
    catalog.constructFromPlain r o c =
      catalog.constructed r c k.code [] >>= catalog.filled r o := by
  unfold constructFromPlain
  rw [hclass, hk]
  rfl

/-- Without a constructor both ways fail and leave the state. -/
theorem constructs_none {r : Reentry} {o : ObjectId} (w : World)
    (hclass : catalog.isInterface d.declaration = false) (hnone : d.constructor? 0 = none)
    (hnone' : catalog.constructorFor d.declaration 0 = none) :
    catalog.construct r d [] w =
        some (.error (.construction (.noMatchingConstructor (catalog.name d.declaration) 0)), w) ∧
      catalog.constructFromPlain r o d.declaration w =
        some (.error (.construction (.noDefaultConstructor (catalog.name d.declaration))), w) := by
  constructor
  · unfold construct
    rw [List.length_nil, hnone]
    rfl
  · unfold constructFromPlain
    rw [hclass, hnone']
    rfl

/-- Where both ways construct alike, they run the same code without arguments; the call wraps the
instance, the plain object fills it. -/
theorem ConstructsAlike.runs (h : catalog.ConstructsAlike d)
    (hclass : catalog.isInterface d.declaration = false)
    (hd : d.constructors =
      (catalog.decl d.declaration).constructors.map (·.planned d.declaration))
    (r : Reentry) (o : ObjectId) (w : World) {k : ConstructorDecl}
    (hk : catalog.constructorFor d.declaration 0 = some k) :
    catalog.construct r d [] w = (catalog.constructed r d.declaration k.code [] >>= fun target =>
        catalog.toScriptAs (.object d.declaration) (.object target)).mapError
          (constructionError (catalog.name d.declaration)) w ∧
      catalog.constructFromPlain r o d.declaration w =
        (catalog.constructed r d.declaration k.code [] >>= catalog.filled r o) w := by
  refine ⟨?_, by rw [constructFromPlain_of_some hclass hk]⟩
  obtain ⟨plan, hplan, hdeclared⟩ := Option.map_eq_some_iff.1 ((h.selects 0).trans hk)
  obtain ⟨k', -, rfl⟩ := List.mem_map.1 (hd ▸ List.mem_of_find?_eq_some hplan)
  obtain rfl : k' = k := hdeclared
  have htaken : catalog.takeArguments r (k'.params.map Param.intake) [] w = some (.ok [], w) :=
    h.hands _ hplan r w
  rw [construct_of_some [] hplan, mapError_bind, bind_ok (mapError_some htaken _)]

/-! ## Where both ways agree -/

/-- In every state of a session, for the definition that it keeps for a class whose constructors are
variadic in their last parameter at most: a call and a plain object take the same constructor for
every number of arguments and hand it nothing when there are none, exactly when exact constructors
stand before open ones and the constructor taken for no arguments has no parameters. Then both ways
run the same code without arguments, or both fail for want of a constructor. -/
theorem constructs_alike_iff {settings : Settings} {w : World} {t : TypeId} {d : Definition}
    (hw : Session.Visits catalog (World.start settings) w)
    (hd : w.exposer.definition? t = some d) (hclass : catalog.isInterface d.declaration = false)
    (hrest : ∀ k ∈ (catalog.decl d.declaration).constructors, RestLast k.params) :
    (catalog.ConstructsAlike d ↔ catalog.ExactFirst d.declaration ∧
      ∀ k, catalog.constructorFor d.declaration 0 = some k → k.params = []) ∧
    (catalog.ConstructsAlike d → ∀ r o v,
      (catalog.constructorFor d.declaration 0 = none →
        catalog.construct r d [] v =
            some (.error
              (.construction (.noMatchingConstructor (catalog.name d.declaration) 0)), v) ∧
          catalog.constructFromPlain r o d.declaration v =
            some (.error (.construction (.noDefaultConstructor (catalog.name d.declaration))), v)) ∧
      ∀ k, catalog.constructorFor d.declaration 0 = some k →
        catalog.construct r d [] v =
            (catalog.constructed r d.declaration k.code [] >>= fun target =>
              catalog.toScriptAs (.object d.declaration) (.object target)).mapError
                (constructionError (catalog.name d.declaration)) v ∧
          catalog.constructFromPlain r o d.declaration v =
            (catalog.constructed r d.declaration k.code [] >>= catalog.filled r o) v) := by
  have hctors := constructors_of_visits hw hd hclass
  constructor
  · constructor
    · intro h
      refine ⟨(selects_iff hctors hrest).1 h.selects, fun k hk => ?_⟩
      obtain ⟨plan, hplan, rfl⟩ := Option.map_eq_some_iff.1 ((h.selects 0).trans hk)
      exact (hands_iff hctors).1 h.hands plan hplan
    · rintro ⟨hfirst, hbare⟩
      have hselects := (selects_iff hctors hrest).2 hfirst
      refine ⟨hselects, (hands_iff hctors).2 fun plan hplan => hbare _ ?_⟩
      rw [← hselects 0, hplan]
      rfl
  · intro h r o v
    refine ⟨fun hnone => ?_, fun k hk => h.runs hclass hctors r o v hk⟩
    exact constructs_none v hclass (Option.map_eq_none_iff.1 ((h.selects 0).trans hnone)) hnone

/-- A lamp made with a wattage or with none; a kiln made with tools, or, so it is declared, with
none; and an oven that is made with tools only. -/
def kilns : Catalog where
  decls :=
    [{ (default : ClassDecl) with
        identity := ⟨1⟩, name := "Lamp"
        constructors := [⟨[.fixed "watts" (.int .i32)], fun _ _ => .done (.ok .null)⟩,
          ⟨[], fun _ _ => .done (.ok .null)⟩] },
      { (default : ClassDecl) with
        identity := ⟨2⟩, name := "Kiln"
        constructors := [⟨[.rest "tools"], fun _ _ => .done (.ok .null)⟩,
          ⟨[], fun _ _ => .done (.ok .null)⟩] },
      { (default : ClassDecl) with
        identity := ⟨3⟩, name := "Oven"
        constructors := [⟨[.rest "tools"], fun _ _ => .done (.ok .null)⟩] }]
  restsOn := by decide

/-- Lamps are constructed alike. -/
theorem lamp_constructs_alike : ∃ w d, Session.Visits kilns (World.start {}) w ∧
    w.exposer.definition? (kilns.identity ⟨0⟩) = some d ∧ d.declaration = ⟨0⟩ ∧
    kilns.ConstructsAlike d := by
  have hsession : ∃ rep d,
      Session.report kilns 0 none (.definition ⟨0⟩ none) (World.start {}) = some rep ∧
      rep.world.exposer.definition? (kilns.identity ⟨0⟩) = some d ∧ d.declaration = ⟨0⟩ :=
    ⟨_, _, rfl, rfl, rfl⟩
  obtain ⟨rep, d, hrep, hd, hlamp⟩ := hsession
  have hvisits := Session.Visits.step .start hrep
  have hfixed : ∀ k ∈ (kilns.decl d.declaration).constructors, k.isVariadic = false := by
    rw [hlamp]
    exact List.forall_mem_cons.2 ⟨rfl, List.forall_mem_singleton.2 rfl⟩
  refine ⟨_, d, hvisits, hd, hlamp, (constructs_alike_iff hvisits hd ?_ ?_).1.2 ?_⟩
  · rw [hlamp]
    rfl
  · rw [hlamp]
    exact List.forall_mem_cons.2 ⟨by decide, List.forall_mem_singleton.2 (by decide)⟩
  · refine ⟨exactFirst_of_fixed hfixed, ?_⟩
    rw [hlamp]
    rintro k ⟨⟩
    rfl

/-- A kiln called without arguments is made by the constructor with tools, a kiln from a plain
object by the one without. An oven is made by its only constructor either way, which the call hands
the array of no tools and the plain object nothing. -/
theorem kilns_not_alike :
    (∃ w d, Session.Visits kilns (World.start {}) w ∧
      w.exposer.definition? (kilns.identity ⟨1⟩) = some d ∧ d.declaration = ⟨1⟩ ∧
      (d.constructor? 0).map (·.params.length) = some 1 ∧
      (kilns.constructorFor ⟨1⟩ 0).map (·.params.length) = some 0 ∧ ¬ kilns.ConstructsAlike d) ∧
    ∃ w d, Session.Visits kilns (World.start {}) w ∧
      w.exposer.definition? (kilns.identity ⟨2⟩) = some d ∧ d.declaration = ⟨2⟩ ∧
      (d.constructor? 0).map (·.params.length) = some 1 ∧
      (kilns.constructorFor ⟨2⟩ 0).map (·.params.length) = some 1 ∧
      (∃ v res, kilns.construct (kilns.reentry 1) d [] w = some (res, v) ∧
        v.journal.map (·.call) = [.constructor ⟨2⟩ [.array []]]) ∧
      (∃ v res, kilns.constructFromPlain (kilns.reentry 1) ⟨0⟩ ⟨2⟩ w = some (res, v) ∧
        v.journal.map (·.call) = [.constructor ⟨2⟩ []]) ∧
      ¬ kilns.ConstructsAlike d := by
  have hkiln : ∃ rep d,
      Session.report kilns 0 none (.definition ⟨1⟩ none) (World.start {}) = some rep ∧
      rep.world.exposer.definition? (kilns.identity ⟨1⟩) = some d ∧ d.declaration = ⟨1⟩ ∧
      (d.constructor? 0).map (·.params.length) = some 1 ∧
      (kilns.constructorFor ⟨1⟩ 0).map (·.params.length) = some 0 :=
    ⟨_, _, rfl, rfl, rfl, rfl, rfl⟩
  have hoven : ∃ rep d,
      Session.report kilns 0 none (.definition ⟨2⟩ none) (World.start {}) = some rep ∧
      rep.world.exposer.definition? (kilns.identity ⟨2⟩) = some d ∧ d.declaration = ⟨2⟩ ∧
      (d.constructor? 0).map (·.params.length) = some 1 ∧
      (kilns.constructorFor ⟨2⟩ 0).map (·.params.length) = some 1 ∧
      (∃ v res, kilns.construct (kilns.reentry 1) d [] rep.world = some (res, v) ∧
        v.journal.map (·.call) = [.constructor ⟨2⟩ [.array []]]) ∧
      ∃ v res, kilns.constructFromPlain (kilns.reentry 1) ⟨0⟩ ⟨2⟩ rep.world = some (res, v) ∧
        v.journal.map (·.call) = [.constructor ⟨2⟩ []] :=
    ⟨_, _, rfl, rfl, rfl, rfl, rfl, ⟨_, _, rfl, rfl⟩, _, _, rfl, rfl⟩
  obtain ⟨_, d, hrep, hd, hdeclared, hcall, hplain⟩ := hkiln
  obtain ⟨_, d', hrep', hd', hdeclared', hcall', hplain', hrun, hrun'⟩ := hoven
  refine ⟨⟨_, d, .step .start hrep, hd, hdeclared, hcall, hplain, fun h => ?_⟩,
    _, d', .step .start hrep', hd', hdeclared', hcall', hplain', hrun, hrun', fun h => ?_⟩
  · have hsame := congrArg (Option.map (·.params.length)) (h.selects 0)
    rw [hdeclared, hplain, Option.map_map] at hsame
    exact absurd (hcall.symm.trans hsame) (by decide)
  · have hctors := constructors_of_visits (.step .start hrep') hd' (by rw [hdeclared']; rfl)
    obtain ⟨plan, hplan, hone⟩ := Option.map_eq_some_iff.1 hcall'
    have hnone := (hands_iff hctors).1 h.hands plan hplan
    rw [show plan.params = [] from hnone] at hone
    cases hone

end Catalog

end ScriptBoundary
