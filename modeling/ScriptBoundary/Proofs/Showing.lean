import ScriptBoundary.Proofs.Lasting
import ScriptBoundary.Proofs.Origins
import ScriptBoundary.Proofs.Prototypes
import ScriptBoundary.Proofs.Resolution

/-!
# What proxies show

A proxy has nothing of its own and finds everything on the prototype of its definition, which
carries the functions of the plans of the members that were exposed when the definition was made.
Where names tell these members apart, each name has one member, or the getter and the setter of one
property, so what a proxy shows under a name is told by the members of that name
(`Catalog.ShowsAs`), and what comes of reading and writing it follows.
-/

namespace ScriptBoundary

open Run

namespace Catalog

variable (catalog : Catalog)

/-! ## Members of one name -/

/-- Members that a name tells apart are, under one name, none, one, or the getter and the setter of
one property. -/
theorem Distinguishable.named {members : List ExposedMember} (h : Distinguishable members)
    (name : String) :
    members.filter (·.name = name) = [] ∨
      (∃ x, members.filter (·.name = name) = [x]) ∨
      ∃ x y, members.filter (·.name = name) = [x, y] ∧ AccessorPair x y := by
  have hpairs : (members.filter (·.name = name)).Pairwise AccessorPair := by
    refine (h.filter _).imp_of_mem fun {a b} ha hb hab => hab ?_
    have hname : ∀ x ∈ members.filter (·.name = name), x.name = name :=
      fun x hx => of_decide_eq_true (List.mem_filter.1 hx).2
    rw [hname a ha, hname b hb]
  generalize members.filter (·.name = name) = named at hpairs ⊢
  match named, hpairs with
  | [], _ => exact .inl rfl
  | [x], _ => exact .inr (.inl ⟨x, rfl⟩)
  | [x, y], hpairs =>
    have hpair := (List.pairwise_cons.1 hpairs).1 y (List.mem_singleton_self y)
    exact .inr (.inr ⟨x, y, rfl, hpair⟩)
  | x :: y :: z :: rest, hpairs =>
    -- The second of three would be a setter beside the first and a getter beside the third.
    obtain ⟨hx, hrest⟩ := List.pairwise_cons.1 hpairs
    have hsetter := (hx y List.mem_cons_self).2.2.2
    have hgetter := ((List.pairwise_cons.1 hrest).1 z List.mem_cons_self).2.2.1
    rw [hsetter] at hgetter
    cases hgetter

/-- A member is one of those of its name. -/
theorem mem_named {members : List ExposedMember} {x : ExposedMember} (hx : x ∈ members) :
    x ∈ members.filter (·.name = x.name) :=
  List.mem_filter.2 ⟨hx, decide_eq_true rfl⟩

/-- The plans of a name are those of the members of that name. -/
theorem forall₂_named {type : ClassRef} {members : List ExposedMember} {plans : List MemberPlan}
    (h : List.Forall₂ (catalog.PlanOf type) members plans) (name : String) :
    List.Forall₂ (catalog.PlanOf type) (members.filter (·.name = name))
      (plans.filter (·.name = name)) := by
  refine List.rel_filter (fun {x plan} hplan => ?_) h
  simp only [hplan.name_eq]

/-! ## What is under a name -/

/-- A call of the plan of a member on an instance: arguments, code, result. -/
def runPlan (r : Reentry) (plan : MemberPlan) (target : Instance) (args : List ScriptValue) :
    Run Error ScriptValue :=
  catalog.cross r plan.adapter args (catalog.runMember r plan target)

/-- As long as the exposer lives, the function runs the plan of the member of a type on the instance
behind its receiver. -/
def Runs (type : ClassRef) (w : World) (x : ExposedMember) (f : FunctionId) : Prop :=
  ∃ plan, catalog.PlanOf type x plan ∧ ∀ u, Session.Visits catalog w u →
    u.exposer.alive = true → ∀ r this target args, World.receiver? u this = some target →
      catalog.callFunction r f this args u = catalog.runPlan r plan target args u

/-- The member in a role among those of a name, if there is one. -/
def Half {α : Type} (does : ExposedMember → α → Prop) (named : List ExposedMember)
    (role : MemberRole) : Option α → Prop
  | some a => ∃ x ∈ named, x.role = role ∧ does x a
  | none => ∀ x ∈ named, x.role ≠ role

/-- A fresh proxy shows the members that were exposed when its definition was made. -/
structure Shows (d : Definition) (members : List ExposedMember) (target : Instance) (o : ObjectId)
    (w : World) : Prop where
  receiver : World.receiver? w (.object o) = some target
  prototype : (w.heap.object o).prototypes = [d.prototype]
  /-- The names on the prototype are those of the members, in the order in which they first come. -/
  keys : w.heap.ownKeys d.prototype = (members.map (·.name)).eraseDups
  bare : w.heap.ownKeys o = []
  /-- Methods and events are functions that run their plans. -/
  function : ∀ x ∈ members, x.role.category ≠ .property → ∃ f,
    w.heap.lookup? o x.name = some (.data (.function f)) ∧ catalog.Runs d.declaration w x f
  /-- Properties are accessors whose halves run their plans. -/
  accessor : ∀ x ∈ members, x.role.category = .property → ∃ get set,
    w.heap.lookup? o x.name = some (.accessor get set) ∧
      Half (catalog.Runs d.declaration w) (members.filter (·.name = x.name)) .getter get ∧
      Half (catalog.Runs d.declaration w) (members.filter (·.name = x.name)) .setter set
  read : ∀ x ∈ members, x.role = .getter → ∀ plan, catalog.PlanOf d.declaration x plan → ∀ n,
    (catalog.reentry (n + 1)).get o x.name w =
      catalog.runPlan (catalog.reentry n) plan target [] w
  /-- A property that cannot be read gives undefined. -/
  unread : ∀ x ∈ members, x.role.category = .property →
    (∀ y ∈ members, y.name = x.name → y.role ≠ .getter) → ∀ r : Reentry,
      r.get o x.name w = some (.ok .undefined, w)
  write : ∀ x ∈ members, x.role = .setter → ∀ plan, catalog.PlanOf d.declaration x plan →
    ∀ n value, (catalog.reentry (n + 1)).set o x.name value w =
      ((fun _ => ()) <$> catalog.runPlan (catalog.reentry n) plan target [value]) w
  /-- A property that cannot be written fails and leaves everything as it is. -/
  readOnly : ∀ x ∈ members, x.role.category = .property →
    (∀ y ∈ members, y.name = x.name → y.role ≠ .setter) → ∀ (r : Reentry) value,
      r.set o x.name value w = some (.error (.script
        ("property '" ++ x.name ++ "' of " ++ d.name ++ " is read-only")), w)
  nothing : ∀ name, (∀ x ∈ members, x.name ≠ name) → w.heap.lookup? o name = none

/-- What is under a name that these members have. -/
inductive SlotOf (type : ClassRef) : List ExposedMember → Option Slot → Prop
  | nothing : SlotOf type [] none
  | function {x : ExposedMember} {plan : MemberPlan} (role : x.role.category ≠ .property)
      (planOf : catalog.PlanOf type x plan) : SlotOf type [x] (some (.function plan))
  | getter {x : ExposedMember} {plan : MemberPlan} (role : x.role = .getter)
      (planOf : catalog.PlanOf type x plan) : SlotOf type [x] (some (.accessor (some plan) none))
  | setter {x : ExposedMember} {plan : MemberPlan} (role : x.role = .setter)
      (planOf : catalog.PlanOf type x plan) : SlotOf type [x] (some (.accessor none (some plan)))
  | both {x y : ExposedMember} {get set : MemberPlan} (getter : x.role = .getter)
      (setter : y.role = .setter) (getOf : catalog.PlanOf type x get)
      (setOf : catalog.PlanOf type y set) :
      SlotOf type [x, y] (some (.accessor (some get) (some set)))

variable {catalog} {type : ClassRef} {members : List ExposedMember} {plans : List MemberPlan}
  {w : World}

/-- What a member has alone under its name. -/
theorem SlotOf.single {x : ExposedMember} {plan : MemberPlan} (h : catalog.PlanOf type x plan) :
    catalog.SlotOf type [x] (Slot.add none plan) := by
  have hrole : plan.role = x.role := h.eq.2.2.1
  unfold Slot.add
  rw [hrole]
  cases hx : x.role with
  | getter => exact .getter hx h
  | setter => exact .setter hx h
  | _ => exact .function (by rw [hx]; exact MemberCategory.noConfusion) h

/-- What a getter and a setter have together under their name. -/
theorem SlotOf.pair {x y : ExposedMember} {get set : MemberPlan}
    (hget : catalog.PlanOf type x get) (hset : catalog.PlanOf type y set)
    (hpair : AccessorPair x y) :
    catalog.SlotOf type [x, y] (Slot.add (Slot.add none get) set) := by
  obtain ⟨-, -, hx, hy⟩ := hpair
  have hgetrole : get.role = .getter := hget.eq.2.2.1.trans hx
  have hsetrole : set.role = .setter := hset.eq.2.2.1.trans hy
  simp only [Slot.add, hgetrole, hsetrole, Slot.getter?]
  exact .both hx hy hget hset

/-- What a name holds that one member has. -/
theorem slotOf_of_single (hplans : List.Forall₂ (catalog.PlanOf type) members plans)
    {name : String} {x : ExposedMember} (only : members.filter (·.name = name) = [x]) :
    catalog.SlotOf type [x] (Slot.ofPlans name plans) := by
  have hnamed := catalog.forall₂_named hplans name
  rw [only] at hnamed
  obtain ⟨plan, rest, hplan, hrest, hfilter⟩ := List.forall₂_cons_left_iff.1 hnamed
  cases hrest
  rw [Slot.ofPlans, hfilter]
  exact .single hplan

/-- What a name holds of members that names tell apart. -/
theorem slotOf_ofPlans (hplans : List.Forall₂ (catalog.PlanOf type) members plans)
    (hd : Distinguishable members) (name : String) :
    catalog.SlotOf type (members.filter (·.name = name)) (Slot.ofPlans name plans) := by
  have hnamed := catalog.forall₂_named hplans name
  rcases hd.named name with hnone | ⟨x, only⟩ | ⟨x, y, hboth, hpair⟩
  · rw [hnone, List.forall₂_nil_left_iff] at hnamed
    rw [hnone, Slot.ofPlans, hnamed]
    exact .nothing
  · rw [only]
    exact slotOf_of_single hplans only
  · rw [hboth] at hnamed
    obtain ⟨get, rest, hget, hrest, hfilter⟩ := List.forall₂_cons_left_iff.1 hnamed
    obtain ⟨set, rest', hset, hrest', rfl⟩ := List.forall₂_cons_left_iff.1 hrest
    cases hrest'
    rw [hboth, Slot.ofPlans, hfilter]
    exact .pair hget hset hpair

namespace SlotOf

variable {named : List ExposedMember} {slot : Option Slot} {x : ExposedMember}

theorem of_function (h : catalog.SlotOf type named slot) (hx : x ∈ named)
    (hrole : x.role.category ≠ .property) :
    ∃ plan, slot = some (.function plan) ∧ catalog.PlanOf type x plan := by
  cases h with
  | nothing => cases hx
  | function _ planOf =>
    cases List.mem_singleton.1 hx
    exact ⟨_, rfl, planOf⟩
  | getter role =>
    cases List.mem_singleton.1 hx
    rw [role] at hrole
    exact absurd rfl hrole
  | setter role =>
    cases List.mem_singleton.1 hx
    rw [role] at hrole
    exact absurd rfl hrole
  | both getter setter =>
    rcases List.mem_pair.1 hx with rfl | rfl
    · rw [getter] at hrole
      exact absurd rfl hrole
    · rw [setter] at hrole
      exact absurd rfl hrole

/-- The property of a method or an event holds its function. -/
theorem function_of_fits {h : Heap} {property : Option Property}
    (hslot : catalog.SlotOf type named slot) (hfits : h.Fits slot property) (hx : x ∈ named)
    (hrole : x.role.category ≠ .property) :
    ∃ f plan, property = some (.data (.function f)) ∧ catalog.PlanOf type x plan ∧
      h.Performs plan f := by
  obtain ⟨plan, rfl, hplan⟩ := hslot.of_function hx hrole
  cases hfits with
  | function hf => exact ⟨_, plan, rfl, hplan, hf⟩

/-- The two halves of a property. -/
theorem of_property (h : catalog.SlotOf type named slot) (hx : x ∈ named)
    (hrole : x.role.category = .property) :
    ∃ get set, slot = some (.accessor get set) ∧
      Half (catalog.PlanOf type) named .getter get ∧
      Half (catalog.PlanOf type) named .setter set := by
  cases h with
  | nothing => cases hx
  | function role =>
    cases List.mem_singleton.1 hx
    exact absurd hrole role
  | @getter y _ role planOf =>
    refine ⟨_, _, rfl, ⟨y, List.mem_singleton_self y, role, planOf⟩, ?_⟩
    refine List.forall_mem_singleton.2 ?_
    rw [role]
    exact MemberRole.noConfusion
  | @setter y _ role planOf =>
    refine ⟨_, _, rfl, ?_, y, List.mem_singleton_self y, role, planOf⟩
    refine List.forall_mem_singleton.2 ?_
    rw [role]
    exact MemberRole.noConfusion
  | @both y z _ _ getter setter getOf setOf =>
    exact ⟨_, _, rfl, ⟨y, List.mem_cons_self, getter, getOf⟩, z,
      List.mem_cons_of_mem _ (List.mem_singleton_self z), setter, setOf⟩

/-- Members of one name have different roles. -/
theorem eq_of_role (h : catalog.SlotOf type named slot) {y : ExposedMember} (hx : x ∈ named)
    (hy : y ∈ named) (hrole : x.role = y.role) : x = y := by
  cases h with
  | nothing => cases hx
  | both getter setter =>
    rcases List.mem_pair.1 hx with rfl | rfl <;> rcases List.mem_pair.1 hy with rfl | rfl
    · rfl
    · cases (getter.symm.trans hrole).trans setter
    · cases (setter.symm.trans hrole).trans getter
    · rfl
  | _ => rw [List.mem_singleton.1 hx, List.mem_singleton.1 hy]

end SlotOf

namespace Half

variable {α β : Type} {does : ExposedMember → α → Prop} {named : List ExposedMember}
  {role : MemberRole}

/-- A half stands for the one member in its role. -/
theorem exists_of_mem {a : Option α} (h : Half does named role a) {x : ExposedMember}
    (hx : x ∈ named) (hrole : x.role = role) (only : ∀ y ∈ named, y.role = role → y = x) :
    ∃ b, a = some b ∧ does x b := by
  cases a with
  | none => exact absurd hrole (h x hx)
  | some b =>
    obtain ⟨y, hy, hyrole, hb⟩ := h
    rw [only y hy hyrole] at hb
    exact ⟨b, rfl, hb⟩

/-- A half is missing where no member has its role. -/
theorem eq_none {a : Option α} (h : Half does named role a) (hno : ∀ x ∈ named, x.role ≠ role) :
    a = none := by
  cases a with
  | none => rfl
  | some b =>
    obtain ⟨x, hx, hrole, -⟩ := h
    exact absurd hrole (hno x hx)

/-- A half is missing where no member of the name has its role. -/
theorem eq_none_of_named {members : List ExposedMember} {name : String} {a : Option α}
    (h : Half does (members.filter (·.name = name)) role a)
    (hno : ∀ x ∈ members, x.name = name → x.role ≠ role) : a = none := by
  refine h.eq_none fun x hx => ?_
  obtain ⟨hmem, hname⟩ := List.mem_filter.1 hx
  exact hno x hmem (of_decide_eq_true hname)

/-- A half stands for what is related to what it stood for. -/
theorem of_rel {does' : ExposedMember → β → Prop} {related : α → β → Prop} {a : Option α}
    {b : Option β} (h : Half does named role a) (hr : Option.Rel related a b)
    (himp : ∀ x a b, does x a → related a b → does' x b) : Half does' named role b := by
  cases hr with
  | none => exact h
  | some hab =>
    obtain ⟨x, hx, hrole, hdoes⟩ := h
    exact ⟨x, hx, hrole, himp x _ _ hdoes hab⟩

end Half

/-! ## What a proxy finds -/

/-- The function of a plan runs the plan. -/
theorem runs_of_performs {x : ExposedMember} {plan : MemberPlan} {f : FunctionId}
    (hplan : catalog.PlanOf type x plan) (hf : w.heap.Performs plan f) :
    catalog.Runs type w x f := by
  refine ⟨plan, hplan, fun u hu halive r this target args hthis => ?_⟩
  have hoffers : Offers f plan u := ⟨halive, hu.later.member f plan hf⟩
  have hreceiver : receiver plan this u = some (.ok target, u) := by
    rw [receiver_apply, hthis]
  rw [callFunction_of_offers hoffers, callMember_eq, bind_ok hreceiver, runPlan]

/-- A member has one plan. -/
theorem PlanOf.unique {x : ExposedMember} {plan plan' : MemberPlan}
    (h : catalog.PlanOf type x plan) (h' : catalog.PlanOf type x plan') : plan = plan' := by
  obtain ⟨mentioned, h⟩ := h
  obtain ⟨mentioned', h'⟩ := h'
  exact (Prod.mk.inj (Except.ok.inj (h.symm.trans h'))).1

section Finding

variable {d : Definition} {target : Instance} {o : ObjectId}
  (hplans : List.Forall₂ (catalog.PlanOf type) members plans) (hd : Distinguishable members)
  (hfits : ∀ name, w.heap.Fits (Slot.ofPlans name plans) (w.heap.lookup? o name))

include hplans hd

/-- The half of an accessor for a member runs the plan of that member. -/
theorem runs_half {x : ExposedMember} (hx : x ∈ members) {half : Option FunctionId}
    (h : Half (catalog.Runs type w) (members.filter (·.name = x.name)) x.role half) :
    ∃ f, half = some f ∧ catalog.Runs type w x f := by
  have hslot := slotOf_ofPlans hplans hd x.name
  refine h.exists_of_mem (mem_named hx) rfl fun y hy hrole => ?_
  exact hslot.eq_of_role hy (mem_named hx) hrole

include hfits

/-- A method or an event is found as its function. -/
theorem exists_function {x : ExposedMember} (hx : x ∈ members)
    (hrole : x.role.category ≠ .property) :
    ∃ f, w.heap.lookup? o x.name = some (.data (.function f)) ∧ catalog.Runs type w x f := by
  have hslot := slotOf_ofPlans hplans hd x.name
  obtain ⟨f, plan, hlookup, hplan, hf⟩ :=
    hslot.function_of_fits (hfits x.name) (mem_named hx) hrole
  exact ⟨f, hlookup, runs_of_performs hplan hf⟩

/-- A property is found as its accessor. -/
theorem exists_accessor {x : ExposedMember} (hx : x ∈ members)
    (hrole : x.role.category = .property) :
    ∃ get set, w.heap.lookup? o x.name = some (.accessor get set) ∧
      Half (catalog.Runs type w) (members.filter (·.name = x.name)) .getter get ∧
      Half (catalog.Runs type w) (members.filter (·.name = x.name)) .setter set := by
  have hslot := slotOf_ofPlans hplans hd x.name
  have hfound := hfits x.name
  obtain ⟨get, set, hplan, hget, hset⟩ := hslot.of_property (mem_named hx) hrole
  rw [hplan] at hfound
  generalize w.heap.lookup? o x.name = property at hfound
  cases hfound with
  | accessor hgetter hsetter =>
    exact ⟨_, _, rfl, hget.of_rel hgetter fun _ _ _ => runs_of_performs,
      hset.of_rel hsetter fun _ _ _ => runs_of_performs⟩

/-- A name of no member is not found. -/
theorem lookup?_eq_none {name : String} (hno : ∀ x ∈ members, x.name ≠ name) :
    w.heap.lookup? o name = none := by
  have hslot := slotOf_ofPlans hplans hd name
  have hnamed : members.filter (·.name = name) = [] :=
    List.filter_eq_nil_iff.2 fun x hx hname => hno x hx (of_decide_eq_true hname)
  have hfound := hfits name
  rw [hnamed] at hslot
  generalize Slot.ofPlans name plans = slot at hslot hfound
  cases hslot
  generalize w.heap.lookup? o name = property at hfound
  cases hfound
  rfl

end Finding

/-! ## Reading and writing what is found -/

/-- Reading a property runs its getter. -/
theorem get_of_runs {o : ObjectId} {key : String} {get : FunctionId} {set : Option FunctionId}
    {target : Instance} {x : ExposedMember} {plan : MemberPlan}
    (hlookup : w.heap.lookup? o key = some (.accessor (some get) set))
    (halive : w.exposer.alive = true) (hthis : World.receiver? w (.object o) = some target)
    (hruns : catalog.Runs type w x get) (hplan : catalog.PlanOf type x plan) (n : Nat) :
    (catalog.reentry (n + 1)).get o key w =
      catalog.runPlan (catalog.reentry n) plan target [] w := by
  obtain ⟨plan', hplan', hcall⟩ := hruns
  obtain rfl := hplan'.unique hplan
  rw [Reentry.get, bind_ok (ofHeap_apply _ w), hlookup]
  exact hcall w .start halive _ _ _ [] hthis

/-- Writing a property runs its setter. -/
theorem set_of_runs {o : ObjectId} {key : String} {get : Option FunctionId} {set : FunctionId}
    {target : Instance} {x : ExposedMember} {plan : MemberPlan}
    (hlookup : w.heap.lookup? o key = some (.accessor get (some set)))
    (halive : w.exposer.alive = true) (hthis : World.receiver? w (.object o) = some target)
    (hruns : catalog.Runs type w x set) (hplan : catalog.PlanOf type x plan) (n : Nat)
    (value : ScriptValue) :
    (catalog.reentry (n + 1)).set o key value w =
      ((fun _ => ()) <$> catalog.runPlan (catalog.reentry n) plan target [value]) w := by
  obtain ⟨plan', hplan', hcall⟩ := hruns
  obtain rfl := hplan'.unique hplan
  rw [Reentry.set, bind_ok (ofHeap_apply _ w), hlookup, map_eq_pure_bind]
  exact bind_congr_apply (hcall w .start halive _ _ _ [value] hthis) _

/-- Reading a property without a getter gives undefined. -/
theorem get_of_no_getter {o : ObjectId} {key : String} {set : Option FunctionId}
    (hlookup : w.heap.lookup? o key = some (.accessor none set)) (r : Reentry) :
    r.get o key w = some (.ok .undefined, w) := by
  rw [Reentry.get, bind_ok (ofHeap_apply _ w), hlookup]
  rfl

/-- Writing a property without a setter fails and leaves everything as it is. -/
theorem set_of_no_setter {o : ObjectId} {key : String} {get : Option FunctionId}
    (hlookup : w.heap.lookup? o key = some (.accessor get none)) (r : Reentry)
    (value : ScriptValue) :
    r.set o key value w = some (.error (.script
      ("property '" ++ key ++ "' of " ++ (w.heap.object o).className ++ " is read-only")), w) := by
  rw [Reentry.set, bind_ok (ofHeap_apply _ w), hlookup]
  exact bind_ok (ofHeap_apply _ w) _

/-- A proxy that is made as long as its prototype carries what it was built with shows the members
of the definition. -/
theorem shows_newProxy {d : Definition} (hc : w.heap.Carried d.prototype d.members)
    (hplans : List.Forall₂ (catalog.PlanOf d.declaration) members d.members)
    (hd : Distinguishable members) (halive : w.exposer.alive = true) (target : Instance) :
    catalog.Shows d members target (w.heap.newProxy d target).2
      { w with heap := (w.heap.newProxy d target).1 } := by
  let o : ObjectId := (w.heap.newProxy d target).2
  let v : World := { w with heap := (w.heap.newProxy d target).1 }
  have hcarried : v.heap.Carried d.prototype d.members := hc.newProxy target
  have hobject : v.heap.object o = ⟨d.name, w.heap.chain d.prototype, some target, []⟩ :=
    w.heap.object_newObject _
  have hthis : World.receiver? v (.object o) = some target := w.heap.target_newProxy d target
  -- The proxy has nothing of its own, so what it finds is what the prototype holds.
  have hfits : ∀ name, v.heap.Fits (Slot.ofPlans name d.members) (v.heap.lookup? o name) := by
    intro name
    rw [hc.lookup?_newProxy target]
    exact hcarried.fits name
  have hnames : d.members.map (·.name) = members.map (·.name) := by
    rw [← List.forall₂_eq_eq_eq, List.forall₂_map_left_iff, List.forall₂_map_right_iff]
    exact hplans.flip.imp fun _ _ hplan => PlanOf.name_eq hplan
  refine {
    receiver := hthis
    prototype := hc.prototypes_newProxy target
    keys := by rw [hcarried.keys, hnames]
    bare := by rw [Heap.ownKeys, hobject]; rfl
    function := fun x hx hrole => exists_function hplans hd hfits hx hrole
    accessor := fun x hx hrole => exists_accessor hplans hd hfits hx hrole
    read := ?read, unread := ?unread, write := ?write, readOnly := ?readOnly
    nothing := fun name hno => lookup?_eq_none hplans hd hfits hno }
  case read =>
    intro x hx hrole plan hplan n
    obtain ⟨get, set, hlookup, hget, -⟩ :=
      exists_accessor hplans hd hfits hx (by rw [hrole]; rfl)
    rw [← hrole] at hget
    obtain ⟨f, rfl, hruns⟩ := runs_half hplans hd hx hget
    exact get_of_runs hlookup halive hthis hruns hplan n
  case unread =>
    intro x hx hrole hno r
    obtain ⟨get, set, hlookup, hget, -⟩ := exists_accessor hplans hd hfits hx hrole
    obtain rfl := hget.eq_none_of_named hno
    exact get_of_no_getter hlookup r
  case write =>
    intro x hx hrole plan hplan n value
    obtain ⟨get, set, hlookup, -, hset⟩ :=
      exists_accessor hplans hd hfits hx (by rw [hrole]; rfl)
    rw [← hrole] at hset
    obtain ⟨f, rfl, hruns⟩ := runs_half hplans hd hx hset
    exact set_of_runs hlookup halive hthis hruns hplan n value
  case readOnly =>
    intro x hx hrole hno r value
    obtain ⟨get, set, hlookup, -, hset⟩ := exists_accessor hplans hd hfits hx hrole
    obtain rfl := hset.eq_none_of_named hno
    have hname : (v.heap.object o).className = d.name := by rw [hobject]
    rw [← hname]
    exact set_of_no_setter hlookup r value

/-- The prototype of a definition carries its members once it is made. -/
theorem MadeIn.carried {before : World} {d : Definition} (h : catalog.MadeIn before d members) :
    (catalog.making before d).heap.Carried d.prototype d.members := by
  have hprototype : (before.heap.newPrototype d.members).2 = d.prototype :=
    (congrArg Definition.prototype h.assembled).symm
  rw [← hprototype]
  exact before.heap.carried_newPrototype d.members

/-- The prototype of a definition holds the function of a method or an event that has its name for
itself. -/
theorem MadeIn.exists_function {before : World} {d : Definition}
    (h : catalog.MadeIn before d members) {name : String} {x : ExposedMember}
    (only : members.filter (·.name = name) = [x]) (hrole : x.role.category ≠ .property) :
    ∃ f plan, (catalog.making before d).heap.own? d.prototype name = some (.data (.function f)) ∧
      catalog.PlanOf d.declaration x plan ∧
      (catalog.making before d).heap.Performs plan f := by
  obtain ⟨mentioned, hplanned⟩ := h.planned
  have hslot := slotOf_of_single (forall₂_planOf hplanned) only
  exact hslot.function_of_fits (h.carried.fits name) (List.mem_singleton_self x) hrole

/-- Scripts see what was resolved. The definition that building a class gives was made from the
members that its type exposed then. If names tell these members apart, then a proxy of any instance
that is made by the definition shows them: at once, and for as long as nothing is defined on the
prototype. -/
theorem proxies_show_what_was_resolved {settings : Settings} {u w : World} {c : ClassRef}
    {d : Definition} (hu : Session.Visits catalog (World.start settings) u)
    (hbuild : catalog.definitionOf c u = some (.ok d, w)) :
    ∃ before members, catalog.Origin (World.start settings) u w c d before members ∧
      (Distinguishable members → ∀ v, Session.Visits catalog w v → v.exposer.alive = true →
        v.heap.object d.prototype = (catalog.making before d).heap.object d.prototype →
        ∀ target, ∃ o v',
          (Catalog.instantiate d target : Run Error ScriptValue) v = some (.ok (.object o), v') ∧
            catalog.Shows d members target o v') := by
  obtain ⟨before, members, horigin⟩ := exists_origin hu hbuild
  refine ⟨before, members, horigin, fun hd v hv halive hsame target => ?_⟩
  obtain ⟨mentioned, hplanned⟩ := horigin.made.planned
  have hcarried := horigin.made.carried.later (horigin.since.trans hv).later hsame
  exact ⟨_, _, rfl, shows_newProxy hcarried (forall₂_planOf hplanned) hd halive target⟩

/-- A proxy of a lamp shows its property and the two functions of its event. -/
theorem lamp_shows_what_was_resolved :
    ∃ d w o v', widgets.definitionOf ⟨1⟩ (World.start {}) = some (.ok d, w) ∧
      (Catalog.instantiate d ⟨1, ⟨1⟩⟩ : Run Error ScriptValue) w = some (.ok (.object o), v') ∧
      v'.heap.ownKeys d.prototype = ["lit", "addSwitched", "removeSwitched"] ∧
      widgets.Shows d [⟨"lit", "Lit", .getter, ⟨1⟩⟩, ⟨"lit", "Lit", .setter, ⟨1⟩⟩,
        ⟨"addSwitched", "Switched", .subscribe, ⟨1⟩⟩,
        ⟨"removeSwitched", "Switched", .unsubscribe, ⟨1⟩⟩] ⟨1, ⟨1⟩⟩ o v' := by
  have hbuild : ∃ d w, widgets.definitionOf ⟨1⟩ (World.start {}) = some (.ok d, w) ∧
      w.exposer.alive = true := ⟨_, _, rfl, rfl⟩
  obtain ⟨d, w, hbuild, halive⟩ := hbuild
  obtain ⟨before, members, horigin, hshows⟩ := proxies_show_what_was_resolved .start hbuild
  obtain ⟨-, hmembers, hworld⟩ := horigin.first rfl
  cases hmembers
  obtain ⟨o, v', hproxy, hshown⟩ := hshows (by decide) w .start halive (by rw [hworld]) ⟨1, ⟨1⟩⟩
  exact ⟨d, w, o, v', hbuild, hproxy, hshown.keys, hshown⟩

end Catalog

end ScriptBoundary
