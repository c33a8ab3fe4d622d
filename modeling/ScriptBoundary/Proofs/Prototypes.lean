import Mathlib.Data.List.Induction
import ScriptBoundary.Proofs.Moves

/-!
# What a prototype carries

The functions of a list of plans are put on a prototype one after the other: the function of a
method or an event replaces what its name held, a getter or a setter joins the other half if that is
there. `Slot` says what a name holds in terms of the plans alone, so that what a prototype carries
is told by the plans of each name (`Carried`), in whatever order those of different names come.
-/

namespace ScriptBoundary

/-- What a name of a prototype holds, in terms of plans: a function for one of them, or an accessor
for a getter and a setter, of which one may be missing. -/
inductive Slot where
  | function (plan : MemberPlan)
  | accessor (get set : Option MemberPlan)

namespace Slot

/-- The getter that a name holds. -/
def getter? : Option Slot → Option MemberPlan
  | some (accessor get _) => get
  | _ => none

/-- The setter that a name holds. -/
def setter? : Option Slot → Option MemberPlan
  | some (accessor _ set) => set
  | _ => none

/-- What a name holds once the function of one more plan is put there. -/
def add (slot : Option Slot) (plan : MemberPlan) : Option Slot :=
  match plan.role with
  | .method | .subscribe | .unsubscribe => some (function plan)
  | .getter => some (accessor (some plan) (setter? slot))
  | .setter => some (accessor (getter? slot) (some plan))

/-- What a name holds after the functions of a list of plans were put on a prototype. -/
def ofPlans (name : String) (plans : List MemberPlan) : Option Slot :=
  (plans.filter (·.name = name)).foldl add none

theorem ofPlans_concat_self (plans : List MemberPlan) (plan : MemberPlan) :
    ofPlans plan.name (plans ++ [plan]) = add (ofPlans plan.name plans) plan := by
  rw [ofPlans, List.filter_append, List.filter_cons_of_pos (by simp),
    List.foldl_append]
  rfl

theorem ofPlans_concat_of_ne {name : String} {plan : MemberPlan} (hne : plan.name ≠ name)
    (plans : List MemberPlan) : ofPlans name (plans ++ [plan]) = ofPlans name plans := by
  rw [ofPlans, List.filter_append, List.filter_cons_of_neg (by simpa using hne),
    List.filter_nil, List.append_nil]
  rfl

end Slot

namespace Heap

/-- The function of a plan. -/
def Performs (h : Heap) (plan : MemberPlan) (f : FunctionId) : Prop :=
  (h.function f).body = .member plan

/-- A property has functions for the plans that the name holds. -/
inductive Fits (h : Heap) : Option Slot → Option Property → Prop
  | none : Fits h none none
  | function {plan : MemberPlan} {f : FunctionId} (hf : h.Performs plan f) :
      Fits h (some (.function plan)) (some (.data (.function f)))
  | accessor {get set : Option MemberPlan} {getter setter : Option FunctionId}
      (hget : Option.Rel h.Performs get getter) (hset : Option.Rel h.Performs set setter) :
      Fits h (some (.accessor get set)) (some (.accessor getter setter))

/-- A prototype carries the functions of a list of plans: its names are those of the plans in the
order in which they first come, and under each is what the plans of that name make of it. -/
structure Carried (h : Heap) (prototype : ObjectId) (plans : List MemberPlan) : Prop where
  there : prototype.index < h.objects.size
  /-- It has no prototype itself. -/
  last : (h.object prototype).prototypes = []
  keys : h.ownKeys prototype = (plans.map (·.name)).eraseDups
  fits : ∀ name, h.Fits (Slot.ofPlans name plans) (h.own? prototype name)

variable {h h' : Heap}

/-- Functions that stay keep their plans. -/
theorem Fits.imp (hmember : ∀ f plan, h.Performs plan f → h'.Performs plan f) {slot : Option Slot}
    {property : Option Property} (hfits : h.Fits slot property) : h'.Fits slot property := by
  have hrel : ∀ {plan : Option MemberPlan} {f : Option FunctionId},
      Option.Rel h.Performs plan f → Option.Rel h'.Performs plan f := by
    intro plan f hr
    cases hr with
    | none => exact .none
    | some hf => exact .some (hmember _ _ hf)
  cases hfits with
  | none => exact .none
  | function hf => exact .function (hmember _ _ hf)
  | accessor hget hset => exact .accessor (hrel hget) (hrel hset)

/-- A heap that keeps the functions keeps what performs a plan. -/
theorem Keeps.performs {among : ObjectId → Prop} (hk : h.Keeps among h') {f : FunctionId}
    {plan : MemberPlan} (hf : h.Performs plan f) : h'.Performs plan f := by
  rw [Performs, hk.function f (Later.lt_of_member hf)]
  exact hf

/-- Putting the function of a plan on a prototype leaves what other names hold. -/
theorem own?_addMember_of_ne {prototype : ObjectId} {plan : MemberPlan} {name : String}
    (hne : name ≠ plan.name) :
    (addMember prototype h plan).own? prototype name = h.own? prototype name := by
  obtain ⟨property, hadded⟩ := h.exists_addMember_eq prototype plan
  rw [hadded]
  exact own?_define_of_ne _ hne _

/-- Putting the function of a plan on a prototype adds it to what its name holds. -/
theorem fits_addMember {prototype : ObjectId} (hp : prototype.index < h.objects.size)
    {plan : MemberPlan} {slot : Option Slot} (hfits : h.Fits slot (h.own? prototype plan.name)) :
    (addMember prototype h plan).Fits (Slot.add slot plan)
      ((addMember prototype h plan).own? prototype plan.name) := by
  let f : FunctionId := (h.newFunction ⟨plan.name, .member plan⟩).2
  let h₁ : Heap := (h.newFunction ⟨plan.name, .member plan⟩).1
  have hf : h₁.Performs plan f := congrArg ScriptFunction.body (h.function_newFunction _)
  have hnew : h.Keeps (fun _ => True) h₁ := .newFunction h _
  have hfits₁ : h₁.Fits slot (h₁.own? prototype plan.name) := hfits.imp fun _ _ => hnew.performs
  -- Defining a property leaves the functions, and the property is found.
  have hdefine : ∀ {slot' : Option Slot} {property : Property}, h₁.Fits slot' (some property) →
      (h₁.define prototype plan.name property).Fits slot'
        ((h₁.define prototype plan.name property).own? prototype plan.name) := by
    intro slot' property hslot
    have hsame : ∀ f plan', h₁.Performs plan' f →
      (h₁.define prototype plan.name property).Performs plan' f := fun _ _ => id
    rw [h₁.own?_define_self hp]
    exact hslot.imp hsame
  unfold addMember Slot.add
  cases plan.role with
  | method => exact hdefine (.function hf)
  | subscribe => exact hdefine (.function hf)
  | unsubscribe => exact hdefine (.function hf)
  | getter =>
    dsimp only
    -- Only an accessor that is there gives its other half.
    generalize hproperty : (h.newFunction ⟨plan.name, .member plan⟩).1.own? prototype plan.name =
      property at hfits₁ ⊢
    cases hfits₁ with
    | none => exact hdefine (.accessor (.some hf) .none)
    | function => exact hdefine (.accessor (.some hf) .none)
    | accessor _ hset => exact hdefine (.accessor (.some hf) hset)
  | setter =>
    dsimp only
    generalize hproperty : (h.newFunction ⟨plan.name, .member plan⟩).1.own? prototype plan.name =
      property at hfits₁ ⊢
    cases hfits₁ with
    | none => exact hdefine (.accessor .none (.some hf))
    | function => exact hdefine (.accessor .none (.some hf))
    | accessor hget _ => exact hdefine (.accessor hget (.some hf))

/-- Putting the function of a plan on a prototype puts its name behind the others, if it is new. -/
theorem ownKeys_addMember {prototype : ObjectId} (hp : prototype.index < h.objects.size)
    (plan : MemberPlan) :
    (addMember prototype h plan).ownKeys prototype =
      if plan.name ∈ h.ownKeys prototype then h.ownKeys prototype
      else h.ownKeys prototype ++ [plan.name] := by
  obtain ⟨property, hadded⟩ := h.exists_addMember_eq prototype plan
  rw [hadded]
  exact ownKeys_define _ hp _ _

/-- Putting the function of a plan on a prototype leaves it without a prototype of its own. -/
theorem prototypes_addMember {prototype : ObjectId} (hp : prototype.index < h.objects.size)
    (plan : MemberPlan) :
    ((addMember prototype h plan).object prototype).prototypes =
      (h.object prototype).prototypes := by
  obtain ⟨property, hadded⟩ := h.exists_addMember_eq prototype plan
  have hthere : prototype.index < (h.newFunction ⟨plan.name, .member plan⟩).1.objects.size := hp
  rw [hadded, object_define_self _ hthere]
  rfl

/-- A prototype to which the function of one more plan is put carries that plan, too. -/
theorem Carried.addMember {prototype : ObjectId} {plans : List MemberPlan}
    (hc : h.Carried prototype plans) (plan : MemberPlan) :
    (Heap.addMember prototype h plan).Carried prototype (plans ++ [plan]) := by
  have hkeeps : h.Keeps (fun _ => False) (Heap.addMember prototype h plan) :=
    .addMember h id plan
  refine ⟨Nat.lt_of_lt_of_le hc.there hkeeps.objects_le, ?_, ?_, fun name => ?_⟩
  · rw [prototypes_addMember hc.there plan, hc.last]
  · rw [ownKeys_addMember hc.there plan, hc.keys, List.map_append]
    exact (Keyed.eraseDups_concat _ plan.name).symm
  · by_cases hname : name = plan.name
    · rw [hname, Slot.ofPlans_concat_self]
      exact fits_addMember hc.there (hc.fits plan.name)
    · rw [Slot.ofPlans_concat_of_ne (Ne.symm hname), own?_addMember_of_ne hname]
      exact (hc.fits name).imp fun _ _ => hkeeps.performs

/-- A new prototype carries the functions of its plans. -/
theorem carried_newPrototype (h : Heap) (plans : List MemberPlan) :
    (h.newPrototype plans).1.Carried (h.newPrototype plans).2 plans := by
  have hobject : (h.newObject .plain).1.object (h.newObject .plain).2 = .plain :=
    h.object_newObject .plain
  -- On the plans from the last one on, since each of them is put behind those before it.
  induction plans using List.reverseRecOn with
  | nil =>
    refine ⟨?_, congrArg ScriptObject.prototypes hobject, ?_, fun name => ?_⟩
    · exact Nat.lt_of_lt_of_eq (Nat.lt_succ_self _) (Array.size_push _).symm
    · exact congrArg (fun o : ScriptObject => Keyed.keys o.properties) hobject
    · have hown : (h.newObject .plain).1.own? (h.newObject .plain).2 name = none :=
        congrArg (fun o : ScriptObject => Keyed.get? name o.properties) hobject
      show Fits _ none ((h.newObject .plain).1.own? (h.newObject .plain).2 name)
      rw [hown]
      exact .none
  | append_singleton plans plan ih =>
    have hlast : h.newPrototype (plans ++ [plan]) =
        (Heap.addMember (h.newObject .plain).2 (h.newPrototype plans).1 plan,
          (h.newObject .plain).2) :=
      Prod.ext List.foldl_append rfl
    rw [hlast]
    exact ih.addMember plan

/-- A prototype carries its functions for as long as nothing is defined on it. -/
theorem Carried.later {prototype : ObjectId} {plans : List MemberPlan}
    (hc : h.Carried prototype plans) (hl : h.Later h')
    (hsame : h'.object prototype = h.object prototype) : h'.Carried prototype plans where
  there := Nat.lt_of_lt_of_le hc.there hl.objects_le
  last := by rw [hsame, hc.last]
  keys := by rw [ownKeys, hsame, ← hc.keys, ownKeys]
  fits name := by
    rw [own?, hsame, ← own?]
    exact (hc.fits name).imp fun f plan => hl.member f plan

section Proxies

variable {d : Definition} {plans : List MemberPlan} (hc : h.Carried d.prototype plans)
  (target : Instance)

include hc

/-- A new proxy leaves its prototype as it is. -/
theorem Carried.newProxy : (h.newProxy d target).1.Carried d.prototype plans :=
  hc.later (.of_keeps (.newObject h _)) (h.object_newObject_of_lt hc.there _)

/-- A new proxy has one prototype. -/
theorem Carried.prototypes_newProxy :
    ((h.newProxy d target).1.object (h.newProxy d target).2).prototypes = [d.prototype] := by
  rw [Heap.newProxy, h.object_newObject, chain, hc.last]

/-- A new proxy finds what its prototype carries. -/
theorem Carried.lookup?_newProxy (name : String) :
    (h.newProxy d target).1.lookup? (h.newProxy d target).2 name =
      (h.newProxy d target).1.own? d.prototype name := by
  have hown : (h.newProxy d target).1.own? (h.newProxy d target).2 name = none :=
    congrArg (fun o : ScriptObject => Keyed.get? name o.properties) (h.object_newObject _)
  rw [lookup?, chain, hc.prototypes_newProxy target, List.findSome?_cons, hown,
    List.findSome?_cons]
  cases (h.newProxy d target).1.own? d.prototype name <;> rfl

end Proxies

end Heap

end ScriptBoundary
