import Mathlib.Logic.Relation
import ScriptBoundary.Calls.Delegate
import ScriptBoundary.Proofs.Keeping

/-!
# Moves of a program

Everything the boundary does to the state is one of a few moves: the script heap grows or an object
or array of it changes, native code makes callables and instances or changes what an instance holds,
a definition is built, a callback is bound, a call that reaches host code is noted. A move says what
held when it was made: a definition is built for a type that has none and from the plans of that
type, and a call of a member is noted either for a function that has a plan for it, or for a setter
that a plain object fills.

So a fact about all states of a run is a fact about single moves (`Moves`), and what a run cannot
undo is said once (`World.Later`).
-/

namespace ScriptBoundary

/-- What can happen to a heap apart from building definitions and making proxies. -/
inductive Heap.Alters (h : Heap) : Heap → Prop
  | newArray (items : List ScriptValue) : Alters h (h.newArray items).1
  | newObject {o : ScriptObject} (plain : o.target = none) (bare : o.properties = []) :
      Alters h (h.newObject o).1
  | newFunction {f : ScriptFunction} (free : ∀ plan, f.body ≠ .member plan) :
      Alters h (h.newFunction f).1
  | push (a : ArrayId) (value : ScriptValue) : Alters h (h.push a value)
  | define (o : ObjectId) (key : String) (property : Property) : Alters h (h.define o key property)

/-- The state with a call noted. -/
def World.noting (w : World) (call : CallRecord) : World :=
  { w with journal := w.journal ++ [⟨call, w.heap⟩] }

/-- The call of the code of a member. -/
def Implementation.call (i : Implementation) (target : Instance) (args : List NativeValue) :
    CallRecord :=
  .member i.owner i.member i.role target args

/-- The call is not one of a member. -/
def CallRecord.NoMember : CallRecord → Prop
  | member .. => False
  | _ => True

namespace Catalog

variable (catalog : Catalog)

/-- The members of a class that scripts see in a state. -/
def exposedIn (w : World) (c : ClassRef) : Except ResolutionError (List ExposedMember) :=
  catalog.exposed w.exposer.settings.events w.exposer.registrations c

/-- One thing that the boundary does to the state. -/
inductive Move (w : World) : World → Prop
  | heap {h : Heap} (alters : w.heap.Alters h) : Move w { w with heap := h }
  | proxy (d : Definition) (target : Instance) :
      Move w { w with heap := (w.heap.newProxy d target).1 }
  /-- A type that has no definition gets one, from the plans of its exposed members. -/
  | build {c : ClassRef} {members : List ExposedMember} {plans : List MemberPlan}
      {constructors : List ConstructorPlan} {mentioned : List ClassRef}
      (absent : w.exposer.definition? (catalog.identity c) = none)
      (resolved : catalog.exposedIn w c = .ok members)
      (planned : catalog.plans c members = .ok (plans, constructors, mentioned)) :
      Move w (w.completed (catalog.identity c)
        (catalog.assemble c w.exposer.settings plans constructors w))
  | newCallable (body : CallableBody) : Move w { w with callables := w.callables.push body }
  | newInstance : Move w { w with instances := w.instances.push {} }
  | updateInstance (target : Instance) (f : InstanceState → InstanceState) :
      Move w (w.updateInstance target f)
  /-- A function that has no wrapper for a shape gets one. -/
  | bind {f : FunctionId} {shape : Shape}
      (unbound : w.exposer.bindings.find? (fun b =>
        b.shape.same catalog.identity shape && b.function == f) = none) :
      Move w { w with
        callables := w.callables.push (.delegate (w.exposer.delegates.add f).2)
        exposer := { w.exposer with
          delegates := (w.exposer.delegates.add f).1
          bindings := w.exposer.bindings ++ [⟨shape, f, ⟨w.callables.size, shape⟩⟩] } }
  /-- A function runs the code that its plan finds on an instance. -/
  | memberCall {f : FunctionId} {plan : MemberPlan} {i : Implementation} {target : Instance}
      (alive : w.exposer.alive = true)
      (function : (w.heap.function f).body = .member plan)
      (code : catalog.codeFor plan target = .ok i)
      (receives : catalog.receives i.owner target.runtimeClass = true) (args : List NativeValue) :
      Move w (w.noting (i.call target args))
  /-- A plain object fills a property that the class of an instance exposes. -/
  | fillCall {members : List ExposedMember} {p : FillableProperty} {target : Instance}
      (resolved : catalog.exposedIn w target.runtimeClass = .ok members)
      (fillable : p ∈ catalog.fillables target.runtimeClass members)
      (receives : catalog.receives p.setter.owner target.runtimeClass = true)
      (args : List NativeValue) :
      Move w (w.noting (p.setter.call target args))
  | otherCall {call : CallRecord} (other : call.NoMember) : Move w (w.noting call)
  /-- What the session keeps for itself. -/
  | outer (named : List (String × Variable)) (register : Delegates) :
      Move w { w with named, register }

/-- Any number of moves. -/
def Moves : World → World → Prop := Relation.ReflTransGen catalog.Move

instance : IsPreorder World catalog.Moves where
  refl _ := Relation.ReflTransGen.refl
  trans _ _ _ := Relation.ReflTransGen.trans

variable {catalog} in
theorem Move.moves {w w' : World} (h : catalog.Move w w') : catalog.Moves w w' := .single h

end Catalog

/-! ## What stays -/

namespace Heap

/-- The functions that were made and the instances behind proxies are the same in a later heap, and
no object is gone. -/
structure Later (h h' : Heap) : Prop where
  objects_le : h.objects.size ≤ h'.objects.size
  functions_le : h.functions.size ≤ h'.functions.size
  function : ∀ f : FunctionId, f.index < h.functions.size → h'.function f = h.function f
  target : ∀ o target, (h.object o).target = some target → (h'.object o).target = some target

namespace Later

variable {h h' h'' : Heap}

theorem refl (h : Heap) : h.Later h :=
  ⟨Nat.le_refl _, Nat.le_refl _, fun _ _ => rfl, fun _ _ => id⟩

theorem trans (h₁ : h.Later h') (h₂ : h'.Later h'') : h.Later h'' where
  objects_le := Nat.le_trans h₁.objects_le h₂.objects_le
  functions_le := Nat.le_trans h₁.functions_le h₂.functions_le
  function f hf :=
    (h₂.function f (Nat.lt_of_lt_of_le hf h₁.functions_le)).trans (h₁.function f hf)
  target o target ho := h₂.target o target (h₁.target o target ho)

/-- A function with a plan is one that was made. -/
theorem lt_of_member {f : FunctionId} {plan : MemberPlan}
    (hf : (h.function f).body = .member plan) : f.index < h.functions.size := by
  by_contra hge
  rw [Heap.function, Array.getD_eq_getD_getElem?, Array.getElem?_eq_none (Nat.not_lt.1 hge)] at hf
  cases hf

/-- A function of a member keeps its plan. -/
theorem member (hl : h.Later h') (f : FunctionId) (plan : MemberPlan)
    (hf : (h.function f).body = .member plan) : (h'.function f).body = .member plan := by
  rw [hl.function f (lt_of_member hf), hf]

/-- A proxy is an object that was made. -/
theorem lt_of_target {o : ObjectId} {target : Instance}
    (ho : (h.object o).target = some target) : o.index < h.objects.size := by
  by_contra hge
  rw [Heap.object, Array.getD_eq_getD_getElem?, Array.getElem?_eq_none (Nat.not_lt.1 hge)] at ho
  cases ho

/-- A heap that keeps everything is later. -/
theorem of_keeps (hk : h.Keeps (fun _ => True) h') : h.Later h' where
  objects_le := hk.objects_le
  functions_le := hk.functions_le
  function := hk.function
  target o target ho := by rw [hk.object o trivial (lt_of_target ho), ho]

theorem define (h : Heap) (o : ObjectId) (key : String) (property : Property) :
    h.Later (h.define o key property) where
  objects_le := Nat.le_of_eq (h.size_objects_define o key property).symm
  functions_le := Nat.le_refl _
  function _ _ := rfl
  target p target hp := by
    by_cases hpo : p = o
    · subst hpo
      rw [h.object_define_self (lt_of_target hp), hp]
    · rw [h.object_define_of_ne hpo, hp]

theorem of_alters (ha : h.Alters h') : h.Later h' := by
  cases ha with
  | newArray items => exact of_keeps (.newArray h items)
  | newObject => exact of_keeps (.newObject h _)
  | newFunction => exact of_keeps (.newFunction h _)
  | push a value => exact ⟨Nat.le_refl _, Nat.le_refl _, fun _ _ => rfl, fun _ _ => id⟩
  | define o key property => exact define h o key property

end Later

end Heap

/-- What no run undoes: the functions of members, the instances behind proxies, the settings, the
registrations, which types have definitions, and the life of the exposer. -/
structure World.Later (w w' : World) : Prop where
  heap : w.heap.Later w'.heap
  settings : w'.exposer.settings = w.exposer.settings
  registrations : w'.exposer.registrations = w.exposer.registrations
  definition : ∀ t, (w.exposer.definition? t).isSome = true →
    (w'.exposer.definition? t).isSome = true
  alive : w'.exposer.alive = w.exposer.alive

/-- The first definition of a type goes behind those of other types. -/
theorem Exposer.keep_of_absent {e : Exposer} {type : TypeId} (h : e.definition? type = none)
    (d : Definition) :
    e.keep type d =
      { e with builds := e.builds + 1, definitions := e.definitions ++ [(type, d)] } := by
  rw [Exposer.keep, h]
  rfl

/-- What is kept for a type without a definition is its definition. -/
theorem Exposer.definition?_keep_of_absent {e : Exposer} {type : TypeId}
    (h : e.definition? type = none) (d : Definition) :
    (e.keep type d).definition? type = some d := by
  have hnew : type ∉ Keyed.keys e.definitions := Keyed.get?_eq_none_iff.1 h
  rw [Exposer.keep_of_absent h, Exposer.definition?, ← Keyed.put_of_not_mem hnew,
    Keyed.get?_put_self]

/-- A type has a definition once one was kept for it. -/
theorem Exposer.isSome_definition?_keep_self (e : Exposer) (type : TypeId) (d : Definition) :
    ((e.keep type d).definition? type).isSome = true := by
  cases hd : e.definition? type with
  | some old =>
    rw [Exposer.keep, hd]
    exact Option.isSome_iff_exists.2 ⟨old, hd⟩
  | none =>
    rw [Exposer.definition?_keep_of_absent hd]
    rfl

/-- Keeping a definition leaves those that are there. -/
theorem Exposer.isSome_definition?_keep {e : Exposer} {t : TypeId}
    (h : (e.definition? t).isSome = true) (type : TypeId) (d : Definition) :
    ((e.keep type d).definition? t).isSome = true := by
  by_cases hne : t = type
  · subst hne
    exact e.isSome_definition?_keep_self t d
  · rwa [Exposer.definition?_keep_of_ne hne]

namespace World.Later

theorem refl (w : World) : w.Later w := ⟨.refl _, rfl, rfl, fun _ => id, rfl⟩

theorem trans {w w' w'' : World} (h₁ : w.Later w') (h₂ : w'.Later w'') : w.Later w'' where
  heap := h₁.heap.trans h₂.heap
  settings := h₂.settings.trans h₁.settings
  registrations := h₂.registrations.trans h₁.registrations
  definition t ht := h₂.definition t (h₁.definition t ht)
  alive := h₂.alive.trans h₁.alive

theorem of_move {catalog : Catalog} {w w' : World} (h : catalog.Move w w') : w.Later w' := by
  cases h with
  | heap alters => exact { refl w with heap := .of_alters alters }
  | proxy d target => exact { refl w with heap := .of_keeps (.newObject _ _) }
  | build =>
    exact {
      heap := .of_keeps (Heap.Keeps.newPrototype _ _).all
      settings := rfl
      registrations := rfl
      definition := fun t ht => Exposer.isSome_definition?_keep ht _ _
      alive := rfl }
  | _ => exact { refl w with }

theorem of_moves {catalog : Catalog} {w w' : World} (h : catalog.Moves w w') : w.Later w' := by
  induction h with
  | refl => exact refl w
  | tail _ hstep ih => exact ih.trans (of_move hstep)

end World.Later

/-! ## Who makes proxies -/

/-- The instances behind objects are the same in the second heap, and no more. -/
def Heap.SameProxies (h h' : Heap) : Prop := ∀ o : ObjectId, (h'.object o).target = (h.object o).target

namespace Heap.SameProxies

variable {h h' h'' : Heap}

theorem refl (h : Heap) : h.SameProxies h := fun _ => rfl

theorem trans (h₁ : h.SameProxies h') (h₂ : h'.SameProxies h'') : h.SameProxies h'' :=
  fun o => (h₂ o).trans (h₁ o)

theorem define (h : Heap) (o : ObjectId) (key : String) (property : Property) :
    h.SameProxies (h.define o key property) := by
  intro p
  rcases Nat.lt_or_ge p.index h.objects.size with hlt | hge
  · by_cases hpo : p = o
    · subst hpo
      rw [h.object_define_self hlt]
    · rw [h.object_define_of_ne hpo]
  · rw [object_of_size_le hge, object_of_size_le (h.size_objects_define o key property ▸ hge)]

/-- An object that is no proxy may be added. -/
theorem newObject (h : Heap) {o : ScriptObject} (ho : o.target = none) :
    h.SameProxies (h.newObject o).1 := by
  intro p
  rcases h.object_newObject_cases p o with hsame | ⟨hdefault, hnew⟩
  · rw [hsame]
  · rw [hdefault, hnew, ho]
    rfl

theorem of_alters (ha : h.Alters h') : h.SameProxies h' := by
  cases ha with
  | newObject plain bare => exact newObject h plain
  | define o key property => exact define h o key property
  | _ => exact fun _ => rfl

theorem newPrototype (h : Heap) (plans : List MemberPlan) :
    h.SameProxies (h.newPrototype plans).1 := by
  have hadd : ∀ (prototype : ObjectId) (plans : List MemberPlan) (h : Heap),
      h.SameProxies (plans.foldl (Heap.addMember prototype) h) := by
    intro prototype plans
    induction plans with
    | nil => exact refl
    | cons plan plans ih =>
      intro h
      obtain ⟨property, hadded⟩ := h.exists_addMember_eq prototype plan
      refine trans ?_ (ih _)
      rw [hadded]
      exact define _ prototype plan.name property
  exact (newObject h rfl).trans (hadd _ plans _)

end Heap.SameProxies

namespace Catalog

variable (catalog : Catalog)

/-- A move that makes no proxy and leaves the variables, or that makes a proxy of an instance by the
definition that is kept for its own class. -/
inductive OwnMove (w : World) : World → Prop
  | quiet {w' : World} (move : catalog.Move w w') (proxies : w.heap.SameProxies w'.heap)
      (named : w'.named = w.named) : OwnMove w w'
  | proxy {d : Definition} {target : Instance}
      (kept : w.exposer.definition? (catalog.identity target.runtimeClass) = some d) :
      OwnMove w { w with heap := (w.heap.newProxy d target).1 }

/-- Any number of such moves. -/
def OwnMoves : World → World → Prop := Relation.ReflTransGen catalog.OwnMove

instance : IsPreorder World catalog.OwnMoves where
  refl _ := Relation.ReflTransGen.refl
  trans _ _ _ := Relation.ReflTransGen.trans

variable {catalog} {w w' : World}

theorem OwnMove.move (h : catalog.OwnMove w w') : catalog.Move w w' := by
  cases h with
  | quiet move => exact move
  | proxy => exact .proxy _ _

theorem OwnMoves.moves (h : catalog.OwnMoves w w') : catalog.Moves w w' :=
  Relation.ReflTransGen.mono (fun _ _ hmove => OwnMove.move hmove) _ _ h

/-- A move that leaves the heap and the variables. -/
theorem Move.own (h : catalog.Move w w') (hheap : w'.heap = w.heap) (hnamed : w'.named = w.named) :
    catalog.OwnMoves w w' :=
  .single (.quiet h (fun o => by rw [hheap]) hnamed)

theorem ownMoves_of_alters {h : Heap} (ha : w.heap.Alters h) :
    catalog.OwnMoves w { w with heap := h } :=
  .single (.quiet (.heap ha) (.of_alters ha) rfl)

end Catalog

/-- Moves that make proxies by own definitions only are moves. -/
theorem Run.Within.moves {catalog : Catalog} {ε α : Type} {x : Run ε α}
    (h : x.Within catalog.OwnMoves) : x.Within catalog.Moves := h.mono fun _ _ => Catalog.OwnMoves.moves

end ScriptBoundary
