import ScriptBoundary.Proofs.Building

/-!
# Heaps that keep what they hold

A heap keeps another when everything at the places of the other is still there: all arrays and
functions, and those objects that are told. Making something new keeps all objects; defining a
property keeps all but the one it is defined on. Building a definition makes new things only, so it
keeps the heap whatever comes of it (`keeps_build`).
-/

namespace ScriptBoundary

/-- Everything at the places of the first heap is still there in the second: the arrays, the
functions, and the objects among those told. -/
structure Heap.Keeps (among : ObjectId → Prop) (h h' : Heap) : Prop where
  arrays_le : h.arrays.size ≤ h'.arrays.size
  objects_le : h.objects.size ≤ h'.objects.size
  functions_le : h.functions.size ≤ h'.functions.size
  items : ∀ a : ArrayId, a.index < h.arrays.size → h'.items a = h.items a
  object : ∀ o : ObjectId, among o → o.index < h.objects.size → h'.object o = h.object o
  function : ∀ f : FunctionId, f.index < h.functions.size → h'.function f = h.function f

/-- A new array is found at its place. -/
theorem Heap.items_newArray (h : Heap) (items : List ScriptValue) :
    (h.newArray items).1.items (h.newArray items).2 = items := by
  simp [Heap.newArray, Heap.items, Array.getD_eq_getD_getElem?]

/-- A new function is found at its place. -/
theorem Heap.function_newFunction (h : Heap) (f : ScriptFunction) :
    (h.newFunction f).1.function (h.newFunction f).2 = f := by
  simp [Heap.newFunction, Heap.function, Array.getD_eq_getD_getElem?]

/-- A new proxy is one of its instance. -/
theorem Heap.target_newProxy (h : Heap) (d : Definition) (target : Instance) :
    ((h.newProxy d target).1.object (h.newProxy d target).2).target = some target :=
  congrArg ScriptObject.target (h.object_newObject _)

/-- Putting the function of a plan on a prototype makes it and defines the property of its name. -/
theorem Heap.exists_addMember_eq (h : Heap) (prototype : ObjectId) (plan : MemberPlan) :
    ∃ property, addMember prototype h plan = (h.newFunction ⟨plan.name, .member plan⟩).1.define
      prototype plan.name property := by
  unfold addMember
  cases plan.role with
  | method | subscribe | unsubscribe => exact ⟨_, rfl⟩
  | getter | setter =>
    dsimp only
    split <;> exact ⟨_, rfl⟩

namespace Heap.Keeps

variable {among among' : ObjectId → Prop} {h h' h'' : Heap}

theorem refl (among : ObjectId → Prop) (h : Heap) : h.Keeps among h :=
  ⟨Nat.le_refl _, Nat.le_refl _, Nat.le_refl _, fun _ _ => rfl, fun _ _ _ => rfl, fun _ _ => rfl⟩

theorem trans (h₁ : h.Keeps among h') (h₂ : h'.Keeps among h'') : h.Keeps among h'' where
  arrays_le := Nat.le_trans h₁.arrays_le h₂.arrays_le
  objects_le := Nat.le_trans h₁.objects_le h₂.objects_le
  functions_le := Nat.le_trans h₁.functions_le h₂.functions_le
  items a ha := (h₂.items a (Nat.lt_of_lt_of_le ha h₁.arrays_le)).trans (h₁.items a ha)
  object o ho hlt :=
    (h₂.object o ho (Nat.lt_of_lt_of_le hlt h₁.objects_le)).trans (h₁.object o ho hlt)
  function f hf := (h₂.function f (Nat.lt_of_lt_of_le hf h₁.functions_le)).trans (h₁.function f hf)

/-- A heap that keeps many objects keeps fewer. -/
theorem imp (hk : h.Keeps among h') (himp : ∀ o, among' o → among o) : h.Keeps among' h' :=
  { hk with object := fun o ho => hk.object o (himp o ho) }

/-- What keeps all objects keeps those told. -/
theorem of_all (hk : h.Keeps (fun _ => True) h') : h.Keeps among h' := hk.imp fun _ _ => trivial

theorem newArray (h : Heap) (items : List ScriptValue) : h.Keeps among (h.newArray items).1 := by
  refine { refl among h with arrays_le := ?_, items := ?_ }
  · simp [Heap.newArray]
  · intro a ha
    simp [Heap.newArray, Heap.items, Array.getD_eq_getD_getElem?, Array.getElem?_push_lt, ha]

theorem newObject (h : Heap) (o : ScriptObject) : h.Keeps among (h.newObject o).1 := by
  refine { refl among h with objects_le := ?_, object := ?_ }
  · simp [Heap.newObject]
  · intro p _ hp
    exact h.object_newObject_of_lt hp o

theorem newFunction (h : Heap) (f : ScriptFunction) : h.Keeps among (h.newFunction f).1 := by
  refine { refl among h with functions_le := ?_, function := ?_ }
  · simp [Heap.newFunction]
  · intro g hg
    simp [Heap.newFunction, Heap.function, Array.getD_eq_getD_getElem?, Array.getElem?_push_lt, hg]

/-- Defining a property keeps all other objects. -/
theorem define (h : Heap) {o : ObjectId} (ho : ¬ among o) (key : String) (property : Property) :
    h.Keeps among (h.define o key property) := by
  refine { refl among h with objects_le := ?_, object := ?_ }
  · exact Nat.le_of_eq (h.size_objects_define o key property).symm
  · intro p hp _
    have hne : p ≠ o := by
      rintro rfl
      exact ho hp
    exact h.object_define_of_ne hne key property

theorem addMember (h : Heap) {prototype : ObjectId} (ho : ¬ among prototype) (plan : MemberPlan) :
    h.Keeps among (Heap.addMember prototype h plan) := by
  obtain ⟨property, hadded⟩ := h.exists_addMember_eq prototype plan
  rw [hadded]
  exact (newFunction h _).trans (define _ ho _ _)

/-- Making a prototype keeps all objects that were there. -/
theorem newPrototype (h : Heap) (plans : List MemberPlan) :
    h.Keeps (·.index < h.objects.size) (h.newPrototype plans).1 := by
  -- The new object is the only one that members are put on.
  have hfold : ∀ (plans : List MemberPlan) (h' : Heap),
      h'.Keeps (·.index < h.objects.size)
        (plans.foldl (Heap.addMember ⟨h.objects.size⟩) h') := by
    intro plans
    induction plans with
    | nil => exact refl _
    | cons plan plans ih =>
      intro h'
      exact (addMember h' (Nat.lt_irrefl _) plan).trans (ih _)
  exact (newObject h .plain).trans (hfold plans _)

end Heap.Keeps

/-- What keeps the objects that were there keeps all. -/
theorem Heap.Keeps.all {h h' : Heap} (hk : h.Keeps (·.index < h.objects.size) h') :
    h.Keeps (fun _ => True) h' :=
  { hk with object := fun o _ ho => hk.object o ho ho }

/-- The heap of the first state is kept by that of the second. -/
def World.Keeps (w w' : World) : Prop := w.heap.Keeps (fun _ => True) w'.heap

instance : IsPreorder World World.Keeps where
  refl w := Heap.Keeps.refl _ w.heap
  trans _ _ _ := Heap.Keeps.trans

namespace Catalog

variable (catalog : Catalog)

/-- Building keeps the heap. -/
theorem keeps_build (n : Nat) (underWay : List TypeId) (c : ClassRef) :
    (catalog.build n underWay c).Within World.Keeps := by
  induction n generalizing underWay c with
  | zero => exact .exhausted
  | succ n ih =>
    intro w r w' h
    rcases build_cases h with ⟨d, -, -, rfl⟩ |
      ⟨-, ⟨e, -, rfl⟩ | ⟨members, plans, constructors, mentioned, -, -, hrest⟩⟩
    · exact Std.Refl.refl w'
    · exact Std.Refl.refl w'
    · refine Run.Within.bind (R := World.Keeps) ?_ (fun _ => ?_) hrest
      · exact catalog.within_prebuild (fun c _ => ih _ c) _ _
      · intro w r w' hrun
        obtain ⟨d, hw⟩ := catalog.complete_apply c _ plans constructors w
        rw [hw] at hrun
        cases hrun
        exact (Heap.Keeps.newPrototype w.heap plans).all

theorem keeps_definitionOf (c : ClassRef) : (catalog.definitionOf c).Within World.Keeps :=
  catalog.keeps_build _ _ c

end Catalog

end ScriptBoundary
