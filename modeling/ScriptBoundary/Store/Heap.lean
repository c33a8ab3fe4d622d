import ScriptBoundary.Adapter.Plan

/-!
# The script heap

Arrays, objects and functions of scripts, each at a place that never changes and is never given up.
An object has own properties in the order in which their names first came, and a chain of prototypes
that is fixed when it is made; a property is looked up along the chain and written on the object
itself. The laws at the end say what defining a property and making an object do to the views
`object`, `own?` and `ownKeys`, and that they leave all other objects as they were.
-/

namespace ScriptBoundary

/-- A script object. -/
structure ScriptObject where
  className : String
  /-- The prototypes, nearest first. -/
  prototypes : List ObjectId
  /-- The native instance that the object is a proxy of. -/
  target : Option Instance
  properties : List (String × Property)

namespace ScriptObject

/-- An object without prototype or properties. -/
def plain : ScriptObject := ⟨"Object", [], none, []⟩

instance : Inhabited ScriptObject := ⟨plain⟩

/-- Made by a script and not as a proxy. -/
def isPlain (o : ScriptObject) : Bool := o.target.isNone

end ScriptObject

/-- What a function does when it is called. -/
inductive FunctionBody where
  /-- Runs script code. -/
  | hosted (code : ScriptValue → List ScriptValue → ScriptCode)
  /-- Calls an exposed member on the instance behind the receiver. -/
  | member (plan : MemberPlan)
  /-- Makes an instance of a class. -/
  | construct (definition : Definition)
  /-- Calls a native callable: the function is the callable's face to scripts. -/
  | face (callable : Callable)

instance : Inhabited FunctionBody := ⟨.hosted fun _ _ => default⟩

/-- A script function. -/
structure ScriptFunction where
  name : String
  body : FunctionBody
deriving Inhabited

/-- The native callable that a function is the face of. -/
def ScriptFunction.callable? (f : ScriptFunction) : Option Callable :=
  match f.body with
  | .face c => some c
  | _ => none

/-- The arrays, objects and functions of scripts. -/
structure Heap where
  arrays : Array (List ScriptValue) := #[]
  objects : Array ScriptObject := #[]
  functions : Array ScriptFunction := #[]
deriving Inhabited

namespace Heap

/-- The items of an array. -/
def items (h : Heap) (a : ArrayId) : List ScriptValue := h.arrays.getD a.index []

/-- The object at a place. -/
def object (h : Heap) (o : ObjectId) : ScriptObject := h.objects.getD o.index default

/-- The function at a place. -/
def function (h : Heap) (f : FunctionId) : ScriptFunction := h.functions.getD f.index default

def newArray (h : Heap) (items : List ScriptValue) : Heap × ArrayId :=
  ({ h with arrays := h.arrays.push items }, ⟨h.arrays.size⟩)

def newObject (h : Heap) (o : ScriptObject) : Heap × ObjectId :=
  ({ h with objects := h.objects.push o }, ⟨h.objects.size⟩)

def newFunction (h : Heap) (f : ScriptFunction) : Heap × FunctionId :=
  ({ h with functions := h.functions.push f }, ⟨h.functions.size⟩)

/-- Appends a value to an array. -/
def push (h : Heap) (a : ArrayId) (value : ScriptValue) : Heap :=
  { h with arrays := h.arrays.modify a.index (· ++ [value]) }

/-- Defines or replaces an own property. -/
def define (h : Heap) (o : ObjectId) (key : String) (property : Property) : Heap :=
  { h with objects := h.objects.modify o.index fun object =>
      { object with properties := Keyed.put key property object.properties } }

/-- Defines or replaces an own property that holds a value. -/
def insert (h : Heap) (o : ObjectId) (key : String) (value : ScriptValue) : Heap :=
  h.define o key (.data value)

/-- The own property under a name. -/
def own? (h : Heap) (o : ObjectId) (key : String) : Option Property :=
  Keyed.get? key (h.object o).properties

/-- The names of the own properties in order. -/
def ownKeys (h : Heap) (o : ObjectId) : List String := Keyed.keys (h.object o).properties

/-- An object followed by its prototypes. -/
def chain (h : Heap) (o : ObjectId) : List ObjectId := o :: (h.object o).prototypes

/-- The property under a name, the object's own or the nearest along its prototypes. -/
def lookup? (h : Heap) (o : ObjectId) (key : String) : Option Property :=
  (h.chain o).findSome? fun p => h.own? p key

/-- A plain object with a prototype. -/
def newHeir (h : Heap) (prototype : ObjectId) (className : String) : Heap × ObjectId :=
  h.newObject ⟨className, h.chain prototype, none, []⟩

/-- A proxy of an instance. -/
def newProxy (h : Heap) (d : Definition) (target : Instance) : Heap × ObjectId :=
  h.newObject ⟨d.name, h.chain d.prototype, some target, []⟩

section Laws

variable (h : Heap) {o p : ObjectId}

/-- Defining a property leaves the size of the heap. -/
theorem size_objects_define (o : ObjectId) (key : String) (property : Property) :
    (h.define o key property).objects.size = h.objects.size := Array.size_modify

/-- Defining a property changes the properties of its object and nothing else about it. -/
theorem object_define_self (ho : o.index < h.objects.size) (key : String) (property : Property) :
    (h.define o key property).object o =
      { h.object o with properties := Keyed.put key property (h.object o).properties } := by
  simp [define, object, Array.getD_eq_getD_getElem?, Array.getElem_modify_self, ho]

/-- Defining a property leaves all other objects. -/
theorem object_define_of_ne (hne : p ≠ o) (key : String) (property : Property) :
    (h.define o key property).object p = h.object p := by
  have hi : o.index ≠ p.index := fun e => hne (by cases o; cases p; cases e; rfl)
  simp [define, object, Array.getD_eq_getD_getElem?, Array.getElem?_modify, hi]

/-- What was defined last is found. -/
theorem own?_define_self (ho : o.index < h.objects.size) (key : String) (property : Property) :
    (h.define o key property).own? o key = some property := by
  simp [own?, h.object_define_self ho]

/-- Other names keep what they hold. -/
theorem own?_define_of_ne {key other : String} (hne : other ≠ key) (property : Property) :
    (h.define o key property).own? p other = h.own? p other := by
  by_cases hp : p = o
  · subst hp
    by_cases ho : p.index < h.objects.size
    · simp [own?, h.object_define_self ho, Keyed.get?_put_of_ne hne]
    · simp [own?, define, object, Array.getD_eq_getD_getElem?, ho]
  · rw [own?, own?, h.object_define_of_ne hp]

/-- A name that is new goes behind the others; one that is there keeps its place. -/
theorem ownKeys_define (ho : o.index < h.objects.size) (key : String) (property : Property) :
    (h.define o key property).ownKeys o =
      if key ∈ h.ownKeys o then h.ownKeys o else h.ownKeys o ++ [key] := by
  rw [ownKeys, h.object_define_self ho]
  exact Keyed.keys_put key property _

/-- A new object is found at its place. -/
theorem object_newObject (object : ScriptObject) :
    (h.newObject object).1.object (h.newObject object).2 = object := by
  simp [newObject, Heap.object, Array.getD_eq_getD_getElem?]

/-- A new object leaves those that were there. -/
theorem object_newObject_of_lt (hp : p.index < h.objects.size) (object : ScriptObject) :
    (h.newObject object).1.object p = h.object p := by
  simp [newObject, Heap.object, Array.getD_eq_getD_getElem?, Array.getElem?_push_lt, hp]

/-- Past the end of a heap every place stands for an object without properties. -/
theorem object_of_size_le {h : Heap} (ho : h.objects.size ≤ o.index) : h.object o = default := by
  rw [object, Array.getD_eq_getD_getElem?, Array.getElem?_eq_none ho]
  rfl

/-- With a new object, every place stands for what it stood for, or is the place of the new object.
-/
theorem object_newObject_cases (p : ObjectId) (object : ScriptObject) :
    (h.newObject object).1.object p = h.object p ∨
      h.object p = default ∧ (h.newObject object).1.object p = object := by
  rcases Nat.lt_trichotomy p.index h.objects.size with hlt | heq | hgt
  · exact .inl (h.object_newObject_of_lt hlt object)
  · have hp : p = (h.newObject object).2 := by
      cases p
      exact congrArg ObjectId.mk heq
    refine .inr ⟨object_of_size_le (Nat.le_of_eq heq.symm), ?_⟩
    rw [hp, h.object_newObject]
  · have hsize : (h.newObject object).1.objects.size ≤ p.index := by
      rw [newObject, Array.size_push]
      exact hgt
    rw [object_of_size_le hsize, object_of_size_le (Nat.le_of_lt hgt)]
    exact .inl rfl

end Laws

end Heap

end ScriptBoundary
