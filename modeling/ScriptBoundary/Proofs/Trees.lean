import Mathlib.Data.Fintype.Card
import Mathlib.Data.Set.Finite.Basic
import Mathlib.Logic.Relation
import Mathlib.Tactic.Choose
import ScriptBoundary.Proofs.Making

/-!
# Script values as trees

Arrays and objects of scripts are places in the heap, so one may be held at several places, even by
itself. What a value is apart from the places is a tree (`ScriptTree`), and `Heap.Shows` says that
the heap shows a value as a tree. It does so for a value of data properties unless some array or
object that the value leads to leads back to itself (`Heap.exists_shows`): what a finite heap holds
is finite, so a value without such a cycle can be followed to its end.
-/

namespace ScriptBoundary

/-- What stands beside a list in one relation does so in another if each member of the list allows
it. -/
theorem forall₂_imp_of_mem {α β : Type} {R S : α → β → Prop} {l : List α} {bs : List β}
    (h : List.Forall₂ R l bs) (himp : ∀ a ∈ l, ∀ b, R a b → S a b) : List.Forall₂ S l bs :=
  ((List.forall₂_and_left l bs).2 ⟨himp, h⟩).imp fun _ b hab => hab.1 b hab.2

/-- Something of the list stands beside each of what stands beside the list. -/
theorem exists_of_forall₂_of_mem {α β : Type} {R : α → β → Prop} {l : List α} {bs : List β}
    (h : List.Forall₂ R l bs) {b : β} (hb : b ∈ bs) : ∃ a ∈ l, R a b := by
  induction h with
  | nil => cases hb
  | cons hab _ ih =>
    rcases List.mem_cons.1 hb with rfl | hb
    · exact ⟨_, List.mem_cons_self, hab⟩
    · obtain ⟨a, ha, hab⟩ := ih hb
      exact ⟨a, List.mem_cons_of_mem _ ha, hab⟩

/-- Entries with the same keys in order and related values are related pair by pair. -/
theorem forall₂_entries {α β : Type} {R : α → β → Prop} {l : List (String × α)}
    {es : List (String × β)} (hkeys : Keyed.keys l = Keyed.keys es)
    (h : List.Forall₂ R (l.map (·.2)) (es.map (·.2))) :
    List.Forall₂ (fun a e => a.1 = e.1 ∧ R a.2 e.2) l es := by
  induction l generalizing es with
  | nil =>
    cases es with
    | nil => exact .nil
    | cons e es => cases hkeys
  | cons a l ih =>
    cases es with
    | nil => cases hkeys
    | cons e es =>
      obtain ⟨hkey, hkeys⟩ := List.cons_eq_cons.1 hkeys
      obtain ⟨hae, h⟩ := List.forall₂_cons.1 h
      exact .cons ⟨hkey, hae⟩ (ih hkeys h)

/-- What a script value is when arrays and objects are seen as what they hold. -/
inductive ScriptTree where
  | undefined
  | null
  | bool (b : Bool)
  | int (n : Word .i32)
  | uint (n : Word .u32)
  | number (x : Binary .f64)
  | string (text : String)
  | date (millis : Binary .f64)
  | array (items : List ScriptTree)
  | object (fields : List (String × ScriptTree))
  | function

instance : Inhabited ScriptTree := ⟨.undefined⟩

namespace ScriptTree

/-- What holds of a tree if it holds of what the tree is made of, holds of all trees. -/
@[elab_as_elim, induction_eliminator]
protected theorem induct {motive : ScriptTree → Prop} (undefined : motive .undefined)
    (null : motive .null) (bool : ∀ b, motive (.bool b)) (int : ∀ n, motive (.int n))
    (uint : ∀ n, motive (.uint n)) (number : ∀ x, motive (.number x))
    (string : ∀ text, motive (.string text)) (date : ∀ millis, motive (.date millis))
    (array : ∀ items, (∀ t ∈ items, motive t) → motive (.array items))
    (object : ∀ fields, (∀ f ∈ fields, motive f.2) → motive (.object fields))
    (function : motive .function) (t : ScriptTree) : motive t :=
  @ScriptTree.rec motive (fun items => ∀ t ∈ items, motive t)
    (fun fields => ∀ f ∈ fields, motive f.2) (fun f => motive f.2)
    undefined null bool int uint number string date array object function
    (List.forall_mem_nil _) (fun _ _ head tail => List.forall_mem_cons.2 ⟨head, tail⟩)
    (List.forall_mem_nil _) (fun _ _ head tail => List.forall_mem_cons.2 ⟨head, tail⟩)
    (fun _ _ value => value) t

mutual

/-- How deep arrays and objects are nested. -/
def height : ScriptTree → Nat
  | .array items => itemsHeight items + 1
  | .object fields => fieldsHeight fields + 1
  | _ => 0

/-- The height of the highest among items. -/
def itemsHeight : List ScriptTree → Nat
  | [] => 0
  | t :: rest => max t.height (itemsHeight rest)

/-- The height of the highest among fields. -/
def fieldsHeight : List (String × ScriptTree) → Nat
  | [] => 0
  | (_, t) :: rest => max t.height (fieldsHeight rest)

end

/-- An item is less high than its array. -/
theorem height_lt_array {t : ScriptTree} {items : List ScriptTree} (h : t ∈ items) :
    t.height < (array items).height := by
  suffices t.height ≤ itemsHeight items from Nat.lt_succ_of_le this
  induction items with
  | nil => cases h
  | cons u rest ih =>
    rcases List.mem_cons.1 h with rfl | h
    · exact Nat.le_max_left _ _
    · exact Nat.le_trans (ih h) (Nat.le_max_right _ _)

/-- What a field holds is less high than its object. -/
theorem height_lt_object {f : String × ScriptTree} {fields : List (String × ScriptTree)}
    (h : f ∈ fields) : f.2.height < (object fields).height := by
  suffices f.2.height ≤ fieldsHeight fields from Nat.lt_succ_of_le this
  induction fields with
  | nil => cases h
  | cons g rest ih =>
    rcases List.mem_cons.1 h with rfl | h
    · exact Nat.le_max_left _ _
    · exact Nat.le_trans (ih h) (Nat.le_max_right _ _)

end ScriptTree

namespace Heap

variable (h : Heap)

/-- An array holds its items, and an object what its own properties hold. -/
inductive Holds : ScriptValue → ScriptValue → Prop
  | item {a : ArrayId} {s : ScriptValue} (mem : s ∈ h.items a) : Holds (.array a) s
  | field {o : ObjectId} {key : String} {s : ScriptValue}
      (mem : (key, .data s) ∈ (h.object o).properties) : Holds (.object o) s

/-- One value leads to another through what arrays and objects hold, or is that value. -/
def Reaches : ScriptValue → ScriptValue → Prop := Relation.ReflTransGen h.Holds

/-- Nothing that a value leads to leads back to itself. -/
def Acyclic (s : ScriptValue) : Prop := ∀ x, h.Reaches s x → ¬ Relation.TransGen h.Holds x x

/-- An object holds data only: none of its own properties is an accessor. -/
def HoldsData (o : ObjectId) : Prop := ∀ p ∈ (h.object o).properties, ∃ s, p.2 = .data s

/-- All objects that a value leads to hold data only. -/
def DataOnly (s : ScriptValue) : Prop := ∀ o, h.Reaches s (.object o) → h.HoldsData o

/-- The heap shows a value as a tree, and something is true of all arrays and objects in it. -/
inductive Shows (P : ScriptValue → Prop) : ScriptTree → ScriptValue → Prop
  | undefined : Shows P .undefined .undefined
  | null : Shows P .null .null
  | bool (b : Bool) : Shows P (.bool b) (.bool b)
  | int (n : Word .i32) : Shows P (.int n) (.int n)
  | uint (n : Word .u32) : Shows P (.uint n) (.uint n)
  | number (x : Binary .f64) : Shows P (.number x) (.number x)
  | string (text : String) : Shows P (.string text) (.string text)
  | date (millis : Binary .f64) : Shows P (.date millis) (.date millis)
  | function (f : FunctionId) : Shows P .function (.function f)
  | array {a : ArrayId} {items : List ScriptTree} (here : P (.array a))
      (held : List.Forall₂ (Shows P) items (h.items a)) : Shows P (.array items) (.array a)
  | object {o : ObjectId} {fields : List (String × ScriptTree)}
      {values : List (String × ScriptValue)} (here : P (.object o))
      (data : (h.object o).properties = values.map fun f => (f.1, .data f.2))
      (keys : Keyed.keys fields = Keyed.keys values)
      (held : List.Forall₂ (Shows P) (fields.map (·.2)) (values.map (·.2))) :
      Shows P (.object fields) (.object o)

variable {h}

/-! ## What a finite heap holds -/

/-- All that the arrays and objects of a heap hold. -/
def held (h : Heap) : List ScriptValue :=
  h.arrays.toList.flatten ++ h.objects.toList.flatMap fun o =>
    o.properties.filterMap fun p => match p.2 with
      | .data s => some s
      | .accessor _ _ => none

theorem mem_held {x s : ScriptValue} (hx : h.Holds x s) : s ∈ h.held := by
  cases hx with
  | @item a _ mem =>
    -- There is nothing in an array that is not there.
    rw [items, Array.getD_eq_getD_getElem?] at mem
    cases hfound : h.arrays[a.index]? with
    | none =>
      rw [hfound] at mem
      cases mem
    | some items =>
      rw [hfound] at mem
      refine List.mem_append_left _ (List.mem_flatten.2 ⟨items, ?_, mem⟩)
      exact Array.mem_toList_iff.2 (Array.mem_of_getElem? hfound)
  | @field o key _ mem =>
    rw [object, Array.getD_eq_getD_getElem?] at mem
    cases hfound : h.objects[o.index]? with
    | none =>
      rw [hfound] at mem
      cases mem
    | some object =>
      rw [hfound] at mem
      refine List.mem_append_right _ (List.mem_flatMap.2 ⟨object, ?_, ?_⟩)
      · exact Array.mem_toList_iff.2 (Array.mem_of_getElem? hfound)
      · exact List.mem_filterMap.2 ⟨_, mem, rfl⟩

/-- A value leads to finitely many. -/
theorem finite_reaches (h : Heap) (s : ScriptValue) : {x | h.Reaches s x}.Finite := by
  refine (List.finite_toSet (s :: h.held)).subset fun x hx => ?_
  rcases Relation.ReflTransGen.cases_tail hx with rfl | ⟨y, -, hyx⟩
  · exact List.mem_cons_self
  · exact List.mem_cons_of_mem _ (mem_held hyx)

/-- What an acyclic value leads to can be taken from its ends upwards. -/
theorem Acyclic.wellFounded {s : ScriptValue} (hs : h.Acyclic s) :
    WellFounded fun x y : {x // h.Reaches s x} => Relation.TransGen h.Holds y x := by
  have : Finite {x // h.Reaches s x} := (h.finite_reaches s).to_subtype
  let below := fun x y : {x // h.Reaches s x} => Relation.TransGen h.Holds y.1 x.1
  have : IsTrans _ below := ⟨fun _ _ _ hxy hyz => hyz.trans hxy⟩
  have : Std.Irrefl below := ⟨fun x => hs x.1 x.2⟩
  exact Finite.wellFounded_of_trans_of_irrefl below

/-! ## Trees of values -/

/-- Properties that hold data are those of a list of values. -/
theorem HoldsData.exists_values {o : ObjectId} (ho : h.HoldsData o) :
    ∃ values : List (String × ScriptValue),
      (h.object o).properties = values.map fun f => (f.1, .data f.2) := by
  choose! value hvalue using ho
  refine ⟨(h.object o).properties.map fun p => (p.1, value p), ?_⟩
  rw [List.map_map]
  conv_lhs => rw [← List.map_id (h.object o).properties]
  exact List.map_congr_left fun p hp => Prod.ext rfl (hvalue p hp)

/-- The keys of values that are the properties of an object. -/
theorem ownKeys_of_data {o : ObjectId} {values : List (String × ScriptValue)}
    (data : (h.object o).properties = values.map fun f => (f.1, .data f.2)) :
    h.ownKeys o = Keyed.keys values := by
  rw [ownKeys, data, Keyed.keys, List.map_map]
  rfl

/-- An acyclic value of data properties is shown as a tree. -/
theorem exists_shows {P : ScriptValue → Prop} {s : ScriptValue} (hs : h.Acyclic s)
    (hdata : h.DataOnly s) (hP : ∀ x, h.Reaches s x → P x) : ∃ t, h.Shows P t s := by
  suffices ∀ x : {x // h.Reaches s x}, ∃ t, h.Shows P t x.1 from this ⟨s, .refl⟩
  intro x
  induction x using hs.wellFounded.induction with
  | _ x ih =>
    obtain ⟨x, hx⟩ := x
    have hheld : ∀ y, h.Holds x y → ∃ t, h.Shows P t y :=
      fun y hy => ih ⟨y, hx.tail hy⟩ (.single hy)
    choose! tree htree using hheld
    cases x with
    | array a =>
      refine ⟨.array ((h.items a).map tree), .array (hP _ hx) ?_⟩
      rw [List.forall₂_map_left_iff, List.forall₂_same]
      exact fun y hy => htree y (.item hy)
    | object o =>
      obtain ⟨values, hvalues⟩ := (hdata o hx).exists_values
      refine ⟨.object (values.map fun f => (f.1, tree f.2)), .object (hP _ hx) hvalues ?_ ?_⟩
      · rw [Keyed.keys, List.map_map]
        rfl
      · rw [List.map_map, List.forall₂_map_left_iff, List.forall₂_map_right_iff, List.forall₂_same]
        rintro ⟨key, value⟩ hf
        have hmem : (key, Property.data value) ∈ (h.object o).properties := by
          rw [hvalues]
          exact List.mem_map_of_mem hf
        exact htree value (.field hmem)
    | undefined => exact ⟨_, .undefined⟩
    | null => exact ⟨_, .null⟩
    | bool b => exact ⟨_, .bool b⟩
    | int n => exact ⟨_, .int n⟩
    | uint n => exact ⟨_, .uint n⟩
    | number x => exact ⟨_, .number x⟩
    | string text => exact ⟨_, .string text⟩
    | date millis => exact ⟨_, .date millis⟩
    | function f => exact ⟨_, .function f⟩

/-- What a value holds is shown as a tree that is less high. -/
theorem Shows.exists_of_holds {P : ScriptValue → Prop} {t : ScriptTree} {s x : ScriptValue}
    (hs : h.Shows P t s) (hx : h.Holds s x) : ∃ u, h.Shows P u x ∧ u.height < t.height := by
  cases hx with
  | item mem =>
    cases hs with
    | array here held =>
      obtain ⟨u, hu, hux⟩ := exists_of_forall₂_of_mem held mem
      exact ⟨u, hux, ScriptTree.height_lt_array hu⟩
  | @field o key _ mem =>
    cases hs with
    | @object _ fields values here data keys held =>
      rw [data] at mem
      obtain ⟨f, hf, hfx⟩ := List.mem_map.1 mem
      cases hfx
      obtain ⟨u, hu, hux⟩ := exists_of_forall₂_of_mem held (List.mem_map_of_mem hf)
      obtain ⟨g, hg, rfl⟩ := List.mem_map.1 hu
      exact ⟨g.2, hux, ScriptTree.height_lt_object hg⟩

/-- What a shown value leads to is shown too, by a tree no higher. -/
theorem Shows.exists_of_reaches {P : ScriptValue → Prop} {t : ScriptTree} {s x : ScriptValue}
    (hs : h.Shows P t s) (hx : h.Reaches s x) : ∃ u, h.Shows P u x ∧ u.height ≤ t.height := by
  induction hx with
  | refl => exact ⟨t, hs, Nat.le_refl _⟩
  | tail _ hstep ih =>
    obtain ⟨u, hu, hle⟩ := ih
    obtain ⟨v, hv, hlt⟩ := hu.exists_of_holds hstep
    exact ⟨v, hv, Nat.le_trans (Nat.le_of_lt hlt) hle⟩

/-- What is shown as a tree leads to no cycle. -/
theorem Shows.acyclic {P : ScriptValue → Prop} {t : ScriptTree} {s : ScriptValue}
    (hs : h.Shows P t s) : h.Acyclic s := by
  -- A value on a cycle would be shown by ever lower trees.
  suffices ∀ (n : Nat) (t : ScriptTree) (x : ScriptValue), h.Shows P t x → t.height = n →
      ¬ Relation.TransGen h.Holds x x by
    intro x hx
    obtain ⟨u, hu, -⟩ := hs.exists_of_reaches hx
    exact this _ u x hu rfl
  intro n
  induction n using Nat.strongRecOn with
  | _ n ih =>
    rintro t x ht rfl hcycle
    obtain ⟨y, hxy, hyx⟩ := Relation.TransGen.head'_iff.1 hcycle
    obtain ⟨u, hu, hlt⟩ := ht.exists_of_holds hxy
    obtain ⟨v, hv, hle⟩ := hu.exists_of_reaches hyx
    exact ih v.height (Nat.lt_of_le_of_lt hle hlt) v x hv rfl hcycle

/-- What is shown as a tree leads to objects of data only. -/
theorem Shows.dataOnly {P : ScriptValue → Prop} {t : ScriptTree} {s : ScriptValue}
    (hs : h.Shows P t s) : h.DataOnly s := by
  intro o ho p hp
  obtain ⟨u, hu, -⟩ := hs.exists_of_reaches ho
  cases hu with
  | object here data keys held =>
    rw [data] at hp
    obtain ⟨f, -, rfl⟩ := List.mem_map.1 hp
    exact ⟨f.2, rfl⟩

/-- What is true of all arrays and objects in a tree may be weakened. -/
theorem Shows.imp {P Q : ScriptValue → Prop} (hPQ : ∀ x, P x → Q x) {t : ScriptTree}
    {s : ScriptValue} (hs : h.Shows P t s) : h.Shows Q t s := by
  induction t generalizing s with
  | array items ih =>
    cases hs with
    | array here held =>
      exact .array (hPQ _ here) (forall₂_imp_of_mem held fun t ht s hts => ih t ht hts)
  | object fields ih =>
    cases hs with
    | object here data keys held =>
      refine .object (hPQ _ here) data keys (forall₂_imp_of_mem held fun t ht s hts => ?_)
      obtain ⟨f, hf, rfl⟩ := List.mem_map.1 ht
      exact ih f hf hts
  | _ =>
    cases hs
    constructor

/-- What is shown in one heap is shown in a heap that keeps its arrays and objects. -/
theorem Shows.keeps {h' : Heap} {among : ObjectId → Prop} {P : ScriptValue → Prop}
    (hk : h.Keeps among h') (harray : ∀ a, P (.array a) → a.index < h.arrays.size)
    (hobject : ∀ o, P (.object o) → among o ∧ o.index < h.objects.size) {t : ScriptTree}
    {s : ScriptValue} (hs : h.Shows P t s) : h'.Shows P t s := by
  induction t generalizing s with
  | array items ih =>
    cases hs with
    | array here held =>
      refine .array here ?_
      rw [hk.items _ (harray _ here)]
      exact forall₂_imp_of_mem held fun t ht s hts => ih t ht hts
  | object fields ih =>
    cases hs with
    | object here data keys held =>
      obtain ⟨hamong, hlt⟩ := hobject _ here
      refine .object here ?_ keys (forall₂_imp_of_mem held fun t ht s hts => ?_)
      · rw [hk.object _ hamong hlt]
        exact data
      · obtain ⟨f, hf, rfl⟩ := List.mem_map.1 ht
        exact ih f hf hts
  | _ =>
    cases hs
    constructor

end Heap

end ScriptBoundary
