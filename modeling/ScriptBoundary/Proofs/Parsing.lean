import ScriptBoundary.Conversion.ToScript
import ScriptBoundary.Proofs.Trees

/-!
# Building what JSON trees say

A JSON tree becomes a script value by making one array or plain object after the other. Nothing that
was there is touched, so the heap shows the value as the tree, with every array and object of it new
(`Json.WellFormed.builds`). An object is there before its fields and grows by one at a time, and
each field is shown as it was made, since no value of a field can hold an object made before it.
-/

namespace ScriptBoundary

open Run

/-- A JSON number as a script shows it: an integer where thirty-two bits hold it. -/
def JsonNumber.tree : JsonNumber → ScriptTree
  | integer n =>
    match Word.ofInt? .i32 n with
    | some n => .int n
    | none => .number (.ofInt .f64 n)
  | real x => .number x

namespace Json

/-- What holds of a tree if it holds of what the tree is made of, holds of all trees. -/
@[elab_as_elim]
protected theorem induct {motive : Json → Prop} (null : motive .null)
    (bool : ∀ b, motive (.bool b)) (number : ∀ n, motive (.number n))
    (string : ∀ text, motive (.string text))
    (array : ∀ items, (∀ t ∈ items, motive t) → motive (.array items))
    (object : ∀ fields, (∀ f ∈ fields, motive f.2) → motive (.object fields)) (t : Json) :
    motive t :=
  @Json.rec motive (fun items => ∀ t ∈ items, motive t) (fun fields => ∀ f ∈ fields, motive f.2)
    (fun f => motive f.2) null bool number string array object
    (List.forall_mem_nil _) (fun _ _ head tail => List.forall_mem_cons.2 ⟨head, tail⟩)
    (List.forall_mem_nil _) (fun _ _ head tail => List.forall_mem_cons.2 ⟨head, tail⟩)
    (fun _ _ value => value) t

mutual

/-- The tree that a script shows a JSON tree as. -/
def tree : Json → ScriptTree
  | .null => .null
  | .bool b => .bool b
  | .number n => n.tree
  | .string text => .string text
  | .array items => .array (itemsTree items)
  | .object fields => .object (fieldsTree fields)

def itemsTree : List Json → List ScriptTree
  | [] => []
  | item :: rest => item.tree :: itemsTree rest

def fieldsTree : List (String × Json) → List (String × ScriptTree)
  | [] => []
  | (key, value) :: rest => (key, value.tree) :: fieldsTree rest

end

theorem itemsTree_eq (items : List Json) : itemsTree items = items.map tree := by
  induction items with
  | nil => rfl
  | cons t rest ih => rw [itemsTree, ih, List.map_cons]

theorem fieldsTree_eq (fields : List (String × Json)) :
    fieldsTree fields = fields.map fun f => (f.1, f.2.tree) := by
  induction fields with
  | nil => rfl
  | cons f rest ih => rw [fieldsTree, ih, List.map_cons]

theorem keys_fieldsTree (fields : List (String × Json)) :
    Keyed.keys (fieldsTree fields) = Keyed.keys fields := by
  rw [fieldsTree_eq, Keyed.keys, List.map_map]
  rfl

/-- No key comes twice in an object of the tree, and something is true of all its numbers. -/
inductive WellFormed (P : JsonNumber → Prop) : Json → Prop
  | null : WellFormed P .null
  | bool (b : Bool) : WellFormed P (.bool b)
  | number {n : JsonNumber} (h : P n) : WellFormed P (.number n)
  | string (text : String) : WellFormed P (.string text)
  | array {items : List Json} (h : ∀ item ∈ items, WellFormed P item) : WellFormed P (.array items)
  | object {fields : List (String × Json)} (keys : (Keyed.keys fields).Nodup)
      (h : ∀ f ∈ fields, WellFormed P f.2) : WellFormed P (.object fields)

end Json

namespace Heap

/-- An array or a plain object that one heap has and the other did not have. -/
def New (old h : Heap) : ScriptValue → Prop
  | .array a => old.arrays.size ≤ a.index ∧ a.index < h.arrays.size
  | .object o => old.objects.size ≤ o.index ∧ o.index < h.objects.size ∧ (h.ownKeys o).Nodup ∧
      ∃ properties, h.object o = { ScriptObject.plain with properties }
  | _ => True

variable {old h h' : Heap}

/-- What is newer than a heap is newer than the heaps before. -/
theorem New.of_keeps {among : ObjectId → Prop} {mid : Heap} (hk : old.Keeps among mid)
    {x : ScriptValue} (hx : mid.New h x) : old.New h x := by
  cases x with
  | array a => exact ⟨Nat.le_trans hk.arrays_le hx.1, hx.2⟩
  | object o => exact ⟨Nat.le_trans hk.objects_le hx.1, hx.2⟩
  | _ => trivial

/-- What was made since a heap is still shown when that much is kept. -/
theorem Shows.of_new (hk : h.Keeps (old.objects.size ≤ ·.index) h') {t : ScriptTree}
    {s : ScriptValue} (hs : h.Shows (old.New h) t s) : h'.Shows (old.New h') t s := by
  refine (hs.keeps hk (fun a ha => ha.2) fun o ho => ⟨ho.1, ho.2.1⟩).imp fun x hx => ?_
  cases x with
  | array a => exact ⟨hx.1, Nat.lt_of_lt_of_le hx.2 hk.arrays_le⟩
  | object o =>
    obtain ⟨hle, hlt, hplain⟩ := hx
    refine ⟨hle, Nat.lt_of_lt_of_le hlt hk.objects_le, ?_⟩
    rw [ownKeys, hk.object o hle hlt]
    exact hplain
  | _ => trivial

end Heap

namespace Json

/-- The tree is built in every state, of new arrays and plain objects, and nothing else changes. -/
def Builds (t : Json) : Prop :=
  ∀ w : World, ∃ s heap, t.toScript w = some (.ok s, { w with heap }) ∧
    w.heap.Keeps (fun _ => True) heap ∧ heap.Shows (w.heap.New heap) t.tree s

/-- The items of an array are built one after the other. -/
theorem exists_itemsToScript {items : List Json} (h : ∀ t ∈ items, t.Builds) (w : World) :
    ∃ ss heap, itemsToScript items w = some (.ok ss, { w with heap }) ∧
      w.heap.Keeps (fun _ => True) heap ∧
      List.Forall₂ (heap.Shows (w.heap.New heap)) (itemsTree items) ss := by
  induction items generalizing w with
  | nil => exact ⟨[], w.heap, rfl, .refl _ _, .nil⟩
  | cons t rest ih =>
    obtain ⟨s, heap, hs, hkeeps, hshows⟩ := h t List.mem_cons_self w
    obtain ⟨ss, heap', hss, hkeeps', hshows'⟩ :=
      ih (fun u hu => h u (List.mem_cons_of_mem _ hu)) { w with heap }
    refine ⟨s :: ss, heap', ?_, hkeeps.trans hkeeps', .cons ?_ ?_⟩
    · rw [itemsToScript, bind_ok hs, bind_ok hss]
      rfl
    · exact hshows.of_new (.of_all hkeeps')
    · exact hshows'.imp fun _ _ hu => hu.imp fun _ => .of_keeps hkeeps

/-- The fields of an object are put on it one after the other, behind those that it has. -/
theorem exists_fieldsToScript {fields : List (String × Json)} (h : ∀ f ∈ fields, f.2.Builds)
    {o : ObjectId} {given : List (String × Property)} (w : World)
    (ho : o.index < w.heap.objects.size)
    (hgiven : w.heap.object o = { ScriptObject.plain with properties := given })
    (hkeys : (Keyed.keys given ++ Keyed.keys fields).Nodup) :
    ∃ (values : List (String × ScriptValue)) (heap : Heap),
      fieldsToScript o fields w = some (.ok (), { w with heap }) ∧ w.heap.Keeps (· ≠ o) heap ∧
      heap.object o = { ScriptObject.plain with
        properties := given ++ values.map fun f => (f.1, .data f.2) } ∧
      Keyed.keys fields = Keyed.keys values ∧
      List.Forall₂ (heap.Shows (w.heap.New heap)) ((fieldsTree fields).map (·.2))
        (values.map (·.2)) := by
  induction fields generalizing given w with
  | nil =>
    refine ⟨[], w.heap, rfl, .refl _ _, ?_, rfl, .nil⟩
    rw [List.map_nil, List.append_nil]
    exact hgiven
  | cons f rest ih =>
    obtain ⟨key, t⟩ := f
    obtain ⟨s, heap, hs, hkeeps, hshows⟩ := h _ List.mem_cons_self w
    -- The key is new, so the value goes behind the others.
    have ho' : o.index < heap.objects.size := Nat.lt_of_lt_of_le ho hkeeps.objects_le
    have hkey : key ∉ Keyed.keys given := by
      intro hmem
      exact (List.nodup_append.1 hkeys).2.2 key hmem key List.mem_cons_self rfl
    have hput : (heap.insert o key s).object o =
        { ScriptObject.plain with properties := given ++ [(key, .data s)] } := by
      rw [Heap.insert, heap.object_define_self ho', hkeeps.object o trivial ho, hgiven,
        Keyed.put_of_not_mem hkey]
    have hinsert : heap.Keeps (· ≠ o) (heap.insert o key s) := .define _ (fun hne => hne rfl) _ _
    have hbefore : w.heap.Keeps (· ≠ o) (heap.insert o key s) :=
      (Heap.Keeps.of_all hkeeps).trans hinsert
    obtain ⟨values, heap', hvalues, hkeeps', hobject, hkeys', hshows'⟩ :=
      ih (fun g hg => h g (List.mem_cons_of_mem _ hg)) { w with heap := heap.insert o key s }
        (Nat.lt_of_lt_of_le ho' hinsert.objects_le) hput (by
          rw [Keyed.keys, List.map_append, List.append_assoc]
          exact hkeys)
    refine ⟨(key, s) :: values, heap', ?_, hbefore.trans hkeeps', ?_, ?_, .cons ?_ ?_⟩
    · rw [fieldsToScript, bind_ok hs, bind_ok (onHeap_apply _ _)]
      exact hvalues
    · rw [hobject, List.append_assoc]
      rfl
    · exact congrArg (key :: ·) hkeys'
    · refine hshows.of_new ((hinsert.trans hkeeps').imp ?_)
      rintro p hp rfl
      exact Nat.lt_irrefl _ (Nat.lt_of_lt_of_le ho hp)
    · exact hshows'.imp fun _ _ hu => hu.imp fun _ => .of_keeps hbefore

/-- Well-formed trees are built. -/
theorem WellFormed.builds {P : JsonNumber → Prop} {t : Json} (ht : t.WellFormed P) : t.Builds := by
  induction t using Json.induct with
  | number n =>
    intro w
    refine ⟨n.toScript, w.heap, rfl, .refl _ _, ?_⟩
    cases n with
    | real x => exact .number x
    | integer n =>
      rw [Json.tree, JsonNumber.tree, JsonNumber.toScript]
      cases Word.ofInt? .i32 n with
      | some i => exact .int i
      | none => exact .number _
  | array items ih =>
    intro w
    cases ht with
    | array hitems =>
      obtain ⟨ss, heap, hss, hkeeps, hshows⟩ :=
        exists_itemsToScript (fun t hmem => ih t hmem (hitems t hmem)) w
      have hnew : heap.Keeps (fun _ => True) (heap.newArray ss).1 := .newArray heap ss
      refine ⟨.array (heap.newArray ss).2, (heap.newArray ss).1, (bind_ok hss _).trans rfl,
        hkeeps.trans hnew, .array ⟨hkeeps.arrays_le, ?_⟩ ?_⟩
      · simp [Heap.newArray]
      · rw [heap.items_newArray]
        exact hshows.imp fun _ _ hu => hu.of_new (.of_all hnew)
  | object fields ih =>
    intro w
    cases ht with
    | object hkeys hfields =>
      let o := (w.heap.newObject .plain).2
      let w₀ : World := { w with heap := (w.heap.newObject .plain).1 }
      have hnew : w.heap.Keeps (fun _ => True) w₀.heap := .newObject w.heap .plain
      have ho : o.index < w₀.heap.objects.size := by simp [w₀, o, Heap.newObject]
      obtain ⟨values, heap, hputs, hkeeps, hobject, hkeys', hshows⟩ :=
        exists_fieldsToScript (fun f hf => ih f hf (hfields f hf)) w₀ ho (w.heap.object_newObject _)
          hkeys
      have hdata : (heap.object o).properties = values.map fun f => (f.1, .data f.2) := by
        rw [hobject]
        rfl
      have hnodup : (heap.ownKeys o).Nodup := by
        rw [Heap.ownKeys_of_data hdata, ← hkeys']
        exact hkeys
      refine ⟨.object o, heap, ?_, ?_, .object ⟨?_, ?_, hnodup, _, hobject⟩ hdata ?_ ?_⟩
      · exact (bind_ok (onHeap_apply _ w) _).trans ((bind_ok hputs _).trans rfl)
      · -- The object that was made is none of those that were there.
        refine ((Heap.Keeps.of_all hnew).trans (hkeeps.imp ?_)).all
        rintro p hp rfl
        exact Nat.lt_irrefl _ hp
      · exact Nat.le_refl _
      · exact Nat.lt_of_lt_of_le ho hkeeps.objects_le
      · rw [keys_fieldsTree, hkeys']
      · exact hshows.imp fun _ _ hu => hu.imp fun _ => .of_keeps hnew
  | _ =>
    intro w
    refine ⟨_, w.heap, rfl, .refl _ _, ?_⟩
    constructor

end Json

end ScriptBoundary
