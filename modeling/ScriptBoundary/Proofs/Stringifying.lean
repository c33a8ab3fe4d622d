import ScriptBoundary.Proofs.Lasting
import ScriptBoundary.Proofs.Trees

/-!
# Serialising what the heap shows

The JSON form of a script value depends on nothing but the tree that it is shown as: serialising
follows the places of the heap and gives the form of the tree (`Reentry.toJson_of_shows`), changes
nothing, and fails for want of a form only (`Reentry.jsonText_of_shows`).
-/

namespace ScriptBoundary

open Run

namespace ScriptTree

mutual

/-- The JSON form of a tree, if it has one. -/
def json? : ScriptTree → Option Json
  | .undefined | .function => none
  | .null => some .null
  | .bool b => some (.bool b)
  | .int n => some (.number (.integer n.val))
  | .uint n => some (.number (.integer n.val))
  | .number x => some x.toJson
  | .string text => some (.string text)
  | .date millis => some (Instant.dateToJson millis)
  | .array items => some (.array (itemsJson items))
  | .object fields => some (.object (fieldsJson fields))

/-- The JSON forms of the items of an array, null where there is none. -/
def itemsJson : List ScriptTree → List Json
  | [] => []
  | t :: rest => t.json?.getD .null :: itemsJson rest

/-- The fields of an object that have a JSON form. -/
def fieldsJson : List (String × ScriptTree) → List (String × Json)
  | [] => []
  | (key, t) :: rest => (t.json?.map (key, ·)).toList ++ fieldsJson rest

end

theorem itemsJson_eq (items : List ScriptTree) :
    itemsJson items = items.map (·.json?.getD .null) := by
  induction items with
  | nil => rfl
  | cons t rest ih => rw [itemsJson, ih, List.map_cons]

theorem fieldsJson_eq (fields : List (String × ScriptTree)) :
    fieldsJson fields = fields.filterMap fun f => f.2.json?.map (f.1, ·) := by
  induction fields with
  | nil => rfl
  | cons f rest ih =>
    rw [fieldsJson, ih, List.filterMap_cons]
    cases f.2.json? <;> rfl

end ScriptTree

namespace Reentry

variable (r : Reentry) {w : World}

theorem toJson_array (n : Nat) (a : ArrayId) :
    r.toJson (n + 1) (.array a) = (do
      let items ← (← Run.ofHeap (·.items a)).mapM (r.toJson n)
      return some (.array (items.map (·.getD .null)))) := rfl

theorem toJson_object (n : Nat) (o : ObjectId) :
    r.toJson (n + 1) (.object o) = (do
      let entries ← (r.entries o).mapError fun e => .conversion (.json e.message)
      let fields ← entries.mapM fun (key, value) => do
        return (← r.toJson n value).map (key, ·)
      return some (.object (fields.filterMap id))) := rfl

/-- A value is serialised as the tree that it is shown as. -/
theorem toJson_of_shows {P : ScriptValue → Prop}
    (hP : ∀ o, P (.object o) → (w.heap.ownKeys o).Nodup) {n : Nat} {t : ScriptTree}
    {s : ScriptValue} (hs : w.heap.Shows P t s) (hn : t.height < n) :
    r.toJson n s w = some (.ok t.json?, w) := by
  induction t generalizing n s with
  | array items ih =>
    obtain ⟨n, rfl⟩ := Nat.exists_eq_add_one_of_ne_zero (Nat.ne_zero_of_lt hn)
    cases hs with
    | @array a _ here held =>
      have hitems : List.Forall₂ (fun s j => r.toJson n s w = some (.ok j, w)) (w.heap.items a)
          (items.map ScriptTree.json?) := by
        rw [List.forall₂_map_right_iff]
        refine (forall₂_imp_of_mem held fun t ht s hts => ?_).flip
        have hlt := ScriptTree.height_lt_array ht
        exact ih t ht hts (by omega)
      rw [toJson_array, bind_ok (ofHeap_apply _ w), bind_ok (mapM_forall₂ hitems), List.map_map,
        ScriptTree.json?, ScriptTree.itemsJson_eq]
      rfl
  | object fields ih =>
    obtain ⟨n, rfl⟩ := Nat.exists_eq_add_one_of_ne_zero (Nat.ne_zero_of_lt hn)
    cases hs with
    | @object o _ values here data keys held =>
      have hnodup : (Keyed.keys values).Nodup := Heap.ownKeys_of_data data ▸ hP o here
      have hfields : List.Forall₂ (fun value field => (do
          return (← r.toJson n value.2).map (value.1, ·) : Run Error _) w = some (.ok field, w))
          values (fields.map fun f => f.2.json?.map (f.1, ·)) := by
        rw [List.forall₂_map_right_iff]
        refine (forall₂_imp_of_mem (forall₂_entries keys held) ?_).flip
        rintro ⟨key, t⟩ hf ⟨_, s⟩ ⟨rfl, hts⟩
        have hlt := ScriptTree.height_lt_object hf
        exact bind_ok (ih _ hf hts (by omega)) _
      rw [toJson_object, bind_ok (mapError_some (r.entries_of_data data hnodup) _)]
      refine (bind_ok (mapM_forall₂ hfields) _).trans ?_
      rw [List.filterMap_map, ScriptTree.json?, ScriptTree.fieldsJson_eq]
      rfl
  | _ =>
    obtain ⟨n, rfl⟩ := Nat.exists_eq_add_one_of_ne_zero (Nat.ne_zero_of_lt hn)
    cases hs
    rfl

/-- Serialising gives the text of the form of the tree, and fails exactly where there is none. -/
theorem jsonText_of_shows {P : ScriptValue → Prop}
    (hP : ∀ o, P (.object o) → (w.heap.ownKeys o).Nodup) {t : ScriptTree} {s : ScriptValue}
    (hs : w.heap.Shows P t s) (ht : t.height < r.depth) :
    r.jsonText s w = some (match t.json? with
      | some tree => .ok tree.render
      | none => .error (.conversion (.unsupported s.typeName)), w) := by
  rw [jsonText, bind_ok (r.toJson_of_shows hP hs ht)]
  cases t.json? <;> rfl

end Reentry

end ScriptBoundary
