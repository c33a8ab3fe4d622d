import ScriptBoundary.Proofs.Exactness
import ScriptBoundary.Proofs.Parsing
import ScriptBoundary.Proofs.Stringifying

/-!
# JSON trees that go through a script

A script has integers of thirty-two bits and doubles. So a JSON tree that becomes a script value and
is serialised again is the same tree except that its wider integers are doubles then
(`Json.widened`): a JSON tree keeps integers and doubles apart, and they are written differently.
-/

namespace ScriptBoundary

open Run

namespace JsonNumber

/-- A finite double or an integer that some double is equal to. -/
def IsExact : JsonNumber → Prop
  | integer n => n.natAbs ≤ 2 ^ 53
  | real x => x.isFinite = true

/-- A finite double or an integer of thirty-two bits. -/
def IsNarrow : JsonNumber → Prop
  | integer n => IntKind.i32.min ≤ n ∧ n ≤ IntKind.i32.max
  | real x => x.isFinite = true

/-- The number after it went through a script: an integer that thirty-two bits do not hold is the
double equal to it. -/
def widened : JsonNumber → JsonNumber
  | integer n =>
    if IntKind.i32.min ≤ n ∧ n ≤ IntKind.i32.max then integer n else real (.ofInt .f64 n)
  | real x => real x

end JsonNumber

namespace Json

mutual

/-- The tree after it went through a script. -/
def widened : Json → Json
  | .null => .null
  | .bool b => .bool b
  | .number n => .number n.widened
  | .string text => .string text
  | .array items => .array (itemsWidened items)
  | .object fields => .object (fieldsWidened fields)

def itemsWidened : List Json → List Json
  | [] => []
  | item :: rest => item.widened :: itemsWidened rest

def fieldsWidened : List (String × Json) → List (String × Json)
  | [] => []
  | (key, value) :: rest => (key, value.widened) :: fieldsWidened rest

end

theorem itemsWidened_eq (items : List Json) : itemsWidened items = items.map widened := by
  induction items with
  | nil => rfl
  | cons t rest ih => rw [itemsWidened, ih, List.map_cons]

theorem fieldsWidened_eq (fields : List (String × Json)) :
    fieldsWidened fields = fields.map fun f => (f.1, f.2.widened) := by
  induction fields with
  | nil => rfl
  | cons f rest ih => rw [fieldsWidened, ih, List.map_cons]

/-- A number that a script shows has the JSON form of the widened number. -/
theorem json?_tree_number {n : JsonNumber} (h : n.IsExact) :
    n.tree.json? = some (.number n.widened) := by
  cases n with
  | real x =>
    have hx : x.isFinite = true := h
    rw [JsonNumber.tree, ScriptTree.json?, Binary.toJson, if_pos hx]
    rfl
  | integer n =>
    by_cases hn : IntKind.i32.min ≤ n ∧ n ≤ IntKind.i32.max
    · rw [JsonNumber.tree, Word.ofInt?, dif_pos hn, JsonNumber.widened, if_pos hn]
      rfl
    · rw [JsonNumber.tree, Word.ofInt?, dif_neg hn, JsonNumber.widened, if_neg hn]
      rw [ScriptTree.json?, Binary.toJson, if_pos (Binary.isFinite_ofInt h)]

/-- A tree that a script shows has the JSON form of the widened tree. -/
theorem WellFormed.json?_tree {t : Json} (ht : t.WellFormed JsonNumber.IsExact) :
    t.tree.json? = some t.widened := by
  induction t using Json.induct with
  | number n =>
    cases ht with
    | number h => exact json?_tree_number h
  | array items ih =>
    cases ht with
    | array h =>
      rw [tree, ScriptTree.json?, itemsTree_eq, ScriptTree.itemsJson_eq, List.map_map, widened,
        itemsWidened_eq]
      refine congrArg (some ∘ Json.array) (List.map_congr_left fun t hmem => ?_)
      exact congrArg (Option.getD · .null) (ih t hmem (h t hmem))
  | object fields ih =>
    cases ht with
    | object keys h =>
      rw [tree, ScriptTree.json?, fieldsTree_eq, ScriptTree.fieldsJson_eq, List.filterMap_map,
        widened, fieldsWidened_eq, ← List.filterMap_eq_map]
      refine congrArg (some ∘ Json.object) (List.filterMap_congr fun f hmem => ?_)
      exact congrArg (Option.map (f.1, ·)) (ih f hmem (h f hmem))
  | _ => rfl

/-- A tree of narrow integers stays as it is. -/
theorem WellFormed.widened_eq {t : Json} (ht : t.WellFormed JsonNumber.IsNarrow) :
    t.widened = t := by
  induction t using Json.induct with
  | number n =>
    cases ht with
    | number h =>
      cases n with
      | integer n => exact congrArg Json.number (if_pos h)
      | real x => rfl
  | array items ih =>
    cases ht with
    | array h =>
      have hitems : ∀ t ∈ items, t.widened = t := fun t hmem => ih t hmem (h t hmem)
      rw [widened, itemsWidened_eq, List.map_congr_left hitems, List.map_id']
  | object fields ih =>
    cases ht with
    | object keys h =>
      have hfields : ∀ f ∈ fields, (f.1, f.2.widened) = f :=
        fun f hmem => Prod.ext rfl (ih f hmem (h f hmem))
      rw [widened, fieldsWidened_eq, List.map_congr_left hfields, List.map_id']
  | _ => rfl

/-- JSON trees survive a trip through a script, their integers widened to what a script has. A tree
in which no key comes twice in an object, with numbers that are finite doubles or integers of up to
fifty-three bits, becomes a script value of new arrays and plain objects that shows it. Wherever
there is room for its height, that value is serialised as the widened tree, which is the tree itself
if its integers have thirty-two bits; and so are the texts, as far as the reader reads what the
writer wrote. -/
theorem survives_script {t : Json} (ht : t.WellFormed JsonNumber.IsExact) (w : World) :
    ∃ s heap, t.toScript w = some (.ok s, { w with heap }) ∧
      heap.Shows (w.heap.New heap) t.tree s ∧
      (∀ r : Reentry, t.tree.height < r.depth →
        r.toJson r.depth s { w with heap } = some (.ok (some t.widened), { w with heap })) ∧
      (Json.parse t.render = .ok t →
        jsonTextToScript t.render w = some (.ok s, { w with heap }) ∧
        ∀ r : Reentry, t.tree.height < r.depth →
          r.jsonText s { w with heap } = some (.ok t.widened.render, { w with heap })) ∧
      (t.WellFormed JsonNumber.IsNarrow → t.widened = t) := by
  obtain ⟨s, heap, hbuilt, -, hshows⟩ := ht.builds w
  have hkeys : ∀ o, w.heap.New heap (.object o) → (heap.ownKeys o).Nodup := fun o ho => ho.2.2.1
  refine ⟨s, heap, hbuilt, hshows, fun r hr => ?_, fun hparse => ⟨?_, fun r hr => ?_⟩,
    WellFormed.widened_eq⟩
  · rw [Reentry.toJson_of_shows r hkeys hshows hr, ht.json?_tree]
  · rw [jsonTextToScript, hparse]
    exact hbuilt
  · rw [r.jsonText_of_shows hkeys hshows hr, ht.json?_tree]

/-- A tree with a small integer and one of thirty-three bits. -/
def sizes : Json := .object [("sizes", .array [.number (.integer 1), .number (.integer (2 ^ 32))])]

/-- The integers of the tree are those of doubles. -/
theorem wellFormed_sizes : sizes.WellFormed JsonNumber.IsExact := by
  refine .object (by decide) (List.forall_mem_singleton.2 (.array ?_))
  refine List.forall_mem_cons.2 ⟨.number ?_, List.forall_mem_singleton.2 (.number ?_)⟩
  · show (1 : Int).natAbs ≤ 2 ^ 53
    decide
  · show (2 ^ 32 : Int).natAbs ≤ 2 ^ 53
    decide

/-- The text of the tree comes back with the wide integer as a double. -/
theorem sizes_survive_script :
    ∃ s heap, jsonTextToScript "\x7b\"sizes\":[1,4294967296]\x7d" (World.start {}) =
        some (.ok s, { World.start {} with heap }) ∧
      (Catalog.empty.reentry 3).jsonText s { World.start {} with heap } =
        some (.ok "\x7b\"sizes\":[1,4294967296.0]\x7d", { World.start {} with heap }) := by
  have hparse : Json.parse sizes.render = .ok sizes := rfl
  have hwidened : sizes.widened.render = "\x7b\"sizes\":[1,4294967296.0]\x7d" := by decide +kernel
  obtain ⟨s, heap, -, -, -, htext, -⟩ := survives_script wellFormed_sizes (World.start {})
  obtain ⟨hread, hwritten⟩ := htext hparse
  refine ⟨s, heap, hread, ?_⟩
  rw [← hwidened]
  exact hwritten _ (by decide)

/-- An integer of thirty-three bits, alone, does not come back as the integer that it was. -/
theorem wide_integer_widened :
    (number (.integer (2 ^ 32))).WellFormed JsonNumber.IsExact ∧
      ¬ ∃ s w', (number (.integer (2 ^ 32))).toScript (World.start {}) = some (.ok s, w') ∧
        (Catalog.empty.reentry 1).toJson 1 s w' =
          some (.ok (some (number (.integer (2 ^ 32)))), w') := by
  refine ⟨.number (show (2 ^ 32 : Int).natAbs ≤ 2 ^ 53 by decide), ?_⟩
  rintro ⟨s, w', hmade, hback⟩
  cases hmade
  -- What a script has for it is a double, which is serialised as one.
  have hnumber : Binary.toJson (.ofInt .f64 (2 ^ 32)) = number (.integer (2 ^ 32)) :=
    Option.some.inj (Except.ok.inj (Prod.mk.inj (Option.some.inj hback)).1)
  unfold Binary.toJson at hnumber
  split at hnumber
  · injection hnumber with hnumber
    cases hnumber
  · cases hnumber

end Json

end ScriptBoundary
