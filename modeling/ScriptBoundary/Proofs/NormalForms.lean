import ScriptBoundary.Proofs.Exactness
import ScriptBoundary.Proofs.Parsing
import ScriptBoundary.Proofs.Stringifying

/-!
# The JSON normal form of a script value

Serialising a script value and reading it back leaves what JSON can say of it: its normal form. The
normal form is told here on trees, without the JSON tree between, and the two ways agree
(`ScriptTree.map_tree_json?`). A normal form is its own (`ScriptTree.normal?_normal`).
-/

namespace ScriptBoundary

open Run

namespace ScriptTree

mutual

/-- What is left of a tree in JSON; nothing is left of undefined and of a function. -/
def normal? : ScriptTree → Option ScriptTree
  | .undefined | .function => none
  | .null => some .null
  | .bool b => some (.bool b)
  | .int n => some (.int n)
  | .uint n =>
    match Word.ofInt? .i32 n.val with
    | some n => some (.int n)
    | none => some (.number (.ofInt .f64 n.val))
  | .number x => if x.isFinite then some (.number x) else some .null
  | .string text => some (.string text)
  | .date millis =>
    match Instant.ofDateSaturating? millis with
    | some t => some (.string (t.text .needed "+00:00"))
    | none => some .null
  | .array items => some (.array (normalItems items))
  | .object fields => some (.object (normalFields fields))

/-- In an array there is null in the place of what JSON cannot say. -/
def normalItems : List ScriptTree → List ScriptTree
  | [] => []
  | t :: rest => t.normal?.getD .null :: normalItems rest

/-- In an object there is nothing for what JSON cannot say. -/
def normalFields : List (String × ScriptTree) → List (String × ScriptTree)
  | [] => []
  | (key, t) :: rest => (t.normal?.map (key, ·)).toList ++ normalFields rest

end

theorem normalItems_eq (items : List ScriptTree) :
    normalItems items = items.map (·.normal?.getD .null) := by
  induction items with
  | nil => rfl
  | cons t rest ih => rw [normalItems, ih, List.map_cons]

theorem normalFields_eq (fields : List (String × ScriptTree)) :
    normalFields fields = fields.filterMap fun f => f.2.normal?.map (f.1, ·) := by
  induction fields with
  | nil => rfl
  | cons f rest ih =>
    rw [normalFields, ih, List.filterMap_cons]
    cases f.2.normal? <;> rfl

/-! ## Through JSON -/

/-- The tree that a script shows the JSON form as is the normal form. -/
theorem map_tree_json? (t : ScriptTree) : t.json?.map Json.tree = t.normal? := by
  induction t with
  | int n =>
    show some (JsonNumber.tree (.integer n.val)) = _
    rw [JsonNumber.tree, Word.ofInt?_val]
    rfl
  | uint n =>
    show some (JsonNumber.tree (.integer n.val)) = _
    rw [JsonNumber.tree, normal?]
    cases Word.ofInt? .i32 n.val <;> rfl
  | number x =>
    show some x.toJson.tree = _
    rw [Binary.toJson, normal?]
    cases x.isFinite <;> rfl
  | date millis =>
    show some (Instant.dateToJson millis).tree = _
    rw [Instant.dateToJson, normal?]
    cases Instant.ofDateSaturating? millis <;> rfl
  | array items ih =>
    refine congrArg (some ∘ array) ?_
    rw [itemsJson_eq, Json.itemsTree_eq, List.map_map, normalItems_eq]
    refine List.map_congr_left fun t ht => ?_
    rw [← ih t ht, Function.comp_apply]
    cases t.json? <;> rfl
  | object fields ih =>
    refine congrArg (some ∘ object) ?_
    rw [fieldsJson_eq, Json.fieldsTree_eq, List.map_filterMap, normalFields_eq]
    refine List.filterMap_congr fun f hf => ?_
    rw [← ih f hf, Option.map_map, Option.map_map]
    rfl
  | _ => rfl

/-! ## Normal forms are normal -/

/-- Taking the normal form again changes nothing. -/
theorem normal?_normal {t u : ScriptTree} (h : t.normal? = some u) : u.normal? = some u := by
  induction t generalizing u with
  | undefined => cases h
  | function => cases h
  | uint n =>
    rw [normal?] at h
    split at h
    · cases h
      rfl
    · cases h
      have hle : n.val.natAbs ≤ 2 ^ 53 := by
        have hmin : 0 ≤ n.val := n.min_le
        have hmax : n.val ≤ 2 ^ 32 - 1 := n.le_max
        omega
      rw [normal?, if_pos (Binary.isFinite_ofInt hle)]
  | number x =>
    rw [normal?] at h
    split at h
    · next hx =>
      cases h
      exact if_pos hx
    · cases h
      rfl
  | date millis =>
    rw [normal?] at h
    split at h <;> cases h <;> rfl
  | array items ih =>
    cases h
    refine congrArg (some ∘ array) ?_
    rw [normalItems_eq, normalItems_eq, List.map_map]
    refine List.map_congr_left fun t ht => ?_
    rw [Function.comp_apply]
    cases hu : t.normal? with
    | none => rfl
    | some u => exact congrArg (Option.getD · .null) (ih t ht hu)
  | object fields ih =>
    cases h
    refine congrArg (some ∘ object) ?_
    rw [normalFields_eq, normalFields_eq, List.filterMap_filterMap]
    refine List.filterMap_congr fun f hf => ?_
    cases hu : f.2.normal? with
    | none => rfl
    | some u => exact congrArg (Option.map (f.1, ·)) (ih f hf hu)
  | _ =>
    cases h
    rfl

/-- Undefined and functions alone have no normal form. -/
theorem normal?_eq_none_iff {t : ScriptTree} :
    t.normal? = none ↔ t = .undefined ∨ t = .function := by
  constructor
  · intro h
    cases t with
    | undefined => exact .inl rfl
    | function => exact .inr rfl
    | uint n | number x | date millis =>
      rw [normal?] at h
      split at h <;> cases h
    | _ => cases h
  · rintro (rfl | rfl) <;> rfl

/-! ## What serialising leaves -/

theorem keys_fieldsJson_sublist (fields : List (String × ScriptTree)) :
    (Keyed.keys (fieldsJson fields)).Sublist (Keyed.keys fields) := by
  induction fields with
  | nil => exact .slnil
  | cons f rest ih =>
    rw [fieldsJson]
    cases f.2.json? with
    | none => exact ih.cons _
    | some tree => exact ih.cons_cons _

theorem mem_itemsJson {items : List ScriptTree} {tree : Json} (h : tree ∈ itemsJson items) :
    tree = .null ∨ ∃ t ∈ items, t.json? = some tree := by
  rw [itemsJson_eq] at h
  obtain ⟨t, ht, rfl⟩ := List.mem_map.1 h
  cases hj : t.json? with
  | none => exact .inl rfl
  | some tree => exact .inr ⟨t, ht, hj⟩

theorem mem_fieldsJson {fields : List (String × ScriptTree)} {field : String × Json}
    (h : field ∈ fieldsJson fields) : ∃ f ∈ fields, f.2.json? = some field.2 := by
  rw [fieldsJson_eq] at h
  obtain ⟨f, hf, hj⟩ := List.mem_filterMap.1 h
  obtain ⟨tree, htree, rfl⟩ := Option.map_eq_some_iff.1 hj
  exact ⟨f, hf, htree⟩

end ScriptTree

theorem Binary.wellFormed_toJson (x : Binary .f64) : x.toJson.WellFormed fun _ => True := by
  unfold Binary.toJson
  split
  · exact .number trivial
  · exact .null

theorem Instant.wellFormed_dateToJson (millis : Binary .f64) :
    (Instant.dateToJson millis).WellFormed fun _ => True := by
  unfold Instant.dateToJson
  split
  · exact .string _
  · exact .null

/-- The JSON form of what a heap shows has no key twice in an object. -/
theorem Heap.Shows.wellFormed_json {h : Heap} {P : ScriptValue → Prop}
    (hP : ∀ o, P (.object o) → (h.ownKeys o).Nodup) {t : ScriptTree} {s : ScriptValue}
    (hs : h.Shows P t s) {tree : Json} (htree : t.json? = some tree) :
    tree.WellFormed fun _ => True := by
  induction t generalizing s tree with
  | array items ih =>
    cases htree
    cases hs with
    | array here held =>
      refine .array fun tree hmem => ?_
      rcases ScriptTree.mem_itemsJson hmem with rfl | ⟨t, ht, hj⟩
      · exact .null
      · obtain ⟨s, -, hts⟩ := exists_of_forall₂_of_mem held.flip ht
        exact ih t ht hts hj
  | object fields ih =>
    cases htree
    cases hs with
    | @object o _ values here data keys held =>
      refine .object ?_ fun field hmem => ?_
      · refine (ScriptTree.keys_fieldsJson_sublist fields).nodup ?_
        rw [keys, ← Heap.ownKeys_of_data data]
        exact hP o here
      · obtain ⟨f, hf, hj⟩ := ScriptTree.mem_fieldsJson hmem
        obtain ⟨s, -, hts⟩ := exists_of_forall₂_of_mem held.flip (List.mem_map_of_mem hf)
        exact ih f hf hts hj
  | undefined => cases htree
  | function => cases htree
  | null => cases htree; exact .null
  | bool b => cases htree; exact .bool b
  | int n => cases htree; exact .number trivial
  | uint n => cases htree; exact .number trivial
  | number x => cases htree; exact x.wellFormed_toJson
  | string text => cases htree; exact .string text
  | date millis => cases htree; exact Instant.wellFormed_dateToJson millis

/-- A value has no JSON form: it is undefined or a function. -/
def ScriptValue.IsFormless (s : ScriptValue) : Prop := s = .undefined ∨ ∃ f, s = .function f

/-- What is shown has a normal form unless it is formless. -/
theorem Heap.Shows.normal?_eq_none_iff {h : Heap} {P : ScriptValue → Prop} {t : ScriptTree}
    {s : ScriptValue} (hs : h.Shows P t s) : t.normal? = none ↔ s.IsFormless := by
  rw [ScriptTree.normal?_eq_none_iff]
  constructor
  · rintro (rfl | rfl)
    · cases hs
      exact .inl rfl
    · cases hs with
      | function f => exact .inr ⟨f, rfl⟩
  · rintro (rfl | ⟨f, rfl⟩)
    · cases hs
      exact .inl rfl
    · cases hs
      exact .inr rfl

/-- Reading back what serialising gives, gives the JSON normal form. In a heap without a key twice
in an object, an acyclic value of data properties is shown as a tree. Wherever there is room for the
height of the tree, serialising leaves the state as it is; it fails for undefined and functions and
for nothing else, and what it gives is read back as a value that the heap shows as the normal form
of the tree, with every array and object of it new. A normal form is its own. -/
theorem Heap.Acyclic.reads_back {w : World} (htidy : w.heap.Tidy) {s : ScriptValue}
    (hacyclic : w.heap.Acyclic s) (hdata : w.heap.DataOnly s) :
    (∃ t, w.heap.Shows (fun _ => True) t s) ∧
    ∀ t, w.heap.Shows (fun _ => True) t s → ∀ r : Reentry, t.height < r.depth →
      (s.IsFormless →
        r.jsonText s w = some (.error (.conversion (.unsupported s.typeName)), w)) ∧
      (¬ s.IsFormless → ∃ tree normal s' heap,
        r.toJson r.depth s w = some (.ok (some tree), w) ∧
        r.jsonText s w = some (.ok tree.render, w) ∧
        t.normal? = some normal ∧ normal.normal? = some normal ∧
        tree.toScript w = some (.ok s', { w with heap }) ∧
        heap.Shows (w.heap.New heap) normal s') := by
  refine ⟨Heap.exists_shows hacyclic hdata fun _ _ => trivial, fun t ht r hr => ?_⟩
  have hkeys : ∀ o, True → (w.heap.ownKeys o).Nodup := fun o _ => htidy o
  have htext := r.jsonText_of_shows hkeys ht hr
  have htree := r.toJson_of_shows hkeys ht hr
  -- A tree has a JSON form exactly where it has a normal form.
  have hnormal := t.map_tree_json?
  have hnone := ht.normal?_eq_none_iff
  constructor
  · intro hformless
    rw [hnone.2 hformless, Option.map_eq_none_iff] at hnormal
    rw [htext, hnormal]
  · intro hform
    cases hj : t.json? with
    | none =>
      rw [hj] at hnormal
      exact absurd (hnone.1 hnormal.symm) hform
    | some tree =>
      rw [hj] at htext htree hnormal
      obtain ⟨s', heap, hread, -, hshows⟩ := (ht.wellFormed_json hkeys hj).builds w
      exact ⟨tree, tree.tree, s', heap, htree, htext, hnormal.symm,
        ScriptTree.normal?_normal hnormal.symm, hread, hshows⟩

/-- A state with an array of a gap, of the greatest unsigned integer and of an object that holds
not-a-number and nothing. -/
def pantry : World where
  heap := {
    arrays := #[[.undefined, .uint (.clamp .u32 (2 ^ 32 - 1)), .object ⟨1⟩]]
    objects := #[.plain,
      ⟨"Object", [], none, [("count", .data (.number .nan)), ("label", .data .undefined)]⟩] }

theorem tidy_pantry : pantry.heap.Tidy := by
  rintro ⟨_ | _ | n⟩
  · decide
  · decide
  · exact List.nodup_nil

/-- The gap and the number are null then, the integer a double, and the nothing is gone. -/
theorem pantry_reads_back :
    ∃ tree s' heap,
      (Catalog.empty.reentry 3).toJson 3 (.array ⟨0⟩) pantry = some (.ok (some tree), pantry) ∧
      tree.toScript pantry = some (.ok s', { pantry with heap }) ∧
      heap.Shows (pantry.heap.New heap)
        (.array [.null, .number (.ofInt .f64 (2 ^ 32 - 1)), .object [("count", .null)]]) s' := by
  have hfields : (pantry.heap.object ⟨1⟩).properties =
      [("count", .number .nan), ("label", .undefined)].map fun f => (f.1, .data f.2) := rfl
  have hshows : pantry.heap.Shows (fun _ => True)
      (.array [.undefined, .uint (.clamp .u32 (2 ^ 32 - 1)),
        .object [("count", .number .nan), ("label", .undefined)]]) (.array ⟨0⟩) := by
    refine .array trivial (.cons .undefined (.cons (.uint _) (.cons ?_ .nil)))
    exact .object trivial hfields rfl (.cons (.number _) (.cons .undefined .nil))
  obtain ⟨-, hback⟩ := Heap.Acyclic.reads_back tidy_pantry hshows.acyclic hshows.dataOnly
  obtain ⟨-, hform⟩ := hback _ hshows (Catalog.empty.reentry 3) (by decide)
  obtain ⟨tree, normal, s', heap, htree, -, hnormal, -, hread, hheap⟩ :=
    hform (by rintro (h | ⟨f, h⟩) <;> cases h)
  cases hnormal
  exact ⟨tree, s', heap, htree, hread, hheap⟩

end ScriptBoundary
