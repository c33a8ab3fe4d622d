import ScriptBoundary.Proofs.Lasting

/-!
# What is written on objects

For the properties of its objects, whatever happens to a heap is a sequence of definitions
(`Heap.Records`): building a prototype is one, and so is every run (`Catalog.Moves.records`). What
such a sequence makes of a heap is told for each object (`Heap.Updates`): its names stand in the
order in which they were first defined, none of them twice, and under each is what was defined last.
One definition keeps this (`Updates.write`), so a whole sequence does (`Records.updates`).
-/

namespace ScriptBoundary

/-- A property that was defined on an object under a name. -/
structure Writing where
  object : ObjectId
  key : String
  property : Property

/-- What was defined on an object, in order. -/
def writtenTo (o : ObjectId) (ws : List Writing) : List (String × Property) :=
  (ws.filter (·.object = o)).map fun w => (w.key, w.property)

theorem writtenTo_concat_self (ws : List Writing) (o : ObjectId) (key : String)
    (property : Property) :
    writtenTo o (ws ++ [⟨o, key, property⟩]) = writtenTo o ws ++ [(key, property)] := by
  simp [writtenTo]

theorem writtenTo_concat_of_ne {o p : ObjectId} (hne : p ≠ o) (ws : List Writing) (key : String)
    (property : Property) : writtenTo p (ws ++ [⟨o, key, property⟩]) = writtenTo p ws := by
  simp [writtenTo, Ne.symm hne]

namespace Heap

/-- What defining a property writes: nothing where no object is. -/
def writing (h : Heap) (o : ObjectId) (key : String) (property : Property) : List Writing :=
  if o.index < h.objects.size then [⟨o, key, property⟩] else []

/-- The properties of the objects of the second heap are those of the first with a sequence of
definitions made, each on an object that was there. -/
inductive Records (h : Heap) : List Writing → Heap → Prop
  | nothing : Records h [] h
  | write {ws : List Writing} {h' : Heap} {o : ObjectId} (before : Records h ws h')
      (made : o.index < h'.objects.size) (key : String) (property : Property) :
      Records h (ws ++ [⟨o, key, property⟩]) (h'.define o key property)
  /-- Something else happens to the heap. -/
  | other {ws : List Writing} {h' h'' : Heap} (before : Records h ws h')
      (same : ∀ o, (h''.object o).properties = (h'.object o).properties) : Records h ws h''

/-- The properties of the objects of the second heap are what a sequence of definitions makes of
those of the first. -/
structure Updates (h : Heap) (ws : List Writing) (h' : Heap) : Prop where
  /-- No name comes twice. -/
  once : h'.Tidy
  /-- The names that were there come first, then the others in the order in which they were first
  defined. -/
  first : ∀ o, h'.ownKeys o = (h.ownKeys o ++ (writtenTo o ws).map (·.1)).eraseDups
  /-- Under each name is what was defined last, or what was there. -/
  last : ∀ o key, h'.own? o key = (Keyed.get? key (writtenTo o ws).reverse).or (h.own? o key)

variable {h h' h'' : Heap} {ws ws' : List Writing} {o : ObjectId}

/-! ## What a sequence of definitions makes -/

namespace Updates

/-- Without a definition everything stays. -/
theorem nothing (ht : h.Tidy) : h.Updates [] h where
  once := ht
  first o := by
    rw [writtenTo, List.filter_nil, List.map_nil, List.map_nil, List.append_nil]
    exact (Keyed.eraseDups_of_nodup (ht o)).symm
  last _ _ := rfl

/-- One more definition is made of what the ones before it made. -/
theorem write (hu : h.Updates ws h') (ho : o.index < h'.objects.size) (key : String)
    (property : Property) :
    h.Updates (ws ++ [⟨o, key, property⟩]) (h'.define o key property) where
  once := hu.once.define o key property
  first p := by
    by_cases hp : p = o
    · subst hp
      rw [h'.ownKeys_define ho, hu.first p, writtenTo_concat_self, List.map_append,
        ← List.append_assoc]
      exact (Keyed.eraseDups_concat _ key).symm
    · rw [ownKeys, h'.object_define_of_ne hp, writtenTo_concat_of_ne hp]
      exact hu.first p
  last p other := by
    by_cases hp : p = o
    · subst hp
      rw [writtenTo_concat_self, List.reverse_concat, Keyed.get?]
      by_cases hkey : key = other
      · subst hkey
        rw [if_pos rfl, h'.own?_define_self ho, Option.some_or]
      · rw [if_neg hkey, h'.own?_define_of_ne (Ne.symm hkey)]
        exact hu.last p other
    · rw [own?, h'.object_define_of_ne hp, writtenTo_concat_of_ne hp]
      exact hu.last p other

/-- Only the properties count. -/
theorem other (hu : h.Updates ws h')
    (same : ∀ o, (h''.object o).properties = (h'.object o).properties) : h.Updates ws h'' where
  once o := by
    rw [ownKeys, same]
    exact hu.once o
  first o := by
    rw [ownKeys, same]
    exact hu.first o
  last o key := by
    rw [own?, same]
    exact hu.last o key

/-- The names that were there come first, in the order that they had. -/
theorem ownKeys_first (hu : h.Updates ws h') (ht : h.Tidy) (o : ObjectId) :
    h.ownKeys o <+: h'.ownKeys o := by
  rw [hu.first o, List.eraseDups_append, Keyed.eraseDups_of_nodup (ht o)]
  exact ⟨_, rfl⟩

end Updates

namespace Records

/-- A sequence of definitions makes of a tidy heap what it is said to make. -/
theorem updates (hrecords : h.Records ws h') (ht : h.Tidy) : h.Updates ws h' := by
  -- By induction on the sequence, with one definition at its end.
  induction hrecords with
  | nothing => exact .nothing ht
  | write _ made key property ih => exact ih.write made key property
  | other _ same ih => exact ih.other same

/-! ## Everything that happens is a sequence of definitions -/

/-- One sequence of definitions after the other. -/
theorem trans (hrecords : h.Records ws h') (hmore : h'.Records ws' h'') :
    h.Records (ws ++ ws') h'' := by
  induction hmore with
  | nothing =>
    rw [List.append_nil]
    exact hrecords
  | write _ made key property ih =>
    rw [← List.append_assoc]
    exact ih.write made key property
  | other _ same ih => exact ih.other same

/-- What leaves the properties defines nothing. -/
theorem of_same (same : ∀ o, (h'.object o).properties = (h.object o).properties) :
    h.Records [] h' := nothing.other same

theorem newArray (h : Heap) (items : List ScriptValue) : h.Records [] (h.newArray items).1 :=
  of_same fun _ => rfl

theorem newFunction (h : Heap) (f : ScriptFunction) : h.Records [] (h.newFunction f).1 :=
  of_same fun _ => rfl

/-- A new object has no properties that were not defined. -/
theorem newObject {object : ScriptObject} (hbare : object.properties = []) :
    h.Records [] (h.newObject object).1 := by
  refine of_same fun p => ?_
  rcases h.object_newObject_cases p object with hsame | ⟨hdefault, hnew⟩
  · rw [hsame]
  · rw [hnew, hdefault]
    exact hbare

end Records

/-- Defining a property where no object is does nothing. -/
theorem define_of_size_le (hge : h.objects.size ≤ o.index) (key : String) (property : Property) :
    h.define o key property = h := by
  have hmodify : h.objects.modify o.index (fun object =>
      { object with properties := Keyed.put key property object.properties }) = h.objects := by
    simp [Array.modify, Array.modifyM, Nat.not_lt.2 hge]
  rw [Heap.define, hmodify]

namespace Records

/-- Defining a property is one definition, or none. -/
theorem define (h : Heap) (o : ObjectId) (key : String) (property : Property) :
    h.Records (h.writing o key property) (h.define o key property) := by
  unfold writing
  split
  · next hlt => exact nothing.write hlt key property
  · next hge =>
    rw [define_of_size_le (Nat.not_lt.1 hge)]
    exact nothing

/-- A prototype gets its properties one by one. -/
theorem exists_newPrototype (h : Heap) (plans : List MemberPlan) :
    ∃ ws, h.Records ws (h.newPrototype plans).1 := by
  have hadd : ∀ (plans : List MemberPlan) (prototype : ObjectId) (h : Heap),
      ∃ ws, h.Records ws (plans.foldl (Heap.addMember prototype) h) := by
    intro plans
    induction plans with
    | nil => exact fun _ h => ⟨[], nothing⟩
    | cons plan plans ih =>
      intro prototype h
      obtain ⟨property, hadded⟩ := h.exists_addMember_eq prototype plan
      have hmember : ∃ ws, h.Records ws (Heap.addMember prototype h plan) := by
        rw [hadded]
        exact ⟨_, (newFunction h _).trans (define _ prototype plan.name property)⟩
      obtain ⟨ws, hmember⟩ := hmember
      obtain ⟨ws', hrest⟩ := ih prototype (Heap.addMember prototype h plan)
      exact ⟨ws ++ ws', hmember.trans hrest⟩
  obtain ⟨ws, hadded⟩ := hadd plans (h.newObject .plain).2 (h.newObject .plain).1
  exact ⟨_, (newObject rfl).trans hadded⟩

theorem exists_of_alters (ha : h.Alters h') : ∃ ws, h.Records ws h' := by
  cases ha with
  | newObject _ bare => exact ⟨[], newObject bare⟩
  | define o key property => exact ⟨_, define h o key property⟩
  | _ => exact ⟨[], of_same fun _ => rfl⟩

end Records

end Heap

namespace Catalog

variable {catalog : Catalog} {w u : World}

/-- Every move is a sequence of definitions. -/
theorem Move.records (hmove : catalog.Move w u) : ∃ ws, w.heap.Records ws u.heap := by
  cases hmove with
  | heap alters => exact Heap.Records.exists_of_alters alters
  | proxy => exact ⟨[], .newObject rfl⟩
  | build => exact Heap.Records.exists_newPrototype _ _
  | _ => exact ⟨[], .nothing⟩

/-- Every run is a sequence of definitions. -/
theorem Moves.records (hmoves : catalog.Moves w u) : ∃ ws, w.heap.Records ws u.heap := by
  induction hmoves with
  | refl => exact ⟨[], .nothing⟩
  | tail _ hmove ih =>
    obtain ⟨ws, hbefore⟩ := ih
    obtain ⟨ws', hafter⟩ := hmove.records
    exact ⟨ws ++ ws', hbefore.trans hafter⟩

end Catalog

/-- Whatever a session does is a sequence of definitions. -/
theorem Session.Visits.records {catalog : Catalog} {w u : World} (hvisits : Visits catalog w u) :
    ∃ ws, w.heap.Records ws u.heap := by
  refine hvisits.invariant (P := fun u => ∃ ws, w.heap.Records ws u.heap) ?_ ?_ ⟨[], .nothing⟩
  · rintro v v' hmove ⟨ws, hbefore⟩
    obtain ⟨ws', hafter⟩ := hmove.records
    exact ⟨ws ++ ws', hbefore.trans hafter⟩
  · rintro v _ ⟨_, _, _, _, rfl⟩ hbefore
    exact hbefore

end ScriptBoundary
