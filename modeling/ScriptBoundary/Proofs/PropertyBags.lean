import ScriptBoundary.Proofs.Accessors

/-!
# Objects as bags of properties

An object is a list of properties by name with a chain of prototypes. Writing a property asks the
chain, and then runs a setter, refuses, or defines a property of the object itself; where it finds
no setter to run, it touches one name of one object at most and replaces no accessor
(`World.SetsOwn`). What operations write one after the other (`Catalog.Writes`) is what happens to
the heap, so each object lists its names in the order in which they were first written. Listing the
entries of an object reads the names that it has when the listing starts (`Reentry.Reads`).
-/

namespace ScriptBoundary

open Run

/-! ## Writing without a setter -/

namespace Heap

variable {h : Heap} {o p : ObjectId} {key name : String}

/-- Where the chain of an object first comes to another, it goes on as the chain of that other. -/
def InheritsFrom (h : Heap) (p o : ObjectId) : Prop :=
  ∃ nearer, o ∉ nearer ∧ h.chain p = nearer ++ h.chain o

/-- An own property is the nearest. -/
theorem lookup?_of_own? {property : Property} (hown : h.own? o key = some property) :
    h.lookup? o key = some property := by
  rw [lookup?, chain, List.findSome?_cons, hown]

/-- Defining a property leaves all but the properties of objects. -/
theorem exists_object_define (h : Heap) (o : ObjectId) (key : String) (property : Property)
    (p : ObjectId) :
    ∃ properties, (h.define o key property).object p = { h.object p with properties } := by
  by_cases hp : p = o
  · subst hp
    rcases Nat.lt_or_ge p.index h.objects.size with hlt | hge
    · exact ⟨_, h.object_define_self hlt key property⟩
    · rw [define_of_size_le hge]
      exact ⟨_, rfl⟩
  · rw [h.object_define_of_ne hp]
    exact ⟨_, rfl⟩

/-- Defining a property leaves the chains of prototypes. -/
theorem chain_define (h : Heap) (o : ObjectId) (key : String) (property : Property)
    (p : ObjectId) : (h.define o key property).chain p = h.chain p := by
  obtain ⟨properties, hobject⟩ := h.exists_object_define o key property p
  rw [chain, hobject, chain]

/-- Defining a property leaves what is found under other names. -/
theorem lookup?_define_of_ne (hne : name ≠ key) (property : Property) (p : ObjectId) :
    (h.define o key property).lookup? p name = h.lookup? p name := by
  have hown : (fun q => (h.define o key property).own? q name) = fun q => h.own? q name :=
    funext fun _ => h.own?_define_of_ne hne property
  rw [lookup?, chain_define, hown, ← lookup?]

/-- Defining a property leaves what is found among other objects. -/
theorem findSome?_define {l : List ObjectId} (hnot : o ∉ l) (property : Property) :
    l.findSome? ((h.define o key property).own? · name) = l.findSome? (h.own? · name) := by
  induction l with
  | nil => rfl
  | cons q l ih =>
    obtain ⟨hq, hl⟩ := List.ne_and_not_mem_of_not_mem_cons hnot
    have hown : (h.define o key property).own? q name = h.own? q name := by
      rw [own?, h.object_define_of_ne (Ne.symm hq), ← own?]
    rw [List.findSome?_cons, List.findSome?_cons, hown, ih hl]

/-- Defining a property where no accessor is found hides no accessor from the objects that inherit
from its object. -/
theorem lookup?_define_of_free (hfree : h.Free o key) (hp : o ∈ h.chain p → h.InheritsFrom p o)
    (property : Property) {getter setter : Option FunctionId}
    (hfound : h.lookup? p name = some (.accessor getter setter)) :
    (h.define o key property).lookup? p name = some (.accessor getter setter) := by
  by_cases hname : name = key
  · subst hname
    rw [lookup?, chain_define]
    by_cases hmem : o ∈ h.chain p
    · obtain ⟨nearer, hnot, hchain⟩ := hp hmem
      rw [lookup?, hchain, List.findSome?_append] at hfound
      rw [hchain, List.findSome?_append, findSome?_define hnot]
      -- Past the nearer objects the accessor would be found from the object itself.
      cases hnearer : nearer.findSome? (h.own? · name) with
      | none =>
        rw [hnearer, Option.none_or] at hfound
        exact absurd hfound (hfree getter setter)
      | some found =>
        rw [hnearer] at hfound
        exact hfound
    · rw [findSome?_define hmem]
      exact hfound
  · rw [lookup?_define_of_ne hname]
    exact hfound

end Heap

/-- The second state is what writing a property without running a setter makes of the first. -/
structure World.SetsOwn (w : World) (o : ObjectId) (key : String) (outcome : Except Error Unit)
    (w' : World) : Prop where
  /-- Nothing but objects is touched. -/
  objects : ∃ objects, w' = { w with heap := { w.heap with objects } }
  /-- Of the object itself nothing but properties is touched. -/
  self : ∃ properties, w'.heap.object o = { w.heap.object o with properties }
  /-- No other object is touched. -/
  apart : ∀ p ≠ o, w'.heap.object p = w.heap.object p
  /-- No other name is touched. -/
  others : ∀ name ≠ key, w'.heap.own? o name = w.heap.own? o name
  /-- Accessors of any object stay. -/
  accessors : ∀ {p name getter setter}, w.heap.own? p name = some (.accessor getter setter) →
    w'.heap.own? p name = some (.accessor getter setter)
  /-- Accessors that the object has or inherits are still found. -/
  inherited : ∀ {name getter setter}, w.heap.lookup? o name = some (.accessor getter setter) →
    w'.heap.lookup? o name = some (.accessor getter setter)
  /-- So are those of objects that inherit from the object, and of all others. -/
  heirs : ∀ {p}, (o ∈ w.heap.chain p → w.heap.InheritsFrom p o) →
    ∀ {name getter setter}, w.heap.lookup? p name = some (.accessor getter setter) →
      w'.heap.lookup? p name = some (.accessor getter setter)
  /-- A failure leaves everything. -/
  failed : ∀ {e}, outcome = .error e → w' = w

namespace World.SetsOwn

variable {w : World} {o : ObjectId} {key : String}

/-- A refusal touches nothing. -/
theorem of_readOnly (w : World) (o : ObjectId) (key : String) (outcome : Except Error Unit) :
    w.SetsOwn o key outcome w where
  objects := ⟨w.heap.objects, rfl⟩
  self := ⟨_, rfl⟩
  apart _ _ := rfl
  others _ _ := rfl
  accessors := id
  inherited := id
  heirs _ := id
  failed _ := rfl

/-- A property that is defined is one name of one object. -/
theorem of_free (hfree : w.heap.Free o key) (value : ScriptValue) :
    w.SetsOwn o key (.ok ()) { w with heap := w.heap.insert o key value } where
  objects := ⟨_, rfl⟩
  self := w.heap.exists_object_define o key _ o
  apart _ hp := w.heap.object_define_of_ne hp _ _
  others _ hname := w.heap.own?_define_of_ne hname _
  accessors {p name getter setter} hown := by
    by_cases hp : p = o
    · subst hp
      have hname : name ≠ key := by
        rintro rfl
        exact hfree getter setter (Heap.lookup?_of_own? hown)
      exact (w.heap.own?_define_of_ne hname _).trans hown
    · show Keyed.get? name ((w.heap.define o key _).object p).properties = _
      rw [w.heap.object_define_of_ne hp]
      exact hown
  inherited {_ _ _} hfound := by
    have hself : w.heap.InheritsFrom o o := ⟨[], List.not_mem_nil, rfl⟩
    exact Heap.lookup?_define_of_free hfree (fun _ => hself) _ hfound
  heirs {_} hp {_ _ _} hfound := Heap.lookup?_define_of_free hfree hp _ hfound
  failed h := by cases h

end World.SetsOwn

/-- Writing a property that has no setter comes to an end and touches nothing else. -/
theorem Reentry.exists_set (r : Reentry) {w : World} {o : ObjectId} {key : String}
    (hsetter : ∀ getter f, w.heap.lookup? o key ≠ some (.accessor getter (some f)))
    (value : ScriptValue) :
    ∃ outcome w', r.set o key value w = some (outcome, w') ∧ w.SetsOwn o key outcome w' := by
  rcases w.heap.lookup?_cases o key with hfree | ⟨getter, hfound⟩ | ⟨getter, f, hfound⟩
  · exact ⟨_, _, set_of_free hfree value, .of_free hfree value⟩
  · exact ⟨_, _, Catalog.set_of_no_setter hfound r value, .of_readOnly ..⟩
  · exact absurd hfound (hsetter getter f)

/-! ## Sequences of operations -/

namespace Catalog

variable (catalog : Catalog)

/-- Operations that came to an end one after the other, each with an allowance of its own. -/
inductive Performs : World → List Operation → World → Prop
  | nil {w : World} : Performs w [] w
  | cons {w w₁ w' : World} {n : Nat} {op : Operation} {ops : List Operation}
      {outcome : Except Error Unit} (run : op.run (catalog.reentry n) w = some (outcome, w₁))
      (rest : Performs w₁ ops w') : Performs w (op :: ops) w'

/-- What operations write one after the other. -/
inductive Writes : World → List Operation → List Writing → World → Prop
  | nil {w : World} : Writes w [] [] w
  | cons {w w₁ w' : World} {n : Nat} {op : Operation} {ops : List Operation}
      {ws ws' : List Writing} {outcome : Except Error Unit}
      (does : op.Does (catalog.callWrites n) w ws outcome w₁) (rest : Writes w₁ ops ws' w') :
      Writes w (op :: ops) (ws ++ ws') w'

variable {catalog} {w w' : World} {ops : List Operation} {ws : List Writing}

/-- Operations that came to an end wrote something, one after the other. -/
theorem Performs.exists_writes (hops : catalog.Performs w ops w') :
    ∃ ws, catalog.Writes w ops ws w' := by
  induction hops with
  | nil => exact ⟨[], .nil⟩
  | cons run _ ih =>
    obtain ⟨ws, hdoes⟩ := (Operation.does_iff _ (catalog.tells_callWrites _)).1 run
    obtain ⟨ws', hwrites⟩ := ih
    exact ⟨ws ++ ws', .cons hdoes hwrites⟩

/-- What operations write is what happens to the heap. -/
theorem Writes.records (hwrites : catalog.Writes w ops ws w') : w.heap.Records ws w'.heap := by
  induction hwrites with
  | nil => exact .nothing
  | cons does _ ih => exact (does.records (catalog.sound_callWrites _)).trans ih

end Catalog

/-! ## Reading all properties -/

/-- Properties read in turn: the reading ends with the first that fails. -/
inductive Reentry.Reads (r : Reentry) (o : ObjectId) :
    List String → World → Except Error (List (String × ScriptValue)) → World → Prop
  | nil {w : World} : Reads r o [] w (.ok []) w
  | failed {w w' : World} {key : String} {keys : List String} {e : Error}
      (read : r.get o key w = some (.error e, w')) : Reads r o (key :: keys) w (.error e) w'
  | cons {w w₁ w' : World} {key : String} {keys : List String} {value : ScriptValue}
      {outcome : Except Error (List (String × ScriptValue))}
      (read : r.get o key w = some (.ok value, w₁)) (rest : Reads r o keys w₁ outcome w') :
      Reads r o (key :: keys) w (outcome.map ((key, value) :: ·)) w'

namespace Reentry

variable {r : Reentry} {o : ObjectId} {w w' : World}

/-- What is read has the names that were to be read. -/
theorem Reads.keys {keys : List String} {outcome : Except Error (List (String × ScriptValue))}
    (hreads : r.Reads o keys w outcome w') {es : List (String × ScriptValue)}
    (hok : outcome = .ok es) : Keyed.keys es = keys := by
  induction hreads generalizing es with
  | nil =>
    cases hok
    rfl
  | failed => cases hok
  | cons _ _ ih =>
    obtain ⟨rest, hrest, rfl⟩ := exists_of_map_eq_ok hok
    exact congrArg (_ :: ·) (ih hrest)

/-- Properties are read in turn. -/
theorem reads_iff {keys : List String} {outcome : Except Error (List (String × ScriptValue))} :
    (keys.mapM fun key => do return (key, ← r.get o key) : Run Error _) w = some (outcome, w') ↔
      r.Reads o keys w outcome w' := by
  induction keys generalizing w outcome with
  | nil =>
    constructor
    · intro hrun
      cases hrun
      exact .nil
    · intro hreads
      cases hreads
      rfl
  | cons key keys ih =>
    simp only [List.mapM_cons, bind_assoc, pure_bind]
    constructor
    · intro hrun
      rcases bind_cases hrun with ⟨e, hread, rfl⟩ | ⟨value, w₁, hread, hrest⟩
      · exact .failed hread
      · obtain ⟨rest, hkeys, rfl⟩ := map_eq_some_iff.1 hrest
        exact .cons hread (ih.1 hkeys)
    · intro hreads
      cases hreads with
      | failed read => exact bind_error read _
      | cons read rest => exact (bind_ok read _).trans (map_eq_some_iff.2 ⟨_, ih.2 rest, rfl⟩)

end Reentry

/-! ## What holds after any operations -/

/-- What holds of the properties of objects in the state to which operations led. -/
structure Catalog.KeepsBags (catalog : Catalog) (w : World) (ops : List Operation) (w' : World) :
    Prop where
  /-- The objects hold what the operations wrote, on top of what they held. -/
  updates : ∃ ws, catalog.Writes w ops ws w' ∧ w.heap.Updates ws w'.heap
  /-- Operations come to the ends that are told. -/
  does : ∀ {n : Nat} {op : Operation} {outcome : Except Error Unit} {u : World},
    op.run (catalog.reentry n) w' = some (outcome, u) ↔
      ∃ ws, op.Does (catalog.callWrites n) w' ws outcome u
  /-- Writing a property that has no setter comes to an end and touches nothing else. -/
  set : ∀ (r : Reentry) {o : ObjectId} {key : String} (value : ScriptValue),
    (∀ getter f, w'.heap.lookup? o key ≠ some (.accessor getter (some f))) →
      ∃ outcome u, r.set o key value w' = some (outcome, u) ∧ w'.SetsOwn o key outcome u
  /-- Listing the entries reads the names that are there when it starts in turn. -/
  entries : ∀ {r : Reentry} {o : ObjectId}
    {outcome : Except Error (List (String × ScriptValue))} {u : World},
    r.entries o w' = some (outcome, u) ↔ r.Reads o (w'.heap.ownKeys o) w' outcome u
  /-- The entries have exactly these names, each of them once. -/
  listed : ∀ {r : Reentry} {o : ObjectId} {es : List (String × ScriptValue)} {u : World},
    r.entries o w' = some (.ok es, u) →
      Keyed.keys es = w'.heap.ownKeys o ∧ (Keyed.keys es).Nodup

/-- Whatever state a session comes to, names that an object had in an earlier state come first, in
the order that they had then; and whatever operations are done to the objects from there, each lists
its names in the order in which they were first defined, none twice, with what was defined last
under each. Writing a property without running a setter touches one name of one object at most and
replaces no accessor, and listing entries tells each name once. -/
theorem Session.Visits.property_bags_kept {catalog : Catalog} {settings : Settings}
    {u w w' : World} {ops : List Operation} (hu : Visits catalog (World.start settings) u)
    (hw : Visits catalog u w) (hops : catalog.Performs w ops w') :
    (∀ o, u.heap.ownKeys o <+: w.heap.ownKeys o) ∧ catalog.KeepsBags w ops w' := by
  have htidy : w.heap.Tidy := (hu.trans hw).tidy
  obtain ⟨before, hbefore⟩ := hw.records
  obtain ⟨ws, hwrites⟩ := hops.exists_writes
  have hupdates : w.heap.Updates ws w'.heap := hwrites.records.updates htidy
  have hentries : ∀ {r : Reentry} {o : ObjectId}
      {outcome : Except Error (List (String × ScriptValue))} {u : World},
      r.entries o w' = some (outcome, u) ↔ r.Reads o (w'.heap.ownKeys o) w' outcome u := by
    intro r o outcome u
    rw [Reentry.entries, bind_ok (ofHeap_apply _ w')]
    exact Reentry.reads_iff
  refine ⟨(hbefore.updates hu.tidy).ownKeys_first hu.tidy, ?_⟩
  refine ⟨⟨ws, hwrites, hupdates⟩, Operation.does_iff _ (catalog.tells_callWrites _),
    fun r _ _ value hsetter => r.exists_set hsetter value, hentries, fun {r o es u} hlist => ?_⟩
  have hkeys : Keyed.keys es = w'.heap.ownKeys o := (hentries.1 hlist).keys rfl
  rw [hkeys]
  exact ⟨rfl, hupdates.once o⟩

/-- The setter of a lid, which locks the object whose lid is set. -/
def lock : ScriptValue → List ScriptValue → ScriptCode
  | .object o, args => .define o "locked" (.data (args.headD .undefined)) (.done (.ok .undefined))
  | _, _ => .done (.ok .undefined)

/-- The state with a chest whose prototype is the global object. -/
def chest : World where
  heap := {
    objects := #[.plain, ⟨"Chest", [⟨0⟩], none, []⟩]
    functions := #[⟨"lock", .hosted lock⟩] }

/-- What is done to the chest and its prototype. -/
def packing : List Operation :=
  [.define ⟨0⟩ "lid" (.accessor none (some ⟨0⟩)), .insert ⟨1⟩ "label" (.string "tools"),
    .set ⟨1⟩ "lid" (.bool true), .define ⟨0⟩ "size" (.accessor none none),
    .set ⟨1⟩ "size" (.bool false), .set ⟨1⟩ "label" (.string "books")]

/-- The state after that. -/
def packed : World where
  heap := { chest.heap with
    objects := #[
      ⟨"Object", [], none,
        [("lid", .accessor none (some ⟨0⟩)), ("size", .accessor none none)]⟩,
      ⟨"Chest", [⟨0⟩], none,
        [("label", .data (.string "books")), ("locked", .data (.bool true))]⟩] }
  journal := [{
    call := .function "lock" (.object ⟨1⟩) [.bool true]
    heap := { chest.heap with
      objects := #[⟨"Object", [], none, [("lid", .accessor none (some ⟨0⟩))]⟩,
        ⟨"Chest", [⟨0⟩], none, [("label", .data (.string "tools"))]⟩] } }]

/-- Setting the lid runs the setter of the prototype, which defines another name; the size is not
written, and the label stays in its place. -/
theorem chest_packed : Session.Visits Catalog.empty (World.start {}) chest ∧
    Catalog.empty.Performs chest packing packed ∧ Catalog.empty.KeepsBags chest packing packed := by
  have hmade : Session.Visits Catalog.empty (World.start {}) chest :=
    .move (.move .start (.heap (.newFunction fun _ h => by cases h))) (.heap (.newObject rfl rfl))
  have hpacked : Catalog.empty.Performs chest packing packed := by
    refine .cons (n := 1) rfl ?_
    refine .cons (n := 1) rfl ?_
    refine .cons (n := 1) rfl ?_
    refine .cons (n := 1) rfl ?_
    refine .cons (n := 1) rfl ?_
    exact .cons (n := 1) rfl .nil
  exact ⟨hmade, hpacked, (Session.Visits.property_bags_kept .start hmade hpacked).2⟩

end ScriptBoundary
